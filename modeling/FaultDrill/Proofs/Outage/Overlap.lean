import FaultDrill.Proofs.Outage
import FaultDrill.Proofs.Store.Failure

/-! # Outages that overlap

The deletions of pods share one flag of the store: each raises it as it begins and lowers it as it
ends, whoever else is still at it. So the store is down if and only if the last of these edges was a
beginning. Deletions that keep apart from each other take the store down for as long as they last;
of two that overlap, the one that lasts longer does not.
-/

namespace FaultDrill

/-- The store was asked and answered that the service is unavailable. -/
def Store.Unavailable (came : Except Crash (Except StorageError Response)) : Prop :=
  ∃ reason, came = .ok (.error (.service 503 ("service unavailable: " ++ reason)))

/-- Nothing is answered so while the store is up. -/
theorem Store.disrupted_of_unavailable {s : Store} {op : Operation}
    (h : Unavailable (s.apply op).1) : s.disrupted ≠ none := by
  obtain ⟨reason, hcame⟩ := h
  have happ := apply_applied op s
  generalize (s.apply op).1 = came at hcame happ
  generalize (s.apply op).2 = s' at happ
  cases happ with
  | unavailable _ hd => rw [hd]; exact nofun
  | served _ _ _ hserved => cases hserved <;> cases hcame
  | exhausted | rejected | crashed => cases hcame

/-! ## One fault -/

namespace Injector

variable {i : Injector} {s s' : Store}

theorem begin_deletes {transition : Nat} (hdeletes : i.deletesPod = true)
    (h : i.begin s = (.ok transition, s')) : ∃ component,
      i = .podFailure component transition ∧ s' = s.disrupt (component ++ " terminating") := by
  cases i with
  | podFailure component =>
    unfold begin at h
    dsimp only at h
    split at h
    case isTrue => cases h
    case isFalse => cases h; exact ⟨component, rfl, rfl⟩
  | fixed => cases hdeletes

end Injector

namespace FaultRun

/-- What a step of a fault does to the flag of the store. -/
inductive Flip (f : FaultRun) (s : Store) : FaultRun → Store → Prop
  | still {f' : FaultRun} {s' : Store} : f'.isDisrupting = f.isDisrupting →
      s'.disrupted = s.disrupted → Flip f s f' s'
  | begins {f' : FaultRun} {component : String} {transition : Nat} :
      f.injector = .podFailure component transition → f.isDisrupting = false →
      f'.isDisrupting = true → Flip f s f' (s.disrupt (component ++ " terminating"))
  | ends {f' : FaultRun} {s' : Store} : f.isDisrupting = true → f'.isDisrupting = false →
      s'.disrupted = none → Flip f s f' s'

variable {f f' : FaultRun} {timer : Nat} {now : Duration} {scene scene' : Scene}
  {event : Option Event} {result : Except FaultError FaultRecord}

theorem isDisrupting_injected : (f.injected result).1.isDisrupting = false := by
  unfold injected
  split <;> rfl

theorem flip_step (h : f.step? timer now scene = some (f', scene', event)) :
    f'.injector = f.injector ∧ f.Flip scene.store f' scene'.store := by
  have hturn := turn_of_step? h
  refine ⟨hturn.injector_eq, ?_⟩
  cases hturn with
  | begins hs hbegin =>
    cases hdeletes : f.injector.deletesPod with
    | true =>
      obtain ⟨component, hi, rfl⟩ := Injector.begin_deletes hdeletes hbegin
      exact .begins hi (by simp [isDisrupting, hs]) hdeletes
    | false =>
      exact .still (hdeletes.trans (by simp [isDisrupting, hs]))
        (by rw [Injector.begin_calm hdeletes hbegin])
  | fails hs hbegin =>
    exact .still (isDisrupting_injected.trans (by simp [isDisrupting, hs]))
      (by rw [Injector.begin_fails hbegin])
  | ends hs _ hfinish =>
    cases hdeletes : f.injector.deletesPod with
    | true =>
      exact .ends (by simp [isDisrupting, hs, hdeletes]) isDisrupting_injected
        (Injector.finish_deletes hdeletes hfinish)
    | false =>
      exact .still (isDisrupting_injected.trans (by simp [isDisrupting, hs, hdeletes]))
        (by rw [Injector.finish_calm hdeletes hfinish])
  | opens hs | refused hs | starts hs | tells hs | closes hs | late hs | returns hs =>
    exact .still (by simp [isDisrupting, hs]) rfl

end FaultRun

/-! ## The edges of a run -/

/-- The handler leaves the flag of the store as it finds it. -/
def Handler.SparesFlag (h : Handler) : Prop :=
  ∀ task store, (h.act task store).2.disrupted = store.disrupted

theorem Handler.sparesFlag_storage : storage.SparesFlag := storage_disrupted

/-- A deletion of a pod, by the number of its fault, begins or ends. -/
inductive Edge
  | began (i : Nat)
  | ended (i : Nat)
  deriving DecidableEq, Repr

namespace Edge

def fault : Edge → Nat
  | began i | ended i => i

/-- The last edge of the fault. -/
def latest (i : Nat) (es : List Edge) : Option Edge := (es.filter (·.fault = i)).getLast?

/-- Every deletion begins before it ends, and ends before it begins again. -/
inductive Alternating : List Edge → Prop
  | nil : Alternating []
  | began {es : List Edge} {i : Nat} : Alternating es → latest i es ≠ some (.began i) →
      Alternating (es ++ [.began i])
  | ended {es : List Edge} {i : Nat} : Alternating es → latest i es = some (.began i) →
      Alternating (es ++ [.ended i])

/-- No deletion begins before all the others have ended. -/
def Apart (es : List Edge) : Prop :=
  ∀ earlier i later, es = earlier ++ .began i :: later → ∀ j, latest j earlier ≠ some (.began j)

variable {es : List Edge} {e : Edge} {i j : Nat}

theorem latest_snoc : latest i (es ++ [e]) = if e.fault = i then some e else latest i es := by
  rw [latest, List.filter_append]
  split
  case isTrue h => simp [h]
  case isFalse h => simp [h, latest]

theorem Apart.of_snoc (h : Apart (es ++ [e])) : Apart es := by
  intro earlier i later hes
  exact h earlier i (later ++ [e]) (by rw [hes, List.append_assoc, List.cons_append])

/-- Among deletions that keep apart, one that goes on is the last thing that has happened. -/
theorem Alternating.last_of_apart (h : Alternating es) (hapart : Apart es)
    (hi : latest i es = some (.began i)) : es.getLast? = some (.began i) := by
  induction h generalizing i with
  | nil => cases hi
  | @began es j _ _ ih =>
    rw [latest_snoc] at hi
    split at hi
    case isTrue => rw [List.getLast?_concat, hi]
    case isFalse => exact absurd hi (hapart es j [] rfl i)
  | @ended es j _ hj ih =>
    rw [latest_snoc] at hi
    split at hi
    case isTrue => cases hi
    case isFalse hne =>
      -- both would be going on before the one ended
      have hlast := (ih hapart.of_snoc hi).symm.trans (ih hapart.of_snoc hj)
      cases hlast
      exact absurd rfl hne

end Edge

namespace World

/-- Drivers, and whoever acts from outside, leave the flag of the store to the faults. -/
def Move.SparesFlag : Move → Prop
  | .control (.disrupt _) | .control .endDisruption => False
  | .control (.launch plan _) => plan.handler.SparesFlag
  | _ => True

def injector? (w : World) (i : Nat) : Option Injector := w.faults[i]?.map FaultRun.injector

/-- The fault deletes a pod and has begun to, and has not ended. -/
def inTransition (w : World) (i : Nat) : Bool := w.faults[i]?.any FaultRun.isDisrupting

/-- What became of a deletion by the move that led to the second world. -/
def edge? (w : World) (m : Move) (w' : World) : Option Edge :=
  match m with
  | .step (.fault i) =>
    match w.inTransition i, w'.inTransition i with
    | false, true => some (.began i)
    | true, false => some (.ended i)
    | _, _ => none
  | _ => none

/-- The beginnings and ends of deletions in a run, in their order. -/
def edges (w : World) : List Move → List Edge
  | [] => []
  | m :: ms =>
    match w.move? m with
    | some w' => (w.edge? m w').toList ++ w'.edges ms
    | none => []

variable {w w' w₀ : World} {m : Move} {ms : List Move} {es : List Edge} {i j : Nat}
  {f f' : FaultRun}

/-- What a move does to the flag, and to the deletions. -/
inductive Flip (w : World) (m : Move) (w' : World) : Prop
  | still : (∀ j, w'.inTransition j = w.inTransition j) →
      w'.store.disrupted = w.store.disrupted → Flip w m w'
  | begins {i : Nat} {component : String} {transition : Nat} : m = .step (.fault i) →
      w.injector? i = some (.podFailure component transition) → w.inTransition i = false →
      w'.inTransition i = true → (∀ j, j ≠ i → w'.inTransition j = w.inTransition j) →
      w'.store.disrupted = some (component ++ " terminating") → Flip w m w'
  | ends {i : Nat} : m = .step (.fault i) → w.inTransition i = true →
      w'.inTransition i = false → (∀ j, j ≠ i → w'.inTransition j = w.inTransition j) →
      w'.store.disrupted = none → Flip w m w'

/-- Whatever moves, the faults stay the ones they are, and no driver touches the flag. -/
structure Extends (w w' : World) : Prop where
  injectors : ∀ i injector, w.injector? i = some injector → w'.injector? i = some injector
  drivers : (∀ d ∈ w.drivers, d.plan.handler.SparesFlag) →
    ∀ d ∈ w'.drivers, d.plan.handler.SparesFlag

theorem Flip.of_same (hf : w'.faults = w.faults) (hs : w'.store.disrupted = w.store.disrupted) :
    w.Flip m w' :=
  .still (fun j => by simp [inTransition, hf]) hs

theorem Extends.of_same (hf : w'.faults = w.faults) (hd : w'.drivers = w.drivers) :
    w.Extends w' where
  injectors i injector hi := by rwa [injector?, hf]
  drivers hspares := hd ▸ hspares

/-- A driver goes on with its plan. -/
theorem Extends.of_driver {d d' : Driver} (hf : w'.faults = w.faults)
    (hdrivers : w'.drivers = w.drivers.set i d') (hd : w.drivers[i]? = some d)
    (hplan : d'.plan = d.plan) : w.Extends w' where
  injectors i injector hi := by rwa [injector?, hf]
  drivers hspares e he := by
    rw [hdrivers] at he
    rcases List.mem_or_eq_of_mem_set he with he | rfl
    · exact hspares e he
    · rw [hplan]
      exact hspares d (List.mem_of_getElem? hd)

theorem flip_fault {scene : FaultRun.Scene} {event : Option Event} (hf : w.faults[i]? = some f)
    (hstep : f.step? w.clock.timer w.clock.wall ⟨w.window, w.store⟩ = some (f', scene, event))
    (hw' : w' = { w with
      window := scene.window, store := scene.store, faults := w.faults.set i f' }.emit event) :
    w.Extends w' ∧ w.Flip (.step (.fault i)) w' := by
  have hlt : i < w.faults.length := (List.getElem?_eq_some_iff.1 hf).1
  have hold : w.inTransition i = f.isDisrupting := by rw [inTransition, hf]; rfl
  have hnew : w'.inTransition i = f'.isDisrupting := by
    rw [hw', inTransition]
    simp [emit, List.getElem?_set_self hlt]
  have hothers (j : Nat) (hj : j ≠ i) : w'.inTransition j = w.inTransition j := by
    rw [hw', inTransition]
    simp [emit, List.getElem?_set_ne hj.symm, inTransition]
  have hstore : w'.store = scene.store := by rw [hw']; rfl
  obtain ⟨hinjector, hflip⟩ := FaultRun.flip_step hstep
  refine ⟨⟨fun j injector hj => ?_, fun hspares => hw' ▸ hspares⟩, ?_⟩
  · rw [hw', injector?]
    by_cases hji : j = i
    · subst hji
      rw [injector?, hf] at hj
      simpa [emit, List.getElem?_set_self hlt, hinjector] using hj
    · simpa [emit, List.getElem?_set_ne (Ne.symm hji), injector?] using hj
  · generalize hs' : scene.store = s' at hflip
    cases hflip with
    | still hsame hd =>
      refine .still (fun j => ?_) (by rw [hstore, hs', hd])
      by_cases hji : j = i
      · rw [hji, hnew, hold, hsame]
      · exact hothers j hji
    | begins hi hcalm hgoes =>
      have hinjector : w.injector? i = some f.injector := by rw [injector?, hf, Option.map_some]
      exact .begins rfl (hi ▸ hinjector) (hold.trans hcalm) (hnew.trans hgoes) hothers
        (by rw [hstore, hs']; rfl)
    | ends hgoes hcalm hd =>
      exact .ends rfl (hold.trans hgoes) (hnew.trans hcalm) hothers (by rw [hstore, hs', hd])

theorem flip_step (hspares : ∀ d ∈ w.drivers, d.plan.handler.SparesFlag) {process : Process}
    (hm : w.step? process = some w') : w.Extends w' ∧ w.Flip (.step process) w' := by
  cases process with
  | driver i =>
    simp only [step?, stepDriver?, Option.bind_eq_bind, Option.bind_eq_some_iff] at hm
    obtain ⟨d, hd, ⟨next, emission⟩, hstep, hm⟩ := hm
    cases hm
    exact ⟨.of_driver rfl rfl hd (Driver.plan_step hstep), .of_same rfl rfl⟩
  | client i j =>
    simp only [step?, stepClient?, Option.bind_eq_bind, Option.bind_eq_some_iff] at hm
    obtain ⟨d, hd, p, -, p', -, hm⟩ := hm
    cases hm
    exact ⟨.of_driver rfl rfl hd rfl, .of_same rfl rfl⟩
  | worker i j =>
    simp only [step?, stepWorker?, Option.bind_eq_bind, Option.bind_eq_some_iff] at hm
    obtain ⟨d, hd, p, -, ⟨p', store⟩, hwork, hm⟩ := hm
    cases hm
    refine ⟨.of_driver rfl rfl hd rfl, .of_same rfl ?_⟩
    obtain ⟨m, hwork, -⟩ := Pool.work_of_work? hwork
    cases hwork with
    | begin | goOn => rfl
    | act => exact hspares d (List.mem_of_getElem? hd) _ _
  | fault i =>
    simp only [step?, stepFault?, Option.bind_eq_bind, Option.bind_eq_some_iff] at hm
    obtain ⟨f, hf, ⟨f', scene, event⟩, hstep, hm⟩ := hm
    cases hm
    exact flip_fault hf hstep rfl
  | collection =>
    simp only [step?, stepCollection?, Option.bind_eq_bind, Option.bind_eq_some_iff] at hm
    obtain ⟨c, -, ⟨c', mailbox, event⟩, -, hm⟩ := hm
    cases hm
    exact ⟨.of_same rfl rfl, .of_same rfl rfl⟩

/-- A fault that is only started has not begun with anything. -/
theorem inTransition_startFault (w : World) (injector : Injector) (isBracketed : Bool) (j : Nat) :
    (w.control (.startFault injector isBracketed)).inTransition j = w.inTransition j := by
  simp only [control, inTransition, List.getElem?_append]
  split
  case isTrue => rfl
  case isFalse h =>
    rw [List.getElem?_eq_none (Nat.not_lt.1 h)]
    cases j - w.faults.length <;> rfl

theorem flip_control {c : Control} (hok : Move.SparesFlag (.control c)) :
    w.Extends (w.control c) ∧ w.Flip (.control c) (w.control c) := by
  cases c with
  | disrupt | endDisruption => cases hok
  | openWindow =>
    simp only [control, signal]
    split <;> exact ⟨.of_same rfl rfl, .of_same rfl rfl⟩
  | closeWindow =>
    simp only [control, signal]
    split <;> exact ⟨.of_same rfl rfl, .of_same rfl rfl⟩
  | markDegraded component =>
    refine ⟨.of_same rfl rfl, .of_same rfl ?_⟩
    simp only [control, withStore, Store.markDegraded]
    split <;> rfl
  | corrupt target =>
    refine ⟨.of_same rfl rfl, .of_same rfl ?_⟩
    simp only [control, withStore, Store.corrupt]
    split <;> rfl
  | restoreFault injector record =>
    refine ⟨.of_same rfl rfl, .of_same rfl ?_⟩
    cases injector with
    | podFailure =>
      simp only [control, withStore, Injector.restore]
      split <;> rename_i hr <;> obtain ⟨-, rfl⟩ := Prod.mk.inj hr <;> rfl
    | fixed => rfl
  | launch plan source =>
    refine ⟨⟨fun _ _ => id, fun hspares d hd => ?_⟩, .of_same rfl rfl⟩
    rcases List.mem_append.1 hd with hd | hd
    · exact hspares d hd
    · rw [List.mem_singleton.1 hd]
      exact hok
  | startFault injector isBracketed =>
    refine ⟨⟨fun i injector' hi => ?_, id⟩, .still (w.inTransition_startFault _ _) rfl⟩
    obtain ⟨f, hf, hi⟩ := Option.map_eq_some_iff.1 hi
    simp only [injector?, control, List.getElem?_append_left (List.getElem?_eq_some_iff.1 hf).1, hf,
      Option.map_some, hi]
  | restoreComponent | rejectNext | raise | send | closeMailbox | collect | log =>
    exact ⟨.of_same rfl rfl, .of_same rfl rfl⟩

theorem flip_move (hspares : ∀ d ∈ w.drivers, d.plan.handler.SparesFlag) (hok : m.SparesFlag)
    (hm : w.move? m = some w') : w.Extends w' ∧ w.Flip m w' := by
  cases m with
  | step process => exact flip_step hspares hm
  | pass timer wall =>
    cases hm
    exact ⟨.of_same rfl rfl, .of_same rfl rfl⟩
  | control c =>
    cases hm
    exact flip_control hok

/-! ## The flag of the store -/

/-- What the edges of a run say of the world it has led to. -/
structure Marked (es : List Edge) (w : World) : Prop where
  drivers : ∀ d ∈ w.drivers, d.plan.handler.SparesFlag
  alternating : Edge.Alternating es
  inTransition : ∀ i, w.inTransition i = true ↔ Edge.latest i es = some (.began i)
  down : ∀ i, es.getLast? = some (.began i) → ∃ component transition,
    w.injector? i = some (.podFailure component transition) ∧
      w.store.disrupted = some (component ++ " terminating")
  up : (∀ i, es.getLast? ≠ some (.began i)) → w.store.disrupted = none

theorem Fresh.marked (h : w.Fresh) : w.Marked [] where
  drivers := by simp [h.drivers]
  alternating := .nil
  inTransition i := by simp [World.inTransition, h.faults, Edge.latest]
  down _ hlast := nomatch hlast
  up _ := h.disrupted

theorem Marked.move (h : w.Marked es) (hok : m.SparesFlag) (hm : w.move? m = some w') :
    w'.Marked (es ++ (w.edge? m w').toList) := by
  obtain ⟨hextends, hflip⟩ := flip_move h.drivers hok hm
  cases hflip with
  | still hsame hd =>
    have hnone : w.edge? m w' = none := by
      unfold edge?
      split
      · rw [hsame]
        split <;> simp_all
      · rfl
    rw [hnone, Option.toList_none, List.append_nil]
    refine ⟨hextends.drivers h.drivers, h.alternating, fun i => ?_, fun i hlast => ?_,
      fun hup => ?_⟩
    · rw [hsame, h.inTransition]
    · obtain ⟨component, transition, hi, hdown⟩ := h.down i hlast
      exact ⟨component, transition, hextends.injectors _ _ hi, hd.trans hdown⟩
    · exact hd.trans (h.up hup)
  | @begins i component transition hstep hi hcalm hgoes hothers hd =>
    have hedge : w.edge? m w' = some (.began i) := by simp [edge?, hstep, hcalm, hgoes]
    rw [hedge, Option.toList_some]
    refine ⟨hextends.drivers h.drivers, .began h.alternating ?_, fun j => ?_, fun j hlast => ?_,
      fun hup => ?_⟩
    · rw [ne_eq, ← h.inTransition, hcalm]
      exact nofun
    · rw [Edge.latest_snoc]
      by_cases hji : j = i
      · simp [hji, Edge.fault, hgoes]
      · have hij : Edge.fault (.began i) ≠ j := Ne.symm hji
        rw [hothers j hji, h.inTransition, if_neg hij]
    · rw [List.getLast?_concat, Option.some.injEq, Edge.began.injEq] at hlast
      exact ⟨component, transition, hlast ▸ hextends.injectors _ _ hi, hd⟩
    · exact absurd List.getLast?_concat (hup i)
  | @ends i hstep hgoes hcalm hothers hd =>
    have hedge : w.edge? m w' = some (.ended i) := by simp [edge?, hstep, hcalm, hgoes]
    rw [hedge, Option.toList_some]
    refine ⟨hextends.drivers h.drivers, .ended h.alternating ((h.inTransition i).1 hgoes),
      fun j => ?_, fun j hlast => ?_, fun _ => hd⟩
    · rw [Edge.latest_snoc]
      by_cases hji : j = i
      · simp [hji, Edge.fault, hcalm]
      · have hij : Edge.fault (.ended i) ≠ j := Ne.symm hji
        rw [hothers j hji, h.inTransition, if_neg hij]
    · rw [List.getLast?_concat, Option.some.injEq] at hlast
      cases hlast

theorem Marked.moves (h : w.Marked es) (hok : ∀ m ∈ ms, m.SparesFlag)
    (hms : w.moves? ms = some w') : w'.Marked (es ++ w.edges ms) := by
  induction ms generalizing w es with
  | nil =>
    cases hms
    rwa [edges, List.append_nil]
  | cons m ms ih =>
    obtain ⟨w₁, hm, hms⟩ := moves?_cons_eq_some.1 hms
    have hrest := ih (h.move (hok m (List.mem_cons_self ..)) hm)
      (fun m hm => hok m (List.mem_cons_of_mem _ hm)) hms
    rwa [List.append_assoc, show (w.edge? m w₁).toList ++ w₁.edges ms = w.edges (m :: ms) by
      simp only [edges, hm]] at hrest

/-- Whoever began last has the store down. -/
theorem Marked.unavailable_iff (h : w.Marked es) (hc : w.store.HasCount) (op : Operation) :
    Store.Unavailable (w.store.apply op).1 ↔ ∃ i, es.getLast? = some (.began i) := by
  constructor
  · intro hdown
    by_contra hnone
    exact Store.disrupted_of_unavailable hdown (h.up fun i hi => hnone ⟨i, hi⟩)
  · rintro ⟨i, hlast⟩
    obtain ⟨component, -, -, hd⟩ := h.down i hlast
    exact ⟨_, by rw [Store.apply_down hc hd]⟩

/-- Any number of pods are deleted, in any interleaving. A request is answered that the service is
unavailable if and only if some deletion has begun and none has ended since, and then with the name
of the pod whose deletion began last. So nothing is answered so while no pod goes down, and where
the deletions keep apart, everything is while one does. -/
theorem overlap_law (h₀ : w₀.Fresh) (hok : ∀ m ∈ ms, m.SparesFlag)
    (hms : w₀.moves? ms = some w) :
    (∀ op, w.store.HasCount → (Store.Unavailable (w.store.apply op).1 ↔
      ∃ i, (w₀.edges ms).getLast? = some (.began i))) ∧
    (∀ i, (w₀.edges ms).getLast? = some (.began i) → w.inTransition i = true ∧
      ∃ component transition, w.injector? i = some (.podFailure component transition) ∧
        ∀ op, w.store.HasCount → (w.store.apply op).1 =
          .ok (.error (.service 503 ("service unavailable: " ++ (component ++ " terminating"))))) ∧
    (∀ op, (∀ i, w.inTransition i = false) → ¬ Store.Unavailable (w.store.apply op).1) ∧
    (Edge.Apart (w₀.edges ms) → ∀ op, w.store.HasCount →
      (Store.Unavailable (w.store.apply op).1 ↔ ∃ i, w.inTransition i = true)) := by
  have h : w.Marked (w₀.edges ms) := h₀.marked.moves hok hms
  have hlast (i : Nat) (hi : (w₀.edges ms).getLast? = some (.began i)) :
      w.inTransition i = true := by
    obtain ⟨earlier, hes⟩ := List.getLast?_eq_some_iff.1 hi
    rw [h.inTransition, hes, Edge.latest_snoc]
    exact if_pos rfl
  refine ⟨fun op hc => h.unavailable_iff hc op, fun i hi => ⟨hlast i hi, ?_⟩,
    fun op hcalm hdown => ?_, fun hapart op hc => ?_⟩
  · obtain ⟨component, transition, hinjector, hd⟩ := h.down i hi
    exact ⟨component, transition, hinjector, fun op hc => by rw [Store.apply_down hc hd]⟩
  · refine Store.disrupted_of_unavailable hdown (h.up fun i hi => ?_)
    cases (hlast i hi).symm.trans (hcalm i)
  · rw [h.unavailable_iff hc op]
    exact exists_congr fun i => ⟨hlast i, fun hi =>
      h.alternating.last_of_apart hapart ((h.inTransition i).1 hi)⟩

/-- Two pods go down at once, and the one that was first is gone before the other. -/
def overlapMoves : List Move :=
  [.control (.startFault (.podFailure "pod-a" 4) false),
    .control (.startFault (.podFailure "pod-b" 8) false),
    .step (.fault 0), .step (.fault 0), .step (.fault 1), .step (.fault 1),
    .pass 4 .zero, .step (.fault 0)]

theorem overlap_law_trial : ∃ w, moves? {} (overlapMoves.take 4) = some w ∧
    edges {} (overlapMoves.take 4) = [.began 0] ∧ Edge.Apart (edges {} (overlapMoves.take 4)) ∧
    w.store.HasCount ∧ w.inTransition 0 = true ∧
    Store.Unavailable (w.store.apply (.delete ⟨"bucket", "key"⟩)).1 := by
  have hok : ∀ m ∈ overlapMoves.take 4, m.SparesFlag := by
    simp [overlapMoves, Move.SparesFlag]
  have hsome : (moves? {} (overlapMoves.take 4)).isSome = true := rfl
  have hedges : edges {} (overlapMoves.take 4) = [.began 0] := rfl
  have hapart : Edge.Apart (edges {} (overlapMoves.take 4)) := by
    intro earlier i later hes j
    rw [hedges] at hes
    cases earlier with
    | nil => exact nofun
    | cons => simp at hes
  have hc : ((moves? {} (overlapMoves.take 4)).get hsome).store.HasCount :=
    show 0 + 1 < UInt64.size by decide
  have hgoes : ((moves? {} (overlapMoves.take 4)).get hsome).inTransition 0 = true := rfl
  have hlaw := overlap_law ⟨rfl, rfl, rfl, rfl⟩ hok (Option.some_get hsome).symm
  exact ⟨_, (Option.some_get hsome).symm, hedges, hapart, hc, hgoes,
    (hlaw.2.2.2 hapart _ hc).2 ⟨0, hgoes⟩⟩

/-- A pod goes down, and the store serves a request. -/
theorem overlap_uncovers : (∀ m ∈ overlapMoves, m.SparesFlag) ∧
    ∃ w response, moves? {} overlapMoves = some w ∧ w.inTransition 1 = true ∧
      (w.store.apply (.delete ⟨"bucket", "key"⟩)).1 = .ok (.ok response) ∧
      response.success = true := by
  refine ⟨by simp [overlapMoves, Move.SparesFlag], _, _, rfl, rfl, rfl, rfl⟩

end World

end FaultDrill
