import FaultDrill.Proofs.Store.Step
import FaultDrill.Proofs.World.Step

/-! # Outages

While a pod goes down the store answers every request that it is unavailable. If nothing but
a fault inside its window takes the store down, a task that got this answer ran while the window
was open, so that every policy excuses it.
-/

namespace FaultDrill

/-! ## The answer of a store that is down -/

/-- The request was answered that the service is unavailable. -/
def Outcome.IsUnavailable (o : Outcome) : Prop :=
  ∃ reason, o = .failure .transport
    (StorageError.service 503 ("service unavailable: " ++ reason)).message

theorem Outcome.ofAnswer_transport {op : Operation} {answer : Except StorageError Response}
    {detail : String} (h : ofAnswer op answer = .failure .transport detail) :
    ∃ e, answer = .error e ∧ detail = e.message := by
  cases answer with
  | error e =>
    cases h
    exact ⟨e, rfl, rfl⟩
  | ok response =>
    unfold ofAnswer ofResponse at h
    dsimp only at h
    split at h
    · split at h
      · split at h <;> cases h
      · cases h
    · cases h

theorem StorageError.head_service (status : UInt16) (text : String) :
    (service status text).message.toList.head? = some 's' := by
  have hs : "service error ".toList = 's' :: "ervice error ".toList := by decide
  have hhead (a b c : String) : ("service error " ++ a ++ b ++ c).toList.head? = some 's' := by
    simp [String.toList_append, hs]
  exact hhead _ _ _

theorem StorageError.head_invalidRequest (text : String) :
    (invalidRequest text).message.toList.head? = some 'i' := by
  have hi : "invalid request: ".toList = 'i' :: "nvalid request: ".toList := by decide
  have hhead (a : String) : ("invalid request: " ++ a).toList.head? = some 'i' := by
    simp [String.toList_append, hi]
  exact hhead _

theorem StorageError.service_ne_invalidRequest {status : UInt16} {text text' : String} :
    (service status text).message ≠ (invalidRequest text').message := by
  intro h
  have hhead := head_service status text
  rw [h, head_invalidRequest] at hhead
  cases hhead

/-- The store is down if it answers that it is unavailable. -/
theorem Handler.disrupted_of_isUnavailable {task : Task} {store : Store}
    (h : (Handler.storage.act task store).1.IsUnavailable) : store.disrupted.isSome = true := by
  obtain ⟨reason, h⟩ := h
  obtain ⟨came, store', hc, happ⟩ : ∃ came store', store.apply task.operation = (came, store') ∧
      Store.Applied task.operation store came store' := ⟨_, _, rfl, Store.apply_applied _ _⟩
  simp only [storage, hc] at h
  cases happ with
  | exhausted | crashed => cases h
  | unavailable _ hd => rw [hd]; rfl
  | rejected => cases h
  | served _ _ _ hserved =>
    obtain ⟨e, he, hdetail⟩ := Outcome.ofAnswer_transport h
    cases hserved with
    | invalid text =>
      cases he
      exact (StorageError.service_ne_invalidRequest hdetail).elim
    | _ => cases he

theorem Store.apply_disrupted (op : Operation) (s : Store) :
    (s.apply op).2.disrupted = s.disrupted := by
  have happ := apply_applied op s
  generalize (s.apply op).1 = came at happ
  generalize (s.apply op).2 = s' at happ
  cases happ with
  | exhausted | unavailable | rejected | crashed => rfl
  | served _ _ _ hserved => cases hserved <;> rfl

theorem Handler.storage_disrupted (task : Task) (store : Store) :
    (Handler.storage.act task store).2.disrupted = store.disrupted := by
  have hd := store.apply_disrupted task.operation
  unfold storage
  dsimp only
  split
  all_goals
    rename_i h
    rwa [h] at hd

/-! ## A fault inside its window -/

namespace Injector

def deletesPod : Injector → Bool
  | podFailure _ _ => true
  | fixed _ _ _ _ => false

variable {i : Injector} {s s' : Store}

theorem begin_fails {e : FaultError} (h : i.begin s = (.error e, s')) : s' = s := by
  cases i with
  | podFailure component transition =>
    unfold begin at h
    dsimp only at h
    split at h
    case isTrue => cases h; rfl
    case isFalse => cases h
  | fixed => cases h

theorem begin_calm {begun : Except FaultError Nat} (hcalm : i.deletesPod = false)
    (h : i.begin s = (begun, s')) : s' = s := by
  cases i with
  | podFailure => cases hcalm
  | fixed => cases h; rfl

variable {injected : Except FaultError FaultRecord}

/-- An injection that deletes a pod ends the disruption as it ends. -/
theorem finish_deletes (hdeletes : i.deletesPod = true) (h : i.finish s = (injected, s')) :
    s'.disrupted = none := by
  cases i with
  | podFailure component transition =>
    cases h
    simp only [Store.markDegraded]
    split <;> rfl
  | fixed => cases hdeletes

theorem finish_calm (hcalm : i.deletesPod = false) (h : i.finish s = (injected, s')) : s' = s := by
  cases i with
  | podFailure => cases hcalm
  | fixed => cases h; rfl

end Injector

namespace FaultRun

/-- The fault has opened the window and not closed it. -/
def isInside (f : FaultRun) : Bool :=
  match f.stage with
  | .opened | .injecting | .transitioning _ | .closing _ => true
  | .starting | .closed _ | .done _ => false

/-- The fault keeps the store down. -/
def isDisrupting (f : FaultRun) : Bool :=
  match f.stage with
  | .transitioning _ => f.injector.deletesPod
  | _ => false

/-- What a bracketed fault does in one step. -/
inductive Bracket (f : FaultRun) (now : Duration) (scene : Scene) : FaultRun → Scene → Prop
  | enter {f' : FaultRun} {window : Window} : f.isInside = false → f'.isInside = true →
      scene.window.signalOpen now = .ok window →
      f'.isDisrupting = false → Bracket f now scene f' { scene with window }
  | disrupt {f' : FaultRun} {store : Store} : f.isInside = true → f'.isInside = true →
      f'.isDisrupting = true → Bracket f now scene f' { scene with store }
  | calm {f' : FaultRun} {store : Store} : f.isInside = true → f'.isInside = true →
      f'.isDisrupting = false → store.disrupted = none ∨
        f.isDisrupting = false ∧ store.disrupted = scene.store.disrupted →
      Bracket f now scene f' { scene with store }
  | leave {f' : FaultRun} {window : Window} : f.isInside = true → f.isDisrupting = false →
      f'.isInside = false → window = scene.window ∨ scene.window.signalClose now = .ok window →
      Bracket f now scene f' { scene with window }
  | idle {f' : FaultRun} : f.isInside = false → f'.isInside = false → Bracket f now scene f' scene

variable {f f' : FaultRun} {timer : Nat} {now : Duration} {scene scene' : Scene}
  {event : Option Event}

theorem bracket_step (hb : f.isBracketed = true)
    (h : f.step? timer now scene = some (f', scene', event)) :
    f'.isBracketed = true ∧ f.Bracket now scene f' scene' := by
  have hturn := turn_of_step? h
  refine ⟨hturn.isBracketed_eq.trans hb, ?_⟩
  cases hturn with
  | opens hs _ hw => exact .enter (by simp [isInside, hs]) rfl hw rfl
  | refused hs | returns hs => exact .idle (by simp [isInside, hs]) rfl
  | starts _ hunbracketed => cases hb.symm.trans hunbracketed
  | tells hs =>
    exact .calm (by simp [isInside, hs]) rfl rfl (.inr ⟨by simp [isDisrupting, hs], rfl⟩)
  | @begins transition store hs hbegin =>
    have hi : f.isInside = true := by simp [isInside, hs]
    cases hd : f.injector.deletesPod with
    | true => exact .disrupt hi rfl hd
    | false =>
      have hstore := Injector.begin_calm hd hbegin
      exact .calm hi rfl hd (.inr ⟨by simp [isDisrupting, hs], by rw [hstore]⟩)
  | fails hs hbegin =>
    rw [injected_of_bracketed hb]
    exact .calm (by simp [isInside, hs]) rfl rfl
      (.inr ⟨by simp [isDisrupting, hs], by rw [Injector.begin_fails hbegin]⟩)
  | ends hs _ hfinish =>
    rw [injected_of_bracketed hb]
    refine .calm (by simp [isInside, hs]) rfl rfl ?_
    cases hd : f.injector.deletesPod with
    | true => exact .inl (Injector.finish_deletes hd hfinish)
    | false =>
      exact .inr ⟨by simp [isDisrupting, hs, hd], by rw [Injector.finish_calm hd hfinish]⟩
  | closes hs hw =>
    exact .leave (by simp [isInside, hs]) (by simp [isDisrupting, hs]) rfl (.inr hw)
  | late hs => exact .leave (by simp [isInside, hs]) (by simp [isDisrupting, hs]) rfl (.inl rfl)

end FaultRun

namespace World

/-- What any sequence of moves of a sort leads to. -/
inductive ReachableBy (ok : Move → Prop) (start : World) : World → Prop
  | refl : ReachableBy ok start start
  | move {w w' : World} (m : Move) : ReachableBy ok start w → ok m → w.move? m = some w' →
    ReachableBy ok start w'

/-- Drivers perform their operations on the store, and from outside nobody disrupts the store,
closes the window or starts a fault without a window around it. -/
def Move.IsBracketed : Move → Prop
  | .control (.disrupt _) | .control .closeWindow => False
  | .control (.startFault _ isBracketed) => isBracketed = true
  | .control (.launch plan _) => plan.handler = .storage
  | _ => True

/-- At most one fault is inside the window, and the store is down only while that fault keeps it
down. -/
inductive Outage (w : World) : Prop
  | quiet : (∀ f ∈ w.faults, f.isInside = false) → w.store.disrupted = none → Outage w
  | inside (i : Nat) (f : FaultRun) : w.faults[i]? = some f → f.isInside = true →
      (∀ j g, w.faults[j]? = some g → g.isInside = true → j = i) → w.window.phase = .open →
      (f.isDisrupting = false → w.store.disrupted = none) → Outage w

variable {ok : Move → Prop} {w w' w₀ : World} {m : Move} {f f' : FaultRun} {i : Nat}
  {scene : FaultRun.Scene}

theorem ReachableBy.reachable (h : ReachableBy ok w₀ w) : Reachable w₀ w := by
  induction h with
  | refl => exact .refl
  | move m _ _ hm ih => exact ih.move m hm

/-- Whoever leaves the faults and the window alone and does not disrupt the store. -/
theorem Outage.of_same (h : w.Outage) (hf : w'.faults = w.faults)
    (hs : w'.store.disrupted = none ∨ w'.store.disrupted = w.store.disrupted)
    (hp : w.window.phase = .open → w'.window.phase = .open) : w'.Outage := by
  have hnone (hd : w.store.disrupted = none) : w'.store.disrupted = none := by
    rcases hs with hs | hs
    · exact hs
    · rw [hs, hd]
  cases h with
  | quiet hout hd => exact .quiet (hf ▸ hout) (hnone hd)
  | inside i f hfault hi halone hopen hd =>
    exact .inside i f (hf ▸ hfault) hi (hf ▸ halone) (hp hopen) fun hcalm => hnone (hd hcalm)

/-- A fault that is not inside the window may enter it while nobody is. -/
theorem Outage.fault_outside (h : w.Outage) (hf : w.faults[i]? = some f)
    (hout : f.isInside = false) (hstep : f.Bracket w.clock.wall ⟨w.window, w.store⟩ f' scene) :
    Outage { w with
      window := scene.window, store := scene.store, faults := w.faults.set i f' } := by
  have hlt : i < w.faults.length := (List.getElem?_eq_some_iff.1 hf).1
  cases hstep with
  | enter _ hi' hwindow =>
    obtain ⟨hpre, rfl⟩ := Timeline.signalOpen_eq_ok hwindow
    cases h with
    | quiet hquiet hd =>
      refine .inside i f' (List.getElem?_set_self hlt) hi' ?_ rfl fun _ => hd
      intro j g hg hgi
      rcases getElem?_set_cases hg with ⟨rfl, -⟩ | hg
      · rfl
      · rw [hquiet g (List.mem_of_getElem? hg)] at hgi
        cases hgi
    | inside _ _ _ _ _ hopen => cases hopen.symm.trans hpre
  | idle _ hout' =>
    cases h with
    | quiet hquiet hd =>
      refine .quiet (fun g hg => ?_) hd
      rcases List.mem_or_eq_of_mem_set hg with hg | rfl
      · exact hquiet g hg
      · exact hout'
    | inside k fk hk hi halone hopen hd =>
      have hki : i ≠ k := by
        rintro rfl
        rw [hk, Option.some.injEq] at hf
        rw [hf, hout] at hi
        cases hi
      refine .inside k fk ((List.getElem?_set_ne hki).trans hk) hi ?_ hopen hd
      intro j g hg hgi
      rcases getElem?_set_cases hg with ⟨-, rfl⟩ | hg
      · rw [hout'] at hgi
        cases hgi
      · exact halone j g hg hgi
  | disrupt hi | calm hi | leave hi => cases hout.symm.trans hi

/-- A fault inside the window is the only one there. -/
theorem Outage.fault_inside (h : w.Outage) (hf : w.faults[i]? = some f)
    (hin : f.isInside = true) (hstep : f.Bracket w.clock.wall ⟨w.window, w.store⟩ f' scene) :
    Outage { w with
      window := scene.window, store := scene.store, faults := w.faults.set i f' } := by
  have hlt : i < w.faults.length := (List.getElem?_eq_some_iff.1 hf).1
  cases h with
  | quiet hquiet => cases hin.symm.trans (hquiet f (List.mem_of_getElem? hf))
  | inside k fk hk _ halone hopen hd =>
    obtain rfl := halone i f hf hin
    obtain rfl := Option.some.inj (hf.symm.trans hk)
    have halone' (j : Nat) (g : FaultRun) (hg : (w.faults.set i f')[j]? = some g)
        (hgi : g.isInside = true) : j = i := by
      rcases getElem?_set_cases hg with ⟨rfl, -⟩ | hg
      · rfl
      · exact halone j g hg hgi
    cases hstep with
    | disrupt _ hi' hd' =>
      refine .inside i f' (List.getElem?_set_self hlt) hi' halone' hopen fun hcalm => ?_
      cases hd'.symm.trans hcalm
    | calm _ hi' _ hstore =>
      refine .inside i f' (List.getElem?_set_self hlt) hi' halone' hopen fun _ => ?_
      rcases hstore with hstore | ⟨hcalm, hstore⟩
      · exact hstore
      · exact hstore.trans (hd hcalm)
    | leave _ hcalm hout' =>
      refine .quiet (fun g hg => ?_) (hd hcalm)
      obtain ⟨j, hj⟩ := List.mem_iff_getElem?.1 hg
      cases hgi : g.isInside with
      | false => rfl
      | true =>
        obtain rfl := halone' j g hj hgi
        rw [List.getElem?_set_self hlt, Option.some.injEq] at hj
        rw [← hj, hout'] at hgi
        cases hgi
    | enter hout | idle hout => cases hin.symm.trans hout

theorem Outage.fault (h : w.Outage) (hf : w.faults[i]? = some f)
    (hstep : f.Bracket w.clock.wall ⟨w.window, w.store⟩ f' scene) :
    Outage { w with
      window := scene.window, store := scene.store, faults := w.faults.set i f' } := by
  cases hin : f.isInside with
  | false => exact h.fault_outside hf hin hstep
  | true => exact h.fault_inside hf hin hstep

/-- What holds as long as every fault is bracketed and drivers work on the store. -/
structure Bracketed (w : World) : Prop where
  dated : Timeline.Dated w.window w.clock.wall
  storage : ∀ d ∈ w.drivers, d.plan.handler = .storage
  bracketed : ∀ f ∈ w.faults, f.isBracketed = true
  outage : w.Outage

theorem Bracketed.step (h : w.Bracketed) (hs : w.Step w') : w'.Bracketed := by
  have hset {i : Nat} {d d' : Driver} (hd : w.drivers[i]? = some d) (hplan : d'.plan = d.plan) :
      ∀ e ∈ w.drivers.set i d', e.plan.handler = .storage := by
    intro e he
    rcases List.mem_or_eq_of_mem_set he with he | rfl
    · exact h.storage e he
    · rw [hplan]
      exact h.storage d (List.mem_of_getElem? hd)
  cases hs with
  | driver hd hstep =>
    exact ⟨h.dated, hset hd (Driver.plan_step hstep), h.bracketed,
      h.outage.of_same rfl (.inr rfl) id⟩
  | client hd => exact ⟨h.dated, hset hd rfl, h.bracketed, h.outage.of_same rfl (.inr rfl) id⟩
  | @worker i j d p p' m store hd _ hwork =>
    have hstore : store.disrupted = w.store.disrupted := by
      rw [h.storage d (List.mem_of_getElem? hd)] at hwork
      cases hwork with
      | act => exact Handler.storage_disrupted _ _
      | begin | goOn => rfl
    exact ⟨h.dated, hset hd rfl, h.bracketed, h.outage.of_same rfl (.inr hstore) id⟩
  | @fault i f f' scene event hf hstep =>
    obtain ⟨hb, hbracket⟩ :=
      FaultRun.bracket_step (h.bracketed f (List.mem_of_getElem? hf)) hstep
    refine ⟨?_, h.storage, fun g hg => ?_,
      (h.outage.fault hf hbracket).of_same rfl (.inr rfl) id⟩
    · rcases (FaultRun.turn_of_step? hstep).window with hw | hw | hw
      · exact hw.symm ▸ h.dated
      · exact h.dated.open hw
      · exact h.dated.close hw
    · rcases List.mem_or_eq_of_mem_set hg with hg | rfl
      · exact h.bracketed g hg
      · exact hb
  | collection => exact ⟨h.dated, h.storage, h.bracketed, h.outage.of_same rfl (.inr rfl) id⟩

/-- A fault that was only started is outside the window. -/
theorem Outage.startFault (h : w.Outage) (injector : Injector) (isBracketed : Bool) :
    (w.control (.startFault injector isBracketed)).Outage := by
  have hcases {j : Nat} {g : FaultRun}
      (hg : (w.faults ++ [({ injector, isBracketed } : FaultRun)])[j]? = some g)
      (hgi : g.isInside = true) :
      w.faults[j]? = some g := by
    rw [List.getElem?_append] at hg
    split at hg
    case isTrue => exact hg
    case isFalse =>
      rw [List.mem_singleton.1 (List.mem_of_getElem? hg)] at hgi
      cases hgi
  cases h with
  | quiet hquiet hd =>
    refine .quiet (fun g hg => ?_) hd
    rcases List.mem_append.1 hg with hg | hg
    · exact hquiet g hg
    · rw [List.mem_singleton.1 hg]
      rfl
  | inside i f hf hi halone hopen hd =>
    have hlt : i < w.faults.length := (List.getElem?_eq_some_iff.1 hf).1
    exact .inside i f ((List.getElem?_append_left hlt).trans hf) hi
      (fun j g hg hgi => halone j g (hcases hg hgi) hgi) hopen hd

theorem Bracketed.control (h : w.Bracketed) {c : Control} (hok : Move.IsBracketed (.control c)) :
    (w.control c).Bracketed := by
  have hstore {store : Store} (hd : store.disrupted = none ∨ store.disrupted = w.store.disrupted) :
      Bracketed { w with store } :=
    ⟨h.dated, h.storage, h.bracketed, h.outage.of_same rfl hd id⟩
  cases c with
  | disrupt | closeWindow => cases hok
  | openWindow =>
    simp only [World.control, signal]
    split
    case h_1 window hw =>
      refine ⟨h.dated.open hw, h.storage, h.bracketed, h.outage.of_same rfl (.inr rfl) fun hp => ?_⟩
      cases (Timeline.signalOpen_eq_ok hw).1.symm.trans hp
    case h_2 => exact h
  | endDisruption => exact hstore (.inl rfl)
  | markDegraded component =>
    refine hstore (.inr ?_)
    unfold Store.markDegraded
    split <;> rfl
  | restoreComponent | rejectNext => exact hstore (.inr rfl)
  | corrupt target =>
    refine hstore (.inr ?_)
    simp only [Store.corrupt]
    split <;> rfl
  | restoreFault injector record =>
    refine hstore (.inr ?_)
    cases injector with
    | podFailure =>
      simp only [Injector.restore]
      split <;> rename_i hr <;> obtain ⟨-, rfl⟩ := Prod.mk.inj hr <;> rfl
    | fixed => rfl
  | launch plan source =>
    refine ⟨h.dated, fun d hd => ?_, h.bracketed, h.outage.of_same rfl (.inr rfl) id⟩
    rcases List.mem_append.1 hd with hd | hd
    · exact h.storage d hd
    · rw [List.mem_singleton.1 hd]
      exact hok
  | startFault injector isBracketed =>
    refine ⟨h.dated, h.storage, fun f hf => ?_, h.outage.startFault injector isBracketed⟩
    rcases List.mem_append.1 hf with hf | hf
    · exact h.bracketed f hf
    · rw [List.mem_singleton.1 hf]
      exact hok
  | raise | send | closeMailbox | collect | log =>
    exact ⟨h.dated, h.storage, h.bracketed, h.outage.of_same rfl (.inr rfl) id⟩

theorem Bracketed.move (h : w.Bracketed) (hok : m.IsBracketed) (hm : w.move? m = some w') :
    w'.Bracketed := by
  cases m with
  | step process => exact h.step (step_of_step? hm)
  | pass timer wall =>
    cases hm
    exact ⟨h.dated.pass (w.clock.wall_le_pass timer wall), h.storage, h.bracketed,
      h.outage.of_same rfl (.inr rfl) id⟩
  | control c =>
    cases hm
    exact h.control hok

/-- Nothing has happened in the world, and its store is up. -/
structure Fresh (w : World) : Prop where
  drivers : w.drivers = []
  faults : w.faults = []
  window : w.window = {}
  disrupted : w.store.disrupted = none

theorem Fresh.bracketed (h : w.Fresh) : w.Bracketed where
  dated := by
    rw [h.window]
    exact ⟨rfl, rfl⟩
  storage := by simp [h.drivers]
  bracketed := by simp [h.faults]
  outage := .quiet (by simp [h.faults]) h.disrupted

theorem ReachableBy.bracketed (h : ReachableBy Move.IsBracketed w₀ w) (h₀ : w₀.Fresh) :
    w.Bracketed := by
  induction h with
  | refl => exact h₀.bracketed
  | move m _ hok hm ih => exact ih.move hok hm

/-! ## Results of requests that found the store down -/

/-- Every result agrees with the window and the clock. -/
theorem Reachable.agrees (h : Reachable w₀ w) (h₀ : w₀.Fresh) {d : Driver} (hd : d ∈ w.drivers)
    {r : OperationResult} (hr : d.Recorded r) : Timeline.Agrees w.window w.clock.wall r := by
  obtain ⟨p, hp, hr⟩ := hr
  obtain ⟨p₀, ms, hstart, hms⟩ := h.pool_moves h₀.drivers d hd p hp
  have hfirst : (w₀.timeline p₀).Consistent := by
    rw [timeline, h₀.window]
    exact .of_start hstart _
  exact (Timeline.moves?_induction (fun _ _ _ hs hm => hs.move hm) hfirst hms).recorded r hr

end World

/-- The task ran at some moment at which the window was open. -/
def OperationResult.Touches (r : OperationResult) (w : Window) : Prop :=
  ∃ opened, w.openedAt = some opened ∧ r.overlaps opened w.closedAt = true

section

variable {r : OperationResult} {w : Window} {now : Duration}

theorem OperationResult.Touches.meets (h : r.Touches w) (ha : Timeline.Agrees w now r)
    (hw : w.Ordered) (grace : Duration) : r.Meets w grace := by
  obtain ⟨opened, ho, hoverlaps⟩ := h
  have hordered (closed : Duration) (hc : w.closedAt = some closed) : opened ≤ closed := by
    obtain ⟨opened', ho', hle⟩ := hw closed hc
    cases ho.symm.trans ho'
    exact hle
  obtain ⟨t, hst, htf, hopened, hclosed⟩ := (overlaps_iff ha.lasted hordered).1 hoverlaps
  refine ⟨opened, ho, t, hst, htf, ?_, fun closed hc => ?_⟩
  · exact Nat.le_trans (Nat.sub_le _ _) hopened
  · exact Nat.le_trans (hclosed closed hc) (Nat.le_add_right _ _)

theorem OperationResult.Touches.move {s s' : Timeline} {m : Timeline.Move}
    (h : r.Touches s.window) (hs : Timeline.Dated s.window s.now)
    (ha : Timeline.Agrees s.window s.now r) (hm : s.move? m = some s') : r.Touches s'.window := by
  obtain ⟨opened, ho, hoverlaps⟩ := h
  rcases Timeline.move?_cases hm with ⟨-, p, -, rfl⟩ | ⟨w, hw | hw, rfl⟩ | ⟨later, -, rfl⟩
  · exact ⟨opened, ho, hoverlaps⟩
  · obtain ⟨hp, -⟩ := Timeline.signalOpen_eq_ok hw
    rw [Timeline.Dated, hp] at hs
    cases ho.symm.trans hs.1
  · obtain ⟨-, rfl⟩ := Timeline.signalClose_eq_ok hw
    refine ⟨opened, ho, ?_⟩
    rw [overlaps, Bool.and_eq_true, decide_eq_true_eq] at hoverlaps ⊢
    exact ⟨decide_eq_true ha.began.past, hoverlaps.2⟩
  · exact ⟨opened, ho, hoverlaps⟩

end

namespace World

variable {ok : Move → Prop} {w w' w₀ : World} {d : Driver} {r : OperationResult}

theorem Elapses.touches (he : w.Elapses w') (h : r.Touches w.window)
    (hw : Timeline.Dated w.window w.clock.wall)
    (ha : Timeline.Agrees w.window w.clock.wall r) : r.Touches w'.window := by
  obtain ⟨ms, hms⟩ := he
  exact (Timeline.moves?_induction
    (P := fun s => Timeline.Dated s.window s.now ∧ Timeline.Agrees s.window s.now r ∧
      r.Touches s.window)
    (fun _ _ _ h hm => ⟨h.1.move hm, h.2.1.move h.1 hm, h.2.2.move h.1 h.2.1 hm⟩)
    ⟨hw, ha, h⟩ (hms { name := "", workers := [], gate := none })).2.2

/-- A request that finds the store down does so while the window is open. -/
theorem Bracketed.touches (h : w.Bracketed) (hd : d ∈ w.drivers) {store : Store}
    (hy : w.Yields d r store) (hu : r.outcome.IsUnavailable) : r.Touches w.window := by
  obtain ⟨p, j, task, phase, startedAt, wake, -, -, ha, -⟩ := hy
  rw [h.storage d hd] at ha
  obtain ⟨written, rfl⟩ := OperationResult.assemble_eq_ok ha
  have hdown := Handler.disrupted_of_isUnavailable hu
  have hopen : w.window.phase = .open := by
    cases h.outage with
    | quiet _ hup => rw [hup] at hdown; cases hdown
    | inside _ _ _ _ _ hopen => exact hopen
  have hdated := h.dated
  rw [Timeline.Dated, hopen] at hdated
  obtain ⟨hc, opened, ho, hle⟩ := hdated
  refine ⟨opened, ho, ?_⟩
  rw [hc, OperationResult.overlaps]
  simpa using hle

theorem ReachableBy.touches (h : ReachableBy Move.IsBracketed w₀ w) (h₀ : w₀.Fresh) :
    ∀ d ∈ w.drivers, ∀ r, d.Recorded r → r.outcome.IsUnavailable → r.Touches w.window := by
  induction h with
  | refl => rw [h₀.drivers]; exact fun d hd => nomatch hd
  | @move w w' m hw hok hm ih =>
    intro d' hd' r hr hu
    obtain ⟨i, hi⟩ := List.mem_iff_getElem?.1 hd'
    obtain ⟨d, hd, -, hr⟩ :=
      move?_recorded hm (hw.reachable.driver_run h₀.drivers) hi hr
    have hmem := List.mem_of_getElem? hd
    rcases hr with hr | ⟨hy, -, hwindow⟩
    · exact (move?_cases hm).2.touches (ih d hmem r hr hu) (hw.bracketed h₀).dated
        (hw.reachable.agrees h₀ hmem hr)
    · rw [hwindow]
      exact (hw.bracketed h₀).touches hmem hy hu

/-- A task that was answered that the service is unavailable ran while the window was open, and
every policy excuses it; nothing that ran before the window opened or after it closed was
answered so. -/
theorem ReachableBy.no_phantom_failures (h : ReachableBy Move.IsBracketed w₀ w) (h₀ : w₀.Fresh)
    (hd : d ∈ w.drivers) (hr : d.Recorded r) :
    (r.outcome.IsUnavailable → r.Meets w.window .zero ∧
      ∀ policy : Policy, policy.Reaches w.window →
        policy.classify r w.window.bounds = .ok .expectedFailure) ∧
    ((∀ opened, w.window.openedAt = some opened → r.finishedAt < opened) ∨
        (∃ closed, w.window.closedAt = some closed ∧ closed < r.startedAt) →
      ¬ r.outcome.IsUnavailable) := by
  have hordered := (h.bracketed h₀).dated.ordered
  have hagrees := h.reachable.agrees h₀ hd hr
  have htouches := h.touches h₀ d hd r hr
  refine ⟨fun hu => ⟨(htouches hu).meets hagrees hordered _, fun policy hgrace => ?_⟩, ?_⟩
  · obtain ⟨c, hc, hiff⟩ := policy.classify_iff hagrees.lasted hordered
      (fun _ => (htouches hu).meets hagrees hordered _) hgrace
    rw [hc, hiff.2 ?_]
    obtain ⟨opened, ho, -⟩ := htouches hu
    have hopened : w.window.openedAt.isSome = true := by rw [ho]; rfl
    have hkind : ∃ kind, r.outcome.failureKind? = some kind ∧ kind ≠ .corruption := by
      obtain ⟨reason, hreason⟩ := hu
      exact ⟨.transport, by rw [hreason]; rfl, nofun⟩
    exact ⟨hkind, hopened, .inl ((htouches hu).meets hagrees hordered _)⟩
  · intro hapart hu
    obtain ⟨opened, ho, hoverlaps⟩ := htouches hu
    rw [OperationResult.overlaps, Bool.and_eq_true, decide_eq_true_eq] at hoverlaps
    obtain ⟨hclosed, hopened⟩ := hoverlaps
    rcases hapart with hbefore | ⟨closed, hc, hafter⟩
    · exact absurd (hbefore opened ho) (Nat.not_lt_of_le hopened)
    · rw [hc] at hclosed
      rw [Option.all_some, decide_eq_true_eq] at hclosed
      exact absurd hafter (Nat.not_lt_of_le hclosed)

def moves? (w : World) (ms : List Move) : Option World := ms.foldlM move? w

theorem moves?_cons_eq_some {ms : List Move} : w.moves? (m :: ms) = some w' ↔
    ∃ w₁, w.move? m = some w₁ ∧ w₁.moves? ms = some w' := by
  simp only [moves?, List.foldlM_cons, Option.bind_eq_bind, Option.bind_eq_some_iff]

theorem ReachableBy.of_moves? {ms : List Move} (h : ReachableBy ok w₀ w) (hok : ∀ m ∈ ms, ok m)
    (hms : w.moves? ms = some w') : ReachableBy ok w₀ w' := by
  induction ms generalizing w with
  | nil =>
    cases hms
    exact h
  | cons m ms ih =>
    obtain ⟨w₁, hm, hms⟩ := moves?_cons_eq_some.1 hms
    exact ih (h.move m (hok m (List.mem_cons_self ..)) hm)
      (fun m hm => hok m (List.mem_cons_of_mem _ hm)) hms

def trialPlan : DriverPlan :=
  { stream := "trial", stop := .exhausted, pool := { workers := 1, queueCapacity := 0 } }

/-- A read is about to be executed when the pod goes down. -/
def trialMoves : List Move :=
  [.control (.launch trialPlan (.scripted [.read ⟨"bucket", "key"⟩ none])),
    .control (.startFault (.podFailure "pod" 5) true)]
    ++ [.driver 0, .driver 0, .client 0 0, .client 0 0, .client 0 0, .client 0 0, .client 0 0,
      .worker 0 0, .worker 0 0, .fault 0, .fault 0, .fault 0, .worker 0 0, .worker 0 0].map .step

def trialResult : OperationResult where
  taskId := .first
  stream := "trial"
  kind := .read
  target := ⟨"bucket", "key"⟩
  written := none
  outcome := .failure .transport
    (StorageError.service 503 ("service unavailable: " ++ ("pod" ++ " terminating"))).message
  startedAt := .zero
  finishedAt := .zero
  phaseAtStart := .open

theorem no_phantom_failures_trial : ∃ w d, ReachableBy Move.IsBracketed {} w ∧ d ∈ w.drivers ∧
    d.Recorded trialResult ∧ trialResult.outcome.IsUnavailable ∧
      trialResult.Meets w.window .zero := by
  have hok : ∀ m ∈ trialMoves, m.IsBracketed := by
    simp [trialMoves, Move.IsBracketed, trialPlan]
  have hsome : (moves? {} trialMoves).isSome = true := rfl
  have h : ReachableBy Move.IsBracketed {} ((moves? {} trialMoves).get hsome) :=
    ReachableBy.refl.of_moves? hok (Option.some_get hsome).symm
  obtain ⟨d, hd, hr⟩ : ∃ d, ((moves? {} trialMoves).get hsome).drivers[0]? = some d ∧
      d.Recorded trialResult := ⟨_, rfl, _, rfl, .inr ⟨0, rfl⟩⟩
  have hmem := List.mem_of_getElem? hd
  have hu : trialResult.outcome.IsUnavailable := ⟨_, rfl⟩
  exact ⟨_, d, h, hmem, hr, hu,
    ((h.no_phantom_failures ⟨rfl, rfl, rfl, rfl⟩ hmem hr).1 hu).1⟩

end World

end FaultDrill
