import FaultDrill.Proofs.Outage.Deletion

/-! # Components that are down

Pods are deleted and brought back, one call after another, and drivers perform their operations all
the while. The store lists the components that are down as the calls tell it, in the order in which
they were deleted. So a pod is deleted if and only if it is not down, and brought back if and only
if it is, and a call that fails leaves everything as it is.
-/

namespace FaultDrill

namespace World

/-- No injection is under way. -/
def IsQuiet (w : World) : Prop := ∀ f ∈ w.faults, f.isPending = false

/-- Nobody takes a component down or brings one back but by the calls of an injector that deletes a
pod, and nobody makes such a call while another has not returned. -/
def Move.TakesTurn (w : World) : Move → Prop
  | .control (.disrupt _) | .control .endDisruption | .control (.markDegraded _)
  | .control (.restoreComponent _) => False
  | .control (.startFault injector _) | .control (.restoreFault injector _) =>
    injector.deletesPod = true ∧ w.IsQuiet
  | .control (.launch plan _) => plan.handler.SparesHealth
  | _ => True

/-- The call that returned by the move that led to the second world. -/
def call? (w : World) (m : Move) (w' : World) : Option Call :=
  match m with
  | .step (.fault i) => do
    let f ← w.faults[i]?
    f.returned? (← w'.faults[i]?)
  | .control (.restoreFault injector record) =>
    some (.restore record (injector.restore record w.store).1)
  | _ => none

/-- What a world comes to while everybody takes turns, and the calls that have returned. -/
inductive Turns (start : World) : List Call → World → Prop
  | refl : Turns start [] start
  | move {calls : List Call} {w w' : World} {m : Move} : Turns start calls w → m.TakesTurn w →
      w.move? m = some w' → Turns start (calls ++ (w.call? m w').toList) w'

/-- What a move does to the components, with the call that returns by it. -/
inductive Change (w w' : World) : Option Call → Prop
  | still : w'.faults = w.faults → w.store.SameHealth w'.store → Change w w' none
  | starts {injector : Injector} {isBracketed : Bool} : injector.deletesPod = true → w.IsQuiet →
      w'.faults = w.faults ++ [({ injector, isBracketed } : FaultRun)] → w'.store = w.store →
      Change w w' none
  | steps {i : Nat} {f f' : FaultRun} {call : Option Call} : w.faults[i]? = some f →
      w'.faults = w.faults.set i f' → f'.injector = f.injector →
      f.Deletion w.store f' w'.store call → Change w w' call
  | restores {injector : Injector} {record : FaultRecord} : injector.deletesPod = true →
      w.IsQuiet → w'.faults = w.faults → w'.store = (injector.restore record w.store).2 →
      Change w w' (some (.restore record (injector.restore record w.store).1))

variable {w w' w₀ : World} {m : Move} {calls : List Call} {i : Nat} {f f' : FaultRun}

theorem spares_move (hspares : ∀ d ∈ w.drivers, d.plan.handler.SparesHealth)
    (hok : m.TakesTurn w) (hm : w.move? m = some w') :
    ∀ d ∈ w'.drivers, d.plan.handler.SparesHealth := by
  have hset {i : Nat} {d d' : Driver} (hd : w.drivers[i]? = some d) (hplan : d'.plan = d.plan) :
      ∀ e ∈ w.drivers.set i d', e.plan.handler.SparesHealth := by
    intro e he
    rcases List.mem_or_eq_of_mem_set he with he | rfl
    · exact hspares e he
    · rw [hplan]
      exact hspares d (List.mem_of_getElem? hd)
  cases m with
  | step process =>
    cases step_of_step? hm with
    | driver hd hstep => exact hset hd (Driver.plan_step hstep)
    | client hd | worker hd => exact hset hd rfl
    | fault | collection => exact hspares
  | pass timer wall =>
    cases hm
    exact hspares
  | control c =>
    cases hm
    rcases w.control_drivers c with hsame | ⟨plan, source, rfl, hlaunch⟩
    · rwa [hsame]
    · rw [hlaunch]
      intro d hd
      rcases List.mem_append.1 hd with hd | hd
      · exact hspares d hd
      · rw [List.mem_singleton.1 hd]
        exact hok

theorem call?_fault (hf : w.faults[i]? = some f) (hfaults : w'.faults = w.faults.set i f') :
    w.call? (.step (.fault i)) w' = f.returned? f' := by
  have hlt : i < w.faults.length := (List.getElem?_eq_some_iff.1 hf).1
  simp [call?, hf, hfaults, List.getElem?_set_self hlt]

theorem change_step (hspares : ∀ d ∈ w.drivers, d.plan.handler.SparesHealth)
    (hpods : ∀ f ∈ w.faults, f.injector.deletesPod = true) {process : Process}
    (hm : w.step? process = some w') : w.Change w' (w.call? (.step process) w') := by
  cases process with
  | driver i =>
    simp only [step?, stepDriver?, Option.bind_eq_bind, Option.bind_eq_some_iff] at hm
    obtain ⟨d, -, ⟨next, emission⟩, -, hm⟩ := hm
    cases hm
    exact .still rfl ⟨rfl, rfl⟩
  | client i j =>
    simp only [step?, stepClient?, Option.bind_eq_bind, Option.bind_eq_some_iff] at hm
    obtain ⟨d, -, p, -, p', -, hm⟩ := hm
    cases hm
    exact .still rfl ⟨rfl, rfl⟩
  | worker i j =>
    simp only [step?, stepWorker?, Option.bind_eq_bind, Option.bind_eq_some_iff] at hm
    obtain ⟨d, hd, p, -, ⟨p', store⟩, hwork, hm⟩ := hm
    cases hm
    refine .still rfl ?_
    obtain ⟨m, hwork, -⟩ := Pool.work_of_work? hwork
    cases hwork with
    | begin | goOn => exact ⟨rfl, rfl⟩
    | act => exact hspares d (List.mem_of_getElem? hd) _ _
  | fault i =>
    simp only [step?, stepFault?, Option.bind_eq_bind, Option.bind_eq_some_iff] at hm
    obtain ⟨f, hf, ⟨f', scene, event⟩, hstep, hm⟩ := hm
    cases hm
    rw [call?_fault hf rfl]
    exact .steps hf rfl (FaultRun.turn_of_step? hstep).injector_eq
      (FaultRun.deletion_step (hpods f (List.mem_of_getElem? hf)) hstep)
  | collection =>
    simp only [step?, stepCollection?, Option.bind_eq_bind, Option.bind_eq_some_iff] at hm
    obtain ⟨c, -, ⟨c', mailbox, event⟩, -, hm⟩ := hm
    cases hm
    exact .still rfl ⟨rfl, rfl⟩

theorem change_control {c : Control} (hok : Move.TakesTurn w (.control c)) :
    w.Change (w.control c) (w.call? (.control c) (w.control c)) := by
  cases c with
  | disrupt | endDisruption | markDegraded | restoreComponent => cases hok
  | openWindow | closeWindow =>
    simp only [control, signal]
    split <;> exact .still rfl ⟨rfl, rfl⟩
  | corrupt target =>
    refine .still rfl ?_
    simp only [control, withStore, Store.corrupt]
    split <;> exact ⟨rfl, rfl⟩
  | startFault => exact .starts hok.1 hok.2 rfl rfl
  | restoreFault => exact .restores hok.1 hok.2 rfl rfl
  | rejectNext | raise | launch | send | closeMailbox | collect | log =>
    exact .still rfl ⟨rfl, rfl⟩

theorem change_move (hspares : ∀ d ∈ w.drivers, d.plan.handler.SparesHealth)
    (hpods : ∀ f ∈ w.faults, f.injector.deletesPod = true) (hok : m.TakesTurn w)
    (hm : w.move? m = some w') : w.Change w' (w.call? m w') := by
  cases m with
  | step process => exact change_step hspares hpods hm
  | pass timer wall =>
    cases hm
    exact .still rfl ⟨rfl, rfl⟩
  | control c =>
    cases hm
    exact change_control hok

/-- Who acts in a world in which everybody takes turns. -/
structure InTurn (w : World) : Prop where
  drivers : ∀ d ∈ w.drivers, d.plan.handler.SparesHealth
  pods : ∀ f ∈ w.faults, f.injector.deletesPod = true
  /-- At most one injection is under way. -/
  alone : ∀ (i j : Nat) (f g : FaultRun), w.faults[i]? = some f → w.faults[j]? = some g →
    f.isPending = true → g.isPending = true → i = j

/-- What the calls that have returned say of the world they have led to. -/
structure Orderly (calls : List Call) (w : World) : Prop extends InTurn w where
  answered : Call.Answered calls
  degraded : w.store.degraded = Call.gone calls
  nodup : w.store.degraded.Nodup
  /-- A component that goes down is not down. -/
  absent : ∀ f ∈ w.faults, f.isDisrupting = true → ∀ component transition,
    f.injector = .podFailure component transition → component ∉ w.store.degraded
  up : (∀ f ∈ w.faults, f.isDisrupting = false) → w.store.disrupted = none

theorem Fresh.orderly (h : w.Fresh) (hd : w.store.degraded = []) : w.Orderly [] where
  drivers := by simp [h.drivers]
  pods := by simp [h.faults]
  alone := by simp [h.faults]
  answered := by simp [Call.Answered]
  degraded := hd
  nodup := hd ▸ List.nodup_nil
  absent := by simp [h.faults]
  up _ := h.disrupted

theorem IsQuiet.isDisrupting (h : w.IsQuiet) (hf : f ∈ w.faults) : f.isDisrupting = false :=
  FaultRun.isDisrupting_of_not_isPending (h f hf)

/-- While an injection is under way no other one is. -/
theorem InTurn.pending_set (h : w.InTurn) (hf : w.faults[i]? = some f)
    (hpending : f.isPending = true) {g : FaultRun} (hg : g ∈ w.faults.set i f')
    (hp : g.isPending = true) : g = f' := by
  obtain ⟨j, hj⟩ := List.getElem?_of_mem hg
  by_cases hji : j = i
  · subst hji
    rw [List.getElem?_set_self (List.getElem?_eq_some_iff.1 hf).1] at hj
    exact (Option.some.inj hj).symm
  · rw [List.getElem?_set_ne (Ne.symm hji)] at hj
    exact (hji (h.alone j i g f hj hf hp hpending)).elim

theorem InTurn.starts {injector : Injector} {isBracketed : Bool} (h : w.InTurn)
    (hdrivers : ∀ d ∈ w'.drivers, d.plan.handler.SparesHealth)
    (hpod : injector.deletesPod = true) (hquiet : w.IsQuiet)
    (hfaults : w'.faults = w.faults ++ [({ injector, isBracketed } : FaultRun)]) : w'.InTurn where
  drivers := hdrivers
  pods g hg := by
    rw [hfaults, List.mem_append, List.mem_singleton] at hg
    rcases hg with hg | rfl
    · exact h.pods g hg
    · exact hpod
  alone := by
    -- only the last fault is pending
    have hlast {j : Nat} {g : FaultRun} (hg : w'.faults[j]? = some g)
        (hpending : g.isPending = true) : j = w.faults.length := by
      rw [hfaults, List.getElem?_append] at hg
      split at hg
      case isTrue => cases (hquiet g (List.mem_of_getElem? hg)).symm.trans hpending
      case isFalse hge =>
        have hlt := (List.getElem?_eq_some_iff.1 hg).1
        rw [List.length_singleton] at hlt
        omega
    intro j k f g hj hk hpj hpk
    exact (hlast hj hpj).trans (hlast hk hpk).symm

theorem InTurn.steps {s' : Store} {call : Option Call} (h : w.InTurn)
    (hdrivers : ∀ d ∈ w'.drivers, d.plan.handler.SparesHealth) (hf : w.faults[i]? = some f)
    (hfaults : w'.faults = w.faults.set i f') (hi : f'.injector = f.injector)
    (hdeletion : f.Deletion w.store f' s' call) : w'.InTurn where
  drivers := hdrivers
  pods g hg := by
    rw [hfaults] at hg
    rcases List.mem_or_eq_of_mem_set hg with hg | rfl
    · exact h.pods g hg
    · exact hi ▸ h.pods f (List.mem_of_getElem? hf)
  alone := by
    have hpending {j : Nat} {g : FaultRun} (hg : w'.faults[j]? = some g)
        (hp : g.isPending = true) : ∃ g', w.faults[j]? = some g' ∧ g'.isPending = true := by
      rw [hfaults] at hg
      rcases getElem?_set_cases hg with ⟨rfl, rfl⟩ | hg
      · exact ⟨f, hf, hdeletion.isPending hp⟩
      · exact ⟨g, hg, hp⟩
    intro j k g g' hg hg' hp hp'
    obtain ⟨_, hj, hpj⟩ := hpending hg hp
    obtain ⟨_, hk, hpk⟩ := hpending hg' hp'
    exact h.alone _ _ _ _ hj hk hpj hpk

theorem InTurn.change {call : Option Call} (h : w.InTurn)
    (hdrivers : ∀ d ∈ w'.drivers, d.plan.handler.SparesHealth) (hchange : w.Change w' call) :
    w'.InTurn := by
  cases hchange with
  | still hfaults | restores _ _ hfaults => exact ⟨hdrivers, hfaults ▸ h.pods, hfaults ▸ h.alone⟩
  | starts hpod hquiet hfaults => exact h.starts hdrivers hpod hquiet hfaults
  | steps hf hfaults hi hdeletion => exact h.steps hdrivers hf hfaults hi hdeletion

theorem Orderly.still (h : w.Orderly calls) (hturn : w'.InTurn) (hfaults : w'.faults = w.faults)
    (hhealth : w.store.SameHealth w'.store) : w'.Orderly calls where
  toInTurn := hturn
  answered := h.answered
  degraded := hhealth.2.trans h.degraded
  nodup := hhealth.2 ▸ h.nodup
  absent := by
    rw [hfaults, hhealth.2]
    exact h.absent
  up hcalm := hhealth.1.trans (h.up (hfaults ▸ hcalm))

theorem Orderly.starts {injector : Injector} {isBracketed : Bool} (h : w.Orderly calls)
    (hturn : w'.InTurn) (hquiet : w.IsQuiet)
    (hfaults : w'.faults = w.faults ++ [({ injector, isBracketed } : FaultRun)])
    (hstore : w'.store = w.store) : w'.Orderly calls where
  toInTurn := hturn
  answered := h.answered
  degraded := hstore ▸ h.degraded
  nodup := hstore ▸ h.nodup
  absent g hg hgoes := by
    rw [hfaults, List.mem_append, List.mem_singleton] at hg
    rcases hg with hg | rfl
    · cases (hquiet.isDisrupting hg).symm.trans hgoes
    · cases hgoes
  up _ := hstore ▸ h.up fun g hg => hquiet.isDisrupting hg

/-- A call that was refused has returned, and nothing has changed. -/
theorem Orderly.refused {call : Call} (h : w.Orderly calls)
    (hanswers : call.Answers w.store.degraded) (hdeleted : call.deleted? = none)
    (hrestored : call.restored? = none) : w.Orderly (calls ++ [call]) :=
  { h with
    answered := h.answered.snoc (h.degraded ▸ hanswers)
    degraded := by
      rw [Call.gone_snoc hrestored, hdeleted, Option.toList_none, List.append_nil, h.degraded] }

theorem Orderly.restores {injector : Injector} {record : FaultRecord} (h : w.Orderly calls)
    (hturn : w'.InTurn) (hpod : injector.deletesPod = true) (hquiet : w.IsQuiet)
    (hfaults : w'.faults = w.faults) (hstore : w'.store = (injector.restore record w.store).2) :
    w'.Orderly (calls ++ [.restore record (injector.restore record w.store).1]) := by
  by_cases hc : record.component ∈ w.store.degraded
  · rw [Injector.restore_degraded hpod hc] at hstore ⊢
    exact
      { toInTurn := hturn
        answered := h.answered.snoc (by rw [← h.degraded, Call.Answers, if_pos hc])
        degraded := by rw [hstore, Call.gone_snoc_restored rfl, h.degraded]
        nodup := by
          rw [hstore]
          exact h.nodup.filter _
        absent := fun g hg hgoes => by
          cases (hquiet.isDisrupting (hfaults ▸ hg)).symm.trans hgoes
        up := fun hcalm => by
          rw [hstore]
          exact h.up (hfaults ▸ hcalm) }
  · rw [Injector.restore_refused hpod hc] at hstore ⊢
    have hsame : w'.Orderly calls := h.still hturn hfaults (by rw [hstore]; exact ⟨rfl, rfl⟩)
    exact hsame.refused (by rw [hstore, Call.Answers, if_neg hc]) rfl rfl

/-- A step of a fault that is not taking the store down, and does not begin to. -/
theorem Orderly.idles (h : w.Orderly calls) (hturn : w'.InTurn) (hf : w.faults[i]? = some f)
    (hfaults : w'.faults = w.faults.set i f') (hcalm : f.isDisrupting = false)
    (hcalm' : f'.isDisrupting = false) (hstore : w'.store = w.store) : w'.Orderly calls where
  toInTurn := hturn
  answered := h.answered
  degraded := hstore ▸ h.degraded
  nodup := hstore ▸ h.nodup
  absent g hg hgoes := by
    rw [hfaults] at hg
    rcases List.mem_or_eq_of_mem_set hg with hg | rfl
    · exact hstore ▸ h.absent g hg hgoes
    · cases hcalm'.symm.trans hgoes
  up hall := by
    refine hstore ▸ h.up fun g hg => ?_
    obtain ⟨j, hj⟩ := List.getElem?_of_mem hg
    by_cases hji : j = i
    · subst hji
      exact Option.some.inj (hj.symm.trans hf) ▸ hcalm
    · rw [← List.getElem?_set_ne (Ne.symm hji), ← hfaults] at hj
      exact hall g (List.mem_of_getElem? hj)

theorem Orderly.begins {component : String} {transition : Nat} (h : w.Orderly calls)
    (hturn : w'.InTurn) (hf : w.faults[i]? = some f) (hfaults : w'.faults = w.faults.set i f')
    (hi : f'.injector = .podFailure component transition) (hp : f.isPending = true)
    (hc : component ∉ w.store.degraded) (hgoes : f'.isDisrupting = true)
    (hstore : w'.store = w.store.disrupt (component ++ " terminating")) : w'.Orderly calls where
  toInTurn := hturn
  answered := h.answered
  degraded := hstore ▸ h.degraded
  nodup := hstore ▸ h.nodup
  absent g hg hgoes component' transition' hi' := by
    rw [hfaults] at hg
    obtain rfl := h.pending_set hf hp hg (FaultRun.isPending_of_isDisrupting hgoes)
    cases hi'.symm.trans hi
    exact hstore ▸ hc
  up hcalm := by
    have hlt : i < w.faults.length := (List.getElem?_eq_some_iff.1 hf).1
    have hmem : f' ∈ w'.faults := hfaults ▸ List.mem_of_getElem? (List.getElem?_set_self hlt)
    cases (hcalm f' hmem).symm.trans hgoes

/-- The component of a fault that was taking the store down is down now. -/
theorem Orderly.ends {component : String} {transition : Nat} (h : w.Orderly calls)
    (hturn : w'.InTurn) (hf : w.faults[i]? = some f) (hfaults : w'.faults = w.faults.set i f')
    (hi : f.injector = .podFailure component transition) (hgoes : f.isDisrupting = true)
    (hover : f'.isPending = false)
    (hstore : w'.store = w.store.endDisruption.markDegraded component) :
    w'.Orderly (calls ++
      [.inject component transition (.ok (Injector.podRecord component transition))]) := by
  have hc : component ∉ w.store.degraded := h.absent f (List.mem_of_getElem? hf) hgoes _ _ hi
  have hafter : w'.store = { w.store with
      disrupted := none, degraded := w.store.degraded ++ [component] } := by
    simp [hstore, Store.markDegraded, Store.endDisruption, hc]
  exact
    { toInTurn := hturn
      answered := h.answered.snoc (by rw [← h.degraded, Call.Answers, if_neg hc])
      degraded := by
        rw [hafter, Call.gone_snoc rfl, h.degraded]
        rfl
      nodup := by
        rw [hafter]
        exact List.nodup_append_comm.1 (List.nodup_cons.2 ⟨hc, h.nodup⟩)
      absent := fun g hg hgoes' => by
        rw [hfaults] at hg
        obtain rfl := h.pending_set hf (FaultRun.isPending_of_isDisrupting hgoes) hg
          (FaultRun.isPending_of_isDisrupting hgoes')
        cases (FaultRun.isDisrupting_of_not_isPending hover).symm.trans hgoes'
      up := fun _ => by rw [hafter] }

theorem Orderly.steps {call : Option Call} (h : w.Orderly calls) (hturn : w'.InTurn)
    (hf : w.faults[i]? = some f) (hfaults : w'.faults = w.faults.set i f')
    (hi : f'.injector = f.injector) (hdeletion : f.Deletion w.store f' w'.store call) :
    w'.Orderly (calls ++ call.toList) := by
  generalize hs : w'.store = s' at hdeletion
  cases hdeletion with
  | still hcalm hcalm' =>
    rw [Option.toList_none, List.append_nil]
    exact h.idles hturn hf hfaults hcalm hcalm' hs
  | begins hpod hp hc hgoes =>
    rw [Option.toList_none, List.append_nil]
    exact h.begins hturn hf hfaults (hi.trans hpod) hp hc hgoes hs
  | fails hpod hp hcalm hc hover =>
    have hsame := h.idles hturn hf hfaults hcalm
      (FaultRun.isDisrupting_of_not_isPending hover) hs
    exact hsame.refused (by rw [hs, Call.Answers, if_pos hc]) rfl rfl
  | ends hpod hgoes hover => exact h.ends hturn hf hfaults hpod hgoes hover hs

theorem Orderly.move (h : w.Orderly calls) (hok : m.TakesTurn w) (hm : w.move? m = some w') :
    w'.Orderly (calls ++ (w.call? m w').toList) := by
  have hchange := change_move h.drivers h.pods hok hm
  have hturn := h.toInTurn.change (spares_move h.drivers hok hm) hchange
  generalize w.call? m w' = call at hchange
  cases hchange with
  | still hfaults hhealth =>
    rw [Option.toList_none, List.append_nil]
    exact h.still hturn hfaults hhealth
  | starts _ hquiet hfaults hstore =>
    rw [Option.toList_none, List.append_nil]
    exact h.starts hturn hquiet hfaults hstore
  | steps hf hfaults hi hdeletion => exact h.steps hturn hf hfaults hi hdeletion
  | restores hpod hquiet hfaults hstore => exact h.restores hturn hpod hquiet hfaults hstore

/-- A call returns after which none is under way. -/
theorem InTurn.quiet (h : w.InTurn) (hok : m.TakesTurn w) (hm : w.move? m = some w')
    {call : Call} (hcall : w.call? m w' = some call) : w'.IsQuiet := by
  have hchange := change_move h.drivers h.pods hok hm
  rw [hcall] at hchange
  cases hchange with
  | restores _ hquiet hfaults =>
    intro g hg
    exact hquiet g (hfaults ▸ hg)
  | @steps i f f' _ hf hfaults _ hdeletion =>
    obtain ⟨hp, hover⟩ := hdeletion.of_returns
    intro g hg
    rw [hfaults] at hg
    cases hgp : g.isPending with
    | false => rfl
    | true => exact (h.pending_set hf hp hg hgp ▸ hgp).symm.trans hover

theorem Turns.orderly (h : w₀.Turns calls w) (h₀ : w₀.Fresh) (hd : w₀.store.degraded = []) :
    w.Orderly calls := by
  induction h with
  | refl => exact h₀.orderly hd
  | move _ hok hm ih => exact ih.move hok hm

/-! ## An injection returns -/

/-- Time passes, or the fault takes a step. -/
def Move.Lets (i : Nat) (m : Move) : Prop := m = .step (.fault i) ∨ ∃ timer, m = .pass timer .zero

/-- Others need not do anything for the injection of this fault to return. -/
def CanReturn (start : World) (calls : List Call) (i : Nat) (component : String)
    (transition : Nat) (w : World) : Prop :=
  ∃ injected w', start.Turns (calls ++ [.inject component transition injected]) w' ∧
    ReachableBy (Move.Lets i) w w'

section

variable {component : String} {transition wake : Nat} {scene : FaultRun.Scene}
  {event : Option Event}

theorem ReachableBy.trans {ok : Move → Prop} {w₁ w₂ w₃ : World} (h : ReachableBy ok w₁ w₂)
    (h' : ReachableBy ok w₂ w₃) : ReachableBy ok w₁ w₃ := by
  induction h' with
  | refl => exact h
  | move m _ hok hm ih => exact ih.move m hok hm

theorem CanReturn.after {m : Move} (h : w₀.CanReturn calls i component transition w')
    (hok : m.Lets i) (hm : w.move? m = some w') : w₀.CanReturn calls i component transition w := by
  obtain ⟨injected, w'', hturns, hreach⟩ := h
  exact ⟨injected, w'', hturns, (ReachableBy.refl.move m hok hm).trans hreach⟩

/-- The fault takes its next step. -/
theorem Turns.fault (h : w₀.Turns calls w) (hf : w.faults[i]? = some f)
    (hstep : f.step? w.clock.timer w.clock.wall ⟨w.window, w.store⟩ = some (f', scene, event)) :
    ∃ w', w.move? (.step (.fault i)) = some w' ∧ w'.faults[i]? = some f' ∧
      w₀.Turns (calls ++ (f.returned? f').toList) w' := by
  have hlt : i < w.faults.length := (List.getElem?_eq_some_iff.1 hf).1
  obtain ⟨w', hm, hfaults⟩ : ∃ w', w.move? (.step (.fault i)) = some w' ∧
      w'.faults = w.faults.set i f' := by
    simp only [move?, step?, stepFault?, hf, hstep, Option.bind_eq_bind, Option.bind_some]
    exact ⟨_, rfl, rfl⟩
  refine ⟨w', hm, by rw [hfaults, List.getElem?_set_self hlt], ?_⟩
  rw [← call?_fault hf hfaults]
  exact h.move trivial hm

theorem Turns.canReturn_transitioning (h : w₀.Turns calls w) (hf : w.faults[i]? = some f)
    (hi : f.injector = .podFailure component transition) (hs : f.stage = .transitioning wake) :
    w₀.CanReturn calls i component transition w := by
  have hpass : w₀.Turns calls (w.pass wake .zero) := by
    simpa [call?] using h.move (m := .pass wake .zero) trivial rfl
  have hwake : wake ≤ (w.clock.pass wake .zero).timer := Nat.le_add_left _ _
  have hstep : f.step? (w.pass wake .zero).clock.timer (w.pass wake .zero).clock.wall
      ⟨w.window, w.store⟩ =
        some ((f.injected (.ok (Injector.podRecord component transition))).1,
          ⟨w.window, (f.injector.finish w.store).2⟩,
          (f.injected (.ok (Injector.podRecord component transition))).2) := by
    simp [FaultRun.step?, hs, pass, hwake, hi, Injector.finish]
  obtain ⟨w', hm, -, hturns⟩ := hpass.fault hf hstep
  rw [FaultRun.returned?_injected hi (by simp [FaultRun.isPending, hs])] at hturns
  have hreturns : w₀.CanReturn calls i component transition (w.pass wake .zero) :=
    ⟨_, w', hturns, .move _ .refl (.inl rfl) hm⟩
  exact hreturns.after (.inr ⟨wake, rfl⟩) rfl

theorem Turns.canReturn_injecting (h : w₀.Turns calls w) (hf : w.faults[i]? = some f)
    (hi : f.injector = .podFailure component transition) (hs : f.stage = .injecting) :
    w₀.CanReturn calls i component transition w := by
  by_cases hc : component ∈ w.store.degraded
  · have hstep : f.step? w.clock.timer w.clock.wall ⟨w.window, w.store⟩ =
        some ((f.injected (.error (.injectFailed component "already degraded"))).1,
          ⟨w.window, w.store⟩,
          (f.injected (.error (.injectFailed component "already degraded"))).2) := by
      simp [FaultRun.step?, hs, hi, Injector.begin_refused hc]
    obtain ⟨w', hm, -, hturns⟩ := h.fault hf hstep
    rw [FaultRun.returned?_injected hi (by simp [FaultRun.isPending, hs])] at hturns
    exact ⟨_, w', hturns, .move _ .refl (.inl rfl) hm⟩
  · have hstep : f.step? w.clock.timer w.clock.wall ⟨w.window, w.store⟩ =
        some ({ f with stage := .transitioning (w.clock.timer + transition) },
          ⟨w.window, w.store.disrupt (component ++ " terminating")⟩, none) := by
      simp [FaultRun.step?, hs, hi, Injector.begin_disrupts hc]
    obtain ⟨w', hm, hf', hturns⟩ := h.fault hf hstep
    rw [FaultRun.returned?_of_isPending rfl, Option.toList_none, List.append_nil] at hturns
    exact (hturns.canReturn_transitioning hf' hi rfl).after (.inl rfl) hm

theorem Turns.canReturn (h : w₀.Turns calls w) (hf : w.faults[i]? = some f)
    (hi : f.injector = .podFailure component transition) (hp : f.isPending = true)
    (hb : f.isBracketed = false) : w₀.CanReturn calls i component transition w := by
  have hinjects (event : Option Event) (hstep : f.step? w.clock.timer w.clock.wall
      ⟨w.window, w.store⟩ = some ({ f with stage := .injecting }, ⟨w.window, w.store⟩, event)) :
      w₀.CanReturn calls i component transition w := by
    obtain ⟨w', hm, hf', hturns⟩ := h.fault hf hstep
    rw [FaultRun.returned?_of_isPending rfl, Option.toList_none, List.append_nil] at hturns
    exact (hturns.canReturn_injecting hf' hi rfl).after (.inl rfl) hm
  cases hs : f.stage with
  | starting => exact hinjects _ (by simp [FaultRun.step?, hs, hb]; rfl)
  | opened => exact hinjects _ (by simp [FaultRun.step?, hs]; rfl)
  | injecting => exact h.canReturn_injecting hf hi hs
  | transitioning wake => exact h.canReturn_transitioning hf hi hs
  | closing | closed | done => simp [FaultRun.isPending, hs] at hp

end

/-! ## The components that are down -/

/-- What holds of a world to which these calls have led. -/
structure Tallies (start : World) (calls : List Call) (w : World) : Prop where
  degraded : w.store.degraded = Call.gone calls
  nodup : w.store.degraded.Nodup
  /-- A component is down if it was deleted and not brought back since. -/
  down_iff : ∀ component, component ∈ w.store.degraded ↔ ∃ earlier call later,
    calls = earlier ++ call :: later ∧ call.deleted? = some component ∧
      some component ∉ later.map Call.restored?
  answered : Call.Answered calls
  up : w.IsQuiet → w.store.disrupted = none
  /-- The call that is next to return does so by what is down, and leaves the store up. -/
  next : ∀ m w' call, m.TakesTurn w → w.move? m = some w' → w.call? m w' = some call →
    call.Answers w.store.degraded ∧ w'.store.disrupted = none
  /-- Deleting what is down leaves the store as it is. -/
  undeleted : ∀ i component transition w',
    w.injector? i = some (.podFailure component transition) → component ∈ w.store.degraded →
      w.step? (.fault i) = some w' → w'.store = w.store
  /-- Bringing back what is not down changes nothing. -/
  unrestored : ∀ injector record, injector.deletesPod = true →
    record.component ∉ w.store.degraded → w.control (.restoreFault injector record) = w
  /-- An injection that is under way can return. -/
  returns : ∀ (i : Nat) (f : FaultRun), w.faults[i]? = some f → f.isPending = true →
    f.isBracketed = false → ∃ component transition,
      f.injector = .podFailure component transition ∧
        start.CanReturn calls i component transition w

/-- A fault whose component is down does nothing to the store. -/
theorem Orderly.undeleted {component : String} {transition : Nat} (h : w.Orderly calls)
    (hi : w.injector? i = some (.podFailure component transition))
    (hc : component ∈ w.store.degraded) (hm : w.step? (.fault i) = some w') :
    w'.store = w.store := by
  obtain ⟨f, hf, hi⟩ := Option.map_eq_some_iff.1 hi
  have hmem := List.mem_of_getElem? hf
  simp only [step?, stepFault?, hf, Option.bind_eq_bind, Option.bind_some,
    Option.bind_eq_some_iff] at hm
  obtain ⟨⟨f', scene, event⟩, hstep, hm⟩ := hm
  cases hm
  have hdeletion := FaultRun.deletion_step (h.pods f hmem) hstep
  change scene.store = w.store
  generalize scene.store = s' at hdeletion
  generalize f.returned? f' = call at hdeletion
  cases hdeletion with
  | still | fails => rfl
  | begins hi' _ hc' =>
    cases hi.symm.trans hi'
    exact absurd hc hc'
  | ends hi' hgoes =>
    cases hi.symm.trans hi'
    exact absurd hc (h.absent f hmem hgoes _ _ hi)

theorem Orderly.up_of_quiet (h : w.Orderly calls) (hquiet : w.IsQuiet) :
    w.store.disrupted = none :=
  h.up fun _ hf => hquiet.isDisrupting hf

/-- Pods are deleted and brought back, one call after another, while drivers perform their
operations. At any time those components are down that were deleted and not brought back since, in
the order of their deletions. So a component is deleted if and only if it is not down, and brought
back if and only if it is. A call that fails changes nothing, and none leaves the store down. -/
theorem degraded_law (h₀ : w₀.Fresh) (hd : w₀.store.degraded = []) (h : w₀.Turns calls w) :
    w₀.Tallies calls w := by
  have ho := h.orderly h₀ hd
  exact
    { degraded := ho.degraded
      nodup := ho.nodup
      down_iff := fun component => by rw [ho.degraded, Call.mem_gone]
      answered := ho.answered
      up := ho.up_of_quiet
      next := fun m w' call hok hm hcall => by
        have hafter := ho.move hok hm
        rw [hcall, Option.toList_some] at hafter
        rw [ho.degraded]
        exact ⟨hafter.answered calls call [] rfl,
          hafter.up_of_quiet (ho.toInTurn.quiet hok hm hcall)⟩
      undeleted := fun i component transition w' => ho.undeleted
      unrestored := fun injector record hpod hc => by
        simp [control, withStore, Injector.restore_refused hpod hc]
      returns := fun i f hf hp hb => by
        obtain ⟨component, transition, hi⟩ :=
          Injector.eq_podFailure (ho.pods f (List.mem_of_getElem? hf))
        exact ⟨component, transition, hi, h.canReturn hf hi hp hb⟩ }

/-- A pod is deleted, deleted once more in vain, and brought back. -/
def trialCalls : List Call :=
  [.inject "pod" 4 (.ok (Injector.podRecord "pod" 4)),
    .inject "pod" 4 (.error (.injectFailed "pod" "already degraded")),
    .restore (Injector.podRecord "pod" 4) (.ok ())]

/-- A driver with nothing to do. -/
def idlePlan : DriverPlan := { stream := "stream", stop := .exhausted }

/-- The pod is down, and its deletion is over. -/
def trialDown : World where
  drivers := [{ plan := idlePlan, source := .scripted [] }]
  clock := { timer := 4 }
  store := { degraded := ["pod"] }
  faults := [⟨.podFailure "pod" 4, false, .done (.ok (Injector.podRecord "pod" 4))⟩]

/-- The second deletion of the pod has come so far. -/
def trialAgain (stage : FaultStage) : World :=
  { trialDown with faults := trialDown.faults ++ [⟨.podFailure "pod" 4, false, stage⟩] }

theorem degraded_law_trial : ∃ w, Turns {} trialCalls w ∧ Tallies {} trialCalls w ∧
    w.store.degraded = [] := by
  have h₀ := (.refl : Turns {} [] {}).move (m := .control (.launch idlePlan (.scripted [])))
    Handler.sparesHealth_storage rfl
  have h₁ := h₀.move
    (m := .control (.startFault (.podFailure "pod" 4) false)) ⟨rfl, by simp [IsQuiet, control]⟩ rfl
  have h₂ := h₁.move (m := .step (.fault 0)) trivial rfl
  have h₃ := h₂.move (m := .step (.fault 0)) trivial rfl
  have h₄ := h₃.move (m := .pass 4 .zero) trivial rfl
  have h₅ : Turns {} (trialCalls.take 1) trialDown :=
    h₄.move (m := .step (.fault 0)) trivial rfl
  have h₆ : Turns {} (trialCalls.take 1) (trialAgain .starting) := h₅.move
    (m := .control (.startFault (.podFailure "pod" 4) false)) ⟨rfl, by
      simp [IsQuiet, trialDown, FaultRun.isPending]⟩ rfl
  have h₇ : Turns {} (trialCalls.take 1) (trialAgain .injecting) :=
    h₆.move (m := .step (.fault 1)) trivial rfl
  have hrefused : (trialAgain .injecting).move? (.step (.fault 1)) =
      some (trialAgain (.done (.error (.fault (.injectFailed "pod" "already degraded"))))) := by
    simp [trialAgain, trialDown, move?, step?, stepFault?, FaultRun.step?, Injector.begin_refused,
      FaultRun.injected, FaultRun.asResult, Except.mapError, emit]
  have h₈ : Turns {} (trialCalls.take 2) _ :=
    h₇.move (m := .step (.fault 1)) trivial hrefused
  have h₉ := h₈.move
    (m := .control (.restoreFault (.podFailure "pod" 4) (Injector.podRecord "pod" 4)))
    ⟨rfl, by simp [IsQuiet, trialAgain, trialDown, FaultRun.isPending]⟩ rfl
  have hdown (stage : FaultStage) :
      (Injector.podRecord "pod" 4).component ∈ (trialAgain stage).store.degraded :=
    List.mem_cons_self
  simp only [call?, Injector.restore_degraded (i := .podFailure "pod" 4) rfl (hdown _)] at h₉
  have h : Turns {} trialCalls _ := h₉
  have hlaw := degraded_law ⟨rfl, rfl, rfl, rfl⟩ rfl h
  exact ⟨_, h, hlaw, hlaw.degraded.trans (by decide)⟩

end World

end FaultDrill
