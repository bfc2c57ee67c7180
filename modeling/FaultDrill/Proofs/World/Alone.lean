import FaultDrill.Proofs.Driver.Accounts
import FaultDrill.Proofs.Driver.Cover
import FaultDrill.Proofs.Driver.Rest
import FaultDrill.Proofs.Source.Streams
import FaultDrill.Proofs.Store.Serial

/-! # A driver that is alone with its store

If nobody else does anything to the store, the requests of one driver are performed on it one after
another, in the order in which its workers get to them. When the driver has its report each of its
tasks has been performed once, so that neither the store nor the report tells in which order.
-/

namespace FaultDrill

/-- The writes of one source go to objects of their own. -/
theorem Source.GivesFrom.apart {writes : WriteSource} {ops : List Operation} {rest : Source}
    (h : GivesFrom 0 (.write writes) ops rest) (hops : ops.length < UInt64.size) :
    ops.Pairwise Operation.Apart := by
  rw [List.pairwise_iff_getElem]
  intro i j hi hj hij
  have gives (n : Nat) (hn : n < ops.length) : (Source.write writes).Gives n ops[n] :=
    ⟨ops, rest, h, List.getElem?_eq_getElem hn⟩
  obtain ⟨hkind, hkey⟩ := (gives i hi).key
  obtain ⟨hkind', hkey'⟩ := (gives j hj).key
  have hne : ops[i].target ≠ ops[j].target := by
    intro heq
    rw [heq, hkey'] at hkey
    have hnumber := congrArg (·.seq.toNat) (WriteSource.key_inj hkey)
    rw [TaskId.toNat_ofIndex (by omega), TaskId.toNat_ofIndex (by omega)] at hnumber
    omega
  simpa [Operation.Apart, Operation.touched, hkind, hkind'] using hne.symm

/-- A fault that does not delete a pod leaves the store as it is. -/
theorem FaultRun.Turn.calm {f f' : FaultRun} {timer : Nat} {now : Duration} {scene scene' : Scene}
    {event : Option Event} (h : f.Turn timer now scene f' scene' event)
    (hcalm : f.injector.deletesPod = false) :
    f'.injector.deletesPod = false ∧ scene'.store = scene.store := by
  refine ⟨by rw [h.injector_eq, hcalm], ?_⟩
  cases h with
  | begins _ hbegin | fails _ hbegin => exact Injector.begin_calm hcalm hbegin
  | ends _ _ hfinish => exact Injector.finish_calm hcalm hfinish
  | _ => rfl

namespace Pool

variable {p : Pool} {i j : Nat}

theorem stepClient?_of_over (h : ∀ s ∈ p.clients, s.isOver = true) : p.stepClient? i = none := by
  refine Option.bind_eq_none_iff.2 fun s hs => ?_
  have hover := h s (List.mem_of_getElem? hs)
  cases s with
  | returned | dropped => rfl
  | _ => cases hover

theorem work?_of_allExited {handler : Handler} {phase : WindowPhase} {clock : Clock}
    {store : Store} (h : p.allExited = true) : p.work? handler phase clock store j = none := by
  refine Option.bind_eq_none_iff.2 fun v hv => ?_
  have hexited := List.all_eq_true.1 h v (List.mem_of_getElem? hv)
  cases v with
  | exited => simp [stepWorker?, hv]
  | _ => cases hexited

end Pool

/-- The run of the driver has ended, and everybody in its pool is gone. -/
structure Driver.IsOver (d : Driver) : Prop where
  done : ∃ outcome, d.outcome? = some outcome
  exited : ∀ p, d.pool = some p → p.allExited = true

instance (d : Driver) : Decidable d.IsOver :=
  decidable_of_iff (d.outcome?.isSome = true ∧ ∀ p ∈ d.pool, p.allExited = true)
    ⟨fun ⟨h, h'⟩ => ⟨Option.isSome_iff_exists.1 h, h'⟩,
      fun ⟨h, h'⟩ => ⟨Option.isSome_iff_exists.2 h, h'⟩⟩

theorem Driver.IsOver.move {d : Driver} {p p' : Pool} {m : Pool.Move} (h : d.IsOver)
    (hp : d.pool = some p) (hi : m.isInternal = true) (hm : p.move? m = some p') :
    IsOver { d with pool := some p' } where
  done := h.done
  exited := by
    rintro q ⟨⟩
    exact (results_of_allExited (Pool.step_of_move? hm) hi (h.exited p hp)).1

namespace World

/-- Nobody disrupts or changes the store from outside or through a fault, and nobody starts another
driver. -/
def Move.IsSolo : Move → Prop
  | .control (.disrupt _) | .control (.rejectNext _) | .control (.corrupt _)
  | .control (.launch _ _) => False
  | .control (.startFault injector _) => injector.deletesPod = false
  | _ => True

/-- No fault takes the store down. -/
def IsCalm (w : World) : Prop := ∀ f ∈ w.faults, f.injector.deletesPod = false

/-- There is one driver, which has performed these tasks on the store, and nobody else has done
anything to it. -/
structure Alone (plan : DriverPlan) (source : Source) (s₀ : Store) (done : List (Task × Outcome))
    (w : World) : Prop where
  driver : ∃ d, w.drivers = [d] ∧ d.Accounts plan source done
  serial : s₀.Serial done w.store
  calm : w.IsCalm

variable {plan plan' : DriverPlan} {source source' : Source} {s₀ : Store}
  {done : List (Task × Outcome)} {w w' w₀ w₀' : World} {c : Control} {n : Nat}

theorem control_solo (hcalm : w.IsCalm) (hup : w.store.disrupted = none)
    (hok : Move.IsSolo (.control c)) :
    (w.control c).drivers = w.drivers ∧ (w.control c).IsCalm ∧
      ∃ degraded, (w.control c).store = { w.store with degraded } := by
  have hsignal (change : Window → Except DrillError Window) :
      (w.signal change).drivers = w.drivers ∧ (w.signal change).IsCalm ∧
        ∃ degraded, (w.signal change).store = { w.store with degraded } := by
    unfold signal
    split <;> exact ⟨rfl, hcalm, _, rfl⟩
  cases c with
  | openWindow | closeWindow => exact hsignal _
  | disrupt | rejectNext | corrupt | launch => cases hok
  | endDisruption =>
    refine ⟨rfl, hcalm, w.store.degraded, ?_⟩
    simp only [World.control, withStore, Store.endDisruption]
    rw [← hup]
  | markDegraded component =>
    refine ⟨rfl, hcalm, ?_⟩
    simp only [World.control, withStore, Store.markDegraded]
    split <;> exact ⟨_, rfl⟩
  | restoreComponent => exact ⟨rfl, hcalm, _, rfl⟩
  | restoreFault injector record =>
    refine ⟨rfl, hcalm, ?_⟩
    cases injector with
    | podFailure =>
      simp only [World.control, withStore, Injector.restore]
      split <;> rename_i hr <;> obtain ⟨-, rfl⟩ := Prod.mk.inj hr <;> exact ⟨_, rfl⟩
    | fixed => exact ⟨_, rfl⟩
  | startFault injector isBracketed =>
    refine ⟨rfl, fun f hf => ?_, _, rfl⟩
    rcases List.mem_append.1 hf with hf | hf
    · exact hcalm f hf
    · rw [List.mem_singleton.1 hf]
      exact hok
  | raise | send | closeMailbox | collect | log => exact ⟨rfl, hcalm, _, rfl⟩

/-- After so many drivers that are over there is one more. It has performed these tasks on the
store, and nobody else has done anything to it. -/
structure Relay (n : Nat) (plan : DriverPlan) (source : Source) (s₀ : Store)
    (done : List (Task × Outcome)) (w : World) : Prop where
  driver : ∃ gone d, w.drivers = gone ++ [d] ∧ gone.length = n ∧ (∀ e ∈ gone, e.IsOver) ∧
    d.Accounts plan source done
  serial : s₀.Serial done w.store
  calm : w.IsCalm

theorem alone_iff : w.Alone plan source s₀ done ↔ w.Relay 0 plan source s₀ done := by
  constructor
  · rintro ⟨⟨d, hdrivers, haccounts⟩, hserial, hcalm⟩
    exact ⟨⟨[], d, hdrivers, rfl, List.forall_mem_nil _, haccounts⟩, hserial, hcalm⟩
  · rintro ⟨⟨gone, d, hdrivers, hlength, -, haccounts⟩, hserial, hcalm⟩
    rw [List.eq_nil_of_length_eq_zero hlength, List.nil_append] at hdrivers
    exact ⟨⟨d, hdrivers, haccounts⟩, hserial, hcalm⟩

/-- The steps of the drivers before the last one come to nothing. -/
theorem Relay.step (h : w.Relay n plan source s₀ done) (hplan : plan.handler = .storage)
    (hs : w.Step w') : ∃ done', w'.Relay n plan source s₀ done' := by
  obtain ⟨⟨gone, d, hdrivers, hlength, hover, haccounts⟩, hserial, hcalm⟩ := h
  have who {i : Nat} {e : Driver} (he : w.drivers[i]? = some e) :
      (∃ hi : i < gone.length, gone[i] = e) ∨ i = gone.length ∧ e = d :=
    getElem?_concat_cases (hdrivers ▸ he)
  have hlast (e : Driver) : w.drivers.set gone.length e = gone ++ [e] := by
    rw [hdrivers, List.set_append_right _ _ (Nat.le_refl _), Nat.sub_self, List.set_cons_zero]
  have idle {i : Nat} {e' : Driver} (hi : i < gone.length) (he' : e'.IsOver) :
      ∃ gone', w.drivers.set i e' = gone' ++ [d] ∧ gone'.length = n ∧
        ∀ e ∈ gone', e.IsOver := by
    refine ⟨gone.set i e', by rw [hdrivers, List.set_append_left _ _ hi], by simpa using hlength,
      fun g hg => ?_⟩
    rcases List.mem_or_eq_of_mem_set hg with hg | rfl
    · exact hover g hg
    · exact he'
  cases hs with
  | driver hd hstep =>
    rcases who hd with ⟨hi, rfl⟩ | ⟨rfl, rfl⟩
    · obtain ⟨outcome, ho⟩ := (hover _ (List.getElem_mem hi)).done
      simp [Driver.step?, Driver.outcome?_eq_some_iff.1 ho] at hstep
    · exact ⟨done, ⟨gone, _, hlast _, hlength, hover, haccounts.own hstep⟩, hserial, hcalm⟩
  | client hd hp hm =>
    rcases who hd with ⟨hi, rfl⟩ | ⟨rfl, rfl⟩
    · obtain ⟨gone', hset, hlength', hover'⟩ :=
        idle hi ((hover _ (List.getElem_mem hi)).move hp rfl hm)
      exact ⟨done, ⟨gone', d, hset, hlength', hover', haccounts⟩, hserial, hcalm⟩
    · have hmoved := haccounts.move hp rfl hm (by rintro _ _ _ ⟨⟩)
      exact ⟨done, ⟨gone, _, hlast _, hlength, hover, hmoved⟩, hserial, hcalm⟩
  | @worker i j e p p' m store hd hp hwork hm =>
    rcases who hd with ⟨hi, rfl⟩ | ⟨rfl, rfl⟩
    · have hgone := hover _ (List.getElem_mem hi)
      obtain ⟨gone', hset, hlength', hover'⟩ := idle hi (hgone.move hp hwork.isInternal hm)
      refine ⟨done, ⟨gone', d, hset, hlength', hover', haccounts⟩, ?_, hcalm⟩
      cases hwork with
      | act hv =>
        cases List.all_eq_true.1 (hgone.exited p hp) _ (List.mem_of_getElem? hv)
      | begin | goOn => exact hserial
    · obtain ⟨pulled, hrun⟩ := haccounts.run
      rw [hrun.plan_eq, hplan] at hwork
      cases hwork with
      | @act task _ _ _ hw =>
        exact ⟨_, ⟨gone, _, hlast _, hlength, hover,
          haccounts.finish hp hw (fun _ => Handler.assemble_ne_error) hm⟩, hserial.act task, hcalm⟩
      | begin | goOn =>
        have hmoved := haccounts.move hp rfl hm (by rintro _ _ _ ⟨⟩)
        exact ⟨done, ⟨gone, _, hlast _, hlength, hover, hmoved⟩, hserial, hcalm⟩
  | fault hf hstep =>
    obtain ⟨hcalm', hstore⟩ :=
      (FaultRun.turn_of_step? hstep).calm (hcalm _ (List.mem_of_getElem? hf))
    refine ⟨done, ⟨gone, d, hdrivers, hlength, hover, haccounts⟩, hstore ▸ hserial, fun g hg => ?_⟩
    rcases List.mem_or_eq_of_mem_set hg with hg | rfl
    · exact hcalm g hg
    · exact hcalm'
  | collection =>
    exact ⟨done, ⟨gone, d, hdrivers, hlength, hover, haccounts⟩, hserial, hcalm⟩

theorem Relay.move {m : Move} (h : w.Relay n plan source s₀ done)
    (hplan : plan.handler = .storage) (hup : s₀.IsUp) (hok : m.IsSolo)
    (hm : w.move? m = some w') : ∃ done', w'.Relay n plan source s₀ done' := by
  cases m with
  | step process => exact h.step hplan (step_of_step? hm)
  | pass timer wall =>
    cases hm
    exact ⟨done, h.driver, h.serial, h.calm⟩
  | control c =>
    cases hm
    obtain ⟨hdrivers, hcalm, degraded, hstore⟩ :=
      control_solo h.calm (h.serial.isUp hup).disrupted hok
    exact ⟨done, hdrivers ▸ h.driver, hstore ▸ h.serial.degrade degraded, hcalm⟩

theorem ReachableBy.relay (h : ReachableBy Move.IsSolo w₀ w) (h₀ : w₀.Relay n plan source s₀ [])
    (hup : s₀.IsUp) (hplan : plan.handler = .storage) :
    ∃ done, w.Relay n plan source s₀ done := by
  induction h with
  | refl => exact ⟨[], h₀⟩
  | move m _ hok hm ih =>
    obtain ⟨done, h⟩ := ih
    exact h.move hplan hup hok hm

theorem ReachableBy.alone (h : ReachableBy Move.IsSolo w₀ w)
    (hdrivers : w₀.drivers = [{ plan, source }]) (hcalm : w₀.IsCalm) (hup : w₀.store.IsUp)
    (hplan : plan.handler = .storage) :
    ∃ done, w.Alone plan source w₀.store done := by
  obtain ⟨done, h⟩ :=
    h.relay (alone_iff.1 ⟨⟨_, hdrivers, Driver.accounts_start⟩, .nil, hcalm⟩) hup hplan
  exact ⟨done, alone_iff.2 h⟩

/-! ## How it ends -/

/-- There is one driver, and its run has ended like this. -/
def Ends (w : World) (outcome : Except DriverFailure DriverReport) : Prop :=
  ∃ d, w.drivers = [d] ∧ d.outcome? = some outcome

/-- However much time passes, no driver can take a step, and no call and no worker of its pool. -/
structure AtRest (w : World) : Prop where
  drivers : ∀ timer wall i, (w.pass timer wall).step? (.driver i) = none
  clients : ∀ timer wall i j, (w.pass timer wall).step? (.client i j) = none
  workers : ∀ timer wall i j, (w.pass timer wall).step? (.worker i j) = none

/-- However much time passes, neither driver `i` nor anybody in its pool can take a step. -/
structure RestsAt (w : World) (i : Nat) : Prop where
  driver : ∀ timer wall, (w.pass timer wall).step? (.driver i) = none
  clients : ∀ timer wall j, (w.pass timer wall).step? (.client i j) = none
  workers : ∀ timer wall j, (w.pass timer wall).step? (.worker i j) = none

section

variable {i j : Nat} {d : Driver} {p : Pool}

theorem step?_of_driver (h : w.step? (.driver i) = none) (hd : w.drivers[i]? = some d) :
    d.step? w.surroundings = none := by
  cases hstep : d.step? w.surroundings with
  | none => rfl
  | some next => simp [step?, stepDriver?, hd, hstep] at h

theorem stepClient?_of_client (h : w.step? (.client i j) = none) (hd : w.drivers[i]? = some d)
    (hp : d.pool = some p) : p.stepClient? j = none := by
  cases hstep : p.stepClient? j with
  | none => rfl
  | some next => simp [step?, World.stepClient?, hd, hp, hstep] at h

theorem work?_of_worker (h : w.step? (.worker i j) = none) (hd : w.drivers[i]? = some d)
    (hp : d.pool = some p) :
    p.work? d.plan.handler w.window.phase w.clock w.store j = none := by
  cases hstep : p.work? d.plan.handler w.window.phase w.clock w.store j with
  | none => rfl
  | some next => simp [step?, stepWorker?, hd, hp, hstep] at h

end

theorem AtRest.restsAt (h : w.AtRest) (i : Nat) : w.RestsAt i where
  driver timer wall := h.drivers timer wall i
  clients timer wall := h.clients timer wall i
  workers timer wall := h.workers timer wall i

theorem RestsAt.rests {i : Nat} {d : Driver} (h : w.RestsAt i) (hd : w.drivers[i]? = some d) :
    d.Rests where
  own n := ⟨_, Nat.le_add_left n w.clock.timer,
    step?_of_driver (w := w.pass n .zero) (h.driver n .zero) hd⟩
  pool p hp := by
    have hwork (j n : Nat) :
        p.work? d.plan.handler w.window.phase (w.clock.pass n .zero) w.store j = none :=
      work?_of_worker (w := w.pass n .zero) (h.workers n .zero j) hd hp
    exact Pool.quiet_of_idle
      (fun j => stepClient?_of_client (w := w.pass 0 .zero) (h.clients 0 .zero j) hd hp)
      fun j n => ⟨_, Nat.le_add_left n w.clock.timer, hwork j n⟩

/-- When all drivers are over, and the calls of their pools too, there is nothing left to do. -/
theorem atRest_of_over (hover : ∀ d ∈ w.drivers, d.IsOver)
    (hcalls : ∀ d ∈ w.drivers, ∀ p ∈ d.pool, ∀ s ∈ p.clients, s.isOver = true) : w.AtRest where
  drivers timer wall i := by
    refine Option.bind_eq_none_iff.2 fun d hd => ?_
    obtain ⟨outcome, ho⟩ := (hover d (List.mem_of_getElem? hd)).done
    rw [Driver.step?, Driver.outcome?_eq_some_iff.1 ho]
    rfl
  clients timer wall i j := by
    refine Option.bind_eq_none_iff.2 fun d hd => Option.bind_eq_none_iff.2 fun p hp => ?_
    rw [Pool.stepClient?_of_over (hcalls d (List.mem_of_getElem? hd) p hp)]
    rfl
  workers timer wall i j := by
    refine Option.bind_eq_none_iff.2 fun d hd => Option.bind_eq_none_iff.2 fun p hp => ?_
    rw [Pool.work?_of_allExited ((hover d (List.mem_of_getElem? hd)).exited p hp)]
    rfl

/-- A driver that cannot go on has ended. -/
theorem Relay.ends (h : w.Relay n plan source s₀ done) (hrest : w.AtRest) :
    ∃ d outcome, w.drivers[n]? = some d ∧ d.outcome? = some outcome := by
  obtain ⟨⟨gone, d, hdrivers, rfl, -, haccounts⟩, -, -⟩ := h
  obtain ⟨pulled, hrun⟩ := haccounts.run
  have hd : w.drivers[gone.length]? = some d := by rw [hdrivers, List.getElem?_concat_length]
  obtain ⟨outcome, ho⟩ := ((hrest.restsAt _).rests hd).outcome hrun haccounts.noneLost
  exact ⟨d, outcome, hd, ho⟩

theorem Alone.ends (h : w.Alone plan source s₀ done) (hrest : w.AtRest) :
    ∃ outcome, w.Ends outcome := by
  obtain ⟨e, outcome, he, ho⟩ := (alone_iff.1 h).ends hrest
  obtain ⟨⟨d, hdrivers, -⟩, -, -⟩ := h
  obtain rfl : d = e := Option.some.inj ((congrArg (·[0]?) hdrivers).symm.trans he)
  exact ⟨outcome, d, hdrivers, ho⟩

/-! ## Two runs -/

/-- One driver was alone with a store that is up, until its run had ended or could not go on. It
performs these operations whatever happens around it, or it reports that it has performed them. -/
structure Performed (plan : DriverPlan) (source : Source) (ops : List Operation) (w₀ w : World) :
    Prop where
  reachable : ReachableBy Move.IsSolo w₀ w
  drivers : w₀.drivers = [{ plan, source }]
  calm : w₀.IsCalm
  isUp : w₀.store.IsUp
  room : w₀.store.operationsTotal.toNat + ops.length < UInt64.size
  few : ops.length + 1 < UInt64.size
  handler : plan.handler = .storage
  starts : ∃ p, Pool.start plan.stream plan.pool = .ok p
  finished : w.AtRest ∨ ∃ outcome, w.Ends outcome
  covers : plan.Covers source ops ∨ ∃ report s, w.Ends (.ok report) ∧
    report.submitted.toNat = ops.length ∧ Source.GivesFrom 0 source ops s

/-- The report tells of the tasks that were performed on the store. -/
structure Accounted (stream : String) (ops : List Operation) (s₀ s : Store) (report : DriverReport)
    (done : List (Task × Outcome)) : Prop where
  serial : s₀.Serial done s
  perm : (Driver.tasks stream ops).Perm (done.map Prod.fst)
  results : ∀ r, r ∈ report.results.map OperationResult.timeless ↔
    ∃ e ∈ done, OperationResult.ofDone e = .ok r

variable {ops : List Operation}

theorem Performed.accounted (h : Performed plan source ops w₀ w) :
    ∃ report done, w.Ends (.ok report) ∧ (∃ pulled, report.Exact plan source pulled) ∧
      Accounted plan.stream ops w₀.store w.store report done := by
  obtain ⟨done, halone⟩ := h.reachable.alone h.drivers h.calm h.isUp h.handler
  obtain ⟨outcome, d', hdrivers', ho⟩ := h.finished.elim halone.ends id
  obtain ⟨⟨d, hdrivers, haccounts⟩, hserial, -⟩ := halone
  obtain rfl : d = d' := List.head_eq_of_cons_eq (hdrivers.symm.trans hdrivers')
  obtain ⟨pulled, hrun⟩ := haccounts.run
  obtain ⟨report, s, rfl, hsubmitted, hgives⟩ : ∃ report s, outcome = .ok report ∧
      report.submitted.toNat = ops.length ∧ Source.GivesFrom 0 source ops s := by
    rcases h.covers with hcovers | ⟨report, s, ⟨e, he, hoe⟩, hreported⟩
    · obtain ⟨p, hstart⟩ := h.starts
      obtain ⟨report, rfl, hsubmitted⟩ :=
        hrun.reports hcovers h.few hstart haccounts.noneLost ho
      obtain ⟨s, hgives⟩ := hcovers.gives
      exact ⟨report, s, rfl, hsubmitted, hgives⟩
    · obtain rfl : d = e := List.head_eq_of_cons_eq (hdrivers.symm.trans he)
      exact ⟨report, s, Option.some.inj (ho.symm.trans hoe), hreported⟩
  have hreport := Driver.stage_outcome? ho
  exact ⟨report, done, ⟨d, hdrivers, ho⟩, ⟨pulled, hrun.exact hreport⟩, hserial,
    haccounts.perm hgives hreport hsubmitted,
    fun r => haccounts.mem_results hgives hreport hsubmitted⟩

theorem Accounted.apart {stream : String} {s₀ s : Store} {report : DriverReport}
    (h : Accounted stream ops s₀ s report done) (hapart : ops.Pairwise Operation.Apart) :
    (done.map (·.1.operation)).Pairwise Operation.Apart := by
  have hperm := h.perm.map Task.operation
  rw [Driver.map_operation_tasks, List.map_map] at hperm
  exact (hperm.pairwise_iff fun hab => hab.symm).1 hapart

/-- What was performed on stores with the same contents is the same in the end. -/
theorem Accounted.agree {stream : String} {s₀ s₀' s s' : Store} {report report' : DriverReport}
    {done' : List (Task × Outcome)} (h : Accounted stream ops s₀ s report done)
    (h' : Accounted stream ops s₀' s' report' done') (hup : s₀.IsUp) (hup' : s₀'.IsUp)
    (hroom : s₀.operationsTotal.toNat + ops.length < UInt64.size)
    (hapart : ops.Pairwise Operation.Apart) (hsame : s₀.Matches s₀') :
    s.Matches s' ∧ ∀ r ∈ report.results.map OperationResult.timeless,
      r ∈ report'.results.map OperationResult.timeless := by
  have hlength : done.length = ops.length := by simpa using h.perm.length_eq.symm
  obtain ⟨hmatches, hdone⟩ := h.serial.agree h'.serial hup hup' (hlength ▸ hroom)
    (h.apart hapart) hsame (h.perm.symm.trans h'.perm)
  refine ⟨hmatches, fun r hr => ?_⟩
  obtain ⟨e, he, heq⟩ := (h.results r).1 hr
  exact (h'.results r).2 ⟨e, hdone e he, heq⟩

/-- Writes of one source touch nothing in common. If what a driver performs touches nothing in
common, it ends with a report, and neither this report nor the store that it leaves depends on how
many workers it has, on how long they wait and take, and on who comes first. -/
theorem order_irrelevant :
    (∀ (writes : WriteSource) (ops : List Operation) (rest : Source),
      Source.GivesFrom 0 (.write writes) ops rest → ops.length < UInt64.size →
        ops.Pairwise Operation.Apart) ∧
    ∀ {plan plan' : DriverPlan} {source source' : Source} {ops : List Operation}
      {w₀ w₀' w w' : World}, Performed plan source ops w₀ w → Performed plan' source' ops w₀' w' →
      plan.stream = plan'.stream → ops.Pairwise Operation.Apart → w₀.store.Matches w₀'.store →
      ∃ report report', w.Ends (.ok report) ∧ w'.Ends (.ok report') ∧
        w.store.Matches w'.store ∧ report.timeless = report'.timeless ∧
        report.writtenObjects = report'.writtenObjects := by
  refine ⟨fun writes ops rest hgives hops => hgives.apart hops, ?_⟩
  intro plan plan' source source' ops w₀ w₀' w w' h h' hstream hapart hsame
  obtain ⟨report, done, hends, ⟨pulled, hexact⟩, hdone⟩ := h.accounted
  obtain ⟨report', done', hends', ⟨pulled', hexact'⟩, hdone'⟩ := h'.accounted
  rw [← hstream] at hdone'
  obtain ⟨hmatches, hsub⟩ := hdone.agree hdone' h.isUp h'.isUp h.room hapart hsame
  obtain ⟨-, hsub'⟩ := hdone'.agree hdone h'.isUp h.isUp h'.room hapart hsame.symm
  have hreport : report.timeless = report'.timeless :=
    hexact.timeless_eq hexact' hstream fun r => ⟨hsub r, hsub' r⟩
  refine ⟨report, report', hends, hends', hmatches, hreport, ?_⟩
  rw [← report.writtenObjects_timeless, hreport, report'.writtenObjects_timeless]

def soloOps : List Operation := [.delete ⟨"bucket", "a"⟩, .read ⟨"bucket", "b"⟩ none]

def soloPlan (workers queueCapacity : UInt64) : DriverPlan :=
  { stream := "trial", stop := .exhausted, pool := { workers, queueCapacity },
    inBackground := false }

def soloStart (plan : DriverPlan) (latency : Nat) : World :=
  { store := { latency }, drivers := [{ plan, source := .scripted soloOps }] }

def soloSteps (turns : List (Nat × Process)) : List Move :=
  turns.flatMap fun (n, process) => List.replicate n (.step process)

/-- One worker performs both operations. -/
def soloMoves : List Move :=
  soloSteps [(2, .driver 0), (5, .client 0 0), (3, .driver 0), (5, .client 0 1), (3, .driver 0),
    (16, .worker 0 0), (4, .client 0 2), (4, .worker 0 0), (6, .client 0 2), (2, .driver 0)]

/-- Two workers are at it at the same time, and the second one is done first. -/
def duoMoves : List Move :=
  soloSteps [(2, .driver 0), (5, .client 0 0), (3, .driver 0), (5, .client 0 1), (3, .driver 0),
      (3, .worker 0 0), (3, .worker 0 1)] ++
    .pass 3 Clock.instant ::
    soloSteps [(5, .worker 0 1), (6, .worker 0 0), (4, .client 0 2), (4, .worker 0 1),
      (2, .client 0 2), (4, .worker 0 0), (7, .client 0 2), (2, .driver 0)]

theorem mem_soloSteps {turns : List (Nat × Process)} {m : Move} (h : m ∈ soloSteps turns) :
    m.IsSolo := by
  obtain ⟨turn, -, hm⟩ := List.mem_flatMap.1 h
  rw [List.eq_of_mem_replicate hm]
  trivial

theorem performed_solo {workers queueCapacity : UInt64} {latency : Nat} {ms : List Move}
    (hstart : ∃ p, Pool.start "trial" (soloPlan workers queueCapacity).pool = .ok p)
    (hok : ∀ m ∈ ms, m.IsSolo)
    (hms : (soloStart (soloPlan workers queueCapacity) latency).moves? ms = some w)
    (hended : ∃ outcome, w.Ends outcome) :
    Performed (soloPlan workers queueCapacity) (.scripted soloOps) soloOps
      (soloStart (soloPlan workers queueCapacity) latency) w where
  reachable := ReachableBy.refl.of_moves? hok hms
  drivers := rfl
  calm := List.forall_mem_nil _
  isUp := ⟨rfl, rfl⟩
  room := show 0 + soloOps.length < UInt64.size by decide
  few := by decide
  handler := rfl
  starts := hstart
  finished := .inr hended
  covers := .inl (.dry (.inl rfl) (.cons rfl (.cons rfl .nil)) ⟨_, rfl⟩)

theorem order_irrelevant_trial : ∃ w w',
    Performed (soloPlan 1 0) (.scripted soloOps) soloOps (soloStart (soloPlan 1 0) 0) w ∧
    Performed (soloPlan 2 2) (.scripted soloOps) soloOps (soloStart (soloPlan 2 2) 3) w' ∧
    ∃ report report', w.Ends (.ok report) ∧ w'.Ends (.ok report') ∧
      w.store.Matches w'.store ∧ report.timeless = report'.timeless := by
  have hsome : ((soloStart (soloPlan 1 0) 0).moves? soloMoves).isSome = true := rfl
  have hsome' : ((soloStart (soloPlan 2 2) 3).moves? duoMoves).isSome = true := rfl
  have h := performed_solo ⟨_, rfl⟩ (fun m hm => mem_soloSteps hm) (Option.some_get hsome).symm
    ⟨_, _, rfl, rfl⟩
  have h' := performed_solo ⟨_, rfl⟩ (fun m hm => by
    rcases List.mem_append.1 hm with hm | hm
    · exact mem_soloSteps hm
    · rcases List.mem_cons.1 hm with rfl | hm
      · trivial
      · exact mem_soloSteps hm) (Option.some_get hsome').symm ⟨_, _, rfl, rfl⟩
  have hapart : soloOps.Pairwise Operation.Apart := by
    simp [soloOps, Operation.Apart, Operation.touched, Operation.delete, Operation.read]
  obtain ⟨report, report', hends, hends', hmatches, htimeless, -⟩ :=
    order_irrelevant.2 h h' rfl hapart ⟨rfl, rfl, rfl⟩
  exact ⟨_, _, h, h', report, report', hends, hends', hmatches, htimeless⟩

end World

end FaultDrill
