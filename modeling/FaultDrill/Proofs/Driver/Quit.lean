import FaultDrill.Proofs.Driver.Intake

/-! # How a driver quits

A driver stops once its stop condition is reached or its source has run dry, and then shuts its pool
down. If its source panics it gives up instead and lets the pool go, which performs what it has
accepted all the same.
-/

namespace FaultDrill

open Source

/-- In a pool that nobody shuts down no worker takes a sentinel. -/
theorem Pool.Run.incident?_ne_takeStop {config : PoolConfig} {ms : List Move} {p p' : Pool}
    {m : Move} (h : Run config ms p) (hno : .shutdown ∉ requests ms) (hm : p.move? m = some p') :
    p.incident? m p' ≠ some .takeStop := by
  intro he
  cases step_of_move? hm with
  | client hcall =>
    rcases hcall with ⟨rfl, -⟩ | rfl
    · obtain ⟨task, -, hne⟩ := Option.map_eq_some_iff.1 he
      cases hne
    · cases he
  | worker hv hw =>
    rw [hw.incident?_eq hv] at he
    cases hw with
    | takeStop _ hq => exact h.stop_not_mem hno (hq ▸ List.mem_cons_self)
    | _ => cases he
  | call | detach | deafen => cases he

namespace Driver

/-- Why a driver gave up whose pool lost no worker. -/
inductive GaveUp (plan : DriverPlan) (source : Source) (told : List Incident) :
    DriverFailure → Prop
  /-- Its pool did not start. -/
  | startNot {e} : Pool.start plan.stream plan.pool = .error e → Incident.answers told = [] →
      GaveUp plan source told (plan.startFailure e)
  /-- Its source panicked. -/
  | panicked {ops s crash} : GivesFrom 0 source ops s →
      s.next (.ofIndex ops.length) = .error crash → Incident.answers told = ops.map some →
      .ask (.error crash) ∈ told → GaveUp plan source told (.crash crash)
  /-- There were no numbers left for its tasks. -/
  | exhausted {ops s crash} : GivesFrom 0 source ops s → Incident.answers told = ops.map some →
      UInt64.size ≤ ops.length + 1 → GaveUp plan source told (.crash crash)

variable {P : Surroundings → Prop} {plan : DriverPlan} {source : Source}
  {pulled : List (Option Operation)} {told more : List Incident} {d d' : Driver} {p p' : Pool}
  {m : Pool.Move} {around : Surroundings} {emission : Emission} {failure : DriverFailure}
  {ops : List Operation}

/-! ## Drivers that stop -/

/-- A driver calls for a shutdown when it has found a reason to stop. -/
theorem reason_of_shutdown (hd : d.step? around = some (d', emission)) (hp : d.pool = some p)
    (hp' : d'.pool = some (p.call .shutdown)) :
    d.incident? around = some .halt ∨ d.pull? around = some none := by
  have hlength {q : Pool} (hq : some q = some (p.call .shutdown)) :
      q.clients.length = p.clients.length + 1 := by
    rw [Option.some.inj hq, Pool.call, List.length_append, List.length_singleton]
  have same (h : d'.pool = d.pool) : d.incident? around = some .halt ∨
      d.pull? around = some none := by
    have := hlength (hp.symm.trans (h.symm.trans hp'))
    omega
  have letGo (h : d'.pool = d.pool.map Pool.detach) : d.incident? around = some .halt ∨
      d.pull? around = some none := by
    rw [hp] at h
    have : p.detach.clients.length = _ := hlength (h.symm.trans hp')
    simp [Pool.detach] at this
  cases turn_of_step? hd with
  | halt hs hq hreached => exact .inl (incident?_of_reached hs hq hreached)
  | runDry hs hq hreached hnext => exact .inr (pull?_of_next hs hq hreached hnext)
  | start _ hstart =>
    have := hlength hp'
    rw [(Pool.start_eq hstart).2] at this
    cases this
  | submit hs hq =>
    obtain rfl := Option.some.inj (hp.symm.trans hq)
    have hclients := congrArg Pool.clients (Option.some.inj hp')
    simp [Pool.call, Pool.Request.stage] at hclients
  | startNot | crash | exhaust | refuse => exact letGo rfl
  | _ => exact same rfl

/-- A driver that has stopped found its stop condition reached or its source dry. -/
theorem Course.reason_to_stop (h : Course P { plan, source } told d)
    (hs : d.stage.hasStopped = true) : .halt ∈ told ∨ none ∈ Incident.answers told := by
  induction h with
  | refl => cases hs
  | pool m _ _ _ _ ih =>
    refine (ih hs).imp (List.mem_append_left _) fun hnone => ?_
    rw [Incident.answers_append]
    exact List.mem_append_left _ hnone
  | @own told d d' emission around hcourse _ hd ih =>
    rw [Incident.answers_append, answers_incident?, List.mem_append, List.mem_append]
    have before (hstopped : d.stage.hasStopped = true) :
        (.halt ∈ told ∨ .halt ∈ (d.incident? around).toList) ∨
          none ∈ Incident.answers told ∨ none ∈ (d.pull? around).toList :=
      (ih hstopped).imp .inl .inl
    cases turn_of_step? hd with
    | halt hstage hp hreached =>
      exact .inl (.inr (Option.mem_toList.2 (incident?_of_reached hstage hp hreached)))
    | runDry hstage hp hreached hnext =>
      exact .inr (.inr (Option.mem_toList.2 (pull?_of_next hstage hp hreached hnext)))
    | startNot | crash | refuse | exhaust => cases (hasStopped_fail _).symm.trans hs
    | accept => cases (hasStopped_interlude _ _).symm.trans hs
    | collect hstage | finish hstage => exact before (by rw [hstage]; rfl)
    | @send message outcome hstage =>
      cases outcome with
      | ok => exact before (by rw [hstage]; rfl)
      | error => cases hs
    | start | submit | goOn | announce => cases hs

/-- Unless a driver stops, nobody shuts its pool down and no worker finds a sentinel. -/
theorem Course.unshut (h : Course P { plan, source } told d) (hhalt : .halt ∉ told)
    (hdry : none ∉ Incident.answers told) :
    .takeStop ∉ told ∧ ∀ p, d.pool = some p →
      ∃ ms, Pool.Run plan.pool ms p ∧ .shutdown ∉ Pool.requests ms := by
  induction h with
  | refl => exact ⟨List.not_mem_nil, by rintro _ ⟨⟩⟩
  | @own told d d' emission around hcourse _ hd ih =>
    rw [Incident.answers_append, List.mem_append, not_or] at hdry
    rw [List.mem_append, not_or] at hhalt ⊢
    obtain ⟨hstop, hruns⟩ := ih hhalt.1 hdry.1
    refine ⟨⟨hstop, fun hmem => ?_⟩, fun p' hp' => ?_⟩
    · cases isOfDriver_incident? (Option.mem_toList.1 hmem)
    · have hstep := hcourse.run_of_start.poolStep hd
      rw [hp'] at hstep
      generalize hp : d.pool = pool at hstep
      cases hstep with
      | keep => exact hruns p' hp
      | start hstart => exact ⟨[], .start hstart, List.not_mem_nil⟩
      | letGo hm =>
        obtain ⟨ms, hrun, hno⟩ := hruns _ hp
        refine ⟨_, hrun.move hm, ?_⟩
        rw [Pool.requests_snoc]
        simpa [Pool.Move.request?] using hno
      | @call p request _ hm =>
        obtain ⟨ms, hrun, hno⟩ := hruns _ hp
        refine ⟨_, hrun.move hm, ?_⟩
        rw [Pool.requests_snoc, List.mem_append, not_or]
        refine ⟨hno, ?_⟩
        cases request with
        | submit task => simp [Pool.Move.request?]
        | shutdown =>
          simp only [Pool.move?] at hm
          split at hm <;> cases hm
          rcases reason_of_shutdown hd hp hp' with hreason | hreason
          · exact (hhalt.2 (Option.mem_toList.2 hreason)).elim
          · rw [answers_incident?] at hdry
            exact (hdry.2 (Option.mem_toList.2 hreason)).elim
  | @pool told d p p' m hcourse hp hi hm ih =>
    rw [Incident.answers_append, List.mem_append, not_or] at hdry
    rw [List.mem_append, not_or] at hhalt ⊢
    obtain ⟨hstop, hruns⟩ := ih hhalt.1 hdry.1
    obtain ⟨ms, hrun, hno⟩ := hruns _ hp
    obtain ⟨-, -, hrequest⟩ := (Pool.step_of_move? hm).of_isInternal hi
    refine ⟨⟨hstop, fun hmem => ?_⟩, fun q hq => ?_⟩
    · exact hrun.incident?_ne_takeStop hno hm (Option.mem_toList.1 hmem)
    · cases hq
      exact ⟨_, hrun.move hm, by rwa [Pool.requests_snoc, hrequest, Option.toList_none,
        List.append_nil]⟩

/-! ## Drivers that give up -/

/-- A driver that gives up lets go of its pool. -/
theorem Run.closed_of_failed (h : Run plan source pulled d)
    (hf : d.stage.outcome? = some (.error failure)) (hp : d.pool = some p) : p.isOpen = false := by
  induction h generalizing p with
  | start => cases hp
  | pool m _ hq hi hm ih =>
    cases hp
    exact ((Pool.step_of_move? hm).of_isInternal hi).1.trans (ih hf hq)
  | @own pulled d d' emission around hr hd ih =>
    have letGo (h : d'.pool = d.pool.map Pool.detach) : p.isOpen = false := by
      rw [hp] at h
      obtain ⟨q, -, rfl⟩ := Option.map_eq_some_iff.1 h.symm
      rfl
    cases turn_of_step? hd with
    | startNot | crash | refuse | exhaust => exact letGo rfl
    | announce hs => exact ih (by rw [hs]; exact hf) hp
    | send hs => exact ih (by rw [hs]; exact hf) hp
    | finish => cases outcome?_finish.symm.trans hf
    | accept => cases (outcome?_interlude _ _).symm.trans hf
    | start | halt | runDry | submit | goOn | collect => cases hf

theorem Run.pulled_of_starting (h : Run plan source pulled d) (hs : d.stage = .starting) :
    pulled = [] := by
  cases h.sound with
  | starting => rfl
  | between hstage => rw [hs] at hstage; cases hstage
  | submitting hstage | stopping hstage | collecting hstage => cases hs.symm.trans hstage
  | reported hstage | failed hstage => rw [hs] at hstage; cases hstage

theorem GaveUp.mono (h : GaveUp plan source told failure) (hsub : told ⊆ more)
    (hsame : Incident.answers more = Incident.answers told) : GaveUp plan source more failure := by
  cases h with
  | startNot hstart hnone => exact .startNot hstart (hsame.trans hnone)
  | panicked hgives hnext hanswers hask =>
    exact .panicked hgives hnext (hsame.trans hanswers) (hsub hask)
  | exhausted hgives hanswers hsize => exact .exhausted hgives (hsame.trans hanswers) hsize

theorem Course.gave_up (h : Course P { plan, source } told d) (hn : d.NoneLost)
    (hf : d.stage.outcome? = some (.error failure)) : GaveUp plan source told failure := by
  induction h with
  | refl => cases hf
  | @pool told d p p' m _ hp _ hm ih =>
    have hbefore : d.NoneLost := fun q hq => by
      obtain rfl := Option.some.inj (hp.symm.trans hq)
      exact (Pool.step_of_move? hm).noneLost (hn p' rfl)
    refine (ih hbefore hf).mono (List.subset_append_left _ _) ?_
    rw [Incident.answers_append, Pool.silent_incident?.1, List.append_nil]
  | @own told d d' emission around hcourse _ hd ih =>
    have hr := hcourse.run_of_start
    have hbefore := (hr.poolStep hd).noneLost hn
    have quiet (hpull : d.pull? around = none) :
        Incident.answers (told ++ (d.incident? around).toList) = Incident.answers told := by
      rw [Incident.answers_append, answers_incident?, hpull, Option.toList_none, List.append_nil]
    have known (hs : d.stage.outcome? = some (.error failure)) :
        GaveUp plan source (told ++ (d.incident? around).toList) failure :=
      (ih hbefore hs).mono (List.subset_append_left _ _)
        (quiet (pull?_eq_none fun hne => by rw [hne] at hs; cases hs))
    cases turn_of_step? hd with
    | startNot hs hstart =>
      rw [outcome?_fail] at hf
      cases hf
      rw [hr.plan_eq] at hstart ⊢
      exact .startNot hstart
        ((quiet (pull?_eq_none (by simp [hs]))).trans (hr.pulled_of_starting hs))
    | @crash p crash hs hp hreached hnext =>
      rw [outcome?_fail] at hf
      cases hf
      obtain ⟨_, ms, ops, hb⟩ := hr.between (by rw [hs]; rfl)
      have hpull : d.pull? around = none := pull?_of_next hs hp hreached hnext
      have hask : d.incident? around = some (.ask (.error crash)) :=
        incident?_of_next hs hp hreached hnext
      rw [hb.nextId] at hnext
      exact .panicked hb.gives hnext ((quiet hpull).trans hb.pulled_eq)
        (List.mem_append_right _ (Option.mem_toList.2 hask))
    | refuse hs hp hreply =>
      exfalso
      rcases hs with hs | hs
      · obtain ⟨_, ms, ops, op, rfl, hsub⟩ := hr.submitting hs
        obtain rfl := Option.some.inj (hp.symm.trans hsub.pool_eq)
        cases hsub.run.accepts (hbefore _ hp) hsub.isOpen hsub.unshut hreply
      · obtain ⟨_, ms, ops, rfl, hstop⟩ := hr.stopping hs
        obtain rfl := Option.some.inj (hp.symm.trans hstop.pool_eq)
        cases hstop.run.shuts_down (hbefore _ hp) (hstop.shuts_iff.2 rfl)
          (fun j => hstop.shuts_iff.1) hreply
    | exhaust hs hp hreply hnext =>
      rw [outcome?_fail] at hf
      cases hf
      obtain ⟨_, ms, ops, op, rfl, hsub⟩ := hr.submitting hs
      refine .exhausted hsub.gives
        ((quiet (pull?_eq_none (by simp [hs]))).trans hsub.pulled_eq) ?_
      rw [List.length_append, List.length_singleton]
      by_contra hlt
      rw [hsub.nextId, TaskId.next_ofIndex (by omega)] at hnext
      cases hnext
    | announce hs | send hs => exact known (by rw [hs]; exact hf)
    | finish => cases outcome?_finish.symm.trans hf
    | accept => cases (outcome?_interlude _ _).symm.trans hf
    | start | halt | runDry | submit | goOn | collect => cases hf

/-! ## At rest -/

/-- A driver that has given up without stopping has left its pool nothing to do. -/
theorem Rests.drained (hrest : d.Rests) (h : Course P { plan, source } told d) (hn : d.NoneLost)
    (hf : d.stage.outcome? = some (.error failure)) (hhalt : .halt ∉ told)
    (hdry : none ∉ Incident.answers told) :
    d.waiting = [] ∧ d.executing = [] ∧
      ∀ p, d.pool = some p → p.queue = [] ∧ ∀ v ∈ p.workers, v = .exited false := by
  cases hp : d.pool with
  | none =>
    unfold waiting executing
    rw [hp]
    exact ⟨rfl, rfl, by rintro _ ⟨⟩⟩
  | some p =>
    have hq := hrest.pool p hp
    have hopen := h.run_of_start.closed_of_failed hf hp
    obtain ⟨ms, hrun, hno⟩ := (h.unshut hhalt hdry).2 p hp
    obtain ⟨hqueue, hheld, hexecuting⟩ := hq.empty_of_closed hrun (hn p hp) hopen hno
    refine ⟨?_, ?_, ?_⟩
    · rw [waiting, hp, Option.map_some, Option.getD_some, hheld, Pool.queued, hqueue]
      rfl
    · rw [executing, hp, Option.map_some, Option.getD_some, hexecuting]
    · rintro q ⟨⟩
      exact ⟨hqueue, fun v hv => hq.exited_of_closed hrun (hn p hp) hopen hv⟩

end Driver

end FaultDrill
