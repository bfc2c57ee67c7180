import Mathlib.Data.Prod.Lex
import FaultDrill.Proofs.Driver.Quit
import FaultDrill.Proofs.Pool.Settle

/-! # Drivers that are stopped

From the moment at which its stop condition is reached a driver takes in no other task than the one
that it submits already. It comes to an end, and what it has taken in until then it reports.
-/

namespace FaultDrill

open Driver Source

/-- What a task and its result have in common. -/
def Task.label (task : Task) : TaskId × String × OperationKind × ObjectRef :=
  (task.id, task.stream, task.operation.kind, task.operation.target)

def OperationResult.label (r : OperationResult) : TaskId × String × OperationKind × ObjectRef :=
  (r.taskId, r.stream, r.kind, r.target)

/-- A submission at this stage is at a point where it lets others go on. -/
def ClientStage.isSuspended : ClientStage → Bool
  | awaitingPermit _ | awaitingRead _ => true
  | _ => false

/-- A bound for the steps that a driver at this stage takes by itself once its stop condition is
reached. -/
def DriverStage.rank : DriverStage → Nat
  | starting => 8
  | submitting _ => 7
  | pausing _ | yielding => 6
  | deciding => 5
  | stopping _ => 4
  | collecting => 3
  | failing _ => 2
  | sending _ _ => 1
  | done _ => 0

variable {P : Surroundings → Prop} {plan : DriverPlan} {source : Source}
  {pulled : List (Option Operation)} {told late : List Incident} {d d' : Driver} {p p' : Pool}
  {m : Pool.Move} {around : Surroundings} {emission : Emission} {task : Task}
  {report : DriverReport} {outcome : Except DriverFailure DriverReport}

theorem TaskId.ofIndex_pred {id : TaskId} (h : 1 ≤ id.seq.toNat) :
    ofIndex (id.seq.toNat - 1) = id := by
  rw [ofIndex, Nat.sub_add_cancel h, UInt64.ofNat_toNat]

/-- Every operation that the source gave has one result. -/
theorem DriverReport.Exact.labels (h : report.Exact plan source pulled) :
    (report.results.map OperationResult.label).Perm
      ((tasks plan.stream pulled.reduceOption).map Task.label) := by
  obtain ⟨ops, hlength, hpulled, hresults⟩ := h.operations
  have hops : pulled.reduceOption = ops := by
    rcases hpulled with rfl | rfl
    · exact reduceOption_map_some
    · rw [List.reduceOption_append, reduceOption_map_some]
      exact List.append_nil _
  rw [hops]
  have hnodup : (report.results.map OperationResult.label).Nodup := by
    refine .of_map (·.1.seq.toNat) ?_
    rw [List.map_map]
    exact h.ids.nodup_iff.2 List.nodup_range'
  have hsubset : report.results.map OperationResult.label ⊆
      (tasks plan.stream ops).map Task.label := by
    intro l hl
    obtain ⟨r, hr, rfl⟩ := List.mem_map.1 hl
    obtain ⟨hstream, op, hop, hkind, htarget⟩ := hresults r hr
    have hid := (List.mem_range'_1.1 (h.ids.mem_iff.1 (List.mem_map_of_mem hr))).1
    refine List.mem_map.2 ⟨_, mem_tasks.2 ⟨_, op, hop, rfl⟩, ?_⟩
    rw [Task.label, OperationResult.label, TaskId.ofIndex_pred hid, hstream, hkind, htarget]
  refine (hnodup.subperm hsubset).perm_of_length_le (Nat.le_of_eq ?_)
  rw [List.length_map, List.length_map, length_tasks, hlength, h.submitted, DriverReport.results,
    List.length_append]

/-- The report of a driver that was given nothing. -/
theorem DriverReport.Exact.eq_empty (h : report.Exact plan source []) :
    report = { stream := plan.stream, submitted := 0, passed := [], failed := [] } := by
  obtain ⟨ops, hlength, hpulled, -⟩ := h.operations
  have hops : ops = [] := by
    rcases hpulled with hpulled | hpulled
    · exact List.map_eq_nil_iff.1 hpulled.symm
    · exact absurd hpulled.symm (List.concat_ne_nil _ _)
  have hstream := h.stream
  have hsubmitted := h.submitted
  rw [← hlength, hops, List.length_nil] at hsubmitted
  have hzero : report.submitted = 0 := UInt64.toNat_inj.1 (hlength.symm.trans (by rw [hops]; rfl))
  have hpassed : report.passed = [] := List.eq_nil_of_length_eq_zero (by omega)
  have hfailed : report.failed = [] := List.eq_nil_of_length_eq_zero (by omega)
  cases report
  simp_all

theorem Incident.answers_eq_nil (h : ∀ answer, .ask answer ∉ told) : answers told = [] := by
  refine List.filterMap_eq_nil_iff.2 fun e he => ?_
  cases e with
  | ask answer => exact absurd he (h answer)
  | _ => rfl

namespace Driver

/-- The driver is about to submit the task. If it lets others go on, it waits for a permit. -/
def Submits (d : Driver) (task : Task) : Prop :=
  ∃ client p s, d.stage = .submitting client ∧ d.pool = some p ∧ p.clients[client]? = some s ∧
    s.offers? = some task ∧ (s.isSuspended = true → s = .awaitingPermit task)

theorem Run.submits_of_offered (h : Run plan source pulled d) (ht : task ∈ d.offered) :
    d.Submits task := by
  obtain ⟨client, hstage⟩ : ∃ client, d.stage = .submitting client := by
    by_contra hnot
    rw [h.offered_eq_nil fun client hclient => hnot ⟨client, hclient⟩] at ht
    cases ht
  obtain ⟨p, ms, ops, op, rfl, hsub⟩ := h.submitting hstage
  rw [offered_of_pool hsub.pool_eq] at ht
  obtain ⟨i, s, hs, hoffers⟩ := Pool.mem_offered.1 ht
  have hlast : i = ops.length := by
    have hlt := (List.getElem?_eq_some_iff.1 hs).1
    rw [hsub.clients_length] at hlt
    refine Nat.eq_of_lt_succ_of_not_lt hlt fun hearlier => ?_
    rw [Pool.reply?_eq_some_iff.1 (hsub.answered i hearlier), Option.some.injEq] at hs
    rw [← hs] at hoffers
    cases hoffers
  subst hlast
  refine ⟨_, p, s, hstage, hsub.pool_eq, hs, hoffers, fun hsuspended => ?_⟩
  cases s with
  | awaitingPermit => cases hoffers; rfl
  | awaitingRead => exact absurd hs (hsub.run.not_awaitingRead hsub.unshut _ _)
  | _ => cases hsuspended

/-- A driver that is at this point asks for nothing more, and takes in one task at most, which it is
about to submit. -/
structure Halts (d : Driver) (late : List Incident) : Prop where
  asks : ∀ answer, .ask answer ∉ late
  length_le : (Incident.tasks .accepted late).length ≤ 1
  submits : ∀ task ∈ Incident.tasks .accepted late, d.Submits task

/-- So it is from the moment at which its stop condition is reached. -/
theorem Course.halts (h : Course P d late d') (hr : Run plan source pulled d)
    (hP : ∀ around, P around → ∀ n, plan.stop.reached n around = true) : d.Halts late := by
  obtain ⟨hask, hsub⟩ := h.stopped hr hP
  refine ⟨hask, ?_, fun task ht => ?_⟩
  · have hle := hsub.length_le
    rw [List.length_append] at hle
    exact Nat.le_trans (Nat.le_of_add_right_le hle) hr.length_offered_le
  · exact hr.submits_of_offered (hsub.subset (List.mem_append_left _ ht))

/-! ## It comes to an end -/

theorem rank_fail_le (failure : DriverFailure) : (d.fail failure).stage.rank ≤ 2 := by
  unfold fail
  dsimp only
  split
  · exact Nat.le_refl 2
  · exact Nat.zero_le 2

theorem rank_interlude_le (plan : DriverPlan) (timer : Nat) : (plan.interlude timer).rank ≤ 6 := by
  rcases interlude_cases plan timer with ⟨wake, h⟩ | h | h <;> rw [h]
  · exact Nat.le_refl 6
  · exact Nat.le_refl 6
  · exact Nat.le_succ 5

theorem Turn.rank_lt (h : Turn around d d' emission)
    (hreached : d.plan.stop.reached d.submitted around = true) :
    d'.stage.rank < d.stage.rank := by
  have givesUp (failure : DriverFailure) (hlt : 2 < d.stage.rank) :
      (d.fail failure).stage.rank < d.stage.rank :=
    Nat.lt_of_le_of_lt (rank_fail_le failure) hlt
  cases h with
  | start hs | halt hs | collect hs | announce hs | send hs =>
    rw [hs]
    simp [DriverStage.rank, callPool]
  | startNot hs => exact givesUp _ (by simp [hs, DriverStage.rank])
  | refuse hs => exact givesUp _ (by rcases hs with hs | hs <;> simp [hs, DriverStage.rank])
  | exhaust hs =>
    rw [hs]
    exact Nat.lt_of_le_of_lt (rank_fail_le _) (by simp [DriverStage.rank])
  | crash _ _ hnot | runDry _ _ hnot | submit _ _ hnot => cases hreached.symm.trans hnot
  | accept hs =>
    rw [hs]
    exact Nat.lt_succ_of_le (rank_interlude_le d.plan around.timer)
  | goOn hs => rcases hs with hs | ⟨wake, -, hs⟩ <;> simp [hs, DriverStage.rank]
  | @finish p hs =>
    rw [hs]
    unfold Driver.finish
    dsimp only
    split <;> simp [DriverStage.rank]

/-- A bound for the steps of the driver, and for those that its pool takes in between. -/
def effort (d : Driver) : Nat ×ₗ Nat := toLex (d.stage.rank, (d.pool.map Pool.effort).getD 0)

theorem effort_own (hd : d.step? around = some (d', emission))
    (hreached : d.plan.stop.reached d.submitted around = true) : d'.effort < d.effort :=
  Prod.Lex.toLex_lt_toLex.2 (.inl ((turn_of_step? hd).rank_lt hreached))

theorem Run.effort_pool (h : Run plan source pulled d) (hp : d.pool = some p)
    (hi : m.isInternal = true) (hm : p.move? m = some p') (hn : p'.NoneLost) :
    effort { d with pool := some p' } < d.effort := by
  obtain ⟨ms, hs⟩ := h.supplied hp
  have hown : m.IsOwn := by cases m <;> trivial
  refine Prod.Lex.toLex_lt_toLex.2 (.inr ⟨rfl, ?_⟩)
  rw [hp]
  exact hs.run.effort_lt hm hown hn

/-! ## The report -/

/-- A report has one result of each task that was accepted. -/
theorem Course.reported (h : Course P { plan, source } told d) (hn : d.NoneLost)
    (hreport : d.stage.outcome? = some (.ok report)) :
    (report.results.map OperationResult.label).Perm
      ((Incident.tasks .accepted told).map Task.label) := by
  have hr := h.run_of_start
  have hnone : d.offered = [] := hr.offered_eq_nil fun client hclient => by
    rw [hclient] at hreport
    cases hreport
  have hintake := h.intake hn
  rw [hnone, List.append_nil] at hintake
  exact (hr.exact hreport).labels.trans (hintake.symm.map _)

/-- Nothing keeps the driver from its report: its pool starts, its source does not panic, and there
are numbers for all of its tasks. -/
structure Undisturbed (plan : DriverPlan) (told : List Incident) : Prop where
  starts : ∃ p, Pool.start plan.stream plan.pool = .ok p
  noPanic : ∀ e ∈ told, e.isPanic = false
  few : (Incident.tasks .accepted told).length + 1 < UInt64.size

theorem Course.ends_well (h : Course P { plan, source } told d) (hn : d.NoneLost)
    (hwell : Undisturbed plan told) (ho : d.outcome? = some outcome) :
    ∃ report, outcome = .ok report := by
  have hstage := stage_outcome? ho
  cases outcome with
  | ok report => exact ⟨report, rfl⟩
  | error failure =>
    exfalso
    have hnone : d.offered = [] := h.run_of_start.offered_eq_nil fun client hclient => by
      rw [hclient] at hstage
      cases hstage
    cases h.gave_up hn hstage with
    | startNot herror =>
      obtain ⟨p, hp⟩ := hwell.starts
      cases herror.symm.trans hp
    | panicked _ _ _ hmem => cases hwell.noPanic _ hmem
    | exhausted _ hanswers hsize =>
      have hfew := hwell.few
      have hlength := (h.intake hn).length_eq
      rw [hnone, List.append_nil, hanswers, reduceOption_map_some, length_tasks] at hlength
      omega

end Driver

end FaultDrill
