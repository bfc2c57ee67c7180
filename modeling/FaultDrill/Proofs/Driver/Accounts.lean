import FaultDrill.Proofs.Report.Timeless
import FaultDrill.Proofs.Source.Streams
import FaultDrill.Proofs.World.Post

/-! # What a driver has to show for itself

As long as no worker is lost, the tasks whose handlers have ended are those that the driver has
results of. Once it has its report they are all the tasks that it submitted, each once.
-/

namespace FaultDrill

/-- The result of a task that came to this, without times. -/
def OperationResult.ofDone (e : Task × Outcome) : Except Crash OperationResult :=
  assemble e.1.id e.1.stream e.1.operation e.2 .zero .zero .preFault

theorem OperationResult.taskId_ofDone {e : Task × Outcome} {r : OperationResult}
    (h : ofDone e = .ok r) : r.taskId = e.1.id := by
  obtain ⟨written, rfl⟩ := assemble_eq_ok h
  rfl

namespace Pool

variable {p p' : Pool} {m : Move}

/-- A worker is torn down only at the end of a handler. -/
theorem Step.noneLost_of (h : Step p m p') (hn : p.NoneLost)
    (hm : ∀ w outcome now, m ≠ .finish w outcome now) : p'.NoneLost := by
  intro w hw
  rcases h.worker_cases hw with hw | ⟨v, q, -, hs, -⟩
  · exact hn w hw
  · cases hs with
    | crash => exact hm _ _ _ rfl

theorem answers_of_allExited (h : p.allExited = true) : p.answers = p.results.length := by
  have hzero : (p.workers.map WorkerStage.answers).sum = 0 := by
    refine List.sum_eq_zero fun n hn => ?_
    obtain ⟨v, hv, rfl⟩ := List.mem_map.1 hn
    have hexited := List.all_eq_true.1 h v hv
    cases v <;> first | rfl | cases hexited
  rw [answers, hzero, Nat.add_zero]

end Pool

namespace Driver

/-- The operations as tasks of the stream. -/
def tasks (stream : String) (ops : List Operation) : List Task :=
  ops.mapIdx fun n op => ⟨.ofIndex n, stream, op⟩

/-- These tasks of the driver have been performed, and no others. -/
structure Accounts (d : Driver) (plan : DriverPlan) (source : Source)
    (done : List (Task × Outcome)) : Prop where
  run : ∃ pulled, Run plan source pulled d
  noneLost : d.NoneLost
  answers : d.answers = done.length
  supplies : ∀ e ∈ done, ∃ n, Supplies plan source n e.1
  recorded : ∀ r, d.Recorded r → ∃ e ∈ done, OperationResult.ofDone e = .ok r.timeless

variable {plan : DriverPlan} {source s : Source} {d d' : Driver} {p p' : Pool} {m : Pool.Move}
  {done : List (Task × Outcome)} {around : Surroundings} {emission : Emission} {task : Task}
  {outcome : Outcome} {w wake n : Nat} {phase : WindowPhase} {t now : Duration}
  {ops : List Operation} {op : Operation} {report : DriverReport} {stream : String}

theorem PoolStep.noneLost_of (h : PoolStep plan d.pool d'.pool) (hn : d.NoneLost) :
    d'.NoneLost := by
  intro p' hp'
  rw [hp'] at h
  generalize hp : d.pool = pool at h
  cases h with
  | keep => exact hn p' hp
  | start hstart => exact Pool.noneLost_of_start hstart
  | call hm | letGo hm => exact (Pool.step_of_move? hm).noneLost_of (hn _ hp) nofun

/-! ## What is done step by step -/

theorem accounts_start : Accounts { plan, source } plan source [] where
  run := ⟨[], .start⟩
  noneLost := nofun
  answers := rfl
  supplies := List.forall_mem_nil _
  recorded := by
    rintro r ⟨p, hp, -⟩
    cases hp

theorem Accounts.own (h : d.Accounts plan source done)
    (hd : d.step? around = some (d', emission)) : d'.Accounts plan source done := by
  obtain ⟨pulled, hrun⟩ := h.run
  have hpool := hrun.poolStep hd
  have hn := hpool.noneLost_of h.noneLost
  refine ⟨⟨_, hrun.own around hd⟩, hn, ?_, h.supplies, fun r hr => ?_⟩
  · rw [hrun.answers_of_noneLost hd hn, h.answers]
  · rw [← hrun.plan_eq] at hpool
    exact h.recorded r (hpool.recorded hr)

theorem Accounts.move (h : d.Accounts plan source done) (hp : d.pool = some p)
    (hi : m.isInternal = true) (hm : p.move? m = some p')
    (hfinish : ∀ w outcome now, m ≠ .finish w outcome now) :
    Accounts { d with pool := some p' } plan source done := by
  obtain ⟨pulled, hrun⟩ := h.run
  obtain ⟨ms, hs⟩ := hrun.supplied hp
  have hstep := Pool.step_of_move? hm
  have hn := hstep.noneLost_of (h.noneLost p hp) hfinish
  refine ⟨⟨_, hrun.pool m hp hi hm⟩, ?_, ?_, h.supplies, ?_⟩
  · rintro q ⟨⟩
    exact hn
  · have hzero : m.answers = 0 := by
      cases m with
      | finish w outcome now => exact absurd rfl (hfinish w outcome now)
      | _ => rfl
    rw [answers_of_pool rfl, hstep.answers hs.isHeard hn, hzero, ← answers_of_pool hp, h.answers,
      Nat.add_zero]
  · rintro r ⟨_, ⟨⟩, hr⟩
    exact h.recorded r ⟨p, hp, Pool.recorded_of_move hm hr hfinish⟩

theorem Accounts.finish (h : d.Accounts plan source done) (hp : d.pool = some p)
    (hw : p.workers[w]? = some (.running task phase t wake))
    (hok : ∀ crash, OperationResult.assemble task.id task.stream task.operation outcome t now phase
      ≠ .error crash) (hm : p.move? (.finish w outcome now) = some p') :
    Accounts { d with pool := some p' } plan source (done ++ [(task, outcome)]) := by
  obtain ⟨pulled, hrun⟩ := h.run
  obtain ⟨ms, hs⟩ := hrun.supplied hp
  have hstep := Pool.step_of_move? hm
  have hn : p'.NoneLost := by
    intro w' hw'
    rcases hstep.worker_cases hw' with hw' | ⟨v, q, hv, hworker, -⟩
    · exact h.noneLost p hp w' hw'
    · cases hworker with
      | crash hcrash =>
        obtain ⟨rfl, rfl, rfl, -⟩ := WorkerStage.running.inj (Option.some.inj (hv.symm.trans hw))
        exact hok _ hcrash
  refine ⟨⟨_, hrun.pool _ hp rfl hm⟩, ?_, ?_, ?_, ?_⟩
  · rintro q ⟨⟩
    exact hn
  · rw [answers_of_pool rfl, hstep.answers hs.isHeard hn, ← answers_of_pool hp, h.answers,
      List.length_append]
    rfl
  · intro e he
    rcases List.mem_append.1 he with he | he
    · exact h.supplies e he
    · rw [List.mem_singleton.1 he]
      exact hs.running_of_noneLost (h.noneLost p hp) hw
  · rintro r ⟨_, ⟨⟩, hr⟩
    rcases hstep.recorded_cases hr with hr | ⟨v, task', phase', t', wake', _, _, hv, hfinish, ha⟩
    · obtain ⟨e, he, heq⟩ := h.recorded r ⟨p, hp, hr⟩
      exact ⟨e, List.mem_append_left _ he, heq⟩
    · cases hfinish
      obtain ⟨rfl, -⟩ := WorkerStage.running.inj (Option.some.inj (hv.symm.trans hw))
      exact ⟨_, List.mem_append_right _ List.mem_cons_self, OperationResult.assemble_timeless ha⟩

/-! ## What is done in the end -/

theorem mem_tasks : task ∈ tasks stream ops ↔
    ∃ n op, ops[n]? = some op ∧ ⟨.ofIndex n, stream, op⟩ = task := by
  rw [List.mem_iff_getElem?]
  simp only [tasks, List.getElem?_mapIdx, Option.map_eq_some_iff]

@[simp] theorem length_tasks : (tasks stream ops).length = ops.length := List.length_mapIdx

theorem map_operation_tasks : (tasks stream ops).map Task.operation = ops := by
  refine List.ext_getElem (by simp) fun n hn _ => ?_
  simp [tasks]

theorem nodup_tasks (hops : ops.length < UInt64.size) : (tasks stream ops).Nodup := by
  refine .of_map (·.id.seq.toNat) ?_
  have hnumbers : (tasks stream ops).map (·.id.seq.toNat) = List.range' 1 ops.length := by
    refine List.ext_getElem (by simp [tasks]) fun n hn _ => ?_
    have hn : n < ops.length := by simpa [tasks] using hn
    simp only [tasks, List.getElem_map, List.getElem_mapIdx, List.getElem_range']
    rw [TaskId.toNat_ofIndex (by omega)]
    omega
  rw [hnumbers]
  exact List.nodup_range'

/-- Every operation has its result, which is of a task that was performed. -/
theorem Accounts.result (h : d.Accounts plan source done) (hgives : Source.GivesFrom 0 source ops s)
    (hreport : d.stage.outcome? = some (.ok report)) (hops : report.submitted.toNat = ops.length)
    (hop : ops[n]? = some op) :
    ∃ r ∈ report.results, ∃ e ∈ done, e.1 = ⟨.ofIndex n, plan.stream, op⟩ ∧
      OperationResult.ofDone e = .ok r.timeless := by
  obtain ⟨pulled, hrun⟩ := h.run
  have hn : n < ops.length := (List.getElem?_eq_some_iff.1 hop).1
  have hsize := report.submitted.toNat_lt
  have hmem : n + 1 ∈ List.range' 1 report.submitted.toNat := by
    rw [List.mem_range'_1]
    omega
  obtain ⟨r, hr, hid⟩ := List.mem_map.1 ((hrun.exact hreport).ids.mem_iff.2 hmem)
  obtain ⟨e, he, hdone⟩ := h.recorded r (hrun.recorded hreport hr)
  refine ⟨r, hr, e, he, ?_, hdone⟩
  obtain ⟨m, hm, op', hop', htask⟩ := h.supplies e he
  have hnumber : n = m := by
    rw [← r.taskId_timeless, OperationResult.taskId_ofDone hdone, htask,
      TaskId.toNat_ofIndex hm] at hid
    omega
  subst hnumber
  rw [htask, hop'.eq ⟨ops, s, hgives, hop⟩]

theorem Accounts.perm (h : d.Accounts plan source done) (hgives : Source.GivesFrom 0 source ops s)
    (hreport : d.stage.outcome? = some (.ok report)) (hops : report.submitted.toNat = ops.length) :
    (tasks plan.stream ops).Perm (done.map Prod.fst) := by
  obtain ⟨pulled, hrun⟩ := h.run
  have hsubset : tasks plan.stream ops ⊆ done.map Prod.fst := by
    intro task htask
    obtain ⟨n, op, hop, rfl⟩ := mem_tasks.1 htask
    obtain ⟨-, -, e, he, heq, -⟩ := h.result hgives hreport hops hop
    exact heq ▸ List.mem_map_of_mem he
  have hlength : done.length = ops.length := by
    obtain ⟨p, hp, hexited, hreported⟩ := hrun.reported hreport
    have hresults : report.results.length = p.results.length := by
      rw [hreported]
      exact DriverReport.ofResults_perm.length_eq
    rw [← h.answers, answers_of_pool hp, Pool.answers_of_allExited hexited, ← hresults, ← hops,
      (hrun.exact hreport).submitted, DriverReport.results, List.length_append]
  have hsize : ops.length < UInt64.size := hops ▸ report.submitted.toNat_lt
  refine ((nodup_tasks hsize).subperm hsubset).perm_of_length_le (Nat.le_of_eq ?_)
  rw [List.length_map, hlength, length_tasks]

/-- The report tells of what was performed and of nothing else. -/
theorem Accounts.mem_results (h : d.Accounts plan source done)
    (hgives : Source.GivesFrom 0 source ops s) (hreport : d.stage.outcome? = some (.ok report))
    (hops : report.submitted.toNat = ops.length) {r : OperationResult} :
    r ∈ report.results.map OperationResult.timeless ↔
      ∃ e ∈ done, OperationResult.ofDone e = .ok r := by
  obtain ⟨pulled, hrun⟩ := h.run
  have hperm := h.perm hgives hreport hops
  constructor
  · intro hmem
    obtain ⟨r, hr, rfl⟩ := List.mem_map.1 hmem
    exact h.recorded r (hrun.recorded hreport hr)
  · rintro ⟨e, he, hdone⟩
    obtain ⟨n, op, hop, htask⟩ := mem_tasks.1 (hperm.mem_iff.2 (List.mem_map_of_mem he))
    obtain ⟨r', hr', e', he', htask', hdone'⟩ := h.result hgives hreport hops hop
    have hnodup := hperm.nodup_iff.1 (nodup_tasks (hops ▸ report.submitted.toNat_lt))
    obtain rfl : e = e' := List.inj_on_of_nodup_map hnodup he he' (htask.symm.trans htask'.symm)
    obtain rfl := Except.ok.inj (hdone.symm.trans hdone')
    exact List.mem_map_of_mem hr'

end Driver

end FaultDrill
