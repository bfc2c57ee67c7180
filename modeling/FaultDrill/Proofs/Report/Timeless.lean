import FaultDrill.Proofs.Driver.Exact

/-! # Reports without times

What is left of a result when nobody looks at the clock and the window: which task it is about, what
became of it and what it wrote. A report is put in order by task, so that it is determined by the
results in it.
-/

namespace FaultDrill

namespace OperationResult

/-- The result without its times and without the phase at its start. -/
def timeless (r : OperationResult) : OperationResult :=
  { r with startedAt := .zero, finishedAt := .zero, phaseAtStart := .preFault }

variable {r : OperationResult} {id : TaskId} {stream : String} {op : Operation}
  {outcome : Outcome} {startedAt finishedAt : Duration} {phase : WindowPhase}

@[simp] theorem taskId_timeless : r.timeless.taskId = r.taskId := rfl

@[simp] theorem written_timeless : r.timeless.written = r.written := rfl

/-- What a result is without times does not depend on them. -/
theorem assemble_timeless
    (h : assemble id stream op outcome startedAt finishedAt phase = .ok r) :
    assemble id stream op outcome .zero .zero .preFault = .ok r.timeless := by
  unfold assemble at *
  cases hw : writtenBy op outcome with
  | error crash => rw [hw] at h; cases h
  | ok written =>
    rw [hw] at h
    cases h
    rfl

end OperationResult

namespace DriverReport

/-- The report without the times of its results and the phases at their starts. -/
def timeless (report : DriverReport) : DriverReport :=
  { report with
    passed := report.passed.map .timeless
    failed := report.failed.map .timeless }

variable {a b report : DriverReport} {plan plan' : DriverPlan} {source source' : Source}
  {pulled pulled' : List (Option Operation)} {xs ys : List OperationResult}

/-- Without times, what a stream wrote is still there. -/
theorem writtenObjects_timeless : report.timeless.writtenObjects = report.writtenObjects := by
  simp [writtenObjects, timeless, List.filterMap_map, Function.comp_def]

/-- Results in the order of their tasks are determined by which they are. -/
theorem eq_of_pairwise (hxs : xs.Pairwise fun r r' => r.taskId.seq < r'.taskId.seq)
    (hys : ys.Pairwise fun r r' => r.taskId.seq < r'.taskId.seq)
    (hmem : ∀ r, r ∈ xs ↔ r ∈ ys) : xs = ys := by
  have nodup {rs : List OperationResult}
      (h : rs.Pairwise fun r r' => r.taskId.seq < r'.taskId.seq) : rs.Nodup := by
    refine List.Pairwise.imp ?_ h
    rintro r _ hlt rfl
    exact UInt64.lt_irrefl _ hlt
  refine List.Perm.eq_of_pairwise ?_ hxs hys
    ((List.perm_ext_iff_of_nodup (nodup hxs) (nodup hys)).2 hmem)
  intro r r' _ _ hlt hlt'
  exact (UInt64.lt_irrefl _ (UInt64.lt_trans hlt hlt')).elim

theorem Exact.mem_passed (h : report.Exact plan source pulled) {r : OperationResult} :
    r ∈ report.passed.map OperationResult.timeless ↔
      r ∈ report.results.map OperationResult.timeless ∧ r.isSuccess = true := by
  simp only [results, List.map_append, List.mem_append, List.mem_map]
  constructor
  · rintro ⟨r, hr, rfl⟩
    exact ⟨.inl ⟨r, hr, rfl⟩, h.passed r hr⟩
  · rintro ⟨hr | ⟨r, hr, rfl⟩, hsuccess⟩
    · exact hr
    · cases (h.failed r hr).symm.trans hsuccess

theorem Exact.mem_failed (h : report.Exact plan source pulled) {r : OperationResult} :
    r ∈ report.failed.map OperationResult.timeless ↔
      r ∈ report.results.map OperationResult.timeless ∧ r.isSuccess = false := by
  simp only [results, List.map_append, List.mem_append, List.mem_map]
  constructor
  · rintro ⟨r, hr, rfl⟩
    exact ⟨.inr ⟨r, hr, rfl⟩, h.failed r hr⟩
  · rintro ⟨⟨r, hr, rfl⟩ | hr, hfailure⟩
    · cases (h.passed r hr).symm.trans hfailure
    · exact hr

/-- Exact reports of one stream with the same results are the same but for times and phases. -/
theorem Exact.timeless_eq (ha : a.Exact plan source pulled) (hb : b.Exact plan' source' pulled')
    (hstream : plan.stream = plan'.stream)
    (hmem : ∀ r, r ∈ a.results.map OperationResult.timeless ↔
      r ∈ b.results.map OperationResult.timeless) :
    a.timeless = b.timeless := by
  have hpassed : a.passed.map OperationResult.timeless = b.passed.map OperationResult.timeless :=
    eq_of_pairwise (List.pairwise_map.2 ha.passed_sorted) (List.pairwise_map.2 hb.passed_sorted)
      fun r => by rw [ha.mem_passed, hb.mem_passed, hmem]
  have hfailed : a.failed.map OperationResult.timeless = b.failed.map OperationResult.timeless :=
    eq_of_pairwise (List.pairwise_map.2 ha.failed_sorted) (List.pairwise_map.2 hb.failed_sorted)
      fun r => by rw [ha.mem_failed, hb.mem_failed, hmem]
  have hsubmitted : a.submitted = b.submitted := by
    have hp := congrArg List.length hpassed
    have hf := congrArg List.length hfailed
    simp only [List.length_map] at hp hf
    exact UInt64.toNat_inj.1 (by rw [ha.submitted, hb.submitted, hp, hf])
  rw [timeless, timeless, hpassed, hfailed, hsubmitted, ha.stream, hb.stream, hstream]

end DriverReport

end FaultDrill
