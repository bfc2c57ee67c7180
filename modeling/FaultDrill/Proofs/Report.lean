import Mathlib.Data.List.Nodup
import FaultDrill.Report

/-! # Sorted reports

A report has every result once, the successful ones apart from the others, and both kinds
in the order of their tasks.
-/

namespace FaultDrill.DriverReport

variable {results : List OperationResult} {stream : String} {submitted : UInt64}

/-- The number of the task that a result is about. -/
def taskNumber (r : OperationResult) : Nat := r.taskId.seq.toNat

theorem ofResults_perm : (ofResults stream submitted results).results.Perm results :=
  ((List.mergeSort_perm _ _).append (List.mergeSort_perm _ _)).trans
    (List.filter_append_perm _ results)

/-- Results of different tasks come in the order of the tasks. -/
theorem sortedByTask_pairwise (h : (results.map taskNumber).Nodup) :
    (sortedByTask results).Pairwise fun a b => a.taskId.seq < b.taskId.seq := by
  have hle : (sortedByTask results).Pairwise fun a b => decide (a.taskId.seq ≤ b.taskId.seq) :=
    List.pairwise_mergeSort (fun a b c hab hbc => by
      simp only [decide_eq_true_eq] at *
      exact UInt64.le_trans hab hbc) (fun a b => by
      simp only [Bool.or_eq_true, decide_eq_true_eq]
      exact UInt64.le_total _ _) results
  have hnodup : ((sortedByTask results).map taskNumber).Nodup :=
    ((List.mergeSort_perm results _).map taskNumber).nodup_iff.2 h
  refine (hle.and (List.pairwise_map.1 hnodup)).imp fun {a b} hab => ?_
  have hle := UInt64.le_iff_toNat_le.1 (of_decide_eq_true hab.1)
  exact UInt64.lt_iff_toNat_lt.2 (Nat.lt_of_le_of_ne hle hab.2)

theorem isSuccess_of_mem_passed {r : OperationResult}
    (h : r ∈ (ofResults stream submitted results).passed) : r.isSuccess = true :=
  (List.mem_filter.1 ((List.mergeSort_perm _ _).mem_iff.1 h)).2

theorem isSuccess_of_mem_failed {r : OperationResult}
    (h : r ∈ (ofResults stream submitted results).failed) : r.isSuccess = false := by
  have := (List.mem_filter.1 ((List.mergeSort_perm _ _).mem_iff.1 h)).2
  simpa using this

end FaultDrill.DriverReport
