import FaultDrill.Proofs.Pool.Accept
import FaultDrill.Proofs.Pool.Order

/-! # Pools that are let go

A pool that is let go and was not shut down goes on until its queue has run out. Its workers find no
sentinel there: each of them exits because nobody can put anything into the queue any more.
-/

namespace FaultDrill.Pool

variable {config : PoolConfig} {p p' q : Pool} {w : Nat} {v v' : WorkerStage} {m : Move}
  {ms : List Move}

/-- Workers put nothing into the queue. -/
theorem WorkerStep.queue_subset (h : WorkerStep p w m v v' q) : q.queue ⊆ p.queue := by
  cases h with
  | takeTask _ hq | takeStop _ hq =>
    rw [hq]
    exact List.subset_cons_self _ _
  | _ => exact List.Subset.refl _

/-- Only a shutdown puts sentinels into the queue. -/
theorem Run.stop_not_mem (h : Run config ms p) (hno : .shutdown ∉ requests ms) :
    .stop ∉ p.queue := by
  induction h with
  | start h =>
    rw [(start_eq h).2]
    exact List.not_mem_nil
  | @move ms p m p' hr hm ih =>
    have hno' : .shutdown ∉ requests ms := fun hmem =>
      hno (requests_snoc ms m ▸ List.mem_append_left _ hmem)
    have hqueue := ih hno'
    cases step_of_move? hm with
    | client _ hs hc =>
      cases hc with
      | enqueue =>
        change _ ∉ p.queue ++ [_]
        simpa using hqueue
      | enqueueStop =>
        exact (hno' (List.mem_of_getElem? (hr.shutdown_of_client hs fun _ => id))).elim
      | _ => exact hqueue
    | worker _ hw => exact fun hmem => hqueue (hw.queue_subset hmem)
    | call | detach | deafen => exact hqueue

/-- When a pool that was let go comes to rest, its workers have exited. -/
theorem Quiet.allExited_of_closed (hq : p.Quiet) (h : Run config ms p) (hn : p.NoneLost)
    (hopen : p.isOpen = false) : p.allExited = true := by
  by_contra hall
  obtain ⟨first, line, hl, hfirst⟩ := hq.first_in_line h hn hall
  have hstuck := hq.workers first
  cases hqueue : p.queue with
  | nil => simp [move?, stepWorker?, hfirst, dequeue, hl, hqueue, hopen] at hstuck
  | cons item queue => simp [move?, stepWorker?, hfirst, dequeue, hl, hqueue] at hstuck

theorem Quiet.exited_of_closed (hq : p.Quiet) (h : Run config ms p) (hn : p.NoneLost)
    (hopen : p.isOpen = false) (hv : v ∈ p.workers) : v = .exited false := by
  obtain ⟨w, hw⟩ := List.mem_iff_getElem?.1 hv
  have hexited := List.all_eq_true.1 (hq.allExited_of_closed h hn hopen) v hv
  rcases hq.worker_cases hn hw with rfl | rfl
  · cases hexited
  · rfl

/-- Nothing is left undone there. -/
theorem Quiet.empty_of_closed (hq : p.Quiet) (h : Run config ms p) (hn : p.NoneLost)
    (hopen : p.isOpen = false) (hno : .shutdown ∉ requests ms) :
    p.queue = [] ∧ p.held = [] ∧ p.executing = [] := by
  have hexited := hq.allExited_of_closed h hn hopen
  obtain ⟨n, hqueue⟩ := h.queue_of_exited hn hexited
  refine ⟨?_, ?_, ?_⟩
  · cases n with
    | zero => exact hqueue
    | succ n =>
      have hmem : .stop ∈ p.queue := hqueue ▸ List.mem_cons_self
      exact (h.stop_not_mem hno hmem).elim
  · refine List.filterMap_eq_nil_iff.2 fun v hv => ?_
    rw [hq.exited_of_closed h hn hopen hv]
    rfl
  · rw [← List.length_eq_zero_iff, length_executing, hq.running]

end FaultDrill.Pool
