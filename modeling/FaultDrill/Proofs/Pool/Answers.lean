import FaultDrill.Proofs.Pool.Sentinel

/-! # What a pool has answers for

A request whose handler has ended has its result with a worker or among the results. A move of a
pool that is heard and loses no worker drops none of them, and the end of a handler adds one.
-/

namespace FaultDrill.WorkerStage

/-- The result that the worker is about to send. -/
def answers : WorkerStage → Nat
  | finished _ => 1
  | _ => 0

end FaultDrill.WorkerStage

namespace FaultDrill.Pool

/-- The results that were sent or are about to be. -/
def answers (p : Pool) : Nat := p.results.length + (p.workers.map WorkerStage.answers).sum

/-- The handlers that end with the move. -/
def Move.answers : Move → Nat
  | finish _ _ _ => 1
  | _ => 0

variable {p p' q : Pool} {w : Nat} {m : Move} {v v' : WorkerStage}

theorem answers_of_start {name : String} {config : PoolConfig} (h : start name config = .ok p) :
    p.answers = 0 := by
  rw [(start_eq h).2]
  simp [answers, WorkerStage.answers]

theorem workers_lt_of_start {name : String} {config : PoolConfig}
    (h : start name config = .ok p) : p.workers.length < workerLimit := by
  unfold start at h
  split at h
  case isTrue => cases h
  case isFalse =>
    split at h
    case isTrue => cases h
    case isFalse =>
      split at h
      case isTrue => cases h
      case isFalse hlimit =>
        cases h
        rw [List.length_replicate]
        exact Nat.lt_of_not_le hlimit

theorem Run.workers_lt {config : PoolConfig} {ms : List Move} (h : Run config ms p) :
    p.workers.length < workerLimit := by
  induction h with
  | start h => exact workers_lt_of_start h
  | move _ hm ih => rwa [(step_of_move? hm).workers_length]

theorem answers_le (p : Pool) : p.answers ≤ p.results.length + p.workers.length := by
  have hsum : (p.workers.map WorkerStage.answers).sum ≤
      (p.workers.map WorkerStage.answers).length :=
    sum_le_length fun n hn => by
      obtain ⟨v, -, rfl⟩ := List.mem_map.1 hn
      cases v <;> simp [WorkerStage.answers]
  rw [List.length_map] at hsum
  exact Nat.add_le_add_left hsum _

/-- A worker keeps its answer or hands it over, unless a handler ends. -/
theorem WorkerStep.answers (h : WorkerStep p w m v v' q) (heard : p.isHeard = true)
    (hv' : v' ≠ .exited true) :
    q.results.length + v'.answers = p.results.length + v.answers + m.answers := by
  cases h with
  | crash => exact (hv' rfl).elim
  | report => simp [heard, WorkerStage.answers, Move.answers]
  | _ => rfl

theorem Step.answers (h : Step p m p') (heard : p.isHeard = true) (hn : p'.NoneLost) :
    p'.answers = p.answers + m.answers := by
  cases h with
  | client hm _ hc =>
    have hzero : m.answers = 0 := by
      rcases hm with ⟨rfl, -⟩ | rfl <;> rfl
    simp only [Pool.answers, setClient, hc.results_eq, hc.workers_eq, hzero, Nat.add_zero]
  | @worker w v v' q _ hv hw =>
    have hlt : w < q.workers.length := hw.workers_eq ▸ (List.getElem?_eq_some_iff.1 hv).1
    have hv' : v' ≠ .exited true := by
      rintro rfl
      exact hn w (List.getElem?_set_self hlt)
    have hanswers := hw.answers heard hv'
    have hset := sum_set (getElem?_map_eq WorkerStage.answers hv) v'.answers
    simp only [Pool.answers, setWorker, hw.workers_eq, List.map_set]
    omega
  | call | detach | deafen => rfl

end FaultDrill.Pool
