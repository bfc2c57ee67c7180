import Mathlib.Algebra.Order.BigOperators.Group.List
import Mathlib.Algebra.Order.Group.Nat
import FaultDrill.Proofs.Pool.Flag

/-! # Bounds of a pool

What is outstanding is tasks and sentinels. Every task that is counted holds a permit, so that
the capacity bounds the tasks, and a sentinel is counted for a worker that has yet to take it, so
that the workers bound the sentinels. The bounds hold between any two steps.
-/

namespace FaultDrill.ClientStage

/-- The tasks that the call has counted and is about to queue. -/
def tasks : ClientStage → Nat
  | counted _ => 1
  | _ => 0

/-- The sentinels that the call has counted and is about to queue. -/
def sentinels : ClientStage → Nat
  | stopping (_ + 1) true => 1
  | _ => 0

/-- The items that the call counts next; a task is counted only while the flag is down. -/
def counting (isUp : Bool) : ClientStage → Nat
  | admitted _ => if isUp then 0 else 1
  | stopping (_ + 1) false => 1
  | _ => 0

end FaultDrill.ClientStage

namespace FaultDrill.WorkerStage

/-- The tasks that the worker has taken and not acknowledged. -/
def tasks : WorkerStage → Nat
  | holding _ | running _ _ _ _ | finished _ | reported => 1
  | _ => 0

/-- The sentinels that the worker has taken and not acknowledged. -/
def sentinels : WorkerStage → Nat
  | stopTaken => 1
  | _ => 0

/-- The items that the worker acknowledges next. -/
def acknowledging : WorkerStage → Nat
  | reported | stopTaken => 1
  | _ => 0

theorem acknowledging_le (v : WorkerStage) : v.acknowledging ≤ v.counts := by
  cases v <;> simp [acknowledging, counts]

end FaultDrill.WorkerStage

namespace FaultDrill.Pool

variable {config : PoolConfig} {p p' q : Pool} {i w : Nat} {s s' : ClientStage}
  {v v' : WorkerStage} {m : Move} {ms : List Move} {μ ν : Weight}

/-- The tasks that are counted as outstanding. -/
def tasks : Weight where
  client := ClientStage.tasks
  worker := WorkerStage.tasks
  item := QueueItem.permits

/-- The sentinels that are counted as outstanding. -/
def sentinels : Weight where
  client := ClientStage.sentinels
  worker := WorkerStage.sentinels
  item := QueueItem.stops

theorem total_mono (hc : ∀ s, μ.client s ≤ ν.client s) (hw : ∀ v, μ.worker v ≤ ν.worker v)
    (hi : ∀ item, μ.item item ≤ ν.item item) : p.total μ ≤ p.total ν :=
  Nat.add_le_add
    (Nat.add_le_add (List.sum_le_sum fun s _ => hc s) (List.sum_le_sum fun v _ => hw v))
    (List.sum_le_sum fun item _ => hi item)

/-! ## Tasks and sentinels -/

theorem NoneLost.counts_eq (hn : p.NoneLost) (hv : v ∈ p.workers) :
    v.counts = v.tasks + v.sentinels := by
  cases v with
  | exited lost =>
    cases lost with
    | false => rfl
    | true =>
      obtain ⟨w, hw⟩ := List.mem_iff_getElem?.1 hv
      exact absurd hw (hn w)
  | _ => rfl

/-- What is outstanding is tasks and sentinels. -/
theorem NoneLost.total_counting (hn : p.NoneLost) :
    p.total counting = p.total tasks + p.total sentinels := by
  have hclients : (p.clients.map ClientStage.counts).sum =
      (p.clients.map ClientStage.tasks).sum + (p.clients.map ClientStage.sentinels).sum := by
    refine sum_map_eq_add fun s _ => ?_
    cases s with
    | stopping left isCounted => cases left <;> cases isCounted <;> rfl
    | _ => rfl
  have hworkers : (p.workers.map WorkerStage.counts).sum =
      (p.workers.map WorkerStage.tasks).sum + (p.workers.map WorkerStage.sentinels).sum :=
    sum_map_eq_add fun v hv => hn.counts_eq hv
  have hqueue : (p.queue.map fun _ => 1).sum =
      (p.queue.map QueueItem.permits).sum + (p.queue.map QueueItem.stops).sum := by
    refine sum_map_eq_add fun item _ => ?_
    cases item <;> rfl
  simp only [total, counting, tasks, sentinels, hclients, hworkers, hqueue]
  omega

/-- A task that is counted has a permit. -/
theorem total_tasks_le : p.total tasks ≤ p.total permits := by
  refine total_mono (fun s => ?_) (fun v => ?_) fun _ => Nat.le_refl _
  · cases s <;> simp [tasks, permits, ClientStage.tasks, ClientStage.permits]
  · cases v <;> simp [tasks, permits, WorkerStage.tasks, WorkerStage.permits]

/-- A sentinel that is counted is one that a worker is due to take or has taken. -/
theorem total_sentinels_le : p.total sentinels ≤ p.total stops := by
  refine total_mono (fun s => ?_) (fun v => ?_) fun _ => Nat.le_refl _
  · cases s with
    | stopping left isCounted =>
      cases left <;> cases isCounted <;> simp [sentinels, stops, ClientStage.sentinels,
        ClientStage.stops]
    | _ => exact Nat.zero_le _
  · cases v <;> simp [sentinels, stops, WorkerStage.sentinels, WorkerStage.stops]

/-- A handler executes a task that is counted. -/
theorem runningCount_le : p.runningCount ≤ p.total tasks := by
  have hle : p.runningCount ≤ (p.workers.map WorkerStage.tasks).sum := by
    unfold runningCount
    induction p.workers with
    | nil => exact Nat.le_refl 0
    | cons v vs ih =>
      rw [List.countP_cons, List.map_cons, List.sum_cons]
      cases v <;> simp [WorkerStage.isRunning, WorkerStage.tasks] <;> omega
  unfold total
  simp only [tasks]
  omega

theorem ClientStep.sentinels_le (h : ClientStep p i s s' q) (hf : q.shutDown = false)
    (hs : s.leads = none) :
    s'.sentinels + (q.queue.map QueueItem.stops).sum =
      s.sentinels + (p.queue.map QueueItem.stops).sum := by
  cases h with
  | raise => cases hf
  | enqueue => simp [ClientStage.sentinels, QueueItem.stops, releaseLatch]
  | countStop | enqueueStop | loseStop | drain => cases hs
  | _ => rfl

/-- No sentinel is counted while the flag is down. -/
theorem Run.sentinels_eq_zero (h : Run config ms p) (hf : p.shutDown = false) :
    p.total sentinels = 0 := by
  induction h with
  | start h => simp [(start_eq h).2, total, sentinels, WorkerStage.sentinels]
  | @move ms p m p' hr hm ih =>
    have hstep := step_of_move? hm
    have hdown : p.shutDown = false := by
      by_contra hup
      rw [hstep.shutDown_mono (by simpa using hup)] at hf
      cases hf
    have hzero := ih hdown
    cases hstep with
    | @call request => rw [total_call]; cases request <;> exact hzero
    | @client i s s' q _ hm hs hc =>
      have hleads : s.leads = none := by
        cases hleads : s.leads with
        | none => rfl
        | some =>
          rw [(hr.leads ((role_eq hs).trans hleads)).1] at hdown
          cases hdown
      have ht := hc.total sentinels hs
      have hqueue := hc.sentinels_le hf hleads
      simp only [sentinels] at ht hqueue hzero ⊢
      omega
    | @worker w v v' q _ hv hw =>
      have ht := hw.total sentinels hv
      rw [hzero] at ht
      generalize (q.setWorker w v').total sentinels = t at ht ⊢
      cases hw with
      | takeTask hl hq | takeStop hl hq =>
        simp only [sentinels, WorkerStage.sentinels, QueueItem.stops, hq, List.map_cons,
          List.sum_cons] at ht
        omega
      | _ =>
        simp only [sentinels, WorkerStage.sentinels, giveBackPermit, announceIdle] at ht
        omega
    | detach | deafen => exact hzero

theorem Run.total_sentinels_le (h : Run config ms p) (hn : p.NoneLost) :
    p.total sentinels ≤ p.workers.length := by
  cases hf : p.shutDown with
  | false =>
    rw [h.sentinels_eq_zero hf]
    exact Nat.zero_le _
  | true =>
    have hstaffed := h.staffed hn (.inr hf)
    rw [if_pos hf] at hstaffed
    exact hstaffed ▸ Pool.total_sentinels_le

/-! ## The counter -/

/-- The items that the move adds to the counter. -/
def counts (p : Pool) : Move → Nat
  | .client i => (p.clients[i]?).elim 0 (ClientStage.counting p.shutDown)
  | _ => 0

/-- The items that the move takes off the counter: those that a worker acknowledges, and one that
its call has counted and finds nobody to take. -/
def uncounts (p : Pool) : Move → Nat
  | .worker w => (p.workers[w]?).elim 0 WorkerStage.acknowledging
  | .client i => if p.allExited then (p.clients[i]?).elim 0 ClientStage.counts else 0
  | _ => 0

theorem Run.counts_le_of_client (h : Run config ms p) (hs : p.clients[i]? = some s) :
    s.counts ≤ p.outstanding := by
  rw [h.outstanding_eq]
  exact Nat.le_trans (Nat.le_trans (Nat.le_add_right _ _) (Nat.le_add_right _ _))
    (le_total_client counting hs)

theorem Run.counts_le_of_worker (h : Run config ms p) (hv : p.workers[w]? = some v) :
    v.counts ≤ p.outstanding := by
  have hsum := sum_set (getElem?_map_eq WorkerStage.counts hv) 0
  rw [h.outstanding_eq]
  simp only [total, counting]
  omega

/-- What is taken off the counter has been counted. -/
theorem Run.uncounts_le (h : Run config ms p) (m : Move) : p.uncounts m ≤ p.outstanding := by
  cases m with
  | worker w =>
    cases hv : p.workers[w]? with
    | none => simp [uncounts, hv]
    | some v =>
      simp only [uncounts, hv, Option.elim_some]
      exact Nat.le_trans v.acknowledging_le (h.counts_le_of_worker hv)
  | client i =>
    cases hs : p.clients[i]? with
    | none => simp [uncounts, hs]
    | some s =>
      have hle := h.counts_le_of_client hs
      simp only [uncounts, hs, Option.elim_some]
      split <;> omega
  | _ => exact Nat.zero_le _

theorem ClientStep.outstanding_add (h : ClientStep p i s s' q) (hs : s.counts ≤ p.outstanding) :
    q.outstanding + (if p.allExited then s.counts else 0) =
      p.outstanding + s.counting p.shutDown := by
  cases h with
  | refuse hf | count hf => simp [ClientStage.counts, ClientStage.counting, releaseLatch, hf]
  | enqueue hall | enqueueStop hall =>
    simp [ClientStage.counting, releaseLatch, hall]
  | findNobody hall | loseStop hall =>
    simp only [ClientStage.counts] at hs
    simp [ClientStage.counts, ClientStage.counting, hall, uncount, releaseLatch, giveBackPermit]
    omega
  | @drain isCounted => cases isCounted <;> simp [ClientStage.counts, ClientStage.counting]
  | _ => simp [ClientStage.counts, ClientStage.counting, releaseLatch, giveBackPermit]

theorem WorkerStep.outstanding_add (h : WorkerStep p w m v v' q) (hv : v.counts ≤ p.outstanding) :
    q.outstanding + v.acknowledging = p.outstanding := by
  cases h with
  | acknowledge | acknowledgeStop =>
    simp only [WorkerStage.counts] at hv
    simp only [WorkerStage.acknowledging]
    omega
  | _ => rfl

/-- Every move changes the counter by what it counts and what it takes back. -/
theorem Run.outstanding_add (h : Run config ms p) (hm : p.move? m = some p') :
    p'.outstanding + p.uncounts m = p.outstanding + p.counts m := by
  cases step_of_move? hm with
  | @client i s s' q _ hm' hs hc =>
    rcases hm' with ⟨rfl, -⟩ | rfl
    · change q.outstanding + _ = _
      simpa [counts, uncounts, hs] using hc.outstanding_add (h.counts_le_of_client hs)
    · have hdropped := (hc.stage_eq hs).symm.trans (dropped_of_abandon hm)
      obtain rfl : s' = .dropped := Option.some.inj hdropped
      cases hc <;> rfl
  | @worker w v v' q _ hv hw =>
    have hadd := hw.outstanding_add (h.counts_le_of_worker hv)
    cases hw with
    | start | finish | crash => rfl
    | _ =>
      simp only [counts, uncounts, hv, Option.elim_some]
      exact hadd
  | call | detach | deafen => rfl

/-! ## The bounds -/

/-- What bounds a pool that was started with this configuration. The counter is what the tasks and
the sentinels add up to that are queued, about to be queued, or with a worker that has yet to
acknowledge them. -/
structure InBounds (config : PoolConfig) (p : Pool) : Prop where
  running_le : p.runningCount ≤ config.workers.toNat
  /-- Every permit is free, or with a submission that waits, or with a task that is queued or
  executed. Those that were granted and not noticed are with submissions that wait for them. -/
  permits_eq : 0 < config.queueCapacity.toNat → ∃ g, p.gate = some g ∧
    g.free + (g.granted.length + p.total permits) = config.queueCapacity.toNat ∧
    g.granted.Nodup ∧ ∀ i ∈ g.granted, ∃ task, p.clients[i]? = some (.awaitingPermit task)
  tasks_le : 0 < config.queueCapacity.toNat → p.total tasks ≤ config.queueCapacity.toNat
  running_le_min : 0 < config.queueCapacity.toNat →
    p.runningCount ≤ min config.workers.toNat config.queueCapacity.toNat
  outstanding_eq : p.outstanding = p.total tasks + p.total sentinels
  outstanding_move : ∀ m p', p.move? m = some p' →
    p'.outstanding + p.uncounts m = p.outstanding + p.counts m
  /-- Nothing is taken off the counter when it is at zero. -/
  uncounts_le : ∀ m, p.uncounts m ≤ p.outstanding
  before_shutdown : 0 < config.queueCapacity.toNat → p.shutDown = false →
    p.outstanding ≤ config.queueCapacity.toNat
  after_shutdown : 0 < config.queueCapacity.toNat →
    p.outstanding ≤ config.queueCapacity.toNat + config.workers.toNat

theorem Run.permits_eq (h : Run config ms p) (hc : 0 < config.queueCapacity.toNat) :
    ∃ g, p.gate = some g ∧
      g.free + (g.granted.length + p.total permits) = config.queueCapacity.toNat ∧
      g.granted.Nodup ∧ ∀ i ∈ g.granted, ∃ task, p.clients[i]? = some (.awaitingPermit task) := by
  rcases h.balanced with ⟨hzero, -⟩ | ⟨-, g, hg, hbalance⟩
  · omega
  · have hk := h.gateKept.served g hg
    refine ⟨g, hg, ?_, (List.nodup_append.1 hk.nodup).2.1, fun i hi => ?_⟩
    · rw [← Nat.add_assoc]
      exact hbalance
    · obtain ⟨s, hs, hqueues⟩ :=
        role_eq_some_iff.1 ((hk.waits_iff i).2 (List.mem_append_right _ hi))
      cases s with
      | awaitingPermit task => exact ⟨task, hs⟩
      | _ => cases hqueues

/-- In every state that a pool comes to, at most as many handlers execute as there are workers and
permits, and no more tasks are outstanding than there are permits. -/
theorem Run.inBounds (h : Run config ms p)
    (fits : ∀ task, .submit task ∈ requests ms → task.operation.Fits) : p.InBounds config := by
  have hn := h.noneLost fits
  have hworkers := h.workers_length.1
  have hrunning : p.runningCount ≤ config.workers.toNat := hworkers ▸ List.countP_le_length
  have htasks (hc : 0 < config.queueCapacity.toNat) :
      p.total tasks ≤ config.queueCapacity.toNat := by
    obtain ⟨g, -, hpermits, -⟩ := h.permits_eq hc
    have := total_tasks_le (p := p)
    omega
  have houtstanding := h.outstanding_eq.trans hn.total_counting
  have hsentinels := h.total_sentinels_le hn
  refine {
    running_le := hrunning
    permits_eq := h.permits_eq
    tasks_le := htasks
    running_le_min := fun hc => le_min hrunning (Nat.le_trans runningCount_le (htasks hc))
    outstanding_eq := houtstanding
    outstanding_move := fun m p' hm => h.outstanding_add hm
    uncounts_le := h.uncounts_le
    before_shutdown := fun hc hf => ?_
    after_shutdown := fun hc => ?_ }
  · rw [houtstanding, h.sentinels_eq_zero hf]
    exact htasks hc
  · have := htasks hc
    omega

/-- In the middle of the trial the only worker executes the only task, and a shutdown has been
called. -/
theorem inBounds_trial : ∃ p,
    Run { workers := 1, queueCapacity := 1 } (trial.take 10) p ∧
      (∀ task, .submit task ∈ requests (trial.take 10) → task.operation.Fits) ∧
      p.runningCount = 1 ∧ p.outstanding = 1 ∧
      p.InBounds { workers := 1, queueCapacity := 1 } := by
  have h := Run.of_moves? start_trial (show trialStart.moves? (trial.take 10) = some _ from rfl)
  exact ⟨_, h, fits_trial, rfl, rfl, Run.inBounds h fits_trial⟩

end FaultDrill.Pool
