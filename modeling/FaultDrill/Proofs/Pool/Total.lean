import FaultDrill.Proofs.Lists
import FaultDrill.Proofs.Pool.Run

/-! # What a pool holds

Permits, counted items and sentinels are with calls, with workers or in the queue. A weight
says how many of them there are at each place, and the total of a pool is their sum. No step
makes or loses any, so that the outstanding counter and the permits balance in every state.
-/

namespace FaultDrill.ClientStage

/-- The items that the call has counted and not queued. -/
def counts : ClientStage → Nat
  | counted _ | stopping (_ + 1) true => 1
  | _ => 0

/-- The permits that the call holds and has taken notice of. -/
def permits : ClientStage → Nat
  | permitted _ | awaitingRead _ | admitted _ | counted _ | refused => 1
  | _ => 0

end FaultDrill.ClientStage

namespace FaultDrill.WorkerStage

/-- The items that the worker has taken and not acknowledged, for ever if it is lost. -/
def counts : WorkerStage → Nat
  | holding _ | running _ _ _ _ | finished _ | reported | stopTaken | exited true => 1
  | _ => 0

def permits : WorkerStage → Nat
  | holding _ | running _ _ _ _ | finished _ | reported | acknowledged _ => 1
  | _ => 0

end FaultDrill.WorkerStage

namespace FaultDrill.QueueItem

def permits : QueueItem → Nat
  | run _ => 1
  | stop => 0

end FaultDrill.QueueItem

namespace FaultDrill.Gate

variable {g g' : Gate} {i : Nat}

/-- The permits that nobody has taken notice of. -/
def stock (g : Gate) : Nat := g.free + g.granted.length

theorem stock_take? (h : g.take? = some g') : g'.stock + 1 = g.stock := by
  unfold take? at h
  split at h
  · cases h
    simp only [stock]
    omega
  · cases h

theorem stock_giveBack : g.giveBack.stock = g.stock + 1 := by
  unfold giveBack stock
  split
  · simp only; omega
  · simp only [List.length_cons]; omega

theorem stock_notice (h : i ∈ g.granted) : (g.notice i).stock + 1 = g.stock := by
  have := List.length_pos_of_mem h
  simp only [stock, notice, List.length_erase_of_mem h]
  omega

theorem stock_leave : (g.leave i).stock = g.stock := by
  unfold leave
  split
  case isTrue h => rw [stock_giveBack, stock_notice h]
  case isFalse => rfl

end FaultDrill.Gate

namespace FaultDrill.Pool

/-- How many of something there are at each place. -/
structure Weight where
  client : ClientStage → Nat
  worker : WorkerStage → Nat
  item : QueueItem → Nat
  hear : ∀ s, client s.hear = client s := by intro s; cases s <;> rfl

def total (μ : Weight) (p : Pool) : Nat :=
  (p.clients.map μ.client).sum + (p.workers.map μ.worker).sum + (p.queue.map μ.item).sum

variable {config : PoolConfig} {p p' q : Pool} {i w : Nat} {s s' : ClientStage}
  {v v' : WorkerStage} {m : Move} {ms : List Move} {μ : Weight}

/-- What the call gains or loses, the queue aside, the pool gains or loses. -/
theorem ClientStep.total (μ : Weight) (hs : p.clients[i]? = some s) (h : ClientStep p i s s' q) :
    (q.setClient i s').total μ + μ.client s + (p.queue.map μ.item).sum =
      p.total μ + μ.client s' + (q.queue.map μ.item).sum := by
  have hw : (q.setClient i s').workers = p.workers := h.workers_eq
  have hq : (q.setClient i s').queue = q.queue := rfl
  have hsum := sum_set (getElem?_map_eq μ.client hs) (μ.client s')
  unfold Pool.total
  rw [h.map_role μ.hear, hw, hq]
  omega

theorem WorkerStep.total (μ : Weight) (hv : p.workers[w]? = some v)
    (h : WorkerStep p w m v v' q) :
    (q.setWorker w v').total μ + μ.worker v + (p.queue.map μ.item).sum =
      p.total μ + μ.worker v' + (q.queue.map μ.item).sum := by
  have hq : (q.setWorker w v').queue = q.queue := rfl
  have hw : (q.setWorker w v').workers = p.workers.set w v' := by rw [setWorker, h.workers_eq]
  have hsum := sum_set (getElem?_map_eq μ.worker hv) (μ.worker v')
  unfold Pool.total
  rw [h.map_role μ.hear, hw, hq, List.map_set]
  omega

theorem total_call {request : Request} : (p.call request).total μ =
    p.total μ + μ.client request.stage := by
  simp only [Pool.total, Pool.call, List.map_append, List.map_cons, List.map_nil,
    List.sum_append, List.sum_cons, List.sum_nil]
  omega

/-! ## The counter -/

def counting : Weight where
  client := ClientStage.counts
  worker := WorkerStage.counts
  item _ := 1

theorem Step.outstanding_eq (h : Step p m p') (hp : p.outstanding = p.total counting) :
    p'.outstanding = p'.total counting := by
  cases h with
  | @call request => rw [total_call]; cases request <;> exact hp
  | @client i s s' q _ _ hs hc =>
    have ht := hc.total counting hs
    rw [← hp] at ht
    change q.outstanding = _
    generalize (q.setClient i s').total counting = t at ht ⊢
    cases hc <;>
      simp [counting, ClientStage.counts, releaseLatch, giveBackPermit, uncount] at ht ⊢ <;>
      omega
  | @worker w v v' q _ hv hw =>
    have ht := hw.total counting hv
    rw [← hp] at ht
    change q.outstanding = _
    generalize (q.setWorker w v').total counting = t at ht ⊢
    cases hw with
    | takeTask hl hq | takeStop hl hq =>
      simp only [counting, WorkerStage.counts, hq, List.map_cons, List.sum_cons] at ht ⊢
      omega
    | _ =>
      simp [counting, WorkerStage.counts, giveBackPermit, announceIdle] at ht ⊢
      omega
  | detach | deafen => exact hp

/-- The counter is the number of items that are queued or counted and about to be queued, and of
those that a worker has taken and not acknowledged. -/
theorem Run.outstanding_eq (h : Run config ms p) : p.outstanding = p.total counting := by
  induction h with
  | start h => simp [(start_eq h).2, Pool.total, counting, WorkerStage.counts]
  | move _ hm ih => exact (step_of_move? hm).outstanding_eq ih

/-! ## Permits -/

def permits : Weight where
  client := ClientStage.permits
  worker := WorkerStage.permits
  item := QueueItem.permits

/-- A call takes its permits from the gate and from nowhere else, and it leaves them at the gate or
with the task in the queue. -/
theorem ClientStep.stock {g : Gate} (h : ClientStep p i s s' q) (hg : p.gate = some g) :
    ∃ g', q.gate = some g' ∧
      g'.stock + s'.permits + (q.queue.map QueueItem.permits).sum =
        g.stock + s.permits + (p.queue.map QueueItem.permits).sum := by
  have same {gate : Gate} (h : p.gate = some gate) : gate = g := Option.some.inj (h ▸ hg)
  cases h with
  | needNoPermit h => rw [h] at hg; cases hg
  | takePermit h ht =>
    cases same h
    exact ⟨_, rfl, by simp only [ClientStage.permits, ← Gate.stock_take? ht]⟩
  | waitPermit h => cases same h; exact ⟨_, rfl, rfl⟩
  | turnAway h =>
    cases same h
    exact ⟨_, rfl, by simp only [ClientStage.permits, Gate.stock_leave]⟩
  | noticePermit h hi =>
    cases same h
    exact ⟨_, rfl, by simp only [ClientStage.permits, ← Gate.stock_notice hi]⟩
  | enqueue =>
    refine ⟨g, hg, ?_⟩
    simp [ClientStage.permits, QueueItem.permits, releaseLatch]
    omega
  | enqueueStop =>
    refine ⟨g, hg, ?_⟩
    simp [ClientStage.permits, QueueItem.permits]
  | findNobody =>
    refine ⟨_, congrArg (Option.map Gate.giveBack) hg, ?_⟩
    simp only [ClientStage.permits, Gate.stock_giveBack, giveBackPermit, releaseLatch, uncount]
  | giveBack =>
    refine ⟨_, congrArg (Option.map Gate.giveBack) hg, ?_⟩
    simp only [ClientStage.permits, Gate.stock_giveBack, giveBackPermit]
  | abandonPermit =>
    refine ⟨_, congrArg (Option.map _) hg, ?_⟩
    simp only [ClientStage.permits, Gate.stock_leave]
  | abandonRead =>
    refine ⟨_, congrArg (Option.map Gate.giveBack) hg, ?_⟩
    simp only [ClientStage.permits, Gate.stock_giveBack, giveBackPermit]
  | close => exact ⟨_, congrArg (Option.map Gate.close) hg, rfl⟩
  | _ => exact ⟨g, hg, rfl⟩

theorem WorkerStep.stock {g : Gate} (h : WorkerStep p w m v v' q) (hg : p.gate = some g) :
    ∃ g', q.gate = some g' ∧
      g'.stock + v'.permits + (q.queue.map QueueItem.permits).sum =
        g.stock + v.permits + (p.queue.map QueueItem.permits).sum := by
  cases h with
  | takeTask hl hq | takeStop hl hq =>
    refine ⟨g, hg, ?_⟩
    simp only [WorkerStage.permits, QueueItem.permits, hq, List.map_cons, List.sum_cons]
    omega
  | crash | giveBack =>
    refine ⟨_, congrArg (Option.map Gate.giveBack) hg, ?_⟩
    simp only [WorkerStage.permits, Gate.stock_giveBack, giveBackPermit]
  | _ => exact ⟨g, hg, rfl⟩

theorem ClientStep.gate_eq_none (h : ClientStep p i s s' q) (hg : p.gate = none) :
    q.gate = none := by
  cases h <;> simp_all [releaseLatch, giveBackPermit, uncount]

theorem WorkerStep.gate_eq_none (h : WorkerStep p w m v v' q) (hg : p.gate = none) :
    q.gate = none := by
  cases h <;> simp_all [giveBackPermit, announceIdle]

/-- Free permits, granted ones and those that are held make up the capacity. -/
def Balanced (capacity : Nat) (p : Pool) : Prop :=
  (capacity = 0 ∧ p.gate = none) ∨ 0 < capacity ∧
    ∃ g, p.gate = some g ∧ g.stock + p.total permits = capacity

theorem Step.balanced {capacity : Nat} (h : Step p m p') (hp : p.Balanced capacity) :
    p'.Balanced capacity := by
  rcases hp with ⟨hc, hg⟩ | ⟨hc, g, hg, hp⟩
  · refine .inl ⟨hc, ?_⟩
    cases h with
    | client _ _ hs => exact hs.gate_eq_none hg
    | worker _ hs => exact hs.gate_eq_none hg
    | _ => exact hg
  · refine .inr ⟨hc, ?_⟩
    cases h with
    | @call request => exact ⟨g, hg, by rw [total_call]; cases request <;> exact hp⟩
    | client _ hs hc =>
      obtain ⟨g', hg', hstock⟩ := hc.stock hg
      have := hc.total permits hs
      refine ⟨g', hg', ?_⟩
      simp only [permits] at this hp ⊢
      omega
    | worker hv hs =>
      obtain ⟨g', hg', hstock⟩ := hs.stock hg
      have := hs.total permits hv
      refine ⟨g', hg', ?_⟩
      simp only [permits] at this hp ⊢
      omega
    | detach | deafen => exact ⟨g, hg, hp⟩

theorem Run.balanced (h : Run config ms p) : p.Balanced config.queueCapacity.toNat := by
  induction h with
  | start h =>
    rw [(start_eq h).2]
    by_cases hc : config.queueCapacity = 0
    · exact .inl ⟨by simp [hc], by simp [hc]⟩
    · refine .inr ⟨Nat.pos_of_ne_zero fun h => hc (UInt64.toNat_inj.1 h), _, if_neg hc, ?_⟩
      simp [Gate.stock, Pool.total, permits, WorkerStage.permits]
  | move _ hm ih => exact (step_of_move? hm).balanced ih

end FaultDrill.Pool
