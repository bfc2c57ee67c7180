import FaultDrill.Proofs.Pool.Shutdown

/-! # Sentinels

A shutdown queues a sentinel for every worker. No task comes behind a sentinel, and unless
a worker is torn down by a crash every worker gets one of its own.
-/

namespace FaultDrill.ClientStage

/-- The sentinels that the call has still to queue. -/
def stops : ClientStage → Nat
  | stopping left _ => left
  | _ => 0

end FaultDrill.ClientStage

namespace FaultDrill.WorkerStage

/-- The sentinels that the worker has taken. -/
def stops : WorkerStage → Nat
  | stopTaken | stopAcknowledged _ | exited false => 1
  | _ => 0

theorem stops_le (v : WorkerStage) : v.stops ≤ 1 := by
  cases v with
  | exited lost => cases lost <;> simp [stops]
  | _ => simp [stops]

end FaultDrill.WorkerStage

namespace FaultDrill.QueueItem

def stops : QueueItem → Nat
  | run _ => 0
  | stop => 1

end FaultDrill.QueueItem

namespace FaultDrill.Pool

variable {config : PoolConfig} {p p' q : Pool} {i w : Nat} {s s' : ClientStage}
  {v v' : WorkerStage} {m : Move} {ms : List Move}

def stops : Weight where
  client := ClientStage.stops
  worker := WorkerStage.stops
  item := QueueItem.stops

theorem le_total_client (μ : Weight) (hs : p.clients[i]? = some s) :
    μ.client s + (p.workers.map μ.worker).sum + (p.queue.map μ.item).sum ≤ p.total μ := by
  have := sum_set (getElem?_map_eq μ.client hs) 0
  unfold total
  omega

theorem sum_le_length {xs : List Nat} (h : ∀ n ∈ xs, n ≤ 1) : xs.sum ≤ xs.length := by
  induction xs with
  | nil => exact Nat.le_refl 0
  | cons n xs ih =>
    have hn := h n List.mem_cons_self
    have hxs := ih fun m hm => h m (List.mem_cons_of_mem n hm)
    simp only [List.sum_cons, List.length_cons]
    omega

theorem sum_stops_lt (hv : p.workers[w]? = some v) (h : v.stops = 0) :
    (p.workers.map WorkerStage.stops).sum < p.workers.length := by
  have hset := sum_set (getElem?_map_eq WorkerStage.stops hv) 1
  have hle : ((p.workers.map WorkerStage.stops).set w 1).sum ≤
      ((p.workers.map WorkerStage.stops).set w 1).length := by
    apply sum_le_length
    intro n hn
    rcases List.mem_or_eq_of_mem_set hn with hn | rfl
    · obtain ⟨v, -, rfl⟩ := List.mem_map.1 hn
      exact v.stops_le
    · exact Nat.le_refl 1
  rw [List.length_set, List.length_map] at hle
  omega

theorem sum_stops_eq (h : p.allExited = true) (hn : p.NoneLost) :
    (p.workers.map WorkerStage.stops).sum = p.workers.length := by
  have : p.workers.map WorkerStage.stops = List.replicate p.workers.length 1 := by
    refine List.eq_replicate_iff.2 ⟨List.length_map _, ?_⟩
    intro n hm
    obtain ⟨v, hv, rfl⟩ := List.mem_map.1 hm
    have hex := List.all_eq_true.1 h v hv
    obtain ⟨w, hw⟩ := List.mem_iff_getElem?.1 hv
    cases v with
    | exited lost =>
      cases lost with
      | false => rfl
      | true => exact absurd hw (hn w)
    | _ => cases hex
  rw [this, List.sum_replicate_nat, Nat.mul_one]

theorem Run.isOpen_of_client (h : Run config ms p) (hs : p.clients[i]? = some s)
    (hover : s.isOver = false) : p.isOpen = true := by
  by_contra ho
  rw [h.isOver (by simpa using ho) hs] at hover
  cases hover

theorem Run.open_or_shut (h : Run config ms p) (hstep : Step p m p')
    (ho : p'.isOpen = true ∨ p'.shutDown = true) : p.isOpen = true ∨ p.shutDown = true := by
  cases hstep with
  | client _ hs hc => exact .inl (h.isOpen_of_client hs hc.not_isOver)
  | worker _ hw => exact hw.isOpen_eq ▸ hw.shutDown_eq ▸ ho
  | detach => exact .inr (ho.resolve_left Bool.false_ne_true)
  | _ => exact ho

/-- The sentinels in the queue, taken or still to be queued are as many as the workers once the
flag is up. -/
def Staffed (p : Pool) : Prop :=
  p.isOpen = true ∨ p.shutDown = true →
    p.total stops = if p.shutDown then p.workers.length else 0

/-- While a sentinel is still to be queued, there is a worker to take it. -/
theorem Staffed.not_allExited (hp : p.Staffed) (hn : p.NoneLost)
    (ho : p.isOpen = true ∨ p.shutDown = true) {left : Nat} {isCounted : Bool}
    (hs : p.clients[i]? = some (.stopping (left + 1) isCounted)) : ¬p.allExited = true := by
  intro hall
  have hle := le_total_client stops hs
  have hsum := sum_stops_eq hall hn
  rw [hp ho] at hle
  simp only [stops, ClientStage.stops] at hle
  split at hle <;> omega

/-- No worker finds a pool over that was shut down. -/
theorem Run.not_over (h : Run config ms p) (hp : p.Staffed) (hf : p.shutDown = true)
    (hw : p.workers[w]? = some .lined) (hq : p.queue = []) : p.isOpen = true := by
  by_contra ho
  have htotal := hp (.inr hf)
  rw [if_pos hf] at htotal
  have hclients : (p.clients.map ClientStage.stops).sum = 0 := by
    apply sum_map_eq_zero
    intro i s hi
    have := h.isOver (by simpa using ho) hi
    cases s <;> first | rfl | cases this
  have hworkers := sum_stops_lt hw rfl
  simp only [total, stops, hq, hclients, List.map_nil, List.sum_nil] at htotal
  omega

theorem Run.staffed_step (h : Run config ms p) (hstep : Step p m p') (hn : p.NoneLost)
    (hp : p.Staffed) : p'.Staffed := by
  intro ho
  have hactive := h.open_or_shut hstep ho
  have hbefore := hp hactive
  cases hstep with
  | @call request => rw [total_call]; cases request <;> exact hbefore
  | @client i s s' q _ hm hs hc =>
    have ht := hc.total stops hs
    change _ = if q.shutDown then q.workers.length else 0
    generalize (q.setClient i s').total stops = t at ht ⊢
    rw [hbefore] at ht
    rw [hc.workers_eq]
    cases hc with
    | raise hf =>
      simp [hf, stops, ClientStage.stops, releaseLatch, workerCount] at ht ⊢
      omega
    | findRaised hf =>
      simp [hf, stops, ClientStage.stops, releaseLatch] at ht ⊢
      omega
    | loseStop hall => exact absurd hall (hp.not_allExited hn hactive hs)
    | _ =>
      simp [stops, ClientStage.stops, QueueItem.stops, releaseLatch, giveBackPermit, uncount]
        at ht ⊢
      first | exact ht | omega
  | @worker w v v' q _ hv hw =>
    have ht := hw.total stops hv
    change _ = if q.shutDown then (q.workers.set w v').length else 0
    generalize (q.setWorker w v').total stops = t at ht ⊢
    rw [hw.workers_eq, hw.shutDown_eq, List.length_set, ← hbefore]
    generalize p.total stops = before at ht ⊢
    cases hw with
    | takeTask hl hq | takeStop hl hq =>
      simp only [stops, WorkerStage.stops, QueueItem.stops, hq, List.map_cons, List.sum_cons] at ht
      omega
    | findOver hl hq hclosed =>
      rcases hactive with hopen | hf
      · rw [hclosed] at hopen; cases hopen
      · rw [h.not_over hp hf hv hq] at hclosed; cases hclosed
    | _ =>
      simp [stops, WorkerStage.stops, giveBackPermit, announceIdle] at ht
      omega
  | detach | deafen => exact hbefore

theorem Run.staffed (h : Run config ms p) (hn : p.NoneLost) : p.Staffed := by
  induction h with
  | start h =>
    rw [(start_eq h).2]
    simp [Staffed, total, stops, WorkerStage.stops]
  | move hr hm ih =>
    have hstep := step_of_move? hm
    have hn := hstep.noneLost hn
    exact hr.staffed_step hstep hn (ih hn)

theorem Run.not_allExited (h : Run config ms p) (hn : p.NoneLost) {left : Nat} {isCounted : Bool}
    (hs : p.clients[i]? = some (.stopping (left + 1) isCounted)) : ¬p.allExited = true :=
  (h.staffed hn).not_allExited hn (.inr (h.leads (role_eq (r := ClientStage.leads) hs)).1) hs

/-! ## The queue -/

/-- Tasks come before sentinels, and none is left once a worker has taken a sentinel. -/
def Sorted (p : Pool) : Prop :=
  ∃ (tasks : List Task) (n : Nat),
    p.queue = tasks.map QueueItem.run ++ List.replicate n QueueItem.stop ∧
      (tasks = [] ∨ (p.workers.map WorkerStage.stops).sum = 0)

theorem sum_stops_set (hv : p.workers[w]? = some v) (v' : WorkerStage) (h : v'.stops = v.stops) :
    ((p.workers.set w v').map WorkerStage.stops).sum = (p.workers.map WorkerStage.stops).sum := by
  have := sum_set (getElem?_map_eq WorkerStage.stops hv) v'.stops
  rw [List.map_set]
  omega

theorem sum_stops_replicate (n : Nat) :
    ((List.replicate n QueueItem.stop).map QueueItem.stops).sum = n := by
  rw [List.map_replicate, List.sum_replicate_nat, QueueItem.stops, Nat.mul_one]

/-- A task is queued before the flag is up, when no sentinel is anywhere. -/
theorem Run.no_stop (h : Run config ms p) (hp : p.Staffed) {task : Task}
    (hs : p.clients[i]? = some (.counted task)) :
    (p.workers.map WorkerStage.stops).sum = 0 ∧ (p.queue.map QueueItem.stops).sum = 0 := by
  have hf : p.shutDown = false := by
    by_contra hf
    exact h.not_counted (by simpa using hf) _ _ hs
  have htotal := hp (.inl (h.isOpen_of_client hs rfl))
  rw [hf, if_neg Bool.false_ne_true] at htotal
  simp only [total, stops] at htotal
  omega

theorem Run.sorted_step (h : Run config ms p) (hstep : Step p m p') (hn : p.NoneLost)
    (hp : p.Sorted) : p'.Sorted := by
  obtain ⟨tasks, n, hq, htasks⟩ := hp
  cases hstep with
  | @client i s s' q _ hm hs hc =>
    have hw : (q.setClient i s').workers = p.workers := hc.workers_eq
    unfold Sorted
    rw [hw]
    cases hc with
    | @enqueue task =>
      obtain ⟨hworkers, hqueue⟩ := h.no_stop (h.staffed hn) hs
      rw [hq, List.map_append, List.sum_append_nat, sum_stops_replicate] at hqueue
      obtain rfl : n = 0 := by omega
      refine ⟨tasks ++ [task], 0, ?_, .inr hworkers⟩
      change p.queue ++ _ = _
      simp [hq]
    | enqueueStop =>
      refine ⟨tasks, n + 1, ?_, htasks⟩
      change p.queue ++ _ = _
      rw [hq, List.append_assoc, ← List.replicate_succ']
    | _ => exact ⟨tasks, n, hq, htasks⟩
  | @worker w v v' q _ hv hw =>
    have kept (hqueue : q.queue = p.queue) (h : v'.stops = v.stops) :
        (q.setWorker w v').Sorted := by
      refine ⟨tasks, n, hqueue.trans hq, htasks.imp_right fun hsum => ?_⟩
      change ((q.workers.set w v').map _).sum = 0
      rw [hw.workers_eq, sum_stops_set hv v' h, hsum]
    cases hw with
    | @takeTask task line queue hl hq' =>
      rw [hq] at hq'
      cases tasks with
      | nil => cases n <;> cases hq'
      | cons first tasks =>
        cases hq'
        refine ⟨tasks, n, rfl, htasks.imp (fun h => nomatch h) fun hsum => ?_⟩
        change ((p.workers.set w _).map _).sum = 0
        rw [sum_stops_set hv (.holding task) rfl, hsum]
    | @takeStop line queue hl hq' =>
      rw [hq] at hq'
      cases tasks with
      | nil =>
        cases n with
        | zero => cases hq'
        | succ n =>
          cases hq'
          exact ⟨[], n, rfl, .inl rfl⟩
      | cons => cases hq'
    | findOver hl hq' => exact ⟨[], 0, hq', .inl rfl⟩
    | _ => exact kept rfl rfl
  | _ => exact ⟨tasks, n, hq, htasks⟩

theorem Run.sorted (h : Run config ms p) (hn : p.NoneLost) : p.Sorted := by
  induction h with
  | start h =>
    rw [(start_eq h).2]
    exact ⟨[], 0, rfl, .inl rfl⟩
  | move hr hm ih =>
    have hstep := step_of_move? hm
    have hn := hstep.noneLost hn
    exact hr.sorted_step hstep hn (ih hn)

/-- No task is left in the queue of a pool whose workers have exited. -/
theorem Run.queue_of_exited (h : Run config ms p) (hn : p.NoneLost) (hall : p.allExited = true) :
    ∃ n, p.queue = List.replicate n .stop := by
  obtain ⟨tasks, n, hq, htasks⟩ := h.sorted hn
  obtain ⟨hlen, hpos⟩ := h.workers_length
  have hsum := sum_stops_eq hall hn
  rcases htasks with rfl | hzero
  · exact ⟨n, hq⟩
  · omega

/-- Nothing at all is left there if the pool was shut down. -/
theorem Run.queue_eq_nil (h : Run config ms p) (hn : p.NoneLost) (hall : p.allExited = true)
    (hf : p.shutDown = true) : p.queue = [] := by
  obtain ⟨n, hq⟩ := h.queue_of_exited hn hall
  have hsum := sum_stops_eq hall hn
  have htotal := h.staffed hn (.inr hf)
  simp only [total, stops, hq, sum_stops_replicate, if_pos hf] at htotal
  obtain rfl : n = 0 := by omega
  exact hq

/-! ## Sentinels taken -/

/-- In this move the worker takes a sentinel from the queue. -/
def takesStop (w : Nat) (p : Pool) : Move → Bool
  | .worker u => u == w && (p.workers[w]?).any (fun v => v matches .lined)
      && p.line.head? == some w && p.queue.head? == some .stop
  | _ => false

/-- The sentinels that the worker takes from the queue in a sequence of moves. -/
def stopsTaken (w : Nat) : Pool → List Move → Nat
  | _, [] => 0
  | p, m :: ms => (if p.takesStop w m then 1 else 0) + (p.move? m).elim 0 (stopsTaken w · ms)

theorem stopsTaken_snoc {p₀ : Pool} (h : p₀.moves? ms = some p) (hm : p.move? m = some p') :
    stopsTaken w p₀ (ms ++ [m]) = stopsTaken w p₀ ms + if p.takesStop w m then 1 else 0 := by
  induction ms generalizing p₀ with
  | nil =>
    cases h
    simp [stopsTaken, hm]
  | cons m₀ ms ih =>
    simp only [moves?, List.foldlM_cons, Option.bind_eq_bind, Option.bind_eq_some_iff] at h
    obtain ⟨p₁, hp₁, h⟩ := h
    simp only [List.cons_append, stopsTaken, hp₁, Option.elim_some, ih h]
    omega

theorem Run.stops_step (h : Run config ms p) (hstep : Step p m p') (hn : p.NoneLost)
    (ho : p.isOpen = true ∨ p.shutDown = true) (hv : p.workers[w]? = some v)
    (hv' : p'.workers[w]? = some v') :
    v'.stops = v.stops + if p.takesStop w m then 1 else 0 := by
  cases hstep with
  | @client i s s' q _ hm hs hc =>
    rw [setClient, hc.workers_eq, hv] at hv'
    cases hv'
    rcases hm with ⟨rfl, -⟩ | rfl <;> rfl
  | @worker u a a' q _ ha hw =>
    by_cases huw : u = w
    · subst huw
      rw [hv] at ha
      cases ha
      simp only [setWorker, hw.workers_eq, List.getElem?_set_self', hv] at hv'
      cases hv'
      cases hw with
      | takeTask hl hq => simp [takesStop, WorkerStage.stops, hq]
      | takeStop hl hq => simp [takesStop, WorkerStage.stops, hl, hq, hv]
      | findOver hl hq hclosed =>
        rcases ho with hopen | hf
        · rw [hclosed] at hopen; cases hopen
        · rw [h.not_over (h.staffed hn) hf hv hq] at hclosed; cases hclosed
      | _ => simp [takesStop, WorkerStage.stops, hv]
    · rw [setWorker, hw.workers_eq, List.getElem?_set_ne huw, hv] at hv'
      cases hv'
      cases hw <;> simp [takesStop, huw]
  | _ =>
    change p.workers[w]? = some v' at hv'
    rw [hv] at hv'
    cases hv'
    rfl

/-- A worker takes one sentinel, and it has taken it when it has exited. -/
theorem stopsTaken_eq {name : String} {p₀ : Pool} (hstart : Pool.start name config = .ok p₀)
    (hrun : p₀.moves? ms = some p) (hn : p.NoneLost) (ho : p.isOpen = true ∨ p.shutDown = true)
    (hw : p.workers[w]? = some v) : stopsTaken w p₀ ms = v.stops := by
  induction ms using List.reverseRecOn generalizing p v with
  | nil =>
    cases hrun
    obtain rfl := ready_of_start hstart hw
    rfl
  | append_singleton ms m ih =>
    obtain ⟨q, hq, hm⟩ := moves?_snoc.1 hrun
    have hr := Run.of_moves? hstart hq
    have hstep := step_of_move? hm
    have hn := hstep.noneLost hn
    have ho := hr.open_or_shut hstep ho
    have hlt : w < q.workers.length :=
      hstep.workers_length ▸ (List.getElem?_eq_some_iff.1 hw).1
    rw [stopsTaken_snoc hq hm, ih hq hn ho (List.getElem?_eq_getElem hlt),
      hr.stops_step hstep hn ho (List.getElem?_eq_getElem hlt) hw]

end FaultDrill.Pool
