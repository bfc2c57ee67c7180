import FaultDrill.Proofs.Pool.Rank
import FaultDrill.Proofs.Pool.Progress
import FaultDrill.Proofs.Pool.Service

/-! # A pool settles

Every step of a call or a worker uses up some of what is left to do: an item in the queue stands
for the steps that a worker takes with it, and an announcement for the calls that it wakes. So a
pool that nobody calls comes to rest, in whatever order the steps are taken, and unless a worker
was lost nothing is outstanding then and every call has come to its end.
-/

namespace FaultDrill.ClientStage

/-- The items that the call may still queue in a pool of so many workers. -/
def owes (workers : Nat) : ClientStage → Nat
  | arrived _ | asking _ | awaitingPermit _ | permitted _ | awaitingRead _ | admitted _
  | counted _ => 1
  | leaving | awaitingWrite | exclusive => workers
  | stopping left _ => left
  | _ => 0

theorem hear_owes (workers : Nat) (s : ClientStage) : s.hear.owes workers = s.owes workers := by
  cases s <;> rfl

theorem hear_rank_le (workers : Nat) (s : ClientStage) :
    s.hear.rank workers ≤ s.rank workers + (workers + 5) := by
  cases s with
  | listening heard | asleep heard => cases heard <;> simp [hear, rank] <;> omega
  | _ => exact Nat.le_add_right _ _

end FaultDrill.ClientStage

namespace FaultDrill.WorkerStage

/-- A bound for the steps up to the next item, where an announcement is worth so many. -/
def rank (announcement : Nat) : WorkerStage → Nat
  | exited _ => 0
  | lined | stopAcknowledged false => 1
  | ready => 2
  | acknowledged false => 3
  | stopAcknowledged true => announcement + 2
  | stopTaken => announcement + 3
  | acknowledged true => announcement + 4
  | reported => announcement + 5
  | finished _ => announcement + 6
  | running _ _ _ _ => announcement + 7
  | holding _ => announcement + 8

end FaultDrill.WorkerStage

namespace FaultDrill.Pool

/-- A step of a call or of a worker, and not a new call or the end of a party outside. -/
def Move.IsOwn : Move → Prop
  | client _ | abandon _ | worker _ | begin _ _ _ _ | finish _ _ _ => True
  | call _ | detach | deafen => False

variable {config : PoolConfig} {p p' q : Pool} {i w : Nat} {s s' : ClientStage}
  {v v' : WorkerStage} {m : Move} {ms later : List Move}

/-- The steps for which the items stand that are queued or may be. -/
def duty (workers calls : Nat) : Weight where
  client s := s.owes workers * (calls * (workers + 5) + 8)
  worker := WorkerStage.rank (calls * (workers + 5))
  item _ := calls * (workers + 5) + 8
  hear s := by rw [ClientStage.hear_owes]

/-- A bound for the steps that the calls and the workers can take. -/
def effort (p : Pool) : Nat := p.rank + p.total (duty p.workers.length p.clients.length)

theorem ClientStep.owes (h : ClientStep p i s s' q) :
    s'.owes p.workers.length + q.queue.length ≤ s.owes p.workers.length + p.queue.length := by
  cases h with
  | enqueue | enqueueStop =>
    simp only [ClientStage.owes, releaseLatch, List.length_append, List.length_singleton]
    omega
  | _ => simp [ClientStage.owes, releaseLatch, giveBackPermit, uncount, workerCount]

theorem sum_rank_hear_le (workers : Nat) (xs : List ClientStage) :
    ((xs.map ClientStage.hear).map (ClientStage.rank workers)).sum ≤
      (xs.map (ClientStage.rank workers)).sum + xs.length * (workers + 5) := by
  induction xs with
  | nil => exact Nat.zero_le _
  | cons s xs ih =>
    have hle := s.hear_rank_le workers
    simp only [List.map_cons, List.sum_cons, List.length_cons, Nat.add_mul, Nat.one_mul]
    omega

/-- An announcement costs the worker as much as it gives to the calls. -/
theorem WorkerStep.rank_lt (h : WorkerStep p w m v v' q) :
    q.rank + v'.rank (p.clients.length * (p.workers.length + 5)) +
        q.queue.length * (p.clients.length * (p.workers.length + 5) + 8) <
      p.rank + v.rank (p.clients.length * (p.workers.length + 5)) +
        p.queue.length * (p.clients.length * (p.workers.length + 5) + 8) := by
  have hhear := sum_rank_hear_le p.workers.length p.clients
  generalize p.clients.length * (p.workers.length + 5) = n at hhear ⊢
  cases h with
  | takeTask hl hq | takeStop hl hq =>
    simp only [rank, WorkerStage.rank, hq, List.length_cons, Nat.add_mul, Nat.one_mul]
    omega
  | announce | announceStop =>
    simp only [rank, announceIdle, WorkerStage.rank]
    omega
  | @acknowledge | acknowledgeStop =>
    cases decide (p.outstanding = 1) <;> simp only [rank, WorkerStage.rank] <;> omega
  | _ =>
    simp only [rank, giveBackPermit, WorkerStage.rank]
    omega

/-- Every step of a call or of a worker uses something up. -/
theorem Run.effort_lt (h : Run config ms p) (hm : p.move? m = some p') (hown : m.IsOwn)
    (hn : p'.NoneLost) : p'.effort < p.effort := by
  have hstep := step_of_move? hm
  have hbefore := hstep.noneLost hn
  have hclients : p'.clients.length = p.clients.length := by
    rw [hstep.clients_length]
    cases m <;> first | rfl | cases hown
  have hitem (xs : List QueueItem) (n : Nat) : (xs.map fun _ => n).sum = xs.length * n := by
    rw [List.map_const', List.sum_replicate_nat]
  unfold effort
  rw [hclients, hstep.workers_length]
  cases hstep with
  | @client i s s' q _ _ hs hc =>
    have hrank := h.rank_lt hbefore hs hc
    have howes := Nat.mul_le_mul_right (p.clients.length * (p.workers.length + 5) + 8) hc.owes
    have ht := hc.total (duty p.workers.length p.clients.length) hs
    simp only [duty, hitem, Nat.add_mul] at ht howes ⊢
    omega
  | @worker w v v' q _ hv hw =>
    have hrank := hw.rank_lt
    have ht := hw.total (duty p.workers.length p.clients.length) hv
    have hq : (q.setWorker w v').rank = q.rank := by
      simp only [rank, setWorker, List.length_set]
    simp only [duty, hitem] at ht ⊢
    omega
  | call | detach | deafen => cases hown

theorem noneLost_of_moves? (h : p.moves? later = some q) (hn : q.NoneLost) : p.NoneLost := by
  induction later generalizing p with
  | nil => cases h; exact hn
  | cons m later ih =>
    obtain ⟨p₁, hm, h⟩ := moves?_cons.1 h
    exact (step_of_move? hm).noneLost (ih h)

/-- In whatever order the calls and the workers take their steps, they come to an end. -/
theorem Run.own_length_le (h : Run config ms p) (hown : ∀ m ∈ later, m.IsOwn)
    (hrun : p.moves? later = some q) (hn : q.NoneLost) : later.length + q.effort ≤ p.effort := by
  induction later generalizing p ms with
  | nil =>
    cases hrun
    exact Nat.le_of_eq (Nat.zero_add _)
  | cons m later ih =>
    obtain ⟨p₁, hm, hrest⟩ := moves?_cons.1 hrun
    have hle := ih (h.move hm) (fun m hm => hown m (List.mem_cons_of_mem _ hm)) hrest
    have hlt := h.effort_lt hm (hown m List.mem_cons_self) (noneLost_of_moves? hrest hn)
    rw [List.length_cons]
    omega

/-! ## Rest -/

/-- A pool in which nobody can take a step is quiet: a handler that executes can end. -/
theorem quiet_of_rest (h : ∀ m, m.IsOwn → p.move? m = none) : p.Quiet where
  clients i := h _ trivial
  workers w := h _ trivial
  begins w phase now wake := h _ trivial
  running := by
    refine List.countP_eq_zero.2 fun v hv hrunning => ?_
    obtain ⟨w, hw⟩ := List.mem_iff_getElem?.1 hv
    cases v with
    | running task phase startedAt wake =>
      obtain ⟨m, hm, hsome⟩ := goes_on hw nofun rfl .preFault .zero 0 (.success "")
      have hown : m.IsOwn := by
        simp only [List.mem_cons, List.not_mem_nil, or_false] at hm
        rcases hm with rfl | rfl | rfl <;> trivial
      rw [h m hown] at hsome
      cases hsome
    | _ => cases hrunning

theorem Quiet.outstanding_eq_zero (hq : p.Quiet) (h : Run config ms p) (hn : p.NoneLost) :
    p.outstanding = 0 := by
  refine hq.outstanding_of_queue h hn ?_
  by_contra hqueue
  have hall := hq.allExited h hn hqueue
  obtain ⟨n, hstops⟩ := h.queue_of_exited hn hall
  cases hf : p.shutDown with
  | true => exact hqueue (h.queue_eq_nil hn hall hf)
  | false =>
    have hzero := h.sentinels_eq_zero hf
    simp only [total, sentinels, hstops, sum_stops_replicate] at hzero
    obtain rfl : n = 0 := by omega
    exact hqueue hstops

/-! ## Every task is served -/

/-- What can be relied on in a pool that was started as `p₀` and has made these moves. -/
structure Serving (p₀ p : Pool) (ms : List Move) : Prop where
  /-- A worker has served one task after another. If it is lost, the last task it took was a write
  that does not fit in memory and that its handler called a success. -/
  deeds_eq : ∀ w v, p.workers[w]? = some v →
    ∃ (served : List (Task × OperationResult)) (tail : List Deed),
      p₀.deeds w ms = served.flatMap service ++ tail ∧
      (∀ x ∈ served, Answers ms x.1 x.2) ∧ Busy ms v tail
  effect : ∀ m p' w d, p.move? m = some p' → p.deed? w p' = some d → d.Effect p p'
  goes_on : ∀ w v, p.workers[w]? = some v → v ≠ .lined → v.hasExited = false →
    ∀ phase now wake outcome,
      ∃ m ∈ [.worker w, .begin w phase now wake, .finish w outcome now], (p.move? m).isSome
  /-- Nobody can go on for ever unless somebody calls. -/
  length_le : ∀ later q, (∀ m ∈ later, m.IsOwn) → p.moves? later = some q → q.NoneLost →
    later.length ≤ p.effort
  /-- When nobody can go on, nothing is outstanding, and every call is over. -/
  rest : p.NoneLost → (∀ m, m.IsOwn → p.move? m = none) →
    p.outstanding = 0 ∧ ∀ s ∈ p.clients, s.isOver = true

/-- A worker that takes a task sends one result of it, acknowledges it, gives the permit back and
takes the next, whatever the handler does, and a pool whose workers do so comes to rest with
every call answered; but a worker is lost to a write that does not fit in memory. -/
theorem serving {name : String} {p₀ : Pool} (hstart : Pool.start name config = .ok p₀)
    (hrun : p₀.moves? ms = some p) : p₀.Serving p ms := by
  have h := Run.of_moves? hstart hrun
  refine {
    deeds_eq := fun w v hv => Pool.deeds_eq hstart hrun hv
    effect := fun m p' w d hm hd => h.effect hm hd
    goes_on := fun w v hv hlined hex phase now wake outcome =>
      Pool.goes_on hv hlined hex phase now wake outcome
    length_le := fun later q hown hlater hn =>
      Nat.le_of_add_right_le (h.own_length_le hown hlater hn)
    rest := fun hn hrest => ?_ }
  have hq := quiet_of_rest hrest
  refine ⟨hq.outstanding_eq_zero h hn, fun s hs => ?_⟩
  obtain ⟨i, hi⟩ := List.mem_iff_getElem?.1 hs
  exact hq.isOver h hn hi

theorem serving_trial :
    Pool.start "trial" { workers := 1, queueCapacity := 1 } = .ok trialStart ∧
      trialStart.moves? trial = some trialEnd ∧ trialEnd.NoneLost ∧
      trialStart.Serving trialEnd trial ∧ trialEnd.outstanding = 0 := by
  have h := serving start_trial moves?_trial
  have hn := (Run.of_moves? start_trial moves?_trial).noneLost fits_trial
  have hrest : ∀ m, m.IsOwn → trialEnd.move? m = none := by
    intro m hm
    cases m with
    | client i => exact quiet_trialEnd.clients i
    | worker w => exact quiet_trialEnd.workers w
    | begin w phase now wake => exact quiet_trialEnd.begins w phase now wake
    | abandon i => rcases i with - | - | i <;> rfl
    | finish w outcome now => rcases w with - | w <;> rfl
    | call | detach | deafen => cases hm
  exact ⟨start_trial, moves?_trial, hn, h, (h.rest hn hrest).1⟩

/-- Half of all that can be addressed. -/
def overflowTask : Task :=
  ⟨.first, "trial", .write ⟨"bucket", "key"⟩ { size := 9223372036854775808, seed := 0 }⟩

/-- The write is accepted and taken, its handler calls it a success, and a shutdown follows. -/
def overflow : List Move :=
  [.call (.submit overflowTask), .client 0, .client 0, .client 0, .client 0, .client 0,
    .worker 0, .worker 0, .begin 0 .preFault .zero 0, .finish 0 (.success "ok") .zero,
    .call .shutdown, .client 1, .client 1, .client 1, .client 1, .client 1, .client 1, .client 1]

def overflowEnd : Pool where
  name := "trial"
  workers := [.exited true]
  gate := some { free := 1 }
  clients := [.returned (.ok ()), .asleep false]
  shutDown := true
  outstanding := 1

theorem moves?_overflow : trialStart.moves? overflow = some overflowEnd := rfl

theorem quiet_overflowEnd : overflowEnd.Quiet where
  clients i := by
    match i with
    | 0 | 1 | _ + 2 => rfl
  workers w := by
    match w with
    | 0 | _ + 1 => rfl
  begins w phase now wake := by
    match w with
    | 0 | _ + 1 => rfl
  running := rfl

/-- The only worker is lost without a result of the task that it had taken. The task stays
outstanding in a pool in which nothing happens any more, and the shutdown never returns. -/
theorem overflow_loses_worker :
    trialStart.moves? overflow = some overflowEnd ∧ overflowEnd.reply? 0 = some (.ok ()) ∧
      trialStart.deeds 0 overflow = [.take overflowTask, .crash] ∧
      overflowEnd.workers = [.exited true] ∧ overflowEnd.isHeard = true ∧
      overflowEnd.results = [] ∧ overflowEnd.outstanding = 1 ∧ overflowEnd.Quiet ∧
      overflowEnd.reply? 1 = none :=
  ⟨moves?_overflow, rfl, rfl, rfl, rfl, rfl, rfl, quiet_overflowEnd, rfl⟩

end FaultDrill.Pool
