import FaultDrill.Proofs.Pool.Bound

/-! # What a worker does

A worker takes a task, sends one result of it, acknowledges it, gives the permit back and begins
anew. It leaves for a sentinel or at the end of the queue, and for nothing else but one: the
result of a successful write with a payload that does not fit in memory cannot be assembled, and
the worker that tries is lost.
-/

namespace FaultDrill

/-- What a worker does that others can tell. -/
inductive Deed
  | take (task : Task)
  | send (result : OperationResult)
  | acknowledge
  | giveBack
  | takeStop
  /-- Finds that nothing will come into the queue any more. -/
  | findOver
  /-- Is torn down by a crash. -/
  | crash

namespace Deed

/-- What becomes of the pool with the deed. -/
def Effect (p p' : Pool) : Deed → Prop
  | take task => p.queue = .run task :: p'.queue
  | send result => p'.results = if p.isHeard then p.results ++ [result] else p.results
  | acknowledge => p'.outstanding + 1 = p.outstanding
  | giveBack => p'.gate = p.gate.map Gate.giveBack
  | takeStop => p.queue = .stop :: p'.queue
  | findOver => p.queue = [] ∧ p.isOpen = false
  | crash => p'.gate = p.gate.map Gate.giveBack ∧ p'.outstanding = p.outstanding ∧
      p'.results = p.results

end Deed

namespace WorkerStage

/-- What a worker has done that has come from one stage to another. -/
def deed? : WorkerStage → WorkerStage → Option Deed
  | lined, holding task => some (.take task)
  | lined, stopTaken => some .takeStop
  | lined, exited _ => some .findOver
  | finished result, reported => some (.send result)
  | reported, acknowledged _ | stopTaken, stopAcknowledged _ => some .acknowledge
  | acknowledged false, ready => some .giveBack
  | running _ _ _ _, exited _ => some .crash
  | _, _ => none

@[simp] theorem deed?_self (v : WorkerStage) : v.deed? v = none := by
  cases v with
  | acknowledged last => cases last <;> rfl
  | _ => rfl

end WorkerStage

/-! ## Results that cannot be assembled -/

/-- What a success of the operation has written does not fit in memory. -/
def Operation.Overflows (op : Operation) (outcome : Outcome) : Prop :=
  op.kind = .write ∧ outcome.isSuccess = true ∧
    ∃ payload, op.payload = some payload ∧ Payload.sizeLimit ≤ payload.size.toNat

namespace OperationResult

variable {id : TaskId} {stream : String} {op : Operation} {outcome : Outcome}
  {startedAt finishedAt : Duration} {phase : WindowPhase}

theorem overflows_iff :
    op.Overflows outcome ↔
      assemble id stream op outcome startedAt finishedAt phase = .error .capacityOverflow := by
  unfold Operation.Overflows assemble writtenBy
  split
  case h_1 payload hk hp hs =>
    by_cases hfits : payload.size.toNat < Payload.sizeLimit
    · simp [hk, hs, hp, Payload.checksum, Payload.bytes, hfits, Except.map]
    · simp [hk, hs, hp, Payload.checksum, Payload.bytes, hfits, Except.map, Nat.not_lt.1 hfits]
  case h_2 hother =>
    simp only [Except.map, reduceCtorEq, iff_false]
    rintro ⟨hk, hs, payload, hp, -⟩
    exact hother payload hk hp hs

theorem error_eq {crash : Crash}
    (h : assemble id stream op outcome startedAt finishedAt phase = .error crash) :
    crash = .capacityOverflow := by
  unfold assemble writtenBy at h
  split at h
  case h_1 payload _ _ _ =>
    by_cases hfits : payload.size.toNat < Payload.sizeLimit
    · simp [Payload.checksum, Payload.bytes, hfits, Except.map] at h
    · simpa [Payload.checksum, Payload.bytes, hfits, Except.map] using h.symm
  case h_2 => cases h

end OperationResult

namespace Pool

variable {config : PoolConfig} {p p' p₀ q : Pool} {i w : Nat} {s s' : ClientStage}
  {v v' : WorkerStage} {m : Move} {ms : List Move} {task : Task} {r : OperationResult}
  {tail : List Deed}

/-- What the worker has done between two states. -/
def deed? (w : Nat) (p p' : Pool) : Option Deed := do (← p.workers[w]?).deed? (← p'.workers[w]?)

theorem deed?_eq (hv : p.workers[w]? = some v) (hv' : p'.workers[w]? = some v') :
    p.deed? w p' = v.deed? v' := by
  simp [deed?, hv, hv']

/-- What the worker does in a sequence of moves. -/
def deeds (w : Nat) : Pool → List Move → List Deed
  | _, [] => []
  | p, m :: ms => (p.move? m).elim [] fun p' => (p.deed? w p').toList ++ p'.deeds w ms

/-- The task was submitted, and this is a result of it. -/
def Answers (ms : List Move) (task : Task) (r : OperationResult) : Prop :=
  .submit task ∈ requests ms ∧ ∃ outcome startedAt finishedAt phase,
    OperationResult.assemble task.id task.stream task.operation outcome startedAt finishedAt phase
      = .ok r

/-- A task with its result, from the queue to the permit given back. -/
def service (x : Task × OperationResult) : List Deed :=
  [.take x.1, .send x.2, .acknowledge, .giveBack]

/-- What a worker at some stage has done since it was ready. -/
inductive Busy (ms : List Move) : WorkerStage → List Deed → Prop
  | ready : Busy ms .ready []
  | lined : Busy ms .lined []
  | holding {task : Task} : .submit task ∈ requests ms → Busy ms (.holding task) [.take task]
  | running {task : Task} {phase startedAt wake} : .submit task ∈ requests ms →
      Busy ms (.running task phase startedAt wake) [.take task]
  | finished {task : Task} {r : OperationResult} : Answers ms task r →
      Busy ms (.finished r) [.take task]
  | reported {task : Task} {r : OperationResult} : Answers ms task r →
      Busy ms .reported [.take task, .send r]
  | acknowledged {task : Task} {r : OperationResult} {last} : Answers ms task r →
      Busy ms (.acknowledged last) [.take task, .send r, .acknowledge]
  | stopTaken : Busy ms .stopTaken [.takeStop]
  | stopAcknowledged {last} : Busy ms (.stopAcknowledged last) [.takeStop, .acknowledge]
  | stopped : Busy ms (.exited false) [.takeStop, .acknowledge]
  | ended : Busy ms (.exited false) [.findOver]
  | lost {task : Task} {outcome} : .submit task ∈ requests ms → task.operation.Overflows outcome →
      Busy ms (.exited true) [.take task, .crash]

theorem mem_requests_snoc {request : Request} (h : request ∈ requests ms) (m : Move) :
    request ∈ requests (ms ++ [m]) := by
  rw [requests_snoc]
  exact List.mem_append_left _ h

theorem Answers.snoc (h : Answers ms task r) (m : Move) : Answers (ms ++ [m]) task r :=
  ⟨mem_requests_snoc h.1 m, h.2⟩

theorem Busy.snoc (h : Busy ms v tail) (m : Move) : Busy (ms ++ [m]) v tail := by
  cases h with
  | holding h => exact .holding (mem_requests_snoc h m)
  | running h => exact .running (mem_requests_snoc h m)
  | finished h => exact .finished (h.snoc m)
  | reported h => exact .reported (h.snoc m)
  | acknowledged h => exact .acknowledged (h.snoc m)
  | lost h ho => exact .lost (mem_requests_snoc h m) ho
  | ready => exact .ready
  | lined => exact .lined
  | stopTaken => exact .stopTaken
  | stopAcknowledged => exact .stopAcknowledged
  | stopped => exact .stopped
  | ended => exact .ended

/-- Only what was submitted is queued. -/
theorem Run.mem_requests_of_queue (h : Run config ms p) (hq : .run task ∈ p.queue) :
    .submit task ∈ requests ms := by
  induction h with
  | start h => rw [(start_eq h).2] at hq; cases hq
  | @move ms p m p' hr hm ih =>
    refine (?_ : .run task ∈ p.queue ∨ .submit task ∈ requests ms).elim
      (fun hq => mem_requests_snoc (ih hq) m) (fun h => mem_requests_snoc h m)
    cases step_of_move? hm with
    | @client i s s' q _ hm hs hc =>
      cases hc with
      | enqueue =>
        rcases List.mem_append.1 hq with hq | hq
        · exact .inl hq
        · cases List.mem_singleton.1 hq
          exact .inr (List.mem_of_getElem? (hr.submits_of_counted hs))
      | enqueueStop =>
        rcases List.mem_append.1 hq with hq | hq
        · exact .inl hq
        · cases List.mem_singleton.1 hq
      | _ => exact .inl hq
    | @worker w v v' q _ hv hw =>
      cases hw with
      | takeTask hl hqueue | takeStop hl hqueue =>
        exact .inl (hqueue ▸ List.mem_cons_of_mem _ hq)
      | _ => exact .inl hq
    | call | detach | deafen => exact .inl hq

/-- With its next step the worker has a service complete, or goes on with the one it is at. -/
theorem Run.busy_step (h : Run config ms p) (hb : Busy ms v tail) (hw : WorkerStep p w m v v' q) :
    (∃ x, Answers ms x.1 x.2 ∧ v' = .ready ∧ tail ++ (v.deed? v').toList = service x) ∨
      Busy ms v' (tail ++ (v.deed? v').toList) := by
  cases hw with
  | lineUp => cases hb; exact .inr .lined
  | @takeTask task line queue hl hq =>
    cases hb
    exact .inr (.holding (h.mem_requests_of_queue (hq ▸ List.mem_cons_self)))
  | takeStop => cases hb; exact .inr .stopTaken
  | findOver => cases hb; exact .inr .ended
  | start => cases hb with | holding hsub => exact .inr (.running hsub)
  | finish hr => cases hb with | running hsub => exact .inr (.finished ⟨hsub, _, _, _, _, hr⟩)
  | crash hcrash =>
    cases hb with
    | running hsub =>
      obtain rfl := OperationResult.error_eq hcrash
      exact .inr (.lost hsub (OperationResult.overflows_iff.2 hcrash))
  | report => cases hb with | finished hr => exact .inr (.reported hr)
  | acknowledge => cases hb with | reported hr => exact .inr (.acknowledged hr)
  | announce => cases hb with | acknowledged hr => exact .inr (.acknowledged hr)
  | giveBack => cases hb with | acknowledged hr => exact .inl ⟨(_, _), hr, rfl, rfl⟩
  | acknowledgeStop => cases hb; exact .inr .stopAcknowledged
  | announceStop => cases hb; exact .inr .stopAcknowledged
  | exit => cases hb; exact .inr .stopped

/-! ## One step -/

theorem Step.deed?_cases (h : Step p m p') (hv : p.workers[w]? = some v)
    (hv' : p'.workers[w]? = some v') : v' = v ∨ ∃ q, WorkerStep p w m v v' q ∧
      p' = q.setWorker w v' := by
  rcases h.worker_cases hv' with hsame | ⟨u, q, hu, hw, hp⟩
  · rw [hv] at hsame
    exact .inl (Option.some.inj hsame).symm
  · rw [hv] at hu
    cases hu
    exact .inr ⟨q, hw, hp⟩

/-- A worker does to the pool what its deed says. -/
theorem Run.effect {d : Deed} (h : Run config ms p) (hm : p.move? m = some p')
    (hd : p.deed? w p' = some d) : d.Effect p p' := by
  simp only [deed?, Option.bind_eq_bind, Option.bind_eq_some_iff] at hd
  obtain ⟨v, hv, v', hv', hd⟩ := hd
  rcases (step_of_move? hm).deed?_cases hv hv' with rfl | ⟨q, hw, rfl⟩
  · rw [WorkerStage.deed?_self] at hd
    cases hd
  · cases hw with
    | takeTask hl hq | takeStop hl hq => cases hd; exact hq
    | findOver hl hq ho => cases hd; exact ⟨hq, ho⟩
    | crash => cases hd; exact ⟨rfl, rfl, rfl⟩
    | acknowledge | acknowledgeStop =>
      cases hd
      have hle := h.counts_le_of_worker hv
      exact Nat.sub_add_cancel hle
    | @announce | announceStop | lineUp | start | finish | exit => cases hd
    | _ => cases hd; rfl

/-- Between the queue and the line a worker waits for nobody: whatever the times, the phase and the
outcome of the handler are, it can go on. -/
theorem goes_on (hv : p.workers[w]? = some v) (hlined : v ≠ .lined) (hex : v.hasExited = false)
    (phase : WindowPhase) (now : Duration) (wake : Nat) (outcome : Outcome) :
    ∃ m ∈ [.worker w, .begin w phase now wake, .finish w outcome now], (p.move? m).isSome := by
  cases v with
  | lined => exact absurd rfl hlined
  | exited => cases hex
  | holding task => exact ⟨.begin w phase now wake, by simp, by simp [move?, begin?, hv]⟩
  | running task phase₀ startedAt wake₀ =>
    refine ⟨.finish w outcome now, by simp, ?_⟩
    simp only [move?, finish?, hv, Option.bind_eq_bind, Option.bind_some]
    split <;> rfl
  | acknowledged last | stopAcknowledged last =>
    cases last <;> exact ⟨.worker w, by simp, by simp [move?, stepWorker?, hv]⟩
  | _ => exact ⟨.worker w, by simp, by simp [move?, stepWorker?, hv]⟩

theorem deeds_snoc (h : p₀.moves? ms = some p) (hm : p.move? m = some p') :
    p₀.deeds w (ms ++ [m]) = p₀.deeds w ms ++ (p.deed? w p').toList := by
  induction ms generalizing p₀ with
  | nil =>
    cases h
    simp [deeds, hm]
  | cons m₀ ms ih =>
    obtain ⟨p₁, hp₁, h⟩ := moves?_cons.1 h
    simp only [List.cons_append, deeds, hp₁, Option.elim_some, ih h, List.append_assoc]

/-! ## Services -/

/-- What a worker has done in a whole run is complete services and what it has done since it was
last ready. -/
theorem deeds_eq {name : String} (hstart : Pool.start name config = .ok p₀)
    (hrun : p₀.moves? ms = some p) (hv : p.workers[w]? = some v) :
    ∃ (served : List (Task × OperationResult)) (tail : List Deed),
      p₀.deeds w ms = served.flatMap service ++ tail ∧
      (∀ x ∈ served, Answers ms x.1 x.2) ∧ Busy ms v tail := by
  induction ms using List.reverseRecOn generalizing p v with
  | nil =>
    cases hrun
    obtain rfl := ready_of_start hstart hv
    exact ⟨[], [], by simp [deeds], by simp, .ready⟩
  | append_singleton ms m ih =>
    obtain ⟨q, hq, hm⟩ := moves?_snoc.1 hrun
    have h := Run.of_moves? hstart hq
    have hstep := step_of_move? hm
    have hlt : w < q.workers.length :=
      hstep.workers_length ▸ (List.getElem?_eq_some_iff.1 hv).1
    have hu := List.getElem?_eq_getElem hlt
    obtain ⟨served, tail, hdeeds, hserved, hbusy⟩ := ih hq hu
    have hkept (x) (hx : x ∈ served) : Answers (ms ++ [m]) x.1 x.2 := (hserved x hx).snoc m
    rw [deeds_snoc hq hm, hdeeds, deed?_eq hu hv, List.append_assoc]
    rcases hstep.deed?_cases hu hv with rfl | ⟨q', hw, -⟩
    · refine ⟨served, tail, ?_, hkept, hbusy.snoc m⟩
      rw [WorkerStage.deed?_self, Option.toList_none, List.append_nil]
    · rcases h.busy_step hbusy hw with ⟨x, hx, rfl, heq⟩ | hbusy
      · refine ⟨served ++ [x], [], ?_, fun y hy => ?_, .ready⟩
        · simp [heq]
        · rcases List.mem_append.1 hy with hy | hy
          · exact hkept y hy
          · exact List.mem_singleton.1 hy ▸ hx.snoc m
      · exact ⟨served, _, rfl, hkept, hbusy.snoc m⟩

end Pool

end FaultDrill
