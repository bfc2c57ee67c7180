import FaultDrill.Outcome

/-! # Assembled results

A result says which task it is about, how it ended and when. It can be assembled of
whatever fits in memory.
-/

namespace FaultDrill.Operation

/-- What the operation writes can be held in memory. -/
def Fits (op : Operation) : Prop :=
  op.kind = .write → ∀ payload, op.payload = some payload → payload.size.toNat < Payload.sizeLimit

end FaultDrill.Operation

namespace FaultDrill.OperationResult

variable {id : TaskId} {stream : String} {op : Operation} {outcome : Outcome}
  {startedAt finishedAt : Duration} {phase : WindowPhase} {crash : Crash} {r : OperationResult}

theorem assemble_ne_error (h : op.Fits) :
    assemble id stream op outcome startedAt finishedAt phase ≠ .error crash := by
  unfold assemble writtenBy
  split
  case h_1 payload hk hp _ => simp [Payload.checksum, Payload.bytes, h hk payload hp, Except.map]
  case h_2 => simp [Except.map]

theorem assemble_eq_ok (h : assemble id stream op outcome startedAt finishedAt phase = .ok r) :
    ∃ written, r = {
      taskId := id, stream, kind := op.kind, target := op.target, written, outcome, startedAt,
      finishedAt, phaseAtStart := phase } := by
  unfold assemble at h
  cases hw : writtenBy op outcome with
  | error crash => rw [hw] at h; cases h
  | ok written =>
    rw [hw] at h
    cases h
    exact ⟨written, rfl⟩

/-- What a result says was written is what a successful write had to write. -/
theorem of_written {o : StoredObject}
    (h : assemble id stream op outcome startedAt finishedAt phase = .ok r)
    (ho : r.written = some o) : op.kind = .write ∧ outcome.isSuccess = true ∧
      ∃ payload, op.payload = some payload ∧ payload.checksum = .ok o.checksum ∧
        op.target = o.target := by
  unfold assemble writtenBy at h
  split at h
  case h_1 payload hk hp hs =>
    cases hsum : payload.checksum with
    | error crash => rw [hsum] at h; cases h
    | ok sum =>
      rw [hsum] at h
      cases h
      cases ho
      exact ⟨hk, hs, payload, hp, hsum, rfl⟩
  case h_2 =>
    cases h
    cases ho

end FaultDrill.OperationResult
