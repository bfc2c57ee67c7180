import FaultDrill.Json.Shape
import FaultDrill.Outcome

/-! # The data model as JSON

Every type of the data model with the JSON that is written for it and the reader that
takes it back.
-/

namespace FaultDrill

open Json

namespace Duration

def toJson (d : Duration) : Json := .object [("secs", nat d.secs), ("nanos", nat d.subsecNanos)]

def ofJson? (j : Json) : Option Duration := do
  let [secs, nanos] ← closedColumns? ["secs", "nanos"] j | none
  ofParts? (← required? (natBelow? UInt64.size) secs) (← required? (natBelow? UInt32.size) nanos)

end Duration

namespace TaskId

def toJson (id : TaskId) : Json := word id.seq

def ofJson? (j : Json) : Option TaskId := (word? j).map TaskId.mk

end TaskId

namespace ObjectRef

def toJson (r : ObjectRef) : Json := .object [("bucket", .text r.bucket), ("key", .text r.key)]

def ofJson? (j : Json) : Option ObjectRef := do
  let [bucket, key] ← columns? ["bucket", "key"] j | none
  some ⟨← required? text? bucket, ← required? text? key⟩

end ObjectRef

namespace Payload

def toJson (p : Payload) : Json := .object [("size", word p.size), ("seed", word p.seed)]

def ofJson? (j : Json) : Option Payload := do
  let [size, seed] ← columns? ["size", "seed"] j | none
  some ⟨← required? word? size, ← required? word? seed⟩

end Payload

namespace StoredObject

def toJson (o : StoredObject) : Json :=
  .object [("target", o.target.toJson), ("checksum", .text o.checksum), ("size", word o.size)]

def ofJson? (j : Json) : Option StoredObject := do
  let [target, checksum, size] ← columns? ["target", "checksum", "size"] j | none
  some ⟨← required? ObjectRef.ofJson? target, ← required? text? checksum, ← required? word? size⟩

end StoredObject

namespace OperationKind

def toJson (k : OperationKind) : Json := .text k.name

def ofJson? (j : Json) : Option OperationKind := (name? j).bind ofName?

end OperationKind

namespace WindowPhase

def toJson (p : WindowPhase) : Json := .text p.name

def ofJson? (j : Json) : Option WindowPhase := (name? j).bind ofName?

end WindowPhase

namespace FailureKind

def toJson (k : FailureKind) : Json := .text k.name

def ofJson? (j : Json) : Option FailureKind := (name? j).bind ofName?

end FailureKind

namespace Operation

def fieldNames : List String :=
  ["kind", "target", "destination", "part_number", "payload", "expected_checksum"]

def toJson (op : Operation) : Json :=
  .object [
    ("kind", op.kind.toJson),
    ("target", op.target.toJson),
    ("destination", optional ObjectRef.toJson op.destination),
    ("part_number", optional (fun n => nat n.toNat) op.partNumber),
    ("payload", optional Payload.toJson op.payload),
    ("expected_checksum", optional .text op.expectedChecksum)]

def ofJson? (j : Json) : Option Operation := do
  let [kind, target, destination, part, payload, checksum] ← columns? fieldNames j | none
  some {
    kind := ← required? OperationKind.ofJson? kind
    target := ← required? ObjectRef.ofJson? target
    destination := ← nullable? ObjectRef.ofJson? destination
    partNumber := ← nullable? halfWord? part
    payload := ← nullable? Payload.ofJson? payload
    expectedChecksum := ← nullable? text? checksum }

end Operation

namespace Outcome

def toJson : Outcome → Json
  | success detail => .object [("outcome", .text "success"), ("detail", .text detail)]
  | failure kind detail =>
    .object [("outcome", .text "failure"), ("kind", kind.toJson), ("detail", .text detail)]

/-- An outcome that stands in so many containers. -/
def ofJsonWithin? (around : Nat) (j : Json) : Option Outcome := do
  match ← tagged? "outcome" around j with
  | ("success", record) =>
    let [detail] ← columns? ["detail"] record | none
    some (success (← required? text? detail))
  | ("failure", record) =>
    let [kind, detail] ← columns? ["kind", "detail"] record | none
    let name ← required? nameInTagged? kind
    some (failure (← FailureKind.ofName? name) (← required? text? detail))
  | _ => none

def ofJson? (j : Json) : Option Outcome := ofJsonWithin? 0 j

end Outcome

namespace OperationResult

def fieldNames : List String :=
  ["task_id", "stream", "kind", "target", "written", "outcome", "started_at", "finished_at",
    "phase_at_start"]

def toJson (r : OperationResult) : Json :=
  .object [
    ("task_id", r.taskId.toJson),
    ("stream", .text r.stream),
    ("kind", r.kind.toJson),
    ("target", r.target.toJson),
    ("written", optional StoredObject.toJson r.written),
    ("outcome", r.outcome.toJson),
    ("started_at", r.startedAt.toJson),
    ("finished_at", r.finishedAt.toJson),
    ("phase_at_start", r.phaseAtStart.toJson)]

def ofJson? (j : Json) : Option OperationResult := do
  let [taskId, stream, kind, target, written, outcome, startedAt, finishedAt, phase]
    ← columns? fieldNames j | none
  some {
    taskId := ← required? TaskId.ofJson? taskId
    stream := ← required? text? stream
    kind := ← required? OperationKind.ofJson? kind
    target := ← required? ObjectRef.ofJson? target
    written := ← nullable? StoredObject.ofJson? written
    outcome := ← required? (Outcome.ofJsonWithin? 1) outcome
    startedAt := ← required? Duration.ofJson? startedAt
    finishedAt := ← required? Duration.ofJson? finishedAt
    phaseAtStart := ← required? WindowPhase.ofJson? phase }

end OperationResult

end FaultDrill
