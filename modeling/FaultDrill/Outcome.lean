import FaultDrill.Operation
import FaultDrill.Duration

/-! # Outcomes and results

What became of one task: its outcome, when it ran, and the phase of the fault window
that its worker saw when it began. A result of a successful write also records what
was written.
-/

namespace FaultDrill

/-- The window moves forward only: before the fault, open, after the fault. -/
inductive WindowPhase
  | preFault
  | open
  | postFault
  deriving DecidableEq, Repr

namespace WindowPhase

def all : List WindowPhase := [preFault, .open, postFault]

def rank : WindowPhase → Nat
  | preFault => 0
  | .open => 1
  | postFault => 2

instance : LE WindowPhase := ⟨fun a b => a.rank ≤ b.rank⟩
instance (a b : WindowPhase) : Decidable (a ≤ b) := inferInstanceAs (Decidable (a.rank ≤ b.rank))

def ofRank? (n : Nat) : Option WindowPhase := all[n]?

/-- The spelling in data. -/
def name : WindowPhase → String
  | preFault => "pre_fault"
  | .open => "open"
  | postFault => "post_fault"

/-- The spelling in messages. -/
def text : WindowPhase → String
  | preFault => "pre-fault"
  | .open => "open"
  | postFault => "post-fault"

def ofName? (name : String) : Option WindowPhase := all.find? (·.name = name)

theorem ofName?_name (p : WindowPhase) : ofName? p.name = some p := by cases p <;> decide

end WindowPhase

inductive FailureKind
  /-- The store answered that it did not do it. -/
  | rejected
  /-- The request itself failed. -/
  | transport
  /-- A read returned other content than was written. -/
  | corruption
  /-- The handler crashed. -/
  | panicked
  deriving DecidableEq, Repr

namespace FailureKind

def all : List FailureKind := [rejected, transport, corruption, panicked]

def name : FailureKind → String
  | rejected => "rejected"
  | transport => "transport"
  | corruption => "corruption"
  | panicked => "panicked"

def ofName? (name : String) : Option FailureKind := all.find? (·.name = name)

theorem ofName?_name (k : FailureKind) : ofName? k.name = some k := by cases k <;> decide

end FailureKind

inductive Outcome
  | success (detail : String)
  | failure (kind : FailureKind) (detail : String)
  deriving DecidableEq, Repr

namespace Outcome

def isSuccess : Outcome → Bool
  | success _ => true
  | failure _ _ => false

def failureKind? : Outcome → Option FailureKind
  | success _ => none
  | failure kind _ => some kind

def detail : Outcome → String
  | success detail => detail
  | failure _ detail => detail

end Outcome

/-- Times are offsets from the moment the fault window was made. -/
structure OperationResult where
  taskId : TaskId
  stream : String
  kind : OperationKind
  target : ObjectRef
  written : Option StoredObject
  outcome : Outcome
  startedAt : Duration
  finishedAt : Duration
  phaseAtStart : WindowPhase
  deriving DecidableEq, Repr

namespace OperationResult

/-- What a task with this outcome wrote. The checksum is computed from the payload. -/
def writtenBy (operation : Operation) (outcome : Outcome) : Except Crash (Option StoredObject) :=
  match operation.kind, operation.payload, outcome.isSuccess with
  | .write, some payload, true =>
    payload.checksum.map fun sum => some ⟨operation.target, sum, payload.size⟩
  | _, _, _ => .ok none

def assemble (taskId : TaskId) (stream : String) (operation : Operation) (outcome : Outcome)
    (startedAt finishedAt : Duration) (phaseAtStart : WindowPhase) :
    Except Crash OperationResult :=
  (writtenBy operation outcome).map fun written =>
    { taskId, stream, kind := operation.kind, target := operation.target, written, outcome,
      startedAt, finishedAt, phaseAtStart }

def isSuccess (r : OperationResult) : Bool := r.outcome.isSuccess

/-- The time from start to finish meets the time from `start` to `stop`, which has no end when
`stop` is absent. -/
def overlaps (r : OperationResult) (start : Duration) (stop : Option Duration) : Bool :=
  stop.all (fun stop => decide (r.startedAt ≤ stop)) && decide (start ≤ r.finishedAt)

def duration (r : OperationResult) : Duration := r.finishedAt.sub r.startedAt

def text (r : OperationResult) : String :=
  let verdict := match r.outcome with
    | .success _ => "ok"
    | .failure kind detail => "FAILED (" ++ kind.name ++ "): " ++ detail
  "[" ++ r.stream ++ ":" ++ r.taskId.text ++ "] " ++ r.kind.name ++ " " ++ r.target.text ++ " "
    ++ verdict ++ " [" ++ toString r.startedAt.wholeMillis ++ "ms.."
    ++ toString r.finishedAt.wholeMillis ++ "ms, " ++ r.phaseAtStart.text ++ "]"

end OperationResult

end FaultDrill
