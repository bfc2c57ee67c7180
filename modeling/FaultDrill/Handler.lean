import FaultDrill.Store

/-! # Handlers

A handler executes a task: it takes a time, and then it has its effect and an outcome.
A handler that crashes is not lost; the worker records a failure.
-/

namespace FaultDrill

/-- An operation with its place in a stream. -/
structure Task where
  id : TaskId
  stream : String
  operation : Operation
  deriving DecidableEq, Repr

namespace Outcome

/-- A read that expects a checksum and is answered with another, or none, is corrupted. -/
def ofResponse (op : Operation) (r : Response) : Outcome :=
  if r.success then
    match op.kind, op.expectedChecksum with
    | .read, some expected =>
      if r.checksum = some expected then .success r.detail
      else .failure .corruption
        ("checksum mismatch for " ++ op.target.text ++ ": expected " ++ expected ++ ", got "
          ++ r.checksum.getD "<none>")
    | _, _ => .success r.detail
  else .failure .rejected r.detail

/-- The outcome of a request from the answer it got. -/
def ofAnswer (op : Operation) : Except StorageError Response → Outcome
  | .ok response => ofResponse op response
  | .error error => .failure .transport error.message

/-- What a worker records of a handler that crashed with this message. -/
def ofCrash (message : String) : Outcome := .failure .panicked ("handler panicked: " ++ message)

end Outcome

/-- How a scripted handler ends. -/
inductive Ending
  | outcome (outcome : Outcome)
  /-- A crash with a text that is the same for every task. -/
  | crash (text : String)
  /-- A crash with a text that names the task. -/
  | crashNaming (text : String)
  /-- A crash with something that is not a text. -/
  | crashWithoutText
  deriving DecidableEq, Repr

namespace Ending

def outcomeFor (id : TaskId) : Ending → Outcome
  | outcome o => o
  | crash text => .ofCrash text
  | crashNaming text => .ofCrash (text ++ " on " ++ id.text)
  | crashWithoutText => .ofCrash "<non-string panic>"

end Ending

/-- One line of a handler's script. -/
structure Cue where
  /-- In milliseconds. -/
  delay : Nat := 0
  ending : Ending := .outcome (.success "ok")
  deriving DecidableEq, Repr

/-- The time it takes over a task, in milliseconds, and what it does at the end of that time. -/
structure Handler where
  delay : Task → Store → Nat
  act : Task → Store → Outcome × Store

namespace Handler

/-- Performs the operation of the task on the store. -/
def storage : Handler where
  delay _ store := store.latency
  act task store :=
    match store.apply task.operation with
    | (.ok answer, store) => (.ofAnswer task.operation answer, store)
    | (.error crash, store) => (.ofCrash crash.message, store)

/-- Follows a script by task; `default` is for the tasks it does not name. -/
def scripted (cues : List (UInt64 × Cue)) (default : Cue) : Handler where
  delay task _ := ((cues.lookup task.id.seq).getD default).delay
  act task store :=
    (((cues.lookup task.id.seq).getD default).ending.outcomeFor task.id, store)

instance : Inhabited Handler := ⟨storage⟩

end Handler

end FaultDrill
