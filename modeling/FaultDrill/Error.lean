import FaultDrill.Outcome

/-! # Errors

What can go wrong outside a task, as causes. The wording of each stands in its `message`.
-/

namespace FaultDrill

/-- A request that failed before the store could answer it. -/
inductive StorageError
  | connection (text : String)
  | timeout
  | service (status : UInt16) (message : String)
  | invalidRequest (text : String)
  deriving DecidableEq, Repr

def StorageError.message : StorageError → String
  | connection text => "connection failed: " ++ text
  | timeout => "request timed out"
  | service status message => "service error " ++ toString status.toNat ++ ": " ++ message
  | invalidRequest text => "invalid request: " ++ text

inductive FaultError
  | injectFailed (component reason : String)
  | restoreFailed (component reason : String)
  | unexpectedState (text : String)
  deriving DecidableEq, Repr

def FaultError.message : FaultError → String
  | injectFailed component reason => "failed to inject fault into " ++ component ++ ": " ++ reason
  | restoreFailed component reason => "failed to restore " ++ component ++ ": " ++ reason
  | unexpectedState text => "cluster not in expected state: " ++ text

/-- A configuration that can be read but not used. -/
inductive ConfigProblem
  | noWorkers
  | noBuckets
  | sizesCrossed (least greatest : UInt64)
  | other (text : String)
  deriving DecidableEq, Repr

def ConfigProblem.message : ConfigProblem → String
  | noWorkers => "invalid configuration: pool.workers must be at least 1"
  | noBuckets => "invalid configuration: workload.buckets must be at least 1"
  | sizesCrossed least greatest =>
    "invalid configuration: workload.min_object_size (" ++ toString least.toNat
      ++ ") exceeds max_object_size (" ++ toString greatest.toNat ++ ")"
  | other text => "invalid configuration: " ++ text

/-- An error that ends a drill. Failed tasks are results, not errors. -/
inductive DrillError
  | config (problem : ConfigProblem)
  | invalidWorkerCount (count : UInt64)
  | poolShutDown (pool : String)
  | poolAlreadyShutDown (pool : String)
  | workerJoin (pool : String) (worker : UInt64) (reason : String)
  | windowAlreadyOpened (phase : WindowPhase)
  | windowNotOpen
  | windowAlreadyClosed
  | reportTimeout (expected received : UInt64) (waited : Duration)
  | driverAborted (stream reason : String)
  | driverJoin (stream reason : String)
  | fault (error : FaultError)
  /-- The host refused to read or write. -/
  | host (reason : String)
  deriving DecidableEq, Repr

namespace DrillError

def message : DrillError → String
  | config problem => "configuration error: " ++ problem.message
  | invalidWorkerCount count =>
    "worker count must be at least 1 (got " ++ toString count.toNat ++ ")"
  | poolShutDown pool => "pool " ++ pool ++ " is shut down; no further tasks accepted"
  | poolAlreadyShutDown pool => "pool " ++ pool ++ " was already shut down"
  | workerJoin pool worker reason =>
    "worker " ++ toString worker.toNat ++ " of pool " ++ pool ++ " failed to join: " ++ reason
  | windowAlreadyOpened phase => "fault window already opened (phase: " ++ phase.text ++ ")"
  | windowNotOpen => "fault window closed before it was opened"
  | windowAlreadyClosed => "fault window already closed"
  | reportTimeout expected received waited =>
    "timed out after " ++ waited.text ++ " waiting for " ++ toString expected.toNat
      ++ " reports (" ++ toString received.toNat ++ " received)"
  | driverAborted stream reason => "workload driver " ++ stream ++ " aborted: " ++ reason
  | driverJoin stream reason => "workload driver " ++ stream ++ " did not finish: " ++ reason
  | fault error => "fault injection error: " ++ error.message
  | host reason => "I/O error: " ++ reason

/-- A misuse of the drill, not a broken cluster. -/
def isUsage : DrillError → Bool
  | invalidWorkerCount _ | poolShutDown _ | poolAlreadyShutDown _ | windowAlreadyOpened _
  | windowNotOpen | windowAlreadyClosed => true
  | _ => false

end DrillError

end FaultDrill
