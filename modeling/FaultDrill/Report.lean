import FaultDrill.Policy

/-! # Reports

What one stream observed, and the classified results of all streams of a drill together.
-/

namespace FaultDrill

structure DriverReport where
  stream : String
  submitted : UInt64
  /-- Successful results, by task. -/
  passed : List OperationResult
  /-- Failed results, by task. -/
  failed : List OperationResult
  deriving DecidableEq, Repr

namespace DriverReport

/-- Results in the order of their tasks; results of one task stay in the order given. -/
def sortedByTask (results : List OperationResult) : List OperationResult :=
  results.mergeSort fun a b => a.taskId.seq ≤ b.taskId.seq

def ofResults (stream : String) (submitted : UInt64) (results : List OperationResult) :
    DriverReport :=
  { stream, submitted
    passed := sortedByTask (results.filter OperationResult.isSuccess)
    failed := sortedByTask (results.filter (!·.isSuccess)) }

/-- The results as they are delivered: the successful ones first. -/
def results (r : DriverReport) : List OperationResult := r.passed ++ r.failed

/-- What the stream wrote, for streams that read it back. -/
def writtenObjects (r : DriverReport) : List StoredObject :=
  r.passed.filterMap OperationResult.written

end DriverReport

structure PhaseTally where
  phase : WindowPhase
  passed : Nat := 0
  failed : Nat := 0
  deriving DecidableEq, Repr

/-- One more result that began in its phase. -/
def PhaseTally.count (r : OperationResult) (t : PhaseTally) : PhaseTally :=
  if t.phase = r.phaseAtStart then
    if r.isSuccess then { t with passed := t.passed + 1 } else { t with failed := t.failed + 1 }
  else t

structure AggregateReport where
  /-- The streams that reported, in order of arrival. -/
  streams : List String
  totalSubmitted : UInt64
  passed : List OperationResult
  expectedFailures : List OperationResult
  unexpectedFailures : List OperationResult
  /-- By the phase at the start of the task, in window order. -/
  phases : List PhaseTally
  window : Option WindowBounds
  deriving DecidableEq, Repr

namespace AggregateReport

def empty (bounds : Option WindowBounds) : AggregateReport :=
  { streams := [], totalSubmitted := 0, passed := [], expectedFailures := [],
    unexpectedFailures := [], phases := WindowPhase.all.map ({ phase := · }), window := bounds }

/-- Put one more result where its class belongs. -/
def add (policy : Policy) (report : AggregateReport) (r : OperationResult) :
    Except Crash AggregateReport := do
  let counted := { report with phases := report.phases.map (PhaseTally.count r) }
  match ← policy.classify r report.window with
  | .passed => .ok { counted with passed := report.passed ++ [r] }
  | .expectedFailure => .ok { counted with expectedFailures := report.expectedFailures ++ [r] }
  | .unexpectedFailure => .ok { counted with unexpectedFailures := report.unexpectedFailures ++ [r] }

def addDriver (policy : Policy) (report : AggregateReport) (driver : DriverReport) :
    Except Crash AggregateReport :=
  let total := report.totalSubmitted.toNat + driver.submitted.toNat
  if total < UInt64.size then
    driver.results.foldlM (add policy)
      { report with streams := report.streams ++ [driver.stream], totalSubmitted := .ofNat total }
  else .error .addOverflow

/-- Every result of every report, classified against the edges of the window. -/
def classify (reports : List DriverReport) (bounds : Option WindowBounds) (policy : Policy) :
    Except Crash AggregateReport :=
  reports.foldlM (addDriver policy) (empty bounds)

def passCount (r : AggregateReport) : Nat := r.passed.length

def expectedFailureCount (r : AggregateReport) : Nat := r.expectedFailures.length

def unexpectedFailureCount (r : AggregateReport) : Nat := r.unexpectedFailures.length

def failCount (r : AggregateReport) : Nat := r.expectedFailureCount + r.unexpectedFailureCount

/-- Every failure, the excused ones first. -/
def failures (r : AggregateReport) : List OperationResult :=
  r.expectedFailures ++ r.unexpectedFailures

end AggregateReport

end FaultDrill
