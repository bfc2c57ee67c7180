import FaultDrill.Event

/-! # Records of reports and drills

Reports and the summary of a whole drill as JSON.
-/

namespace FaultDrill

open Json

namespace WindowBounds

def toJson (b : WindowBounds) : Json :=
  .object [("opened_at", b.openedAt.toJson), ("closed_at", optional Duration.toJson b.closedAt)]

def ofJson? (j : Json) : Option WindowBounds := do
  let [opened, closed] ← columns? ["opened_at", "closed_at"] j | none
  some ⟨← required? Duration.ofJson? opened, ← nullable? Duration.ofJson? closed⟩

end WindowBounds

namespace Policy

def toJson (p : Policy) : Json :=
  .object [
    ("grace", p.grace.toJson),
    ("max_expected_failures", optional word p.maxExpectedFailures),
    ("tolerated_after_close", .array (p.toleratedAfterClose.map OperationKind.toJson))]

end Policy

namespace DriverReport

def toJson (r : DriverReport) : Json :=
  .object [
    ("stream", .text r.stream),
    ("submitted", word r.submitted),
    ("passed", .array (r.passed.map OperationResult.toJson)),
    ("failed", .array (r.failed.map OperationResult.toJson))]

def ofJson? (j : Json) : Option DriverReport := do
  let [stream, submitted, passed, failed] ← columns? ["stream", "submitted", "passed", "failed"] j
    | none
  some ⟨← required? text? stream, ← required? word? submitted,
    ← withDefault? [] (list? OperationResult.ofJson?) passed,
    ← withDefault? [] (list? OperationResult.ofJson?) failed⟩

end DriverReport

namespace PhaseTally

def toJson (t : PhaseTally) : Json :=
  .object [("phase", t.phase.toJson), ("passed", nat t.passed), ("failed", nat t.failed)]

end PhaseTally

namespace AggregateReport

def toJson (r : AggregateReport) : Json :=
  .object [
    ("streams", .array (r.streams.map .text)),
    ("total_submitted", word r.totalSubmitted),
    ("passed", .array (r.passed.map OperationResult.toJson)),
    ("expected_failures", .array (r.expectedFailures.map OperationResult.toJson)),
    ("unexpected_failures", .array (r.unexpectedFailures.map OperationResult.toJson)),
    ("phases", .array (r.phases.map PhaseTally.toJson)),
    ("window", optional WindowBounds.toJson r.window)]

end AggregateReport

/-- The end-of-run summary of one drill. -/
structure DrillRecord where
  id : String
  name : String
  /-- Seconds since the start of 1970; zero before it. -/
  startedAt : Nat
  duration : Duration
  passed : Bool
  submitted : UInt64
  succeeded : Nat
  expectedFailures : Nat
  unexpectedFailures : Nat
  window : Option WindowBounds
  failedChecks : List String
  deriving DecidableEq, Repr

namespace DrillRecord

/-- A drill has passed when no check failed. -/
def ofReport (id name : String) (started : Int) (duration : Duration) (report : AggregateReport)
    (failedChecks : List String) : DrillRecord :=
  { id, name, startedAt := started.toNat, duration
    passed := failedChecks.isEmpty
    submitted := report.totalSubmitted
    succeeded := report.passCount
    expectedFailures := report.expectedFailureCount
    unexpectedFailures := report.unexpectedFailureCount
    window := report.window
    failedChecks }

def toJson (r : DrillRecord) : Json :=
  .object [
    ("scenario_id", .text r.id),
    ("name", .text r.name),
    ("started_at", nat r.startedAt),
    ("duration", r.duration.toJson),
    ("passed", .bool r.passed),
    ("submitted", word r.submitted),
    ("succeeded", nat r.succeeded),
    ("expected_failures", nat r.expectedFailures),
    ("unexpected_failures", nat r.unexpectedFailures),
    ("window", optional WindowBounds.toJson r.window),
    ("failed_checks", .array (r.failedChecks.map .text))]

end DrillRecord

end FaultDrill
