import FaultDrill.Report

/-! # Checks and verdicts

A check keeps what it looked at; whether it holds and how it reads follow from that. A
verdict is the four checks that every drill has to meet.
-/

namespace FaultDrill

inductive Check
  /-- Every submitted task has one result. -/
  | accounted (submitted passed failed : Nat)
  | noCorruption (corrupted : List OperationResult)
  | noUnexpectedFailures (unexpected : List OperationResult)
  | expectedWithinBudget (count : Nat) (budget : Option Nat)
  | minPassed (count least : Nat)
  deriving DecidableEq, Repr

namespace Check

def holds : Check → Bool
  | accounted submitted passed failed => passed + failed = submitted
  | noCorruption corrupted => corrupted.isEmpty
  | noUnexpectedFailures unexpected => unexpected.isEmpty
  | expectedWithinBudget count budget => budget.all (decide <| count ≤ ·)
  | minPassed count least => least ≤ count

def description (c : Check) : String :=
  match c with
  | accounted submitted _ _ =>
    if c.holds then "All " ++ toString submitted ++ " submitted operations accounted for"
    else "All submitted operations accounted for"
  | noCorruption _ => "No corrupted reads"
  | noUnexpectedFailures _ => "No failures outside the fault window"
  | expectedWithinBudget count none => toString count ++ " expected failures (no limit)"
  | expectedWithinBudget count (some budget) =>
    if c.holds then
      toString count ++ " expected failures within limit of " ++ toString budget
    else "Expected failures within limit"
  | minPassed count least =>
    if c.holds then
      toString count ++ " operations passed (at least " ++ toString least ++ ")"
    else "Minimum successful operations"

/-- At most this many results are listed. -/
def listLimit : Nat := 5

def listing (results : List OperationResult) : String :=
  let shown := (results.take listLimit).map OperationResult.text
  let more :=
    if listLimit < results.length then
      ["... and " ++ toString (results.length - listLimit) ++ " more"]
    else []
  "; ".intercalate (shown ++ more)

/-- What went wrong, for a check that does not hold. -/
def details (c : Check) : Option String :=
  if c.holds then none
  else some <| match c with
    | accounted submitted passed failed =>
      toString submitted ++ " submitted but " ++ toString (passed + failed) ++ " results ("
        ++ toString passed ++ " passed, " ++ toString failed ++ " failed)"
    | noCorruption corrupted =>
      toString corrupted.length ++ " corrupted: " ++ listing corrupted
    | noUnexpectedFailures unexpected =>
      toString unexpected.length ++ " unexpected: " ++ listing unexpected
    | expectedWithinBudget count budget =>
      toString count ++ " expected failures exceed limit of " ++ toString (budget.getD 0)
    | minPassed count least =>
      "only " ++ toString count ++ " of required " ++ toString least ++ " passed"

def text (c : Check) : String :=
  (if c.holds then "[PASS] " else "[FAIL] ") ++ c.description
    ++ (c.details.map (": " ++ ·)).getD ""

end Check

namespace AggregateReport

def checkAccounted (r : AggregateReport) : Check :=
  .accounted r.totalSubmitted.toNat r.passCount r.failCount

def checkNoCorruption (r : AggregateReport) : Check :=
  .noCorruption (r.failures.filter (·.outcome.failureKind? = some .corruption))

def checkNoUnexpectedFailures (r : AggregateReport) : Check :=
  .noUnexpectedFailures r.unexpectedFailures

def checkExpectedWithinBudget (r : AggregateReport) (budget : Option UInt64) : Check :=
  .expectedWithinBudget r.expectedFailureCount (budget.map UInt64.toNat)

def checkMinPassed (r : AggregateReport) (least : UInt64) : Check :=
  .minPassed r.passCount least.toNat

end AggregateReport

/-- The checks in the order in which they are made. -/
structure Verdict where
  checks : List Check
  deriving DecidableEq, Repr

namespace Verdict

def passed (v : Verdict) : Bool := v.checks.all Check.holds

def failures (v : Verdict) : List Check := v.checks.filter (!·.holds)

end Verdict

def AggregateReport.verdict (r : AggregateReport) (policy : Policy) : Verdict :=
  ⟨[r.checkAccounted, r.checkNoCorruption, r.checkNoUnexpectedFailures,
    r.checkExpectedWithinBudget policy.maxExpectedFailures]⟩

end FaultDrill
