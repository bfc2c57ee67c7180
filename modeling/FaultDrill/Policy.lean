import FaultDrill.Window
import FaultDrill.Config

/-! # Failure policies

Which failures the fault window excuses. A failure is excused when its task saw the
window open, when its time meets the window widened by the grace on both sides, or when
it began after the window closed and its kind is tolerated there. Corruption is never
excused.
-/

namespace FaultDrill

structure Policy where
  grace : Duration := .zero
  /-- The most excused failures that a passing verdict allows; none for no limit. -/
  maxExpectedFailures : Option UInt64 := none
  toleratedAfterClose : List OperationKind := []
  deriving DecidableEq, Repr

inductive Classification
  | passed
  | expectedFailure
  | unexpectedFailure
  deriving DecidableEq, Repr

namespace Policy

def strict : Policy := {}

def withGrace (grace : Duration) (p : Policy) : Policy := { p with grace }

def withMaxExpectedFailures (most : UInt64) (p : Policy) : Policy :=
  { p with maxExpectedFailures := some most }

/-- Kinds are kept in the order in which they are first tolerated. -/
def tolerateAfterClose (kind : OperationKind) (p : Policy) : Policy :=
  if p.toleratedAfterClose.contains kind then p
  else { p with toleratedAfterClose := p.toleratedAfterClose ++ [kind] }

def ofConfig (c : PolicyConfig) : Policy :=
  ⟨.ofMillis c.graceMs, c.maxExpectedFailures, c.toleratedAfterClose⟩

/-- The closing edge moved out by the grace. An edge past the largest duration is a crash. -/
def widenedClose (p : Policy) (bounds : WindowBounds) : Except Crash (Option Duration) :=
  match bounds.closedAt with
  | none => .ok none
  | some closed =>
    match closed.add? p.grace with
    | some edge => .ok (some edge)
    | none => .error .durationOverflow

/-- A failure of a tolerated kind that began after the window closed. -/
def toleratesLate (p : Policy) (r : OperationResult) (bounds : WindowBounds) : Bool :=
  match bounds.closedAt with
  | some closed => decide (closed < r.startedAt) && p.toleratedAfterClose.contains r.kind
  | none => false

def classify (p : Policy) (r : OperationResult) (bounds : Option WindowBounds) :
    Except Crash Classification :=
  match r.outcome.failureKind?, bounds with
  | none, _ => .ok .passed
  | some .corruption, _ => .ok .unexpectedFailure
  | some _, none => .ok .unexpectedFailure
  | some _, some bounds =>
    if r.phaseAtStart = .open then .ok .expectedFailure
    else do
      let stop ← p.widenedClose bounds
      if r.overlaps (bounds.openedAt.sub p.grace) stop then .ok .expectedFailure
      else if p.toleratesLate r bounds then .ok .expectedFailure
      else .ok .unexpectedFailure

end Policy

end FaultDrill
