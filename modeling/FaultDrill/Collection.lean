import FaultDrill.Driver

/-! # Collecting reports

Drivers send their messages to a mailbox. A collection takes them in the order of their
arrival until it has the reports it expects, somebody has aborted, or its time is up.
-/

namespace FaultDrill

structure Mailbox where
  /-- The messages that arrived, in order. -/
  arrived : List Message := []
  /-- How many of them were taken. -/
  taken : Nat := 0
  isOpen : Bool := true

namespace Mailbox

/-- A message to a mailbox that was closed is lost. -/
def send (message : Message) (m : Mailbox) : Mailbox :=
  if m.isOpen then { m with arrived := m.arrived ++ [message] } else m

def close (m : Mailbox) : Mailbox := { m with isOpen := false }

def take? (m : Mailbox) : Option (Message × Mailbox) :=
  m.arrived[m.taken]?.map fun message => (message, { m with taken := m.taken + 1 })

end Mailbox

/-- What a collection came to. -/
inductive CollectionEnd
  | report (report : AggregateReport)
  | error (error : DrillError)
  | crash (crash : Crash)
  deriving DecidableEq, Repr

structure Collection where
  expected : UInt64
  timeout : Duration
  /-- On the timer, in milliseconds; none if the time is never up. -/
  deadline : Option Nat
  received : List DriverReport := []
  ended : Option CollectionEnd := none

namespace Collection

/-- No list of this many reports can be reserved. -/
def reserveLimit : Nat := Payload.sizeLimit / 80 + 1

/-- The instants that a deadline can name end this many seconds from the start. -/
def clockRange : Nat := UInt64.size / 2

def start (timer : Nat) (expected : UInt64) (timeout : Duration) : Collection :=
  { expected, timeout
    deadline := if timer / 1000 + timeout.secs < clockRange then some (timer + timeout.ceilMillis)
      else none
    ended := if expected.toNat < reserveLimit then none else some (.crash .capacityOverflow) }

/-- The event that announces a report. -/
def readyEvent (report : AggregateReport) : Event :=
  .reportReady (.ofNat report.passCount) (.ofNat report.expectedFailureCount)
    (.ofNat report.unexpectedFailureCount)

/-- The next step of a collection that classifies against these edges; none while it waits and
once it has ended. A message that is there is taken before the deadline is looked at. -/
def step? (policy : Policy) (bounds : Option WindowBounds) (timer : Nat) (mailbox : Mailbox)
    (c : Collection) : Option (Collection × Mailbox × Option Event) :=
  if c.ended.isSome then none
  else if c.expected.toNat ≤ c.received.length then
    match AggregateReport.classify c.received bounds policy with
    | .ok report => some ({ c with ended := some (.report report) }, mailbox, some (readyEvent report))
    | .error crash => some ({ c with ended := some (.crash crash) }, mailbox, none)
  else match mailbox.take? with
    | some (.final report, mailbox) =>
      some ({ c with received := c.received ++ [report] }, mailbox, none)
    | some (.aborted stream reason, mailbox) =>
      some ({ c with ended := some (.error (.driverAborted stream reason)) }, mailbox, none)
    | none =>
      if c.deadline.any (· ≤ timer) then
        let late := DrillError.reportTimeout c.expected (.ofNat c.received.length) c.timeout
        some ({ c with ended := some (.error late) }, mailbox, none)
      else none

/-- The time at which a collection that goes on is given up. -/
def wake? (c : Collection) : Option Nat := if c.ended.isSome then none else c.deadline

end Collection

end FaultDrill
