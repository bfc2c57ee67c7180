import FaultDrill.Json.Data
import FaultDrill.Check

/-! # Events

The milestones of a drill, as text for a log and as JSON. A log of JSON lines grows by
one line for each event.
-/

namespace FaultDrill

inductive Event
  | scenarioStarted (scenario : String)
  | driverStarted (stream : String)
  | driverFinished (stream : String) (submitted passed failed : UInt64)
  | driverAborted (stream reason : String)
  | windowOpened (atMs : UInt64)
  | faultInjected (component : String)
  | faultFailed (injector reason : String)
  | windowClosed (atMs : UInt64)
  | faultRestored (component : String)
  | reportReady (passed expectedFailures unexpectedFailures : UInt64)
  deriving DecidableEq, Repr

namespace Event

def text : Event → String
  | scenarioStarted scenario => "scenario " ++ scenario ++ " started"
  | driverStarted stream => "driver " ++ stream ++ " started"
  | driverFinished stream submitted passed failed =>
    "driver " ++ stream ++ " finished: " ++ toString submitted.toNat ++ " submitted, "
      ++ toString passed.toNat ++ " passed, " ++ toString failed.toNat ++ " failed"
  | driverAborted stream reason => "driver " ++ stream ++ " aborted: " ++ reason
  | windowOpened atMs => "fault window opened at " ++ toString atMs.toNat ++ "ms"
  | faultInjected component => "fault injected into " ++ component
  | faultFailed injector reason => "fault injection by " ++ injector ++ " failed: " ++ reason
  | windowClosed atMs => "fault window closed at " ++ toString atMs.toNat ++ "ms"
  | faultRestored component => component ++ " restored"
  | reportReady passed expected unexpected =>
    "report ready: " ++ toString passed.toNat ++ " passed, " ++ toString expected.toNat
      ++ " expected failures, " ++ toString unexpected.toNat ++ " unexpected failures"

/-- Logged as a warning. -/
def isWarning : Event → Bool
  | driverAborted _ _ | faultFailed _ _ => true
  | _ => false

def tag : Event → String
  | scenarioStarted _ => "scenario_started"
  | driverStarted _ => "driver_started"
  | driverFinished _ _ _ _ => "driver_finished"
  | driverAborted _ _ => "driver_aborted"
  | windowOpened _ => "window_opened"
  | faultInjected _ => "fault_injected"
  | faultFailed _ _ => "fault_failed"
  | windowClosed _ => "window_closed"
  | faultRestored _ => "fault_restored"
  | reportReady _ _ _ => "report_ready"

open Json in
def fields : Event → List (String × Json)
  | scenarioStarted scenario => [("scenario", .text scenario)]
  | driverStarted stream => [("stream", .text stream)]
  | driverFinished stream submitted passed failed =>
    [("stream", .text stream), ("submitted", word submitted), ("passed", word passed),
      ("failed", word failed)]
  | driverAborted stream reason => [("stream", .text stream), ("reason", .text reason)]
  | windowOpened atMs => [("at_ms", word atMs)]
  | faultInjected component => [("component", .text component)]
  | faultFailed injector reason => [("injector", .text injector), ("reason", .text reason)]
  | windowClosed atMs => [("at_ms", word atMs)]
  | faultRestored component => [("component", .text component)]
  | reportReady passed expected unexpected =>
    [("passed", word passed), ("expected_failures", word expected),
      ("unexpected_failures", word unexpected)]

def toJson (e : Event) : Json := .object (("event", .text e.tag) :: e.fields)

open Json in
def ofTagged? (tag : String) (record : Json) : Option Event :=
  match tag with
  | "scenario_started" => do
    let [scenario] ← columns? ["scenario"] record | none
    some (scenarioStarted (← required? text? scenario))
  | "driver_started" => do
    let [stream] ← columns? ["stream"] record | none
    some (driverStarted (← required? text? stream))
  | "driver_finished" => do
    let [stream, submitted, passed, failed] ←
      columns? ["stream", "submitted", "passed", "failed"] record | none
    some (driverFinished (← required? text? stream) (← required? word? submitted)
      (← required? word? passed) (← required? word? failed))
  | "driver_aborted" => do
    let [stream, reason] ← columns? ["stream", "reason"] record | none
    some (driverAborted (← required? text? stream) (← required? text? reason))
  | "window_opened" => do
    let [atMs] ← columns? ["at_ms"] record | none
    some (windowOpened (← required? word? atMs))
  | "fault_injected" => do
    let [component] ← columns? ["component"] record | none
    some (faultInjected (← required? text? component))
  | "fault_failed" => do
    let [injector, reason] ← columns? ["injector", "reason"] record | none
    some (faultFailed (← required? text? injector) (← required? text? reason))
  | "window_closed" => do
    let [atMs] ← columns? ["at_ms"] record | none
    some (windowClosed (← required? word? atMs))
  | "fault_restored" => do
    let [component] ← columns? ["component"] record | none
    some (faultRestored (← required? text? component))
  | "report_ready" => do
    let [passed, expected, unexpected] ←
      columns? ["passed", "expected_failures", "unexpected_failures"] record | none
    some (reportReady (← required? word? passed) (← required? word? expected)
      (← required? word? unexpected))
  | _ => none

def ofJson? (j : Json) : Option Event := do
  let (tag, record) ← Json.tagged? "event" 0 j
  ofTagged? tag record

end Event

/-! ## Logs of JSON lines -/

namespace EventLog

/-- A log with one more value on a line of its own. -/
def writeLine (log : String) (value : Json) : String := log ++ value.render ++ "\n"

def emit (log : String) (event : Event) : String := writeLine log event.toJson

end EventLog

end FaultDrill
