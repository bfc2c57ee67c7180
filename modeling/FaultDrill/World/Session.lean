import FaultDrill.World.Schedule

/-! # Sessions

A drill played by hand: streams are run or started, faults injected, the window moved and
reports collected one after the other. Whoever waits for something lets everything
happen until then; nothing comes back if it never does.
-/

namespace FaultDrill

/-- A drill as it is played. -/
abbrev DrillSession := Session World Process

namespace DrillSession

def start (world : World) : DrillSession := { state := world }

/-- Change something from outside, at a time of its own, and let everything happen that can
happen then. -/
def act (c : World.Control) (x : DrillSession) : DrillSession :=
  World.schedule.change
    (fun w => ((w.pass 0 Clock.instant).control c).pass 0 Clock.instant) World.called x

/-- Let so many milliseconds pass. -/
def advance (millis : Nat) (x : DrillSession) : DrillSession := World.schedule.advance millis x

/-- What a process came to, once everything has happened until then. -/
def await (result? : World → Option α) (x : DrillSession) : Option α × DrillSession :=
  let x := World.schedule.playUntil (fun w => (result? w).isSome) Schedule.patience x
  (result? x.state, x)

/-- Start a stream in the background; it has the number that is given back. -/
def startStream (plan : DriverPlan) (source : Source) (x : DrillSession) : Nat × DrillSession :=
  (x.state.drivers.length, x.act (.launch plan source))

/-- Run a stream and wait for its report. -/
def runStream (plan : DriverPlan) (source : Source) (x : DrillSession) :
    Option (Except DriverFailure DriverReport) × DrillSession :=
  let d := x.state.drivers.length
  (x.act (.launch { plan with inBackground := false } source)).await
    fun w => do (← w.drivers[d]?).outcome?

/-- What joining a stream gives, once it has ended. -/
def joined? (d : Nat) (w : World) : Option (Except DrillError Unit) := do (← w.drivers[d]?).joined?

/-- Wait for a stream in the background. -/
def joinStream (d : Nat) (x : DrillSession) : Option (Except DrillError Unit) × DrillSession :=
  x.await (joined? d)

/-- Inject a fault, with the fault window around it if it is bracketed. -/
def runFault (injector : Injector) (isBracketed : Bool) (x : DrillSession) :
    Option (Except DrillError FaultRecord) × DrillSession :=
  let f := x.state.faults.length
  (x.act (.startFault injector isBracketed)).await fun w => do (← w.faults[f]?).result?

/-- Undo an injection. -/
def restoreFault (injector : Injector) (record : FaultRecord) (x : DrillSession) :
    Except FaultError Unit × DrillSession :=
  ((injector.restore record x.state.store).1, x.act (.restoreFault injector record))

/-- Collect the reports of so many streams. The mailbox is closed after that. -/
def collectReports (expected : UInt64) (timeout : Duration) (x : DrillSession) :
    Option CollectionEnd × DrillSession :=
  let (ended, x) := (x.act (.collect expected timeout)).await fun w => do (← w.collection).ended
  (ended, x.act .closeMailbox)

/-- Whether the window accepts the signal, and the session after it. -/
def openWindow (x : DrillSession) : Except DrillError Unit × DrillSession :=
  ((x.state.window.signalOpen x.state.clock.wall).map fun _ => (), x.act .openWindow)

def closeWindow (x : DrillSession) : Except DrillError Unit × DrillSession :=
  ((x.state.window.signalClose x.state.clock.wall).map fun _ => (), x.act .closeWindow)

end DrillSession

end FaultDrill
