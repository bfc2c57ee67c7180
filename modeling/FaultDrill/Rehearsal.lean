import FaultDrill.World.Schedule
import FaultDrill.Record

/-! # Rehearsals

A rehearsal is a drill against the store in memory. Objects are written first; then
streams read them back, write new ones and delete some while a pod is deleted inside the
fault window. The streams stop once the window has closed, and the verdict is passed on
what they report. Its conductor takes steps of its own beside those of the world.
-/

namespace FaultDrill

structure RehearsalOptions where
  name : String := "multi-data-pod-failure"
  /-- The component that is deleted. -/
  component : String := "data-pod-0"
  /-- How many objects are written first. -/
  preload : UInt64 := 100
  deriving DecidableEq, Repr

inductive RehearsalFailure
  | preload (error : DrillError)
  | preloadIncomplete (failed : Nat) (submitted : UInt64)
  | stream (name : String) (error : DrillError)
  | collection (error : DrillError)
  | injection (error : DrillError)
  | restore (component : String) (error : FaultError)
  | crash (crash : Crash)
  deriving DecidableEq, Repr

/-- The message of an error and, after it, of the error that it passes on. -/
def DrillError.chain (e : DrillError) : List String :=
  match e with
  | .fault error => [e.message, error.message]
  | .config problem => [e.message, problem.message]
  | _ => [e.message]

/-- What failed, from the outside in. -/
def RehearsalFailure.chain : RehearsalFailure → List String
  | preload e => "Preload failed" :: e.chain
  | preloadIncomplete failed submitted =>
    [toString failed ++ " of " ++ toString submitted.toNat
      ++ " preload writes failed before any fault"]
  | stream name e => ("Background stream " ++ name ++ " failed") :: e.chain
  | collection e => "Failed to collect reports" :: e.chain
  | injection e => "Fault injection failed" :: e.chain
  | restore component e => ["Failed to restore " ++ component, e.message]
  | crash c => [c.message]

/-- What a rehearsal that ran to its end came to. -/
structure RehearsalSummary where
  report : AggregateReport
  verdict : Verdict
  deriving DecidableEq, Repr

namespace RehearsalSummary

def passed (s : RehearsalSummary) : Bool := s.verdict.passed

def record (s : RehearsalSummary) (id name : String) (started : Int) (duration : Duration) :
    DrillRecord :=
  .ofReport id name started duration s.report (s.verdict.failures.map Check.text)

/-- Filled up with blanks to ten characters. -/
def phaseColumn (text : String) : String :=
  text ++ String.ofList (List.replicate (10 - text.length) ' ')

def tallyLine (t : PhaseTally) : String :=
  "  " ++ phaseColumn t.phase.text ++ " " ++ toString t.passed ++ " passed, "
    ++ toString t.failed ++ " failed"

/-- The summary as it is printed, up to the line that names the run. -/
def lines (s : RehearsalSummary) (name : String) : List String :=
  ["=== faultline run: " ++ name ++ " ===",
    "",
    "Submitted:           " ++ toString s.report.totalSubmitted.toNat,
    "Passed:              " ++ toString s.report.passCount,
    "Expected failures:   " ++ toString s.report.expectedFailureCount,
    "Unexpected failures: " ++ toString s.report.unexpectedFailureCount]
    ++ s.report.phases.map tallyLine ++ [""] ++ s.verdict.checks.map Check.text ++ [""]

def runLine (id : String) : String := "Run id: " ++ id

def resultLine (s : RehearsalSummary) : String :=
  "Result: " ++ (if s.passed then "PASSED" else "FAILED")

end RehearsalSummary

inductive RehearsalStage
  | starting
  | preloading
  /-- The streams run; the fault waits for this time of the timer. -/
  | resting (wake : Nat)
  | faulting
  /-- Waits for this stream and those after it to end. -/
  | joining (stream : Nat) (fault : Except DrillError FaultRecord)
  | gathering (fault : Except DrillError FaultRecord)
  | restoring (report : AggregateReport) (record : FaultRecord)
  /-- The component is restored, and nobody was told yet. -/
  | restored (report : AggregateReport) (record : FaultRecord)
  | done (result : Except RehearsalFailure RehearsalSummary)

structure Rehearsal where
  config : Config
  options : RehearsalOptions
  world : World
  stage : RehearsalStage := .starting

namespace Rehearsal

def start (config : Config) (options : RehearsalOptions) : Rehearsal :=
  { config, options, world := { policy := .ofConfig config.policy } }

/-! ## The parts -/

def preloadPlan (r : Rehearsal) : DriverPlan :=
  { stream := "preload", stop := .count r.options.preload, pool := r.config.pool
    inBackground := false }

/-- A source of writes by the configuration. -/
def writes (r : Rehearsal) (seed : UInt64) (keyPrefix : String) : Except Crash Source :=
  (WriteSource.ofConfig r.config.workload seed).map fun w => .write (w.withKeyPrefix keyPrefix)

def streamPlan (r : Rehearsal) (stream : String) : DriverPlan :=
  { stream, stop := .windowClosed, pool := r.config.pool, pace := r.config.workload.pace }

/-- The streams and their sources: the first half of the objects is read, the rest deleted. -/
def streams (r : Rehearsal) (written : List StoredObject) : Except Crash (List (String × Source)) :=
  let half := written.length / 2
  (r.writes 2 "bg").map fun writes =>
    [("reads", .read (written.take half) 0),
      ("writes", writes),
      ("deletes", .delete ((written.drop half).map StoredObject.target))]

/-- The stream `preload` is driver zero. -/
def streamCount : Nat := 3

def injector (r : Rehearsal) : Injector :=
  .podFailure r.options.component r.config.fault.transitionMs.toNat

/-! ## The conductor -/

def control (r : Rehearsal) (c : World.Control) : Rehearsal :=
  { r with world := r.world.control c }

def atStage (r : Rehearsal) (stage : RehearsalStage) : Rehearsal := { r with stage }

def fail (r : Rehearsal) (failure : RehearsalFailure) : Rehearsal := r.atStage (.done (.error failure))

def begin (r : Rehearsal) : Rehearsal :=
  let r := r.control (.log (.scenarioStarted r.options.name))
  match r.writes 1 "pre" with
  | .error c => r.fail (.crash c)
  | .ok source => (r.control (.launch r.preloadPlan source)).atStage .preloading

/-- The streams start. -/
def launch (r : Rehearsal) (streams : List (String × Source)) : Rehearsal :=
  (streams.foldl (fun r (stream, source) => r.control (.launch (r.streamPlan stream) source)) r).atStage
    (.resting (r.world.clock.timer + r.config.fault.startAfterMs.toNat))

/-- The preload has ended; the streams start if it wrote everything. -/
def preloaded (r : Rehearsal) : Except DriverFailure DriverReport → Rehearsal
  | .error (.error e) => r.fail (.preload e)
  | .error (.crash c) => r.fail (.crash c)
  | .ok report =>
    if report.failed.isEmpty then
      match r.streams report.writtenObjects with
      | .error c => r.fail (.crash c)
      | .ok streams => r.launch streams
    else r.fail (.preloadIncomplete report.failed.length report.submitted)

/-- The driver of a stream has ended. -/
def joined (r : Rehearsal) (stream : Nat) (fault : Except DrillError FaultRecord) (name : String) :
    Except DrillError Unit → Rehearsal
  | .error e => r.fail (.stream name e)
  | .ok () =>
    if stream < streamCount then r.atStage (.joining (stream + 1) fault)
    else (r.control (.collect (.ofNat streamCount) r.config.report.timeout)).atStage
      (.gathering fault)

def gathered (r : Rehearsal) (fault : Except DrillError FaultRecord) : CollectionEnd → Rehearsal
  | .error e => r.fail (.collection e)
  | .crash c => r.fail (.crash c)
  | .report report =>
    match fault with
    | .error e => r.fail (.injection e)
    | .ok record => r.atStage (.restoring report record)

def restore (r : Rehearsal) (report : AggregateReport) (record : FaultRecord) : Rehearsal :=
  match r.injector.restore record r.world.store with
  | (.ok (), _) =>
    (r.control (.restoreFault r.injector record)).atStage (.restored report record)
  | (.error e, _) => r.fail (.restore record.component e)

/-- The next step of the conductor; none while it waits and once it is done. -/
def conduct? (r : Rehearsal) : Option Rehearsal :=
  match r.stage with
  | .starting => some r.begin
  | .preloading => do some (r.preloaded (← (← r.world.drivers[0]?).outcome?))
  | .resting wake =>
    if wake ≤ r.world.clock.timer then
      some ((r.control (.startFault r.injector true)).atStage .faulting)
    else none
  | .faulting => do some (r.atStage (.joining 1 (← (← r.world.faults[0]?).result?)))
  | .joining stream fault => do
    let driver ← r.world.drivers[stream]?
    some (r.joined stream fault driver.plan.stream (← driver.joined?))
  | .gathering fault => do some (r.gathered fault (← (← r.world.collection).ended))
  | .restoring report record => some (r.restore report record)
  | .restored report record =>
    some ((r.control (.log (.faultRestored record.component))).atStage
      (.done (.ok ⟨report, report.verdict r.world.policy⟩)))
  | .done _ => none

def result? (r : Rehearsal) : Option (Except RehearsalFailure RehearsalSummary) :=
  match r.stage with
  | .done result => some result
  | _ => none

/-! ## Moves -/

inductive Move
  | conduct
  | step (process : Process)
  | pass (timer : Nat) (wall : Duration)

/-- What one move leads to; none if it is not possible. -/
def move? (r : Rehearsal) : Move → Option Rehearsal
  | .conduct => r.conduct?
  | .step process => (r.world.step? process).map fun world => { r with world }
  | .pass timer wall => some { r with world := r.world.pass timer wall }

/-- What any sequence of moves leads to. -/
inductive Reachable (start : Rehearsal) : Rehearsal → Prop
  | refl : Reachable start start
  | move {r r' : Rehearsal} (m : Move) : Reachable start r → r.move? m = some r' →
    Reachable start r'

/-! ## The schedule -/

inductive Part
  | conductor
  | process (process : Process)
  deriving DecidableEq, Repr

def pass (timer : Nat) (wall : Duration) (r : Rehearsal) : Rehearsal :=
  { r with world := r.world.pass timer wall }

def step? (part : Part) (r : Rehearsal) : Option Rehearsal :=
  match part with
  | .conductor => r.conduct?.map (pass 0 Clock.instant)
  | .process p => (World.tick? p r.world).map fun world => { r with world }

/-- Those in the world, and the conductor if it had to wait before the step. -/
def roused (part : Part) (before after : Rehearsal) : List Part :=
  let inWorld := match part with
    | .conductor => World.called before.world after.world
    | .process p => World.roused p before.world after.world
  inWorld.map .process
    ++ if before.conduct?.isNone && after.conduct?.isSome then [.conductor] else []

def wake? (part : Part) (r : Rehearsal) : Option Nat :=
  match part with
  | .conductor => match r.stage with
    | .resting wake => some wake
    | _ => none
  | .process p => World.wake? p r.world

/-- The conductor waits for the next round, as everything does that it runs by itself. -/
def schedule : Schedule Rehearsal Part where
  step? := step?
  roused := roused
  givesWay
    | .conductor, _ => false
    | .process p, r => World.givesWay p r.world
  isPatient
    | .conductor, _ => true
    | .process p, r => World.isPatient p r.world
  wake? := wake?
  clock r := r.world.clock
  pass := pass

/-- The rehearsal at its beginning: the conductor has the first turn. -/
def session (r : Rehearsal) : Session Rehearsal Part :=
  schedule.summon .conductor { state := r }

/-- The rehearsal played until its conductor is done. -/
def play (r : Rehearsal) : Rehearsal :=
  (schedule.playUntil (·.result?.isSome) Schedule.patience r.session).state

end Rehearsal

end FaultDrill
