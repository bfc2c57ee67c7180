import FaultDrill.Pool.Work
import FaultDrill.Source
import FaultDrill.Event

/-! # Workload drivers

A driver submits the operations of one source to a pool of its own until its stop
condition is reached or the source runs dry, lets the pool drain, and reports. One that
runs in the background sends exactly one message about how it ended.
-/

namespace FaultDrill

/-- When a driver stops submitting. An exhausted source stops it in any case. -/
inductive StopCondition
  | count (limit : UInt64)
  | signal (name : String)
  | windowClosed
  | exhausted
  deriving DecidableEq, Repr

/-- What a driver looks at outside itself. -/
structure Surroundings where
  windowClosed : Bool
  /-- The signals that were raised. -/
  raised : List String
  /-- Milliseconds on the timer. -/
  timer : Nat

namespace StopCondition

def reached (stop : StopCondition) (submitted : UInt64) (around : Surroundings) : Bool :=
  match stop with
  | count limit => limit ≤ submitted
  | signal name => around.raised.contains name
  | windowClosed => around.windowClosed
  | exhausted => false

/-- The driver lets others run between two submissions, pace or no pace. -/
def isContinuous : StopCondition → Bool
  | count _ => false
  | _ => true

end StopCondition

/-- What the driver of a stream was told to do. -/
structure DriverPlan where
  stream : String
  stop : StopCondition
  pool : PoolConfig := {}
  pace : Option Duration := none
  handler : Handler := .storage
  /-- Its events go to the log. -/
  isLogged : Bool := true
  /-- It sends a message about how it ended. -/
  inBackground : Bool := true

inductive DriverFailure
  | error (error : DrillError)
  | crash (crash : Crash)
  deriving DecidableEq, Repr

/-- The reason that is given for an abort. -/
def DriverFailure.reason : DriverFailure → String
  | error e => e.message
  | crash _ => "driver panicked"

/-- What a collector of reports receives. -/
inductive Message
  | final (report : DriverReport)
  | aborted (stream reason : String)
  deriving DecidableEq, Repr

inductive DriverStage
  | starting
  /-- About to look at its stop condition. -/
  | deciding
  /-- Waits for its call to submit a task. -/
  | submitting (client : Nat)
  | pausing (wake : Nat)
  | yielding
  /-- Waits for its call to shut the pool down. -/
  | stopping (client : Nat)
  /-- Takes the results until every worker has exited. -/
  | collecting
  /-- About to announce that it gave up. -/
  | failing (failure : DriverFailure)
  /-- About to send its message. -/
  | sending (message : Message) (outcome : Except DriverFailure DriverReport)
  | done (outcome : Except DriverFailure DriverReport)

structure Driver where
  plan : DriverPlan
  source : Source
  stage : DriverStage := .starting
  pool : Option Pool := none
  submitted : UInt64 := 0
  nextId : TaskId := .first

/-- What a step of a driver lets others see. -/
structure Emission where
  event : Option Event := none
  message : Option Message := none

namespace Driver

def report (d : Driver) (p : Pool) : DriverReport :=
  .ofResults d.plan.stream d.submitted p.results

/-- Give up. The pool is let go: it finishes what it has and takes nothing more. -/
def fail (failure : DriverFailure) (d : Driver) : Driver :=
  { d with
    pool := d.pool.map Pool.detach
    stage := if d.plan.inBackground then .failing failure else .done (.error failure) }

/-- Call the pool and wait at the stage that the call's number gives. -/
def callPool (request : Pool.Request) (stage : Nat → DriverStage) (d : Driver) (p : Pool) : Driver :=
  { d with pool := some (p.call request), stage := stage p.clients.length }

/-- Where the driver goes once the task it submitted was accepted. -/
def accepted (timer : Nat) (d : Driver) : Driver :=
  let d := { d with submitted := d.submitted + 1 }
  match d.nextId.next with
  | .error crash => d.fail (.crash crash)
  | .ok nextId =>
    { d with
      nextId
      stage := match d.plan.pace with
        | some pace => .pausing (timer + pace.ceilMillis)
        | none => if d.plan.stop.isContinuous then .yielding else .deciding }

def start (d : Driver) : Driver × Emission :=
  match Pool.start d.plan.stream d.plan.pool with
  | .error .noWorkers => (d.fail (.error (.invalidWorkerCount d.plan.pool.workers)), {})
  | .error (.crash crash) => (d.fail (.crash crash), {})
  | .ok pool =>
    ({ d with pool := some pool, stage := .deciding },
      { event := some (.driverStarted d.plan.stream) })

/-- Looks at the stop condition and asks the source for an operation if it is not reached. A step of
the driver goes on until it waits, as on one thread: nobody raises a signal between the two. -/
def decide (around : Surroundings) (d : Driver) (p : Pool) : Driver :=
  if d.plan.stop.reached d.submitted around then d.callPool .shutdown .stopping p
  else match d.source.next d.nextId with
    | .error crash => d.fail (.crash crash)
    | .ok (none, source) => { d with source }.callPool .shutdown .stopping p
    | .ok (some operation, source) =>
      { d with source }.callPool (.submit ⟨d.nextId, d.plan.stream, operation⟩) .submitting p

/-- Every worker has exited, so every result has arrived. -/
def finish (d : Driver) (p : Pool) : Driver × Emission :=
  let report := d.report p
  let stage := if d.plan.inBackground then .sending (.final report) (.ok report)
    else .done (.ok report)
  ({ d with stage }, { event := some (.driverFinished report.stream report.submitted
    (.ofNat report.passed.length) (.ofNat report.failed.length)) })

/-- The next step of the driver itself, up to the next point at which others may run; none while it
waits. -/
def step? (around : Surroundings) (d : Driver) : Option (Driver × Emission) :=
  match d.stage with
  | .starting => some d.start
  | .deciding => d.pool.map fun p => (d.decide around p, {})
  | .submitting client => do
    match ← (← d.pool).reply? client with
    | .ok () => some (d.accepted around.timer, {})
    | .error e => some (d.fail (.error e), {})
  | .pausing wake =>
    if wake ≤ around.timer then some ({ d with stage := .deciding }, {}) else none
  | .yielding => some ({ d with stage := .deciding }, {})
  | .stopping client => do
    match ← (← d.pool).reply? client with
    | .ok () => some ({ d with stage := .collecting }, {})
    | .error e => some (d.fail (.error e), {})
  | .collecting => do
    let p ← d.pool
    if p.allExited then some (d.finish p) else none
  | .failing failure =>
    let stream := d.plan.stream
    some ({ d with stage := .sending (.aborted stream failure.reason) (.error failure) },
      { event := some (.driverAborted stream failure.reason) })
  | .sending message outcome =>
    some ({ d with stage := .done outcome }, { message := some message })
  | .done _ => none

def outcome? (d : Driver) : Option (Except DriverFailure DriverReport) :=
  match d.stage with
  | .done outcome => some outcome
  | _ => none

/-- What joining a background driver gives, once it is done. -/
def joined? (d : Driver) : Option (Except DrillError Unit) :=
  d.outcome?.map fun
    | .ok _ => .ok ()
    | .error failure => .error (.driverAborted d.plan.stream failure.reason)

/-! ## Waiting -/

/-- The call that the driver waits for. -/
def call? (d : Driver) : Option Nat :=
  match d.stage with
  | .submitting client | .stopping client => some client
  | _ => none

/-- The time at which a pause is over. -/
def wake? (d : Driver) : Option Nat :=
  match d.stage with
  | .pausing wake => some wake
  | _ => none

def isYielding (d : Driver) : Bool :=
  match d.stage with
  | .yielding => true
  | _ => false

end Driver

end FaultDrill
