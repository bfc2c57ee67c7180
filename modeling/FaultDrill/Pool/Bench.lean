import FaultDrill.Pool.Work
import FaultDrill.Schedule
import FaultDrill.Window

/-! # A pool on a bench

One pool with a handler and a window, for trying it out: calls are made from outside and
may stay blocked, and time passes as it is told to.
-/

namespace FaultDrill

structure Bench where
  pool : Pool
  handler : Handler
  window : Window := {}
  store : Store := {}
  clock : Clock := {}
  /-- The most handlers that executed at once. -/
  peak : Nat := 0

namespace Bench

def pass (timer : Nat) (wall : Duration) (b : Bench) : Bench :=
  { b with clock := b.clock.pass timer wall }

def withPool (pool : Pool) (b : Bench) : Bench :=
  { b with pool, peak := max b.peak pool.runningCount }

inductive Part
  | client (i : Nat)
  | worker (w : Nat)
  deriving DecidableEq, Repr

def step? (part : Part) (b : Bench) : Option Bench :=
  let next := match part with
    | .client i => (b.pool.stepClient? i).map (·, b.store)
    | .worker w => b.pool.work? b.handler b.window.phase b.clock b.store w
  next.map fun (pool, store) => ({ b with store }.withPool pool).pass 0 Clock.instant

/-- The calls and the worker that a step lets go on. -/
def roused (before after : Bench) : List Part :=
  ((List.range before.pool.clients.length).filter (before.pool.letsGo after.pool)).map .client
    ++ ((before.pool.rousedWorker? after.pool).map .worker).toList

def schedule : Schedule Bench Part where
  step? := step?
  roused _ := roused
  givesWay _ _ := false
  isPatient _ _ := false
  wake?
    | .client _, _ => none
    | .worker w, b => b.pool.wake? w
  clock := Bench.clock
  pass := pass

end Bench

/-- A bench as it is used. -/
abbrev BenchSession := Session Bench Bench.Part

namespace BenchSession

/-- The workers of the pool line up. -/
def start (bench : Bench) : BenchSession :=
  Bench.schedule.change id (fun _ b => (List.range b.pool.workerCount).map .worker) { state := bench }

/-- Make a call and let everything happen that can happen now. -/
def call (request : Pool.Request) (x : BenchSession) : BenchSession :=
  Bench.schedule.change (fun b => { b with pool := b.pool.call request })
    (fun before _ => [.client before.pool.clients.length]) x

def advance (millis : Nat) (x : BenchSession) : BenchSession := Bench.schedule.advance millis x

def withWindow (x : BenchSession) : Except DrillError Window → Except DrillError Unit × BenchSession
  | .ok window => (.ok (), Bench.schedule.change ({ · with window }) (fun _ _ => []) x)
  | .error e => (.error e, x)

def openWindow (x : BenchSession) : Except DrillError Unit × BenchSession :=
  x.withWindow (x.state.window.signalOpen x.state.clock.wall)

def closeWindow (x : BenchSession) : Except DrillError Unit × BenchSession :=
  x.withWindow (x.state.window.signalClose x.state.clock.wall)

def dropResults (x : BenchSession) : BenchSession :=
  { x with state := { x.state with pool := x.state.pool.deafen } }

/-- The calls that have returned, by number. -/
def replies (x : BenchSession) : List (Nat × Except DrillError Unit) :=
  (List.range x.state.pool.clients.length).filterMap fun i => (x.state.pool.reply? i).map (i, ·)

end BenchSession

end FaultDrill
