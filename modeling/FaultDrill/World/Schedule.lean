import FaultDrill.World
import FaultDrill.Schedule

/-! # The schedule of a drill

Background drivers and workers take turns as they are let go on. Foreground drivers, faults
and the collection wait for the next round. Every step takes a nanosecond on the wall clock.
-/

namespace FaultDrill.World

/-- The next step of a process; a driver also takes those of the call it waits for. -/
def tick? (process : Process) (w : World) : Option World :=
  let next := match process with
    | .driver d => w.stepDriver? d <|> do w.stepClient? d (← (← w.drivers[d]?).call?)
    | process => w.step? process
  next.map (pass 0 Clock.instant)

/-! ## Who goes on -/

/-- Those who were not there before, and the collection if it has mail. -/
def called (before after : World) : List Process :=
  ((List.range after.drivers.length).drop before.drivers.length).map .driver
    ++ ((List.range after.faults.length).drop before.faults.length).map .fault
    ++ if before.collection.isNone ∨ before.mailbox.arrived.length < after.mailbox.arrived.length
      then (after.collection.map fun _ => .collection).toList else []

/-- The workers of driver `d` that a step lets go on. A pool that starts lets all of its workers go. -/
def rousedWorkers (d : Nat) (before after : Driver) : List Process :=
  match before.pool, after.pool with
  | none, some pool => (List.range pool.workerCount).map (.worker d)
  | some pool, some pool' => ((pool.rousedWorker? pool').map (.worker d)).toList
  | _, none => []

/-- The call that the driver waits for goes on after the step. -/
def answersCall (before after : Driver) : Bool :=
  match after.call?, before.pool, after.pool with
  | some i, some pool, some pool' => pool.letsGo pool' i
  | _, _, _ => false

def roused (process : Process) (before after : World) : List Process :=
  match process with
  | .driver d | .client d _ | .worker d _ =>
    match before.drivers[d]?, after.drivers[d]? with
    | some driver, some driver' =>
      rousedWorkers d driver driver' ++ (if answersCall driver driver' then [.driver d] else [])
        ++ called before after
    | _, _ => []
  | .fault _ | .collection => called before after

def wake? (process : Process) (w : World) : Option Nat :=
  match process with
  | .driver d => do (← w.drivers[d]?).wake?
  | .client _ _ => none
  | .worker d i => do (← (← w.drivers[d]?).pool).wake? i
  | .fault f => do (← w.faults[f]?).wake?
  | .collection => do (← w.collection).wake?

def isPatient (process : Process) (w : World) : Bool :=
  match process with
  | .driver d => !(w.drivers[d]?.any (·.plan.inBackground))
  | .client _ _ | .worker _ _ => false
  | .fault _ | .collection => true

def givesWay (process : Process) (w : World) : Bool :=
  match process with
  | .driver d => w.drivers[d]?.any Driver.isYielding
  | _ => false

def schedule : Schedule World Process where
  step? := tick?
  roused := roused
  givesWay := givesWay
  isPatient := isPatient
  wake? := wake?
  clock := World.clock
  pass := pass

end FaultDrill.World
