import FaultDrill.Pool
import FaultDrill.Clock

/-! # Work

A worker with its handler. Beginning a task reads the phase and the clock; once the
handler's delay is over, the handler acts on the store and the result is assembled.
-/

namespace FaultDrill.Pool

/-- The next step of a worker that executes its tasks with this handler, and the store after it;
none while it waits. -/
def work? (handler : Handler) (phase : WindowPhase) (clock : Clock) (store : Store) (w : Nat)
    (p : Pool) : Option (Pool × Store) := do
  match ← p.workers[w]? with
  | .holding task =>
    let wake := clock.timer + handler.delay task store
    (p.begin? w phase clock.wall wake).map (·, store)
  | .running task _ _ wake =>
    if wake ≤ clock.timer then
      let (outcome, store) := handler.act task store
      (p.finish? w outcome clock.wall).map (·, store)
    else none
  | _ => (p.stepWorker? w).map (·, store)

/-- The time at which the delay of the handler that the worker executes is over. -/
def wake? (w : Nat) (p : Pool) : Option Nat :=
  match p.workers[w]? with
  | some (.running _ _ _ wake) => some wake
  | _ => none

/-! ## Who goes on -/

/-- The worker that a step lets go on: the one whose turn at the queue it becomes, or whose turn it
is when something comes into the queue or nothing will any more. -/
def rousedWorker? (before after : Pool) : Option Nat :=
  if before.line.head? ≠ after.line.head? ∨ before.queue.length < after.queue.length
      ∨ before.isOpen ≠ after.isOpen then after.line.head?
  else none

/-- The call had to wait before the step and goes on after it. -/
def letsGo (before after : Pool) (i : Nat) : Bool :=
  (before.stepClient? i).isNone && (after.stepClient? i).isSome

end FaultDrill.Pool
