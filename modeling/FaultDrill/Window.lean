import FaultDrill.Error

/-! # The fault window

The window marks the time during which the destructive action is in flight. It opens
once and closes once, and it keeps the times of both edges. Waiting for a phase is a
loop of three steps: register for the next change, look at the phase, sleep until a
change is announced to those who had registered.
-/

namespace FaultDrill

/-- The edges of a window that has opened. -/
structure WindowBounds where
  openedAt : Duration
  closedAt : Option Duration
  deriving DecidableEq, Repr

structure Window where
  phase : WindowPhase := .preFault
  openedAt : Option Duration := none
  closedAt : Option Duration := none
  deriving DecidableEq, Repr

namespace Window

/-- Begin the destructive action. -/
def signalOpen (now : Duration) (w : Window) : Except DrillError Window :=
  match w.phase with
  | .preFault => .ok { w with phase := .open, openedAt := some now }
  | phase => .error (.windowAlreadyOpened phase)

/-- End the destructive action. -/
def signalClose (now : Duration) (w : Window) : Except DrillError Window :=
  match w.phase with
  | .open => .ok { w with phase := .postFault, closedAt := some now }
  | .preFault => .error .windowNotOpen
  | .postFault => .error .windowAlreadyClosed

def isOpen (w : Window) : Bool := w.phase = .open

/-- The edges, once the window has opened. -/
def bounds (w : Window) : Option WindowBounds :=
  w.openedAt.map fun openedAt => ⟨openedAt, w.closedAt⟩

end Window

/-! ## Waiting for a phase -/

/-- Where a waiter stands in its loop; `heard` once a change was announced since it registered. -/
inductive WaitStage
  | starting
  | registered (heard : Bool)
  | asleep (heard : Bool)
  | returned
  deriving DecidableEq, Repr

structure Waiter where
  target : WindowPhase
  stage : WaitStage := .starting
  deriving DecidableEq, Repr

namespace Waiter

def hear (w : Waiter) : Waiter :=
  match w.stage with
  | .registered _ => { w with stage := .registered true }
  | .asleep _ => { w with stage := .asleep true }
  | _ => w

/-- The next step of a waiter that sees this phase; none while it sleeps and after it returned. -/
def step? (phase : WindowPhase) (w : Waiter) : Option Waiter :=
  match w.stage with
  | .starting => some { w with stage := .registered false }
  | .registered heard =>
    some { w with stage := if w.target ≤ phase then .returned else .asleep heard }
  | .asleep true => some { w with stage := .starting }
  | .asleep false | .returned => none

end Waiter

/-- A window and those who wait for it. A change of phase and its announcement are two steps;
`unannounced` counts the changes between them. -/
structure WatchedWindow where
  window : Window := {}
  waiters : List Waiter := []
  unannounced : Nat := 0
  deriving DecidableEq, Repr

namespace WatchedWindow

inductive Move
  | openAt (now : Duration)
  | closeAt (now : Duration)
  | announce
  | wait (target : WindowPhase)
  | step (waiter : Nat)

/-- What one move leads to; none if it is not possible. A signal that is refused changes nothing
and is not a move. -/
def move? (s : WatchedWindow) : Move → Option WatchedWindow
  | .openAt now => (s.window.signalOpen now).toOption.map fun window =>
      { s with window, unannounced := s.unannounced + 1 }
  | .closeAt now => (s.window.signalClose now).toOption.map fun window =>
      { s with window, unannounced := s.unannounced + 1 }
  | .announce =>
    if 0 < s.unannounced then
      some { s with waiters := s.waiters.map Waiter.hear, unannounced := s.unannounced - 1 }
    else none
  | .wait target => some { s with waiters := s.waiters ++ [{ target }] }
  | .step i => do
    let waiter ← s.waiters[i]?
    let waiter ← waiter.step? s.window.phase
    some { s with waiters := s.waiters.set i waiter }

/-- The steps that a waiter takes before it sleeps or returns. -/
def settleWaiter (phase : WindowPhase) : Nat → Waiter → Waiter
  | 0, w => w
  | n + 1, w =>
    match w.step? phase with
    | none => w
    | some w => settleWaiter phase n w

/-- Everything announced and every waiter asleep or returned. A waiter that has heard of a
change wakes, registers and looks once. -/
def settle (s : WatchedWindow) : WatchedWindow :=
  let waiters := if 0 < s.unannounced then s.waiters.map Waiter.hear else s.waiters
  { s with waiters := waiters.map (settleWaiter s.window.phase 5), unannounced := 0 }

end WatchedWindow

end FaultDrill
