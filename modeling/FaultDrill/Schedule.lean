import FaultDrill.Clock

/-! # Schedules

Of all orders of steps a schedule takes the one of a single thread with a virtual timer.
Whoever has a turn goes on until it has to wait, and those whom its steps let go on line up
for a turn of their own. When the line is empty, the timer moves to the next time at which
somebody wakes.
-/

namespace FaultDrill

/-- Who has a turn next, and who wakes when. -/
structure Agenda (π : Type) where
  /-- Have a turn, in this order. -/
  line : List π := []
  /-- Have the first turn of the next round. -/
  patient : List π := []
  /-- Gave way, and have the last turns of the next round. -/
  aside : List π := []
  /-- Who wakes when, in the order in which they fell asleep. -/
  alarms : List (Nat × π) := []

/-- A state, and who goes on from there. -/
structure Session (σ π : Type) where
  state : σ
  agenda : Agenda π := {}

structure Schedule (σ π : Type) where
  step? : π → σ → Option σ
  /-- Those whom a step from the first state to the second lets go on. -/
  roused : π → σ → σ → List π
  /-- Lets others go first, as it stands. -/
  givesWay : π → σ → Bool
  /-- Waits for the next round when it is let go on. -/
  isPatient : π → σ → Bool
  /-- The time at which it wakes, if it sleeps. -/
  wake? : π → σ → Option Nat
  clock : σ → Clock
  pass : Nat → Duration → σ → σ

namespace Agenda

variable {π : Type}

/-- The next round begins. -/
def nextRound (a : Agenda π) : Agenda π :=
  { a with line := a.patient ++ a.line ++ a.aside, patient := [], aside := [] }

/-- Whose turn it is, and who has one after that. -/
def next? (a : Agenda π) : Option (π × Agenda π) :=
  let a := if a.line.isEmpty then a.nextRound else a
  match a.line with
  | [] => none
  | p :: line => some (p, { a with line })

variable [DecidableEq π]

def lineUp (p : π) (a : Agenda π) : Agenda π :=
  if p ∈ a.line then a else { a with line := a.line ++ [p] }

def waitPatiently (p : π) (a : Agenda π) : Agenda π :=
  if p ∈ a.patient then a else { a with patient := a.patient ++ [p] }

def stepAside (p : π) (a : Agenda π) : Agenda π := { a with aside := a.aside ++ [p] }

def setAlarm (time : Nat) (p : π) (a : Agenda π) : Agenda π :=
  if (time, p) ∈ a.alarms then a else { a with alarms := a.alarms ++ [(time, p)] }

end Agenda

namespace Schedule

variable {σ π : Type} [DecidableEq π] (s : Schedule σ π)

/-- More turns than anybody waits for. -/
def patience : Nat := UInt64.size / 4

def summon (p : π) (x : Session σ π) : Session σ π :=
  { x with agenda :=
      if s.isPatient p x.state then x.agenda.waitPatiently p else x.agenda.lineUp p }

def summonAll (ps : List π) (x : Session σ π) : Session σ π := ps.foldl (fun x p => s.summon p x) x

/-- The turn of a process, for at most so many steps. -/
def takeTurn (p : π) : Nat → Session σ π → Session σ π
  | 0, x => s.summon p x
  | n + 1, x =>
    match s.step? p x.state with
    | none =>
      match s.wake? p x.state with
      | none => x
      | some time => { x with agenda := x.agenda.setAlarm time p }
    | some state =>
      let others := (s.roused p x.state state).filter (· ≠ p)
      let x := s.summonAll others { x with state }
      if !s.givesWay p state then takeTurn p n x
      else if s.isPatient p state then s.summon p x
      else { x with agenda := x.agenda.stepAside p }

/-- The next turn. None if everybody has to wait. -/
def turn? (x : Session σ π) : Option (Session σ π) :=
  x.agenda.next?.map fun (p, agenda) => s.takeTurn p patience { x with agenda }

/-- Turns until everybody has to wait, for at most so many of them. -/
def settle : Nat → Session σ π → Session σ π
  | 0, x => x
  | n + 1, x =>
    match s.turn? x with
    | none => x
    | some x => settle n x

/-- So much time passes, and a round begins with those who wake by then. -/
def passTime (timer : Nat) (wall : Duration) (x : Session σ π) : Session σ π :=
  let state := s.pass timer wall x.state
  let (due, alarms) := x.agenda.alarms.partition (·.1 ≤ (s.clock state).timer)
  let x := s.summonAll (due.map (·.2)) { state, agenda := { x.agenda with alarms } }
  { x with agenda := x.agenda.nextRound }

/-- Move the timer on to this time. -/
def moveTo (time : Nat) (x : Session σ π) : Session σ π :=
  s.passTime (time - (s.clock x.state).timer) Clock.instant x

/-- The next time at which somebody wakes who still sleeps until then. -/
def nextWake? (x : Session σ π) : Option Nat :=
  (x.agenda.alarms.filterMap fun (time, p) =>
    if s.wake? p x.state = some time then some time else none).min?

/-- Let everything happen until the goal is reached or nothing more will happen. -/
def playUntil (goal : σ → Bool) : Nat → Session σ π → Session σ π
  | 0, x => x
  | n + 1, x =>
    let x := s.settle patience x
    if goal x.state then x
    else match s.nextWake? x with
      | none => x
      | some time => playUntil goal n (s.moveTo time x)

/-- Let everything happen up to this time. -/
def playTo (time : Nat) : Nat → Session σ π → Session σ π
  | 0, x => x
  | n + 1, x =>
    let x := s.settle patience x
    match s.nextWake? x with
    | none => s.moveTo time x
    | some wake => if wake ≤ time then playTo time n (s.moveTo wake x) else s.moveTo time x

/-- Let so many milliseconds pass. -/
def advance (millis : Nat) (x : Session σ π) : Session σ π :=
  s.settle patience (s.playTo ((s.clock x.state).timer + millis) patience x)

/-- Change something from outside and summon those who are called by it. -/
def change (f : σ → σ) (called : σ → σ → List π) (x : Session σ π) : Session σ π :=
  let state := f x.state
  s.settle patience (s.summonAll (called x.state state) { x with state })

end Schedule

end FaultDrill
