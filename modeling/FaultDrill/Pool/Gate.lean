/-! # Permits and locks

Two fair ways to wait. A gate hands out permits, and a permit given back goes to whoever
has waited longest. A latch is held by any number of readers or by one writer, and nobody
overtakes. Both name their clients by number and keep those who were served while they
waited until they take notice.
-/

namespace FaultDrill

structure Gate where
  free : Nat
  /-- Longest wait first. -/
  waiting : List Nat := []
  /-- Has a permit and has not taken notice yet. -/
  granted : List Nat := []
  closed : Bool := false
  deriving DecidableEq, Repr

namespace Gate

/-- A permit taken at once, if one is free. -/
def take? (g : Gate) : Option Gate :=
  if 0 < g.free then some { g with free := g.free - 1 } else none

def wait (client : Nat) (g : Gate) : Gate := { g with waiting := g.waiting ++ [client] }

def giveBack (g : Gate) : Gate :=
  match g.waiting with
  | [] => { g with free := g.free + 1 }
  | client :: rest => { g with waiting := rest, granted := client :: g.granted }

/-- The client takes notice of its permit. -/
def notice (client : Nat) (g : Gate) : Gate := { g with granted := g.granted.erase client }

/-- The client goes away, with its permit if it has been granted one. -/
def leave (client : Nat) (g : Gate) : Gate :=
  if client ∈ g.granted then (g.notice client).giveBack
  else { g with waiting := g.waiting.erase client }

def close (g : Gate) : Gate := { g with closed := true }

end Gate

inductive Access
  | read
  | write
  deriving DecidableEq, Repr

structure Latch where
  readers : Nat := 0
  writing : Bool := false
  /-- Longest wait first. -/
  waiting : List (Nat × Access) := []
  /-- Holds the latch and has not taken notice yet. -/
  granted : List Nat := []
  deriving DecidableEq, Repr

namespace Latch

/-- The latch as another holder finds it, if it can be held that way now. -/
def hold? (l : Latch) : Access → Option Latch
  | .read => if l.writing then none else some { l with readers := l.readers + 1 }
  | .write =>
    if l.writing ∨ 0 < l.readers then none else some { l with writing := true }

/-- Those in front who can hold the latch now are let in. -/
def promote (l : Latch) : List (Nat × Access) → Latch
  | [] => { l with waiting := [] }
  | (client, access) :: rest =>
    match l.hold? access with
    | none => { l with waiting := (client, access) :: rest }
    | some held => promote { held with granted := client :: held.granted } rest

/-- The latch held at once, if nobody waits and it can be held. -/
def take? (access : Access) (l : Latch) : Option Latch :=
  if l.waiting.isEmpty then l.hold? access else none

def wait (client : Nat) (access : Access) (l : Latch) : Latch :=
  { l with waiting := l.waiting ++ [(client, access)] }

def release (access : Access) (l : Latch) : Latch :=
  match access with
  | .read => promote { l with readers := l.readers - 1 } l.waiting
  | .write => promote { l with writing := false } l.waiting

def notice (client : Nat) (l : Latch) : Latch := { l with granted := l.granted.erase client }

/-- A reader goes away, and gives the latch back if it holds it. -/
def leave (client : Nat) (l : Latch) : Latch :=
  if client ∈ l.granted then (l.notice client).release .read
  else promote l (l.waiting.filter (·.1 ≠ client))

end Latch

end FaultDrill
