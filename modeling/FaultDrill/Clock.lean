import FaultDrill.Duration

/-! # Clocks

Delays are measured on a timer, in milliseconds; results and the window take their times
from a wall clock. Neither goes back.
-/

namespace FaultDrill

structure Clock where
  timer : Nat := 0
  wall : Duration := .zero
  deriving DecidableEq, Repr

namespace Clock

/-- The wall clock stays where it is at the end of its range. -/
def pass (timer : Nat) (wall : Duration) (c : Clock) : Clock :=
  { timer := c.timer + timer, wall := (c.wall.add? wall).getD c.wall }

theorem timer_le_pass (timer : Nat) (wall : Duration) (c : Clock) :
    c.timer ≤ (c.pass timer wall).timer := Nat.le_add_right _ _

theorem wall_le_pass (timer : Nat) (wall : Duration) (c : Clock) :
    c.wall ≤ (c.pass timer wall).wall := by
  unfold pass Duration.add? Duration.ofNanos?
  split
  · exact Nat.le_add_right _ _
  · exact Nat.le_refl _

/-- The least time that a step takes on the wall clock. -/
def instant : Duration := .tick .zero

end Clock

end FaultDrill
