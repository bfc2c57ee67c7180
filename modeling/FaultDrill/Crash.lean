/-! # Crashes

A computation that leaves the range of its numbers, or asks for more memory than
an allocation can have, ends in a crash. It is a value here, so that what survives
a crash can be stated.
-/

namespace FaultDrill

inductive Crash
  | addOverflow
  | subtractOverflow
  | durationOverflow
  | capacityOverflow
  /-- More permits were asked for than a gate can hold. -/
  | permitOverflow
  /-- The computation would never return. -/
  | endless
  | raised (text : String)
  deriving DecidableEq, Repr

namespace Crash

/-- The largest number of permits that one gate holds. -/
def permitLimit : Nat := UInt64.size / 8 - 1

def message : Crash → String
  | addOverflow => "attempt to add with overflow"
  | subtractOverflow => "attempt to subtract with overflow"
  | durationOverflow => "overflow when adding durations"
  | capacityOverflow => "capacity overflow"
  | permitOverflow =>
    "a semaphore may not have more than MAX_PERMITS permits (" ++ toString permitLimit ++ ")"
  | endless => "the computation does not return"
  | raised text => text

end Crash

end FaultDrill
