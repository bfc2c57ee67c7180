/-! # Durations

A duration is a whole number of nanoseconds whose seconds fit in 64 bits. Sums that
pass the largest duration do not exist; differences stop at zero.
-/

namespace FaultDrill

structure Duration where
  nanos : Nat
  bounded : nanos < 18446744073709551616000000000 := by decide
  deriving DecidableEq, Repr

namespace Duration

instance : LE Duration := ⟨fun a b => a.nanos ≤ b.nanos⟩
instance : LT Duration := ⟨fun a b => a.nanos < b.nanos⟩
instance (a b : Duration) : Decidable (a ≤ b) := inferInstanceAs (Decidable (a.nanos ≤ b.nanos))
instance (a b : Duration) : Decidable (a < b) := inferInstanceAs (Decidable (a.nanos < b.nanos))

theorem le_iff {a b : Duration} : a ≤ b ↔ a.nanos ≤ b.nanos := Iff.rfl

theorem lt_iff {a b : Duration} : a < b ↔ a.nanos < b.nanos := Iff.rfl

theorem ext {a b : Duration} (h : a.nanos = b.nanos) : a = b := by
  cases a; cases b; cases h; rfl

def zero : Duration := ⟨0, by decide⟩

instance : Inhabited Duration := ⟨zero⟩

def limit : Nat := 18446744073709551616000000000

/-- The duration of `n` nanoseconds, if there is one. -/
def ofNanos? (n : Nat) : Option Duration :=
  if h : n < 18446744073709551616000000000 then some ⟨n, h⟩ else none

/-- Nanoseconds past a whole second carry into the seconds. -/
def ofParts? (secs nanos : Nat) : Option Duration :=
  ofNanos? (secs * 1000000000 + nanos)

def ofSecs (secs : UInt64) : Duration :=
  ⟨secs.toNat * 1000000000, by have := secs.toNat_lt; omega⟩

def ofMillis (millis : UInt64) : Duration :=
  ⟨millis.toNat * 1000000, by have := millis.toNat_lt; omega⟩

def secs (d : Duration) : Nat := d.nanos / 1000000000

/-- The nanoseconds past the last whole second. -/
def subsecNanos (d : Duration) : Nat := d.nanos % 1000000000

def wholeMillis (d : Duration) : Nat := d.nanos / 1000000

/-- The fewest milliseconds that are no shorter. -/
def ceilMillis (d : Duration) : Nat := (d.nanos + 999999) / 1000000

def add? (a b : Duration) : Option Duration := ofNanos? (a.nanos + b.nanos)

/-- Stops at zero. -/
def sub (a b : Duration) : Duration :=
  ⟨a.nanos - b.nanos, by have := a.bounded; omega⟩

/-- The moment one nanosecond later; the largest duration has none and stays. -/
def tick (d : Duration) : Duration := (ofNanos? (d.nanos + 1)).getD d

/-! ## Text -/

/-- A decimal fraction of `width` digits, without its trailing zeros. -/
def fraction (width value : Nat) : String :=
  let digits := (Nat.toDigits 10 value)
  let padded := List.replicate (width - digits.length) '0' ++ digits
  let kept := (padded.reverse.dropWhile (· = '0')).reverse
  if kept.isEmpty then "" else "." ++ String.ofList kept

/-- Written in the largest of s, ms, µs and ns that has a whole part. -/
def text (d : Duration) : String :=
  if 1000000000 ≤ d.nanos then toString d.secs ++ fraction 9 d.subsecNanos ++ "s"
  else if 1000000 ≤ d.nanos then toString (d.nanos / 1000000) ++ fraction 6 (d.nanos % 1000000) ++ "ms"
  else if 1000 ≤ d.nanos then toString (d.nanos / 1000) ++ fraction 3 (d.nanos % 1000) ++ "µs"
  else toString d.nanos ++ "ns"

end Duration

end FaultDrill
