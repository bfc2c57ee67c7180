/-! # Decimal numerals

Digits as a number, and the question whether a decimal is small enough to have a
finite binary64 number next to it.
-/

namespace FaultDrill.Decimal

def value (digits : List Char) : Nat :=
  digits.foldl (fun n c => 10 * n + (c.toNat - '0'.toNat)) 0

/-- The least number that rounds past the largest finite binary64 number. -/
def overflow : Nat := Nat.pow 2 1024 - Nat.pow 2 970

/-- `mantissa` times ten to the `exponent` rounds to a finite binary64 number. -/
def isFinite (mantissa : Nat) (exponent : Int) : Bool :=
  if mantissa = 0 then true
  else
    let size : Int := (Nat.toDigits 10 mantissa).length + exponent
    if 310 < size then false
    else if size < 300 then true
    else if 0 ≤ exponent then mantissa * Nat.pow 10 exponent.toNat < overflow
    else mantissa < overflow * Nat.pow 10 (-exponent).toNat

end FaultDrill.Decimal
