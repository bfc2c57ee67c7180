import FaultDrill.Decimal.Binary

/-! # Shortest decimals

The decimal with the fewest digits that has a given binary64 number nearest to it, and how
its digits are written.
-/

namespace FaultDrill.Decimal

namespace Binary

/-- The numbers between these have `b` as the nearest. The step below a power of two is half the
step above it. -/
def bounds (b : Binary) : (Nat × Nat) × (Nat × Nat) :=
  let below := if b.mantissa = topBit ∧ -1074 < b.exponent then 1 else 2
  (scale 2 (b.exponent - 2) (4 * b.mantissa - below, 1),
    scale 2 (b.exponent - 2) (4 * b.mantissa + 2, 1))

/-- The bounds themselves belong to an even mantissa. -/
def holds (b : Binary) (f : Nat × Nat) : Bool :=
  let (low, high) := b.bounds
  if b.mantissa % 2 = 0 then atMost low f && atMost f high
  else !atMost f low && !atMost high f

/-- The nearer of the two multiples of ten to the `k` around the number that have it as the nearest. -/
def onGrid? (b : Binary) (k : Int) : Option Nat :=
  let f := scale 10 (-k) b.fraction
  let q := f.1 / f.2
  let fits (n : Nat) : Bool := b.holds (scale 10 k (n, 1))
  match fits q && q ≠ 0, fits (q + 1) with
  | true, true => some (roundHalfEven f)
  | true, false => some q
  | false, true => some (q + 1)
  | false, false => none

/-- Digits and exponent, on the first grid from ten to the `k` downwards that has a number that fits. -/
def search (b : Binary) (k : Int) : Nat → Nat × Int
  | 0 => (b.mantissa, 0)
  | n + 1 =>
    match b.onGrid? k with
    | some digits => (digits, k)
    | none => search b (k - 1) n

/-- Seventeen digits are enough for any binary64 number. A digit that is rounded up to ten leaves a
zero behind. -/
def shortest (b : Binary) : Nat × Int :=
  let f := b.fraction
  let guess : Int := ((Nat.toDigits 10 f.1).length : Int) - (Nat.toDigits 10 f.2).length
  match search b (lowerPower 10 guess f) 18 with
  | (digits, k) => if digits % 10 = 0 then (digits / 10, k + 1) else (digits, k)

end Binary

/-- The shortest decimal for the number that `mantissa` times ten to the `exponent` is read as,
without trailing zeros; zero for zero. A decimal that is too large stays as it is. -/
def shorten (mantissa : Nat) (exponent : Int) : Nat × Int :=
  match Binary.ofDecimal? mantissa exponent with
  | none => (mantissa, exponent)
  | some b => if b.mantissa = 0 then (0, 0) else b.shortest

/-- Where a point stands and when an exponent is written. -/
structure Layout where
  /-- The most digits in front of the point without an exponent. -/
  whole : Nat
  /-- The most zeros behind the point in front of the first digit. -/
  zeros : Nat

/-- The digits of a decimal that is not zero. -/
def Layout.place (l : Layout) (digits : List Char) (exponent : Int) : List Char :=
  let point : Int := digits.length + exponent
  if 0 ≤ exponent ∧ point ≤ l.whole then
    digits ++ List.replicate exponent.toNat '0' ++ ['.', '0']
  else if 0 < point ∧ point ≤ l.whole then
    digits.take point.toNat ++ '.' :: digits.drop point.toNat
  else if -(l.zeros : Int) ≤ point ∧ point ≤ 0 then
    ['0', '.'] ++ List.replicate (-point).toNat '0' ++ digits
  else
    let power := point - 1
    let sign := if power < 0 then '-' else '+'
    let rest := if digits.length = 1 then [] else '.' :: digits.tail
    digits.take 1 ++ rest ++ 'e' :: sign :: Nat.toDigits 10 power.natAbs

end FaultDrill.Decimal
