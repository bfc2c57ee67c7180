/-! # Binary64 numbers

The binary64 number nearest to a fraction, and the one that a decimal is read as. All
arithmetic is on fractions of natural numbers.
-/

namespace FaultDrill.Decimal

/-- `mantissa` times two to the `exponent`. -/
structure Binary where
  mantissa : Nat
  exponent : Int
  deriving DecidableEq, Repr

/-- A mantissa has 53 bits, and the first is set unless the number is too small for it. -/
def topBit : Nat := 4503599627370496

/-- A fraction times a power of `base`. -/
def scale (base : Nat) (e : Int) (f : Nat × Nat) : Nat × Nat :=
  if 0 ≤ e then (f.1 * base.pow e.toNat, f.2) else (f.1, f.2 * base.pow (-e).toNat)

def atMost (f g : Nat × Nat) : Bool := f.1 * g.2 ≤ g.1 * f.2

/-- The greatest power of `base` that is no larger, if `guess` is it or one more. -/
def lowerPower (base : Nat) (guess : Int) (f : Nat × Nat) : Int :=
  if atMost (scale base guess (1, 1)) f then guess else guess - 1

/-- The nearest whole number; a half goes to the even neighbour. -/
def roundHalfEven (f : Nat × Nat) : Nat :=
  let q := f.1 / f.2
  let rest := 2 * (f.1 % f.2)
  if f.2 < rest ∨ (rest = f.2 ∧ q % 2 = 1) then q + 1 else q

/-- The binary64 number nearest to a fraction that is not zero. -/
def nearest (f : Nat × Nat) : Binary :=
  let size := lowerPower 2 ((Nat.log2 f.1 : Int) - Nat.log2 f.2) f
  let e := max (size - 52) (-1074)
  let m := roundHalfEven (scale 2 (-e) f)
  if m = 2 * topBit then ⟨topBit, e + 1⟩ else ⟨m, e⟩

namespace Binary

def fraction (b : Binary) : Nat × Nat := scale 2 b.exponent (b.mantissa, 1)

/-- No larger than the largest binary64 number. -/
def isFinite (b : Binary) : Bool := b.exponent ≤ 971

/-- The product, rounded. -/
def product (a b : Binary) : Binary :=
  nearest (a.fraction.1 * b.fraction.1, a.fraction.2 * b.fraction.2)

/-- The quotient, rounded. -/
def quotient (a b : Binary) : Binary :=
  nearest (a.fraction.1 * b.fraction.2, a.fraction.2 * b.fraction.1)

/-- The largest power of ten that is a binary64 number. -/
def stride : Nat := 308

def powerOfTen (n : Nat) : Binary := nearest (Nat.pow 10 n, 1)

/-- Divided by ten to the `n`, one stride after the other. -/
def shrink (b : Binary) (n : Nat) : Binary :=
  if n ≤ stride then b.quotient (powerOfTen n)
  else if b.mantissa = 0 then b
  else shrink (b.quotient (powerOfTen stride)) (n - stride)
termination_by n
decreasing_by simp [stride] at *; omega

/-- The leading digits, as many as 64 bits hold, with the exponent that they have. -/
def leading (mantissa : Nat) (exponent : Int) : Nat × Int :=
  if mantissa < UInt64.size then (mantissa, exponent) else leading (mantissa / 10) (exponent + 1)
termination_by mantissa
decreasing_by simp [UInt64.size] at *; omega

/-- The number that `mantissa` times ten to the `exponent` is read as. The leading digits are
rounded, and so is every product or quotient with a power of ten. None if it is too large. -/
def ofDecimal? (mantissa : Nat) (exponent : Int) : Option Binary :=
  match leading mantissa exponent with
  | (0, _) => some ⟨0, -1074⟩
  | (digits, exponent) =>
    let b := nearest (digits, 1)
    if exponent < 0 then some (b.shrink (-exponent).toNat)
    else if exponent ≤ stride then
      let b := b.product (powerOfTen exponent.toNat)
      if b.isFinite then some b else none
    else none

end Binary

end FaultDrill.Decimal
