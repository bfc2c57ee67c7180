import FaultDrill.Decimal
import FaultDrill.Bytes.Hex

/-! # TOML scalars

Values of a TOML document, and the forms of numbers, dates and times. Only what a
configuration can hold is kept of them: numbers that are not whole, dates and times
are recognised and not interpreted.
-/

namespace FaultDrill

inductive Toml
  | text (value : String)
  | integer (value : Int)
  | bool (value : Bool)
  | float
  | dateTime
  | array (elements : List Toml)
  | table (entries : List (String × Toml))

namespace Toml

instance : Inhabited Toml := ⟨float⟩

/-- The digits without the underscores that separate them. -/
def ungroup? (isDigit : Char → Bool) : List Char → Option (List Char)
  | [] => none
  | c :: rest =>
    if isDigit c then
      match rest with
      | [] => some [c]
      | '_' :: rest => (ungroup? isDigit rest).map (c :: ·)
      | rest => (ungroup? isDigit rest).map (c :: ·)
    else none

/-- Decimal digits that start with zero only if they are zero. -/
def plainDigits? (chars : List Char) : Option (List Char) :=
  match ungroup? Char.isDigit chars with
  | some ['0'] => some ['0']
  | some ('0' :: _) => none
  | digits => digits

def withSign : List Char → Int × List Char
  | '-' :: rest => (-1, rest)
  | '+' :: rest => (1, rest)
  | chars => (1, chars)

def inRange? (n : Int) : Option Int :=
  if -9223372036854775808 ≤ n ∧ n < 9223372036854775808 then some n else none

def based? (base : Nat) (chars : List Char) : Option Int := do
  let digits ← ungroup? (fun c => (Hex.value? c).any (· < base)) chars
  let n := digits.foldl (fun n c => base * n + (Hex.value? c).getD 0) 0
  inRange? n

def integer? : List Char → Option Int
  | '0' :: 'x' :: digits => based? 16 digits
  | '0' :: 'o' :: digits => based? 8 digits
  | '0' :: 'b' :: digits => based? 2 digits
  | chars => do
    let (sign, digits) := withSign chars
    inRange? (sign * Decimal.value (← plainDigits? digits))

def isGrouped (c : Char) : Bool := c.isDigit || c = '_'

def exponent? : List Char → Option Int
  | [] => some 0
  | c :: rest =>
    if c = 'e' ∨ c = 'E' then do
      let (sign, digits) := withSign rest
      some (sign * Decimal.value (← ungroup? Char.isDigit digits))
    else none

/-- Whether the characters write a number with a point or an exponent. One past the largest
binary64 number is refused, one below the least is not. -/
def isFloat (chars : List Char) : Bool :=
  let (sign, body) := withSign chars
  if body = ['i', 'n', 'f'] ∨ body = ['n', 'a', 'n'] then true
  else
    let read : Option (List Char × Int) := do
      let whole ← plainDigits? (body.takeWhile isGrouped)
      match body.dropWhile isGrouped with
      | [] => none
      | '.' :: rest =>
        let places ← ungroup? Char.isDigit (rest.takeWhile isGrouped)
        let e ← exponent? (rest.dropWhile isGrouped)
        some (whole ++ places, e - places.length)
      | rest => some (whole, ← exponent? rest)
    match read with
    | none => false
    | some (digits, e) => decide (sign < 0) || Decimal.isFinite (Decimal.value digits) e

/-! ## Dates and times -/

def twoDigits? (a b : Char) : Option Nat :=
  if a.isDigit && b.isDigit then some (Decimal.value [a, b]) else none

def daysIn (year month : Nat) : Nat :=
  if month = 2 then
    if year % 4 = 0 ∧ (year % 100 ≠ 0 ∨ year % 400 = 0) then 29 else 28
  else if month = 4 ∨ month = 6 ∨ month = 9 ∨ month = 11 then 30
  else 31

/-- What follows a date. -/
def afterDate? : List Char → Option (List Char)
  | a :: b :: c :: d :: '-' :: e :: f :: '-' :: g :: h :: rest => do
    let year := 100 * (← twoDigits? a b) + (← twoDigits? c d)
    let month ← twoDigits? e f
    let day ← twoDigits? g h
    if 1 ≤ month ∧ month ≤ 12 ∧ 1 ≤ day ∧ day ≤ daysIn year month then some rest else none
  | _ => none

def afterClock? : List Char → Option (List Char)
  | a :: b :: ':' :: c :: d :: ':' :: e :: f :: rest => do
    if (← twoDigits? a b) ≤ 23 ∧ (← twoDigits? c d) ≤ 59 ∧ (← twoDigits? e f) ≤ 60 then
      match rest with
      | '.' :: places =>
        if places.takeWhile Char.isDigit = [] then none else some (places.dropWhile Char.isDigit)
      | rest => some rest
    else none
  | _ => none

def isOffset : List Char → Bool
  | [] | ['Z'] | ['z'] => true
  | [sign, a, b, ':', c, d] =>
    (sign = '+' || sign = '-') && (twoDigits? a b).any (· ≤ 23) && (twoDigits? c d).any (· ≤ 59)
  | _ => false

def isDateTime (chars : List Char) : Bool :=
  match afterDate? chars with
  | some [] => true
  | some (c :: rest) =>
    (c = 'T' || c = 't' || c = ' ') && (afterClock? rest).any isOffset
  | none => afterClock? chars = some []

/-- The value that a run of characters outside quotes and brackets writes. -/
def scalar? (chars : List Char) : Option Toml :=
  if chars = ['t', 'r', 'u', 'e'] then some (bool true)
  else if chars = ['f', 'a', 'l', 's', 'e'] then some (bool false)
  else if isDateTime chars then some dateTime
  else if isFloat chars then some float
  else (integer? chars).map integer

end Toml

end FaultDrill
