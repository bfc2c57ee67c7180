/-! # Hexadecimal text

Two lower-case digits a byte on the way out, either case on the way in.
-/

namespace FaultDrill.Hex

def digit (n : Nat) : Char := Nat.digitChar (n % 16)

def encode (bytes : ByteArray) : String :=
  bytes.foldl (fun text b => (text.push (digit (b.toNat / 16))).push (digit b.toNat)) ""

def value? (c : Char) : Option Nat :=
  if c.isDigit then some (c.toNat - '0'.toNat)
  else if 'a' ≤ c ∧ c ≤ 'f' then some (c.toNat - 'a'.toNat + 10)
  else if 'A' ≤ c ∧ c ≤ 'F' then some (c.toNat - 'A'.toNat + 10)
  else none

/-- The number that the digits write, most significant first. -/
def number? (digits : List Char) : Option Nat :=
  digits.foldlM (fun n c => (value? c).map (16 * n + ·)) 0

def decodeDigits (acc : ByteArray) : List Char → Option ByteArray
  | [] => some acc
  | [_] => none
  | high :: low :: rest => do
    let h ← value? high
    let l ← value? low
    decodeDigits (acc.push (UInt8.ofNat (16 * h + l))) rest

def decode? (text : String) : Option ByteArray := decodeDigits .empty text.toList

end FaultDrill.Hex
