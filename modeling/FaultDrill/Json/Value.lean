import FaultDrill.Decimal.Shortest

/-! # JSON values and their text

A value, the tokens that write it, and the characters of each token. The text has no
blanks; in strings only quotes, backslashes and control characters are escaped.
-/

namespace FaultDrill

namespace Json

/-- An integer of 64 bits, or `mantissa` times ten to the `exponent` with a sign. -/
inductive Number
  | integer (value : Int)
  | decimal (isNegative : Bool) (mantissa : Nat) (exponent : Int)
  deriving DecidableEq, Repr

end Json

inductive Json
  | null
  | bool (value : Bool)
  | number (value : Json.Number)
  | text (value : String)
  /-- A string in which an escape names half of a surrogate pair, or an object with such a key. -/
  | illFormed
  | array (elements : List Json)
  | object (fields : List (String × Json))

namespace Json

instance : Inhabited Json := ⟨null⟩

def nat (n : Nat) : Json := number (.integer n)

def word (n : UInt64) : Json := nat n.toNat

/-- Null when absent. -/
def optional (encode : α → Json) : Option α → Json
  | none => null
  | some a => encode a

inductive Token
  | openBrace
  | closeBrace
  | openBracket
  | closeBracket
  | comma
  | colon
  | null
  | bool (value : Bool)
  | number (value : Number)
  | text (value : String)
  | illFormed
  deriving DecidableEq, Repr

mutual

def tokens : Json → List Token
  | null => [.null]
  | bool b => [.bool b]
  | number n => [.number n]
  | text s => [.text s]
  | illFormed => [.illFormed]
  | array [] => [.openBracket, .closeBracket]
  | array (v :: vs) => .openBracket :: (tokens v ++ elementTokens vs)
  | object [] => [.openBrace, .closeBrace]
  | object ((k, v) :: kvs) => .openBrace :: .text k :: .colon :: (tokens v ++ fieldTokens kvs)

/-- The elements after the first. -/
def elementTokens : List Json → List Token
  | [] => [.closeBracket]
  | v :: vs => .comma :: (tokens v ++ elementTokens vs)

/-- The fields after the first. -/
def fieldTokens : List (String × Json) → List Token
  | [] => [.closeBrace]
  | (k, v) :: kvs => .comma :: .text k :: .colon :: (tokens v ++ fieldTokens kvs)

end

/-- The character with four hexadecimal digits. -/
def escapeHex (n : Nat) : List Char :=
  ['\\', 'u', Nat.digitChar (n / 4096 % 16), Nat.digitChar (n / 256 % 16),
    Nat.digitChar (n / 16 % 16), Nat.digitChar (n % 16)]

def escape (c : Char) : List Char :=
  if c = '"' then ['\\', '"']
  else if c = '\\' then ['\\', '\\']
  else if c.toNat = 0x08 then ['\\', 'b']
  else if c = '\t' then ['\\', 't']
  else if c = '\n' then ['\\', 'n']
  else if c.toNat = 0x0c then ['\\', 'f']
  else if c = '\r' then ['\\', 'r']
  else if c.toNat < 0x20 then escapeHex c.toNat
  else [c]

/-- A whole number in decimal, with a sign only if it is negative. -/
def integerChars : Int → List Char
  | .ofNat n => Nat.toDigits 10 n
  | .negSucc n => '-' :: Nat.toDigits 10 (n + 1)

/-- An exponent is written from 17 digits in front of the point on, and from five zeros behind it. -/
def layout : Decimal.Layout := ⟨16, 4⟩

/-- A decimal as the shortest one for the binary64 number that it is read as. -/
def decimalChars (mantissa : Nat) (exponent : Int) : List Char :=
  match Decimal.shorten mantissa exponent with
  | (0, _) => ['0', '.', '0']
  | (digits, exponent) => layout.place (Nat.toDigits 10 digits) exponent

def Number.chars : Number → List Char
  | .integer i => integerChars i
  | .decimal isNegative mantissa exponent =>
    (if isNegative then ['-'] else []) ++ decimalChars mantissa exponent

def Token.chars : Token → List Char
  | openBrace => ['\x7b']
  | closeBrace => ['\x7d']
  | openBracket => ['[']
  | closeBracket => [']']
  | comma => [',']
  | colon => [':']
  | null => ['n', 'u', 'l', 'l']
  | bool true => ['t', 'r', 'u', 'e']
  | bool false => ['f', 'a', 'l', 's', 'e']
  | number n => n.chars
  | text s => '"' :: (s.toList.flatMap escape ++ ['"'])
  | illFormed => ['"', '\\', 'u', 'd', '8', '0', '0', '"']

def render (v : Json) : String := String.ofList (v.tokens.flatMap Token.chars)

mutual

/-- The fields of every object in the order of their names. -/
def sorted : Json → Json
  | array elements => array (sortedElements elements)
  | object fields => object ((sortedFields fields).mergeSort fun a b => a.1 ≤ b.1)
  | other => other

def sortedElements : List Json → List Json
  | [] => []
  | j :: rest => sorted j :: sortedElements rest

def sortedFields : List (String × Json) → List (String × Json)
  | [] => []
  | (k, j) :: rest => (k, sorted j) :: sortedFields rest

end

end Json

end FaultDrill
