import FaultDrill.Json.Value
import FaultDrill.Bytes.Hex
import FaultDrill.Decimal

/-! # Reading JSON

Text is cut into tokens, and the tokens are folded into one value. The fold keeps the
containers that are still open, so its state says at each token what may come next.
-/

namespace FaultDrill.Json

def isBlank (c : Char) : Bool := c = ' ' || c = '\t' || c = '\n' || c = '\r'

/-! ## Strings -/

def isLeading (n : Nat) : Bool := decide (0xd800 ≤ n) && decide (n ≤ 0xdbff)

def isTrailing (n : Nat) : Bool := decide (0xdc00 ≤ n) && decide (n ≤ 0xdfff)

def simpleEscape? : Char → Option Char
  | '"' => some '"'
  | '\\' => some '\\'
  | '/' => some '/'
  | 'b' => some '\x08'
  | 'f' => some '\x0c'
  | 'n' => some '\n'
  | 'r' => some '\r'
  | 't' => some '\t'
  | _ => none

/-- A character, or one half of a surrogate pair. -/
inductive Piece
  | char (c : Char)
  | half (n : Nat)
  deriving DecidableEq, Repr

def Piece.ofUnit (n : Nat) : Piece :=
  if isLeading n || isTrailing n then .half n else .char (Char.ofNat n)

/-- The pieces up to the closing quote and what follows it; `read` holds the pieces before,
last first. -/
def scanText (read : List Piece) : List Char → Option (List Piece × List Char)
  | [] => none
  | '"' :: rest => some (read.reverse, rest)
  | '\\' :: 'u' :: a :: b :: c :: d :: rest =>
    match Hex.number? [a, b, c, d] with
    | none => none
    | some n => scanText (.ofUnit n :: read) rest
  | '\\' :: c :: rest =>
    match simpleEscape? c with
    | none => none
    | some c => scanText (.char c :: read) rest
  | c :: rest => if c.toNat < 0x20 || c = '\\' then none else scanText (.char c :: read) rest

/-- The characters that the pieces write. None when a half stands without its partner. -/
def joinPieces : List Piece → Option (List Char)
  | [] => some []
  | .char c :: rest => (joinPieces rest).map (c :: ·)
  | .half n :: .half m :: rest =>
    if isLeading n && isTrailing m then
      (joinPieces rest).map (Char.ofNat (0x10000 + (n - 0xd800) * 0x400 + (m - 0xdc00)) :: ·)
    else none
  | .half _ :: _ => none

def textToken (pieces : List Piece) : Token :=
  match joinPieces pieces with
  | some chars => .text (String.ofList chars)
  | none => .illFormed

/-! ## Numbers -/

def isNumberChar (c : Char) : Bool :=
  c.isDigit || c = '-' || c = '+' || c = '.' || c = 'e' || c = 'E'

/-- A run of digits that starts with zero only if it is zero. -/
def natural? (digits : List Char) : Option Nat :=
  match digits with
  | [] => none
  | ['0'] => some 0
  | '0' :: _ => none
  | _ => some (Decimal.value digits)

/-- The exponent after its letter; zero when there is none. -/
def exponent? : List Char → Option Int
  | [] => some 0
  | c :: rest =>
    if c = 'e' ∨ c = 'E' then
      let (sign, digits) : Int × List Char := match rest with
        | '-' :: ds => (-1, ds)
        | '+' :: ds => (1, ds)
        | ds => (1, ds)
      if digits.isEmpty || !digits.all Char.isDigit then none
      else some (sign * Decimal.value digits)
    else none

/-- An integer if it has one of 64 bits, signed or not. -/
def whole (negative : Bool) (n : Nat) : Number :=
  if negative then
    if n = 0 ∨ UInt64.size / 2 < n then .decimal true n 0 else .integer (-n)
  else if n < UInt64.size then .integer n
  else .decimal false n 0

def unsignedNumber? (negative : Bool) (chars : List Char) : Option Number := do
  let digits := chars.takeWhile Char.isDigit
  let value ← natural? digits
  match chars.dropWhile Char.isDigit with
  | [] => some (whole negative value)
  | '.' :: rest =>
    let places := rest.takeWhile Char.isDigit
    if places.isEmpty then none
    else do
      let e ← exponent? (rest.dropWhile Char.isDigit)
      some (.decimal negative (Decimal.value (digits ++ places)) (e - places.length))
  | rest => do
    let e ← exponent? rest
    some (.decimal negative value e)

def number? : List Char → Option Number
  | '-' :: chars => unsignedNumber? true chars
  | chars => unsignedNumber? false chars

/-! ## Tokens -/

def punctuation? : Char → Option Token
  | '\x7b' => some .openBrace
  | '\x7d' => some .closeBrace
  | '[' => some .openBracket
  | ']' => some .closeBracket
  | ',' => some .comma
  | ':' => some .colon
  | _ => none

def literal? (chars : List Char) : Option Token :=
  if chars = ['n', 'u', 'l', 'l'] then some .null
  else if chars = ['t', 'r', 'u', 'e'] then some (.bool true)
  else if chars = ['f', 'a', 'l', 's', 'e'] then some (.bool false)
  else none

theorem scanText_length {read : List Piece} {chars : List Char} {s : List Piece × List Char}
    (h : scanText read chars = some s) : s.2.length ≤ chars.length := by
  fun_induction scanText read chars <;> simp_all <;> grind

theorem length_dropWhile_le (p : Char → Bool) (l : List Char) :
    (l.dropWhile p).length ≤ l.length := (List.dropWhile_sublist p).length_le

def lex (chars : List Char) : Option (List Token) :=
  match chars with
  | [] => some []
  | c :: rest =>
    if isBlank c then lex rest
    else if c = '"' then
      match h : scanText [] rest with
      | none => none
      | some (pieces, after) =>
        have := scanText_length h
        (lex after).map (textToken pieces :: ·)
    else match punctuation? c with
      | some t => (lex rest).map (t :: ·)
      | none =>
        if isNumberChar c then do
          let n ← number? (c :: rest.takeWhile isNumberChar)
          let ts ← lex (rest.dropWhile isNumberChar)
          some (.number n :: ts)
        else do
          let t ← literal? (c :: rest.takeWhile Char.isAlpha)
          let ts ← lex (rest.dropWhile Char.isAlpha)
          some (t :: ts)
termination_by chars.length
decreasing_by
  · simp
  · simp at this ⊢; omega
  · simp
  · have := length_dropWhile_le isNumberChar rest; simp; omega
  · have := length_dropWhile_le Char.isAlpha rest; simp; omega

/-! ## Values -/

/-- A field as it is read; the key is absent if it is ill-formed. -/
abbrev RawField := Option String × Json

/-- The object with these fields, if every key is well-formed. -/
def ofFields (fields : List RawField) : Json :=
  match fields.mapM fun (key, v) => key.map (·, v) with
  | some fields => object fields
  | none => illFormed

/-- A container that waits for a value; what it holds already is kept last first. -/
inductive Frame
  | array (before : List Json)
  | object (before : List RawField) (key : Option String)

/-- What may come next, and the containers around it, innermost first. -/
inductive Place
  | value (around : List Frame)
  | firstElement (around : List Frame)
  | afterElement (around : List Frame) (before : List Json)
  | firstField (around : List Frame)
  | field (around : List Frame) (before : List RawField)
  | colon (around : List Frame) (before : List RawField) (key : Option String)
  | afterField (around : List Frame) (before : List RawField)
  | done (value : Json)

/-- The place after a value has been read. -/
def give (v : Json) : List Frame → Place
  | [] => .done v
  | .array before :: around => .afterElement around (v :: before)
  | .object before key :: around => .afterField around ((key, v) :: before)

def startValue (around : List Frame) : Token → Option Place
  | .openBrace => some (.firstField around)
  | .openBracket => some (.firstElement around)
  | .null => some (give .null around)
  | .bool b => some (give (.bool b) around)
  | .number n => some (give (.number n) around)
  | .text s => some (give (.text s) around)
  | .illFormed => some (give .illFormed around)
  | .closeBrace | .closeBracket | .comma | .colon => none

def step : Place → Token → Option Place
  | .value around, t => startValue around t
  | .firstElement around, .closeBracket => some (give (.array []) around)
  | .firstElement around, t => startValue (.array [] :: around) t
  | .afterElement around before, .comma => some (.value (.array before :: around))
  | .afterElement around before, .closeBracket => some (give (.array before.reverse) around)
  | .firstField around, .closeBrace => some (give (.object []) around)
  | .firstField around, .text k => some (.colon around [] (some k))
  | .firstField around, .illFormed => some (.colon around [] none)
  | .field around before, .text k => some (.colon around before (some k))
  | .field around before, .illFormed => some (.colon around before none)
  | .colon around before k, .colon => some (.value (.object before k :: around))
  | .afterField around before, .comma => some (.field around before)
  | .afterField around before, .closeBrace => some (give (ofFields before.reverse) around)
  | _, _ => none

def ofTokens? (tokens : List Token) : Option Json := do
  match ← tokens.foldlM step (.value []) with
  | .done v => some v
  | _ => none

/-- The value that the text writes; nothing but blanks may stand around it. -/
def read? (text : String) : Option Json := do ofTokens? (← lex text.toList)

end FaultDrill.Json
