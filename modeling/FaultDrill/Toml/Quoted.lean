import FaultDrill.Bytes.Hex

/-! # TOML strings

The four forms of quoted text: basic and literal, on one line or on several. Literal
text stands for itself; basic text has escapes. A reader takes what follows the opening
quotes and answers with the text and what follows the closing ones.
-/

namespace FaultDrill.Toml

def isBlank (c : Char) : Bool := c = ' ' || c = '\t'

/-- May stand in a comment or unescaped in quoted text. -/
def isPlain (c : Char) : Bool := c = '\t' || (0x20 ≤ c.toNat && c.toNat ≠ 0x7f)

def simpleEscape? : Char → Option Char
  | 'b' => some '\x08'
  | 't' => some '\t'
  | 'n' => some '\n'
  | 'f' => some '\x0c'
  | 'r' => some '\r'
  | '"' => some '"'
  | '\\' => some '\\'
  | _ => none

/-- The character of that number, if it is a character. -/
def scalarValue? (n : Nat) : Option Char :=
  if h : n.isValidChar then some (Char.ofNatAux n h) else none

def hexEscape? (digits : List Char) : Option Char := (Hex.number? digits).bind scalarValue?

/-- Text read before is kept last first, here and below. -/
def basic (read : List Char) : List Char → Option (List Char × List Char)
  | [] => none
  | '"' :: rest => some (read.reverse, rest)
  | '\\' :: 'u' :: a :: b :: c :: d :: rest =>
    match hexEscape? [a, b, c, d] with
    | some x => basic (x :: read) rest
    | none => none
  | '\\' :: 'U' :: a :: b :: c :: d :: e :: f :: g :: h :: rest =>
    match hexEscape? [a, b, c, d, e, f, g, h] with
    | some x => basic (x :: read) rest
    | none => none
  | '\\' :: c :: rest =>
    match simpleEscape? c with
    | some x => basic (x :: read) rest
    | none => none
  | c :: rest => if isPlain c && c ≠ '\\' then basic (c :: read) rest else none

def literal (read : List Char) : List Char → Option (List Char × List Char)
  | [] => none
  | '\'' :: rest => some (read.reverse, rest)
  | c :: rest => if isPlain c then literal (c :: read) rest else none

/-- What a backslash at the end of a line does to the blanks and line breaks after it. -/
inductive Trim
  | none
  /-- After the backslash, before the line break that has to follow. -/
  | beforeBreak
  | afterBreak
  deriving DecidableEq

/-- Up to two quotes may stand just before the closing three. -/
def multilineBasic (read : List Char) : Trim → List Char → Option (List Char × List Char)
  | .beforeBreak, '\n' :: rest => multilineBasic read .afterBreak rest
  | .beforeBreak, '\r' :: '\n' :: rest => multilineBasic read .afterBreak rest
  | .beforeBreak, c :: rest => if isBlank c then multilineBasic read .beforeBreak rest else none
  | .afterBreak, ' ' :: rest => multilineBasic read .afterBreak rest
  | .afterBreak, '\t' :: rest => multilineBasic read .afterBreak rest
  | .afterBreak, '\n' :: rest => multilineBasic read .afterBreak rest
  | .afterBreak, '\r' :: '\n' :: rest => multilineBasic read .afterBreak rest
  | _, [] => none
  | _, '"' :: '"' :: '"' :: '"' :: '"' :: rest => some (('"' :: '"' :: read).reverse, rest)
  | _, '"' :: '"' :: '"' :: '"' :: rest => some (('"' :: read).reverse, rest)
  | _, '"' :: '"' :: '"' :: rest => some (read.reverse, rest)
  | _, '\n' :: rest => multilineBasic ('\n' :: read) .none rest
  | _, '\r' :: '\n' :: rest => multilineBasic ('\n' :: read) .none rest
  | _, '\\' :: 'u' :: a :: b :: c :: d :: rest =>
    match hexEscape? [a, b, c, d] with
    | some x => multilineBasic (x :: read) .none rest
    | none => none
  | _, '\\' :: 'U' :: a :: b :: c :: d :: e :: f :: g :: h :: rest =>
    match hexEscape? [a, b, c, d, e, f, g, h] with
    | some x => multilineBasic (x :: read) .none rest
    | none => none
  | _, '\\' :: '\n' :: rest => multilineBasic read .afterBreak rest
  | _, '\\' :: '\r' :: '\n' :: rest => multilineBasic read .afterBreak rest
  | _, '\\' :: c :: rest =>
    if isBlank c then multilineBasic read .beforeBreak rest
    else match simpleEscape? c with
      | some x => multilineBasic (x :: read) .none rest
      | none => none
  | _, c :: rest => if isPlain c && c ≠ '\\' then multilineBasic (c :: read) .none rest else none

def multilineLiteral (read : List Char) : List Char → Option (List Char × List Char)
  | [] => none
  | '\'' :: '\'' :: '\'' :: '\'' :: '\'' :: rest => some (('\'' :: '\'' :: read).reverse, rest)
  | '\'' :: '\'' :: '\'' :: '\'' :: rest => some (('\'' :: read).reverse, rest)
  | '\'' :: '\'' :: '\'' :: rest => some (read.reverse, rest)
  | '\n' :: rest => multilineLiteral ('\n' :: read) rest
  | '\r' :: '\n' :: rest => multilineLiteral ('\n' :: read) rest
  | c :: rest => if isPlain c then multilineLiteral (c :: read) rest else none

/-- A line break right after the opening quotes of a multi-line form does not count. -/
def skipBreak : List Char → List Char
  | '\n' :: rest => rest
  | '\r' :: '\n' :: rest => rest
  | chars => chars

/-- The text at the front, whose first character is its opening quote. -/
def quoted? : List Char → Option (List Char × List Char)
  | '"' :: '"' :: '"' :: rest => multilineBasic [] .none (skipBreak rest)
  | '"' :: rest => basic [] rest
  | '\'' :: '\'' :: '\'' :: rest => multilineLiteral [] (skipBreak rest)
  | '\'' :: rest => literal [] rest
  | _ => none

/-- As `quoted?`, on one line. -/
def quotedKey? : List Char → Option (List Char × List Char)
  | '"' :: rest => basic [] rest
  | '\'' :: rest => literal [] rest
  | _ => none

theorem basic_length {read chars : List Char} {s : List Char × List Char}
    (h : basic read chars = some s) : s.2.length < chars.length := by
  fun_induction basic read chars <;> simp_all <;> grind

theorem literal_length {read chars : List Char} {s : List Char × List Char}
    (h : literal read chars = some s) : s.2.length < chars.length := by
  fun_induction literal read chars <;> simp_all <;> grind

theorem multilineBasic_length {read : List Char} {trim : Trim} {chars : List Char}
    {s : List Char × List Char} (h : multilineBasic read trim chars = some s) :
    s.2.length < chars.length := by
  fun_induction multilineBasic read trim chars <;> simp_all <;> grind

theorem multilineLiteral_length {read chars : List Char} {s : List Char × List Char}
    (h : multilineLiteral read chars = some s) : s.2.length < chars.length := by
  fun_induction multilineLiteral read chars <;> simp_all <;> grind

theorem skipBreak_length (chars : List Char) : (skipBreak chars).length ≤ chars.length := by
  unfold skipBreak
  split
  · exact Nat.le_succ _
  · exact Nat.le_add_right _ 2
  · exact Nat.le_refl _

theorem quoted?_length {chars : List Char} {s : List Char × List Char}
    (h : quoted? chars = some s) : s.2.length < chars.length := by
  unfold quoted? at h
  split at h
  · next rest => have := multilineBasic_length h; have := skipBreak_length rest; simp; omega
  · have := basic_length h; simp; omega
  · next rest => have := multilineLiteral_length h; have := skipBreak_length rest; simp; omega
  · have := literal_length h; simp; omega
  · cases h

theorem quotedKey?_length {chars : List Char} {s : List Char × List Char}
    (h : quotedKey? chars = some s) : s.2.length < chars.length := by
  unfold quotedKey? at h
  split at h
  · have := basic_length h; simp; omega
  · have := literal_length h; simp; omega
  · cases h

end FaultDrill.Toml
