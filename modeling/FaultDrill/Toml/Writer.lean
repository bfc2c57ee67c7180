import FaultDrill.Toml.Quoted

/-! # Writing TOML

A string takes the first of five forms that can hold it with as little escaping as
possible. Documents are sections of keys with whole numbers, strings and lists of
strings.
-/

namespace FaultDrill.Toml

/-! ## Strings -/

/-- May not stand unescaped in any form. -/
def isControl (c : Char) : Bool := (c.toNat < 0x20 && c ≠ '\t' && c ≠ '\n') || c.toNat = 0x7f

/-- Three of the character stand next to each other. -/
def hasRun (c : Char) : List Char → Bool
  | a :: b :: d :: rest => (a = c && b = c && d = c) || hasRun c (b :: d :: rest)
  | _ => false

def upperHex (n : Nat) : Char := (Nat.digitChar (n % 16)).toUpper

def escapeHex (n : Nat) : List Char :=
  ['\\', 'u', upperHex (n / 4096), upperHex (n / 256), upperHex (n / 16), upperHex n]

/-- As basic text writes a character other than a quote. -/
def escape (multiline : Bool) (c : Char) : List Char :=
  if c = '\\' then ['\\', '\\']
  else if c.toNat = 0x08 then ['\\', 'b']
  else if c = '\t' then ['\\', 't']
  else if c = '\n' then if multiline then ['\n'] else ['\\', 'n']
  else if c.toNat = 0x0c then ['\\', 'f']
  else if c = '\r' then ['\\', 'r']
  else if isControl c then escapeHex c.toNat
  else [c]

def basicBody : List Char → List Char
  | [] => []
  | '"' :: rest => '\\' :: '"' :: basicBody rest
  | c :: rest => escape false c ++ basicBody rest

/-- `quotes` counts the quotes just before; the third of a run is escaped. -/
def multilineBasicBody (quotes : Nat) : List Char → List Char
  | [] => []
  | '"' :: rest =>
    if quotes = 2 then '\\' :: '"' :: multilineBasicBody 0 rest
    else '"' :: multilineBasicBody (quotes + 1) rest
  | c :: rest => escape true c ++ multilineBasicBody 0 rest

inductive Form
  | basic
  | literal
  | multilineBasic
  | multilineLiteral
  deriving DecidableEq, Repr

/-- The form that a text is written in. -/
def formOf (text : List Char) : Form :=
  let control := text.any isControl
  let newline := text.contains '\n'
  if !control && !newline && !text.contains '\\' && !text.contains '"' then .basic
  else if !control && !newline && !text.contains '\'' then .literal
  else if !control && !text.contains '\\' && !hasRun '"' text then .multilineBasic
  else if !control && !hasRun '\'' text then .multilineLiteral
  else if newline then .multilineBasic
  else .basic

/-- A text of several lines starts on a line of its own. -/
def opening (text : List Char) : List Char := if text.contains '\n' then ['\n'] else []

def writeText (text : List Char) : List Char :=
  match formOf text with
  | .basic => '"' :: (basicBody text ++ ['"'])
  | .literal => '\'' :: (text ++ ['\''])
  | .multilineBasic =>
    ['"', '"', '"'] ++ opening text ++ multilineBasicBody 0 text ++ ['"', '"', '"']
  | .multilineLiteral => ['\'', '\'', '\''] ++ opening text ++ text ++ ['\'', '\'', '\'']

/-! ## Sections -/

/-- What a key of a section can hold. -/
inductive Entry
  | number (n : Nat)
  | text (s : String)
  | texts (list : List String)

/-- Lists of two and more take a line for each element. -/
def Entry.chars : Entry → List Char
  | number n => Nat.toDigits 10 n
  | text s => writeText s.toList
  | texts [] => ['[', ']']
  | texts [s] => '[' :: (writeText s.toList ++ [']'])
  | texts list =>
    '[' :: '\n' :: (list.flatMap fun s => "    ".toList ++ writeText s.toList ++ [',', '\n']) ++ [']']

def line (key : String) (entry : Entry) : List Char :=
  key.toList ++ " = ".toList ++ entry.chars ++ ['\n']

def sectionChars (name : String) (entries : List (String × Entry)) : List Char :=
  '[' :: (name.toList ++ [']', '\n']) ++ entries.flatMap fun (key, entry) => line key entry

/-- Sections with a blank line between them. -/
def document : List (String × List (String × Entry)) → List Char
  | [] => []
  | [(name, entries)] => sectionChars name entries
  | (name, entries) :: rest => sectionChars name entries ++ '\n' :: document rest

end FaultDrill.Toml
