import FaultDrill.Text.Shown

/-! # Values for inspection

A value spelled out for a reader of logs: a record with its fields in braces, texts in
quotes with everything escaped that would not be shown, a list in brackets.
-/

namespace FaultDrill.Inspect

/-- A character inside quotes. -/
def escape (c : Char) : List Char :=
  if c = '"' then ['\\', '"']
  else if c = '\\' then ['\\', '\\']
  else if c = '\n' then ['\\', 'n']
  else if c = '\r' then ['\\', 'r']
  else if c = '\t' then ['\\', 't']
  else if c.toNat = 0 then ['\\', '0']
  else if Text.isShown c then [c]
  else ['\\', 'u', '\x7b'] ++ Nat.toDigits 16 c.toNat ++ ['\x7d']

def quoted (s : String) : String := String.ofList ('"' :: (s.toList.flatMap escape ++ ['"']))

def field (f : String × String) : String := f.1 ++ ": " ++ f.2

def record (name : String) (fields : List (String × String)) : String :=
  name ++ " \x7b " ++ ", ".intercalate (fields.map field) ++ " \x7d"

/-- A record of which some fields are not shown. -/
def openRecord (name : String) (fields : List (String × String)) : String :=
  name ++ " \x7b " ++ ", ".intercalate (fields.map field ++ [".."]) ++ " \x7d"

def wrapped (name value : String) : String := name ++ "(" ++ value ++ ")"

def option : Option String → String
  | none => "None"
  | some value => wrapped "Some" value

def list (values : List String) : String := "[" ++ ", ".intercalate values ++ "]"

end FaultDrill.Inspect
