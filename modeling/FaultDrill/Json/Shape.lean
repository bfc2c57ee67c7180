import FaultDrill.Json.Reader

/-! # Shapes of JSON data

How records, names and tagged records are written as JSON. A record may be an object,
whose other fields are ignored, or an array of exactly its fields in order.
-/

namespace FaultDrill.Json

/-! ## Scalars -/

def natBelow? (limit : Nat) : Json → Option Nat
  | number (.integer (.ofNat n)) => if n < limit then some n else none
  | _ => none

def word? (j : Json) : Option UInt64 := (natBelow? UInt64.size j).map UInt64.ofNat

def halfWord? (j : Json) : Option UInt32 := (natBelow? UInt32.size j).map UInt32.ofNat

def text? : Json → Option String
  | text s => some s
  | _ => none

def bool? : Json → Option Bool
  | bool b => some b
  | _ => none

/-! ## Records -/

def fieldValues (name : String) (fields : List (String × Json)) : List Json :=
  fields.filterMap fun (k, v) => if k = name then some v else none

/-- The values of the named fields, in the order of the names. None if one stands twice. -/
def columnsOf? (names : List String) (fields : List (String × Json)) : Option (List (Option Json)) :=
  names.mapM fun name =>
    match fieldValues name fields with
    | [] => some none
    | [v] => some (some v)
    | _ => none

def columns? (names : List String) : Json → Option (List (Option Json))
  | object fields => columnsOf? names fields
  | array elements => if elements.length = names.length then some (elements.map some) else none
  | _ => none

/-- As `columns?`, for records in which every field may be missing. -/
def sparseColumns? (names : List String) : Json → Option (List (Option Json))
  | object fields => columnsOf? names fields
  | array elements =>
    if elements.length ≤ names.length then
      some (elements.map some ++ List.replicate (names.length - elements.length) none)
    else none
  | _ => none

/-- As `columns?`, for records that no other field may join. -/
def closedColumns? (names : List String) : Json → Option (List (Option Json))
  | object fields =>
    if fields.all (fun (k, _) => names.contains k) then columnsOf? names fields else none
  | array elements => columns? names (array elements)
  | _ => none

def required? (decode : Json → Option α) (column : Option Json) : Option α := column.bind decode

/-- A field that may be missing or null. -/
def nullable? (decode : Json → Option α) : Option Json → Option (Option α)
  | none | some null => some none
  | some j => (decode j).map some

/-- A field that may be missing. -/
def withDefault? (default : α) (decode : Json → Option α) : Option Json → Option α
  | none => some default
  | some j => decode j

def list? (decode : Json → Option α) : Json → Option (List α)
  | array elements => elements.mapM decode
  | _ => none

/-! ## Names and tags -/

/-- A name stands alone or as the only key of an object over null. -/
def name? : Json → Option String
  | text s => some s
  | object [(s, null)] => some s
  | _ => none

/-- As `name?`, inside a tagged record, where an empty object may stand for null. -/
def nameInTagged? : Json → Option String
  | text s => some s
  | object [(s, null)] => some s
  | object [(s, object [])] => some s
  | _ => none

mutual

/-- How deeply containers are nested. -/
def depth : Json → Nat
  | array elements => depthOfElements elements + 1
  | object fields => depthOfFields fields + 1
  | _ => 0

def depthOfElements : List Json → Nat
  | [] => 0
  | j :: rest => max (depth j) (depthOfElements rest)

def depthOfFields : List (String × Json) → Nat
  | [] => 0
  | (_, j) :: rest => max (depth j) (depthOfFields rest)

end

/-- The number does not pass the largest binary64 number. -/
def Number.isFinite : Number → Bool
  | .integer _ => true
  | .decimal _ mantissa exponent => (Decimal.Binary.ofDecimal? mantissa exponent).isSome

mutual

/-- Every string in it is well formed and every number finite. -/
def isSound : Json → Bool
  | null | bool _ | text _ => true
  | number n => n.isFinite
  | illFormed => false
  | array elements => areSound elements
  | object fields => areSoundFields fields

def areSound : List Json → Bool
  | [] => true
  | j :: rest => isSound j && areSound rest

def areSoundFields : List (String × Json) → Bool
  | [] => true
  | (_, j) :: rest => isSound j && areSoundFields rest

end

/-- The deepest nesting that a tagged record is read from, with what it stands in. -/
def depthLimit : Nat := 127

/-- A tagged record is an object that holds its tag as a field, anywhere, or an array that
begins with it. The answer is the tag and the record without it. `around` counts the containers
that the record stands in. -/
def tagged? (tag : String) (around : Nat) (j : Json) : Option (String × Json) :=
  if j.isSound && around + j.depth ≤ depthLimit then
    match j with
    | object fields =>
      match fieldValues tag fields with
      | [text name] => some (name, object (fields.filter fun (k, _) => k ≠ tag))
      | _ => none
    | array (text name :: rest) => some (name, array rest)
    | _ => none
  else none

end FaultDrill.Json
