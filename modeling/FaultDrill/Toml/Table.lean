import FaultDrill.Toml.Scalar

/-! # TOML tables under construction

Tables are filled by dotted keys and by headers, and each may be defined in one way
only. A node remembers how it came to be, so that a second definition is refused.
-/

namespace FaultDrill.Toml

inductive Node
  /-- A finished value, an inline table included. -/
  | leaf (value : Toml)
  /-- `implied` until a header names it; `dotted` when a dotted key made it. -/
  | table (implied dotted : Bool) (entries : List (String × Node))
  /-- An array of tables, last first. -/
  | tables (elements : List (List (String × Node)))

abbrev Entries := List (String × Node)

namespace Node

mutual

def value : Node → Toml
  | leaf v => v
  | table _ _ entries => .table (values entries)
  | tables elements => .array (valuesOfTables elements).reverse

def values : List (String × Node) → List (String × Toml)
  | [] => []
  | (k, n) :: rest => (k, value n) :: values rest

def valuesOfTables : List (List (String × Node)) → List Toml
  | [] => []
  | entries :: rest => .table (values entries) :: valuesOfTables rest

end

end Node

namespace Entries

def replace (key : String) (node : Node) : Entries → Entries
  | [] => [(key, node)]
  | (k, n) :: rest => if k = key then (k, node) :: rest else (k, n) :: replace key node rest

def get? (key : String) (entries : Entries) : Option Node := entries.lookup key

/-- Add a key and its value to the table that a dotted path leads to. -/
def insertPair (key : String) (value : Toml) : List String → Entries → Option Entries
  | [], entries =>
    match get? key entries with
    | none => some (replace key (.leaf value) entries)
    | some _ => none
  | name :: path, entries =>
    match get? name entries with
    | none =>
      (insertPair key value path []).map fun inner => replace name (.table true true inner) entries
    | some (.table implied dotted inner) =>
      if !implied || (path.isEmpty && !dotted) then none
      else (insertPair key value path inner).map fun inner =>
        replace name (.table implied dotted inner) entries
    | some (.tables (last :: before)) =>
      if path.isEmpty then none
      else (insertPair key value path last).map fun last =>
        replace name (.tables (last :: before)) entries
    | some _ => none

/-- Change the table that a path of headers leads to; tables on the way that are missing are
implied. -/
def atPath (change : Entries → Option Entries) : List String → Entries → Option Entries
  | [], entries => change entries
  | name :: path, entries =>
    match get? name entries with
    | none => (atPath change path []).map fun inner => replace name (.table true false inner) entries
    | some (.table implied dotted inner) =>
      (atPath change path inner).map fun inner => replace name (.table implied dotted inner) entries
    | some (.tables (last :: before)) =>
      (atPath change path last).map fun last => replace name (.tables (last :: before)) entries
    | some _ => none

/-- A header names a table that no header and no dotted key has made before. -/
def openTable (name : String) (entries : Entries) : Option Entries :=
  match get? name entries with
  | none => some (replace name (.table false false []) entries)
  | some (.table true false inner) => some (replace name (.table false false inner) entries)
  | some _ => none

/-- A double header starts one more table of an array of tables. -/
def openElement (name : String) (entries : Entries) : Option Entries :=
  match get? name entries with
  | none => some (replace name (.tables [[]]) entries)
  | some (.tables elements) => some (replace name (.tables ([] :: elements)) entries)
  | some _ => none

end Entries

end FaultDrill.Toml
