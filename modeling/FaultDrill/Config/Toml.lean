import FaultDrill.Config
import FaultDrill.Toml.Reader
import FaultDrill.Toml.Writer

/-! # Configuration files

A configuration is read from a TOML document and written as one. In a document a section
may also be an array of its values in order. Keys that no section has are passed over.
-/

namespace FaultDrill

namespace Toml

/-- The values of the named keys. An array gives them in order, as far as it goes; a date or time
stands for a table without any of them. -/
def columns? (names : List String) : Toml → Option (List (Option Toml))
  | table entries => some (names.map (entries.lookup ·))
  | array elements =>
    some ((elements.take names.length).map some ++
      List.replicate (names.length - elements.length) none)
  | dateTime => some (names.map fun _ => none)
  | _ => none

def withDefault? (default : α) (decode : Toml → Option α) : Option Toml → Option α
  | none => some default
  | some t => decode t

def word? : Toml → Option UInt64
  | integer (.ofNat n) => some (UInt64.ofNat n)
  | _ => none

def text? : Toml → Option String
  | text s => some s
  | _ => none

/-- A name stands alone or as the only key of a table over something empty. -/
def name? : Toml → Option String
  | text s => some s
  | table [(s, table [])] => some s
  | table [(s, array [])] => some s
  | _ => none

def list? (decode : Toml → Option α) : Toml → Option (List α)
  | array elements => elements.mapM decode
  | _ => none

end Toml

open Toml

namespace PoolConfig

def ofToml? (t : Toml) : Option PoolConfig := do
  let [workers, capacity] ← columns? ["workers", "queue_capacity"] t | none
  let d : PoolConfig := {}
  some ⟨← withDefault? d.workers word? workers, ← withDefault? d.queueCapacity word? capacity⟩

def tomlEntries (c : PoolConfig) : List (String × Entry) :=
  [("workers", .number c.workers.toNat), ("queue_capacity", .number c.queueCapacity.toNat)]

end PoolConfig

namespace WorkloadConfig

def ofToml? (t : Toml) : Option WorkloadConfig := do
  let [buckets, stem, least, greatest, pace] ←
    columns? ["buckets", "bucket_prefix", "min_object_size", "max_object_size", "pace_ms"] t | none
  let d : WorkloadConfig := {}
  some ⟨← withDefault? d.buckets word? buckets, ← withDefault? d.bucketPrefix text? stem,
    ← withDefault? d.minObjectSize word? least, ← withDefault? d.maxObjectSize word? greatest,
    ← withDefault? d.paceMs word? pace⟩

def tomlEntries (c : WorkloadConfig) : List (String × Entry) :=
  [("buckets", .number c.buckets.toNat), ("bucket_prefix", .text c.bucketPrefix),
    ("min_object_size", .number c.minObjectSize.toNat),
    ("max_object_size", .number c.maxObjectSize.toNat), ("pace_ms", .number c.paceMs.toNat)]

end WorkloadConfig

namespace ReportConfig

def ofToml? (t : Toml) : Option ReportConfig := do
  let [timeout] ← columns? ["timeout_secs"] t | none
  let d : ReportConfig := {}
  some ⟨← withDefault? d.timeoutSecs word? timeout⟩

def tomlEntries (c : ReportConfig) : List (String × Entry) :=
  [("timeout_secs", .number c.timeoutSecs.toNat)]

end ReportConfig

namespace PolicyConfig

def ofToml? (t : Toml) : Option PolicyConfig := do
  let [grace, budget, tolerated] ←
    columns? ["grace_ms", "max_expected_failures", "tolerated_after_close"] t | none
  let d : PolicyConfig := {}
  some ⟨← withDefault? d.graceMs word? grace,
    ← withDefault? none (fun t => (word? t).map some) budget,
    ← withDefault? d.toleratedAfterClose
      (list? fun t => (name? t).bind OperationKind.ofName?) tolerated⟩

/-- A budget that is not set has no line. -/
def tomlEntries (c : PolicyConfig) : List (String × Entry) :=
  ("grace_ms", .number c.graceMs.toNat)
    :: (c.maxExpectedFailures.toList.map fun n => ("max_expected_failures", .number n.toNat))
    ++ [("tolerated_after_close", .texts (c.toleratedAfterClose.map OperationKind.name))]

end PolicyConfig

namespace FaultConfig

def ofToml? (t : Toml) : Option FaultConfig := do
  let [start, transition] ← columns? ["start_after_ms", "transition_ms"] t | none
  let d : FaultConfig := {}
  some ⟨← withDefault? d.startAfterMs word? start, ← withDefault? d.transitionMs word? transition⟩

def tomlEntries (c : FaultConfig) : List (String × Entry) :=
  [("start_after_ms", .number c.startAfterMs.toNat), ("transition_ms", .number c.transitionMs.toNat)]

end FaultConfig

namespace Config

def ofToml? (t : Toml) : Option Config := do
  let [pool, workload, report, policy, fault] ←
    columns? ["pool", "workload", "report", "policy", "fault"] t | none
  some ⟨← withDefault? {} PoolConfig.ofToml? pool, ← withDefault? {} WorkloadConfig.ofToml? workload,
    ← withDefault? {} ReportConfig.ofToml? report, ← withDefault? {} PolicyConfig.ofToml? policy,
    ← withDefault? {} FaultConfig.ofToml? fault⟩

def sections (c : Config) : List (String × List (String × Entry)) :=
  [("pool", c.pool.tomlEntries), ("workload", c.workload.tomlEntries),
    ("report", c.report.tomlEntries), ("policy", c.policy.tomlEntries),
    ("fault", c.fault.tomlEntries)]

/-- Every number in it can stand in a TOML document. -/
def isWritable (c : Config) : Bool :=
  c.sections.all fun (_, entries) => entries.all fun (_, entry) =>
    match entry with
    | .number n => n < UInt64.size / 2
    | _ => true

/-- The configuration as a document. None if a number in it is too large for one. -/
def render? (c : Config) : Option String :=
  if c.isWritable then some (String.ofList (document c.sections)) else none

/-- Why no configuration came out of a file. -/
inductive LoadError
  /-- There is no such file, or it is not text. -/
  | unreadable
  /-- It is not a TOML document, or not that of a configuration. -/
  | malformed
  | unusable (problem : ConfigProblem)
  deriving DecidableEq, Repr

def parse (content : String) : Except LoadError Config :=
  match (Toml.read? content).bind ofToml? with
  | none => .error .malformed
  | some c =>
    match c.validate with
    | .error problem => .error (.unusable problem)
    | .ok () => .ok c

/-- The configuration in a file with these bytes, if there is such a file. -/
def load (file : Option ByteArray) : Except LoadError Config :=
  match file.bind String.fromUTF8? with
  | none => .error .unreadable
  | some content => parse content

end Config

end FaultDrill
