import FaultDrill.Config
import FaultDrill.Json.Data

/-! # Configuration as JSON

Sections are objects of the whole; every section and every field may be missing.
-/

namespace FaultDrill

open Json

namespace PoolConfig

def fieldNames : List String := ["workers", "queue_capacity"]

def toJson (c : PoolConfig) : Json :=
  .object [("workers", word c.workers), ("queue_capacity", word c.queueCapacity)]

def ofJson? (j : Json) : Option PoolConfig := do
  let [workers, capacity] ← sparseColumns? fieldNames j | none
  let d : PoolConfig := {}
  some ⟨← withDefault? d.workers word? workers, ← withDefault? d.queueCapacity word? capacity⟩

end PoolConfig

namespace WorkloadConfig

def fieldNames : List String :=
  ["buckets", "bucket_prefix", "min_object_size", "max_object_size", "pace_ms"]

def toJson (c : WorkloadConfig) : Json :=
  .object [
    ("buckets", word c.buckets),
    ("bucket_prefix", .text c.bucketPrefix),
    ("min_object_size", word c.minObjectSize),
    ("max_object_size", word c.maxObjectSize),
    ("pace_ms", word c.paceMs)]

def ofJson? (j : Json) : Option WorkloadConfig := do
  let [buckets, stem, least, greatest, pace] ← sparseColumns? fieldNames j | none
  let d : WorkloadConfig := {}
  some ⟨← withDefault? d.buckets word? buckets, ← withDefault? d.bucketPrefix text? stem,
    ← withDefault? d.minObjectSize word? least, ← withDefault? d.maxObjectSize word? greatest,
    ← withDefault? d.paceMs word? pace⟩

end WorkloadConfig

namespace ReportConfig

def fieldNames : List String := ["timeout_secs"]

def toJson (c : ReportConfig) : Json := .object [("timeout_secs", word c.timeoutSecs)]

def ofJson? (j : Json) : Option ReportConfig := do
  let [timeout] ← sparseColumns? fieldNames j | none
  let d : ReportConfig := {}
  some ⟨← withDefault? d.timeoutSecs word? timeout⟩

end ReportConfig

namespace PolicyConfig

def fieldNames : List String := ["grace_ms", "max_expected_failures", "tolerated_after_close"]

def toJson (c : PolicyConfig) : Json :=
  .object [
    ("grace_ms", word c.graceMs),
    ("max_expected_failures", optional word c.maxExpectedFailures),
    ("tolerated_after_close", .array (c.toleratedAfterClose.map OperationKind.toJson))]

def ofJson? (j : Json) : Option PolicyConfig := do
  let [grace, budget, tolerated] ← sparseColumns? fieldNames j | none
  let d : PolicyConfig := {}
  some ⟨← withDefault? d.graceMs word? grace, ← nullable? word? budget,
    ← withDefault? d.toleratedAfterClose (list? OperationKind.ofJson?) tolerated⟩

end PolicyConfig

namespace FaultConfig

def fieldNames : List String := ["start_after_ms", "transition_ms"]

def toJson (c : FaultConfig) : Json :=
  .object [("start_after_ms", word c.startAfterMs), ("transition_ms", word c.transitionMs)]

def ofJson? (j : Json) : Option FaultConfig := do
  let [start, transition] ← sparseColumns? fieldNames j | none
  let d : FaultConfig := {}
  some ⟨← withDefault? d.startAfterMs word? start, ← withDefault? d.transitionMs word? transition⟩

end FaultConfig

namespace Config

def fieldNames : List String := ["pool", "workload", "report", "policy", "fault"]

def toJson (c : Config) : Json :=
  .object [
    ("pool", c.pool.toJson),
    ("workload", c.workload.toJson),
    ("report", c.report.toJson),
    ("policy", c.policy.toJson),
    ("fault", c.fault.toJson)]

def ofJson? (j : Json) : Option Config := do
  let [pool, workload, report, policy, fault] ← sparseColumns? fieldNames j | none
  some ⟨← withDefault? {} PoolConfig.ofJson? pool, ← withDefault? {} WorkloadConfig.ofJson? workload,
    ← withDefault? {} ReportConfig.ofJson? report, ← withDefault? {} PolicyConfig.ofJson? policy,
    ← withDefault? {} FaultConfig.ofJson? fault⟩

end Config

end FaultDrill
