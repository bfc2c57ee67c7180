import FaultDrill.Driver
import FaultDrill.Policy
import FaultDrill.Text.Inspect

/-! # Inspection of the parts of a drill

How tasks, drivers, pools and policies are spelled out for a reader of logs.
-/

namespace FaultDrill

open Inspect

def TaskId.inspect (id : TaskId) : String := wrapped "TaskId" (toString id.seq.toNat)

def ObjectRef.inspect (r : ObjectRef) : String :=
  record "ObjectRef" [("bucket", quoted r.bucket), ("key", quoted r.key)]

def Payload.inspect (p : Payload) : String :=
  record "Payload" [("size", toString p.size.toNat), ("seed", toString p.seed.toNat)]

def OperationKind.inspect : OperationKind → String
  | read => "Read"
  | write => "Write"
  | delete => "Delete"
  | copy => "Copy"
  | multipartPart => "MultipartPart"

def Operation.inspect (op : Operation) : String :=
  record "Operation" [
    ("kind", op.kind.inspect),
    ("target", op.target.inspect),
    ("destination", option (op.destination.map ObjectRef.inspect)),
    ("part_number", option (op.partNumber.map fun n => toString n.toNat)),
    ("payload", option (op.payload.map Payload.inspect)),
    ("expected_checksum", option (op.expectedChecksum.map quoted))]

def Task.inspect (t : Task) : String :=
  openRecord "Task" [
    ("id", t.id.inspect), ("stream", quoted t.stream), ("operation", t.operation.inspect)]

def PoolConfig.inspect (c : PoolConfig) : String :=
  record "PoolConfig" [
    ("workers", toString c.workers.toNat), ("queue_capacity", toString c.queueCapacity.toNat)]

def Pool.inspect (p : Pool) : String :=
  openRecord "TaskPool" [
    ("name", quoted p.name),
    ("worker_count", toString p.workerCount),
    ("outstanding", toString p.outstanding),
    ("shut_down", toString p.shutDown)]

def DriverPlan.inspect (p : DriverPlan) : String :=
  openRecord "WorkloadDriver" [
    ("stream", quoted p.stream),
    ("pool", p.pool.inspect),
    ("pace", option (p.pace.map Duration.text))]

def Policy.inspect (p : Policy) : String :=
  record "FailurePolicy" [
    ("grace", p.grace.text),
    ("max_expected_failures", option (p.maxExpectedFailures.map fun n => toString n.toNat)),
    ("tolerated_after_close", list (p.toleratedAfterClose.map OperationKind.inspect))]

/-- What collects the reports, of which the policy is shown. -/
def Policy.inspectCollector (p : Policy) : String :=
  openRecord "ResultAggregator" [("policy", p.inspect)]

end FaultDrill
