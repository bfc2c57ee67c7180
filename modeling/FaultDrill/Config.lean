import FaultDrill.Error

/-! # Configuration

The sections of a configuration, their defaults, and the conditions under which a
configuration can be used.
-/

namespace FaultDrill

structure PoolConfig where
  workers : UInt64 := 16
  /-- The most tasks that may be outstanding at once; zero for no bound. -/
  queueCapacity : UInt64 := 32
  deriving DecidableEq, Repr

structure WorkloadConfig where
  buckets : UInt64 := 5
  bucketPrefix : String := "faultline"
  minObjectSize : UInt64 := 1024
  maxObjectSize : UInt64 := 1048576
  paceMs : UInt64 := 0
  deriving DecidableEq, Repr

structure ReportConfig where
  timeoutSecs : UInt64 := 60
  deriving DecidableEq, Repr

structure PolicyConfig where
  graceMs : UInt64 := 0
  maxExpectedFailures : Option UInt64 := none
  toleratedAfterClose : List OperationKind := []
  deriving DecidableEq, Repr

structure FaultConfig where
  startAfterMs : UInt64 := 500
  transitionMs : UInt64 := 2000
  deriving DecidableEq, Repr

structure Config where
  pool : PoolConfig := {}
  workload : WorkloadConfig := {}
  report : ReportConfig := {}
  policy : PolicyConfig := {}
  fault : FaultConfig := {}
  deriving DecidableEq, Repr

/-- The pause between two submissions, if there is one. -/
def WorkloadConfig.pace (c : WorkloadConfig) : Option Duration :=
  if c.paceMs = 0 then none else some (.ofMillis c.paceMs)

def ReportConfig.timeout (c : ReportConfig) : Duration := .ofSecs c.timeoutSecs

/-- The first thing that makes the configuration unusable is the one reported. -/
def Config.validate (c : Config) : Except ConfigProblem Unit :=
  if c.pool.workers = 0 then .error .noWorkers
  else if c.workload.buckets = 0 then .error .noBuckets
  else if c.workload.maxObjectSize < c.workload.minObjectSize then
    .error (.sizesCrossed c.workload.minObjectSize c.workload.maxObjectSize)
  else .ok ()

end FaultDrill
