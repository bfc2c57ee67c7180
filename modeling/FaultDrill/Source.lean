import FaultDrill.Operation
import FaultDrill.Config

/-! # Sources of operations

A source hands out the operations of one stream, one for each task, until it runs dry.
-/

namespace FaultDrill

/-- Writes of objects of random size, spread over buckets. -/
structure WriteSource where
  random : Keystream
  /-- How many buckets there are; at least one. -/
  buckets : UInt64
  bucketPrefix : String
  keyPrefix : String := "obj"
  minSize : UInt64
  maxSize : UInt64
  deriving DecidableEq, Repr

namespace WriteSource

/-- No list of this many bucket names can be reserved. -/
def bucketLimit : Nat := Payload.sizeLimit / 24 + 1

def ofConfig (config : WorkloadConfig) (seed : UInt64) : Except Crash WriteSource :=
  if config.buckets.toNat < bucketLimit then
    .ok {
      random := .ofSeed seed
      buckets := max config.buckets 1
      bucketPrefix := config.bucketPrefix
      minSize := config.minObjectSize
      maxSize := max config.maxObjectSize config.minObjectSize }
  else .error .capacityOverflow

def withKeyPrefix (keyPrefix : String) (w : WriteSource) : WriteSource := { w with keyPrefix }

def bucketName (w : WriteSource) (n : Nat) : String := w.bucketPrefix ++ "-" ++ toString n

def bucketNames (w : WriteSource) : List String := (List.range w.buckets.toNat).map w.bucketName

def key (w : WriteSource) (id : TaskId) : String := w.keyPrefix ++ "-" ++ toString id.seq.toNat

/-- Draws a bucket, a size and a seed for the content, in this order. None if a draw never ends. -/
def next (id : TaskId) (w : WriteSource) : Option (Operation × WriteSource) := do
  let (bucket, random) ← w.random.drawBetween 0 (w.buckets - 1)
  let (size, random) ← random.drawBetween w.minSize w.maxSize
  let (seed, random) := random.next
  some (.write ⟨w.bucketName bucket.toNat, w.key id⟩ ⟨size, seed⟩, { w with random })

end WriteSource

/-- The parts of one multipart upload. -/
structure MultipartSource where
  target : ObjectRef
  partSize : UInt64
  parts : UInt32
  seed : UInt64
  nextPart : UInt32 := 1
  deriving DecidableEq, Repr

namespace MultipartSource

/-- The number of the next part is counted up before the part is handed out. -/
def next (m : MultipartSource) : Except Crash (Option Operation × MultipartSource) :=
  if m.parts < m.nextPart then .ok (none, m)
  else if m.nextPart.toNat + 1 < UInt32.size then
    .ok (some (.multipartPart m.target m.nextPart ⟨m.partSize, m.seed + m.nextPart.toUInt64⟩),
      { m with nextPart := m.nextPart + 1 })
  else .error .addOverflow

end MultipartSource

/-- A copy into a key of its own in the bucket of its source. -/
def Operation.copyAside (source : ObjectRef) (id : TaskId) : Operation :=
  .copy source ⟨source.bucket, source.key ++ "-copy-" ++ toString id.seq.toNat⟩

inductive Source
  | write (state : WriteSource)
  /-- Verifying reads of the objects, over and over. -/
  | read (objects : List StoredObject) (cursor : Nat)
  /-- Each target is deleted once. -/
  | delete (targets : List ObjectRef)
  | copy (sources : List ObjectRef)
  | multipart (state : MultipartSource)
  | scripted (operations : List Operation)
  /-- Any rule that answers by the number of pulls before and the task. -/
  | rule (answer : Nat → TaskId → Except Crash (Option Operation)) (pulls : Nat)

namespace Source

instance : Inhabited Source := ⟨scripted []⟩

/-- The operation for the task, none once the source has run dry, and the source after it. -/
def next (id : TaskId) (source : Source) : Except Crash (Option Operation × Source) :=
  match source with
  | write state =>
    match state.next id with
    | some (op, state) => .ok (some op, write state)
    | none => .error .endless
  | read objects cursor =>
    match objects[cursor % objects.length]? with
    | none => .ok (none, source)
    | some object => .ok (some (.verify object), read objects (cursor + 1))
  | delete [] => .ok (none, source)
  | delete (target :: rest) => .ok (some (.delete target), delete rest)
  | copy sources =>
    if sources.isEmpty then .ok (none, source)
    else if id.seq = 0 then .error .subtractOverflow
    else .ok (sources[(id.seq.toNat - 1) % sources.length]?.map (Operation.copyAside · id), source)
  | multipart state => state.next.map fun (op, state) => (op, multipart state)
  | scripted [] => .ok (none, source)
  | scripted (op :: rest) => .ok (some op, scripted rest)
  | rule answer pulls => (answer pulls id).map fun op => (op, rule answer (pulls + 1))

/-- The operations that a scripted source has not handed out. -/
def remaining : Source → Nat
  | scripted operations => operations.length
  | _ => 0

/-- What the source answers to so many pulls, for tasks that follow each other, up to the first
pull that gives no operation; and the source after them. -/
def pulls (count : Nat) (id : TaskId) (source : Source) :
    List (Except Crash (Option Operation)) × Source :=
  match count with
  | 0 => ([], source)
  | count + 1 =>
    match source.next id with
    | .error crash => ([.error crash], source)
    | .ok (none, source) => ([.ok none], source)
    | .ok (some op, source) =>
      match id.next with
      | .error crash => ([.ok (some op), .error crash], source)
      | .ok id =>
        let (rest, source) := pulls count id source
        (.ok (some op) :: rest, source)

end Source

end FaultDrill
