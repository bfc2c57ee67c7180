import FaultDrill.Crash
import FaultDrill.Bytes.Sha256
import FaultDrill.Bytes.Keystream

/-! # Objects and payloads

Where an object lives, the bytes that a payload stands for, and the numbering of tasks.
Payload bytes are never carried around: a size and a seed determine them.
-/

namespace FaultDrill

/-- The place of a task in its stream, counted from one. -/
structure TaskId where
  seq : UInt64
  deriving DecidableEq, Repr

namespace TaskId

def first : TaskId := ⟨1⟩

def next (id : TaskId) : Except Crash TaskId :=
  if id.seq.toNat + 1 < UInt64.size then .ok ⟨id.seq + 1⟩ else .error .addOverflow

def text (id : TaskId) : String := "task-" ++ toString id.seq.toNat

end TaskId

structure ObjectRef where
  bucket : String
  key : String
  deriving DecidableEq, Repr

namespace ObjectRef

def text (r : ObjectRef) : String := r.bucket ++ "/" ++ r.key

/-- Buckets are compared first. -/
instance : Ord ObjectRef := ⟨compareLex (compareOn bucket) (compareOn key)⟩

end ObjectRef

/-- Hexadecimal SHA-256 of the content. -/
def checksum (content : ByteArray) : String := Sha256.hexDigest content

structure Payload where
  size : UInt64
  seed : UInt64
  deriving DecidableEq, Repr

namespace Payload

/-- No allocation has this many bytes or more. -/
def sizeLimit : Nat := UInt64.size / 2

def bytes (p : Payload) : Except Crash ByteArray :=
  if p.size.toNat < sizeLimit then .ok (Keystream.bytes p.seed p.size.toNat)
  else .error .capacityOverflow

def checksum (p : Payload) : Except Crash String := p.bytes.map FaultDrill.checksum

end Payload

/-- An object known to have been written, with the checksum of its content. -/
structure StoredObject where
  target : ObjectRef
  checksum : String
  size : UInt64
  deriving DecidableEq, Repr

end FaultDrill
