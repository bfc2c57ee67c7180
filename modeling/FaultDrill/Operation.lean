import FaultDrill.Object

/-! # Operations

One request to the store. The fields that a kind does not use stay empty; a request
may also lack a field that its kind needs, and the store answers such a request.
-/

namespace FaultDrill

inductive OperationKind
  | read
  | write
  | delete
  | copy
  | multipartPart
  deriving DecidableEq, Repr

namespace OperationKind

def all : List OperationKind := [read, write, delete, copy, multipartPart]

def name : OperationKind → String
  | read => "read"
  | write => "write"
  | delete => "delete"
  | copy => "copy"
  | multipartPart => "multipart_part"

def ofName? (name : String) : Option OperationKind := all.find? (·.name = name)

theorem ofName?_name (k : OperationKind) : ofName? k.name = some k := by cases k <;> decide

end OperationKind

structure Operation where
  kind : OperationKind
  /-- The object acted on; for a copy, the source. -/
  target : ObjectRef
  destination : Option ObjectRef := none
  partNumber : Option UInt32 := none
  payload : Option Payload := none
  /-- What a read has to return for its content to count as intact. -/
  expectedChecksum : Option String := none
  deriving DecidableEq, Repr

namespace Operation

def write (target : ObjectRef) (payload : Payload) : Operation :=
  { kind := .write, target, payload := some payload }

def read (target : ObjectRef) (expectedChecksum : Option String) : Operation :=
  { kind := .read, target, expectedChecksum }

/-- A read that expects the content that was written. -/
def verify (object : StoredObject) : Operation := read object.target (some object.checksum)

def delete (target : ObjectRef) : Operation := { kind := .delete, target }

def copy (source destination : ObjectRef) : Operation :=
  { kind := .copy, target := source, destination := some destination }

def multipartPart (target : ObjectRef) (part : UInt32) (payload : Payload) : Operation :=
  { kind := .multipartPart, target, partNumber := some part, payload := some payload }

def text (op : Operation) : String :=
  op.kind.name ++ " " ++ op.target.text
    ++ (op.destination.map fun d => " -> " ++ d.text).getD ""
    ++ (op.partNumber.map fun n => " part=" ++ toString n.toNat).getD ""
    ++ (op.payload.map fun p => " (" ++ toString p.size.toNat ++ " bytes)").getD ""

end Operation

end FaultDrill
