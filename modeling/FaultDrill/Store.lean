import Std.Data.TreeMap
import FaultDrill.Error

/-! # The object store

A store of whole objects and of the parts of multipart uploads. It can be made to
misbehave: to fail every request, to reject the next ones, to list components as down,
and to spoil the content of an object.
-/

namespace FaultDrill

/-- An answer of the store, which may say that it did not do what was asked. -/
structure Response where
  success : Bool
  detail : String
  /-- The checksum of the content that a read returned. -/
  checksum : Option String := none
  deriving DecidableEq, Repr

namespace Response

def ok (detail : String) : Response := { success := true, detail }

def rejected (detail : String) : Response := { success := false, detail }

end Response

abbrev Objects := Std.TreeMap ObjectRef ByteArray

/-- Parts are ordered by object, then by number. -/
abbrev PartKey := ObjectRef × UInt32

def PartKey.order (a b : PartKey) : Ordering :=
  compareLex (compareOn Prod.fst) (compareOn Prod.snd) a b

abbrev Parts := Std.TreeMap PartKey ByteArray PartKey.order

structure Store where
  objects : Objects := {}
  parts : Parts := {}
  /-- Why every request fails at the moment, if it does. -/
  disrupted : Option String := none
  /-- Components that are down, in the order in which they went down. -/
  degraded : List String := []
  /-- How long a request takes before it has its effect, in milliseconds. -/
  latency : Nat := 0
  /-- The details with which the next requests are rejected. -/
  failNext : List String := []
  operationsTotal : UInt64 := 0

namespace Store

def empty : Store := {}

instance : Inhabited Store := ⟨empty⟩

/-! ## Controls -/

def disrupt (reason : String) (s : Store) : Store := { s with disrupted := some reason }

def endDisruption (s : Store) : Store := { s with disrupted := none }

/-- A component that is down already stays in its place. -/
def markDegraded (component : String) (s : Store) : Store :=
  if s.degraded.contains component then s else { s with degraded := s.degraded ++ [component] }

/-- Whether the component was down, and the store in which it is not. -/
def restoreComponent (component : String) (s : Store) : Bool × Store :=
  (s.degraded.contains component, { s with degraded := s.degraded.filter (· ≠ component) })

def rejectNext (detail : String) (s : Store) : Store :=
  { s with failNext := s.failNext ++ [detail] }

/-- Content with its first byte inverted; empty content grows by a byte. -/
def spoil (content : ByteArray) : ByteArray :=
  if h : 0 < content.size then content.set 0 (content[0] ^^^ 0xff) else content.push 0xff

/-- Whether the object exists, and the store in which its content is spoiled. -/
def corrupt (target : ObjectRef) (s : Store) : Bool × Store :=
  match s.objects[target]? with
  | some content => (true, { s with objects := s.objects.insert target (spoil content) })
  | none => (false, s)

/-! ## Views -/

def contains (target : ObjectRef) (s : Store) : Bool := s.objects.contains target

def objectCount (s : Store) : Nat := s.objects.size

/-- The numbers of the parts uploaded to the object, in order. -/
def uploadedParts (target : ObjectRef) (s : Store) : List UInt32 :=
  s.parts.keys.filterMap fun (object, part) => if object = target then some part else none

/-! ## Requests -/

/-- What a request does to a store that serves it. -/
def serve (op : Operation) (s : Store) :
    Except Crash (Except StorageError Response × Store) :=
  let missing : Response := .rejected ("NoSuchKey: " ++ op.target.text)
  match op.kind with
  | .write =>
    match op.payload with
    | none =>
      .ok (.error (.invalidRequest ("write to " ++ op.target.text ++ " without payload")), s)
    | some payload => payload.bytes.map fun content =>
      (.ok (.ok ("etag=" ++ ((checksum content).take 16).toString)),
        { s with objects := s.objects.insert op.target content })
  | .read =>
    match s.objects[op.target]? with
    | some content =>
      .ok (.ok { Response.ok (toString content.size ++ " bytes") with
        checksum := some (checksum content) }, s)
    | none => .ok (.ok missing, s)
  | .delete =>
    if s.objects.contains op.target then
      .ok (.ok (.ok "deleted"), { s with objects := s.objects.erase op.target })
    else .ok (.ok (.ok "absent"), s)
  | .copy =>
    match op.destination with
    | none =>
      .ok (.error (.invalidRequest ("copy of " ++ op.target.text ++ " without destination")), s)
    | some destination =>
      match s.objects[op.target]? with
      | some content =>
        .ok (.ok (.ok ("copied to " ++ destination.text)),
          { s with objects := s.objects.insert destination content })
      | none => .ok (.ok missing, s)
  | .multipartPart =>
    match op.partNumber, op.payload with
    | some part, some payload => payload.bytes.map fun content =>
      (.ok (.ok ("part " ++ toString part.toNat)),
        { s with parts := s.parts.insert (op.target, part) content })
    | _, _ =>
      .ok (.error (.invalidRequest
        ("multipart upload to " ++ op.target.text ++ " needs part number and payload")), s)

/-- The answer to one request and the store after it. Every request counts, one that crashes
included; the store keeps its content then. -/
def apply (op : Operation) (s : Store) :
    Except Crash (Except StorageError Response) × Store :=
  if s.operationsTotal.toNat + 1 < UInt64.size then
    let s := { s with operationsTotal := s.operationsTotal + 1 }
    match s.disrupted, s.failNext with
    | some reason, _ => (.ok (.error (.service 503 ("service unavailable: " ++ reason))), s)
    | none, detail :: rest => (.ok (.ok (.rejected detail)), { s with failNext := rest })
    | none, [] =>
      match s.serve op with
      | .ok (answer, s') => (.ok answer, s')
      | .error crash => (.error crash, s)
  else (.error .addOverflow, s)

end Store

end FaultDrill
