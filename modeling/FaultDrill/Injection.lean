import FaultDrill.Store
import FaultDrill.Json.Data

/-! # Fault injection

An injector destroys a component and brings it back. Deleting a pod makes every request
fail while the pod goes down and leaves the component listed as degraded.
-/

namespace FaultDrill

/-- Details of an injection by name, in the order of the names. -/
structure Metadata where
  entries : List (String × String) := []
  sorted : (entries.map Prod.fst).Pairwise (· < ·) := by simp

namespace Metadata

theorem ext {a b : Metadata} (h : a.entries = b.entries) : a = b := by
  cases a; cases b; cases h; rfl

instance : DecidableEq Metadata := fun a b =>
  if h : a.entries = b.entries then .isTrue (ext h) else .isFalse fun e => h (e ▸ rfl)

instance : Inhabited Metadata := ⟨{}⟩

/-- A name that is there already keeps the later value. -/
def insertEntry (key value : String) : List (String × String) → List (String × String)
  | [] => [(key, value)]
  | (k, v) :: rest =>
    if key < k then (key, value) :: (k, v) :: rest
    else if key = k then (key, value) :: rest
    else (k, v) :: insertEntry key value rest

theorem mem_insertEntry {key value : String} {entries : List (String × String)} {k : String}
    (h : k ∈ (insertEntry key value entries).map Prod.fst) :
    k = key ∨ k ∈ entries.map Prod.fst := by
  fun_induction insertEntry key value entries with
  | case1 => exact .inl (List.mem_singleton.1 h)
  | case2 => exact List.mem_cons.1 h
  | case3 => exact .inr h
  | case4 _ _ _ _ _ ih =>
    rcases List.mem_cons.1 h with rfl | h
    · exact .inr List.mem_cons_self
    · exact (ih h).imp_right (List.mem_cons_of_mem _)

theorem insertEntry_sorted (key value : String) {entries : List (String × String)}
    (h : (entries.map Prod.fst).Pairwise (· < ·)) :
    ((insertEntry key value entries).map Prod.fst).Pairwise (· < ·) := by
  fun_induction insertEntry key value entries with
  | case1 => simp
  | case2 k v rest hlt =>
    simp only [List.map_cons, List.pairwise_cons] at h ⊢
    refine ⟨fun x hx => ?_, h⟩
    rcases List.mem_cons.1 hx with rfl | hx
    · exact hlt
    · exact String.lt_trans hlt (h.1 x hx)
  | case3 v rest => exact h
  | case4 k v rest hlt hne ih =>
    simp only [List.map_cons, List.pairwise_cons] at h ⊢
    refine ⟨fun x hx => ?_, ih h.2⟩
    rcases mem_insertEntry hx with rfl | hx
    · exact Std.lt_of_le_of_ne (Std.not_lt.1 hlt) (Ne.symm hne)
    · exact h.1 x hx

def insert (m : Metadata) (key value : String) : Metadata :=
  ⟨insertEntry key value m.entries, insertEntry_sorted key value m.sorted⟩

def ofList (entries : List (String × String)) : Metadata :=
  entries.foldl (fun m (k, v) => m.insert k v) {}

end Metadata

/-- What an injection did, with what is needed to undo it. -/
structure FaultRecord where
  component : String
  metadata : Metadata := {}
  deriving DecidableEq

namespace FaultRecord

open Json in
def toJson (r : FaultRecord) : Json :=
  .object [("component", .text r.component),
    ("metadata", .object (r.metadata.entries.map fun (k, v) => (k, .text v)))]

open Json in
def ofJson? (j : Json) : Option FaultRecord := do
  let [component, metadata] ← columns? ["component", "metadata"] j | none
  let entries ← match ← metadata with
    | .object fields => fields.mapM fun (k, v) => (text? v).map (k, ·)
    | _ => none
  some ⟨← required? text? component, .ofList entries⟩

end FaultRecord

inductive Injector
  /-- Deletes a pod of the store; going down takes `transition` milliseconds. -/
  | podFailure (component : String) (transition : Nat)
  /-- Does nothing to the store and ends as it is told, after `delay` milliseconds. -/
  | fixed (name : String) (injected : Except FaultError FaultRecord)
      (restored : Except FaultError Unit) (delay : Nat := 0)

namespace Injector

def name : Injector → String
  | podFailure _ _ => "simulated-pod-failure"
  | fixed name _ _ _ => name

def podRecord (component : String) (transition : Nat) : FaultRecord :=
  { component, metadata := Metadata.insert {} "transition_ms" (toString transition) }

/-- Begin the injection: it fails at once, or it ends after some milliseconds. -/
def begin (i : Injector) (s : Store) : Except FaultError Nat × Store :=
  match i with
  | podFailure component transition =>
    if s.degraded.contains component then
      (.error (.injectFailed component "already degraded"), s)
    else (.ok transition, s.disrupt (component ++ " terminating"))
  | fixed _ _ _ delay => (.ok delay, s)

/-- End the injection that has begun. -/
def finish (i : Injector) (s : Store) : Except FaultError FaultRecord × Store :=
  match i with
  | podFailure component transition =>
    (.ok (podRecord component transition), (s.endDisruption).markDegraded component)
  | fixed _ injected _ _ => (injected, s)

/-- Undo an injection. -/
def restore (i : Injector) (record : FaultRecord) (s : Store) : Except FaultError Unit × Store :=
  match i with
  | podFailure _ _ =>
    match s.restoreComponent record.component with
    | (true, s) => (.ok (), s)
    | (false, s) =>
      (.error (.restoreFailed record.component "component is not degraded"), s)
  | fixed _ _ restored _ => (restored, s)

end Injector

end FaultDrill
