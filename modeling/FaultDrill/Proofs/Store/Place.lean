import FaultDrill.Proofs.Store.Holding

/-! # Places of a store

A place is what a store has under one reference: the object there and the parts of its upload. A
request looks at no place but those that it touches and changes no other, so that requests that
touch different places do not see each other.
-/

namespace FaultDrill

/-- What the operation is about: its target, and where a copy goes. -/
def Operation.touched (op : Operation) : List ObjectRef :=
  op.target :: if op.kind = .copy then op.destination.toList else []

/-- The operations touch nothing in common. -/
def Operation.Apart (op op' : Operation) : Prop := op.touched.Disjoint op'.touched

theorem Operation.Apart.symm {op op' : Operation} (h : op.Apart op') : op'.Apart op :=
  List.Disjoint.symm h

namespace Store

/-- The object under the reference, and the parts of its upload. -/
def place (s : Store) (k : ObjectRef) : Option ByteArray × (UInt32 → Option ByteArray) :=
  (s.objects[k]?, fun part => s.parts[(k, part)]?)

/-- The store is not down and has nothing to reject. -/
structure IsUp (s : Store) : Prop where
  disrupted : s.disrupted = none
  failNext : s.failNext = []

/-- The stores hold the same objects and parts and have counted the same. -/
structure Matches (s s' : Store) : Prop where
  objects : s.objects.toList = s'.objects.toList
  parts : s.parts.toList = s'.parts.toList
  operationsTotal : s.operationsTotal = s'.operationsTotal

/-- What is served alike at the places that the operation touches. -/
inductive ServedAlike (op : Operation) :
    Except Crash (Except StorageError Response × Store) →
      Except Crash (Except StorageError Response × Store) → Prop
  | answered {answer s s'} : (∀ k ∈ op.touched, s.place k = s'.place k) →
      ServedAlike op (.ok (answer, s)) (.ok (answer, s'))
  | crashed {crash} : ServedAlike op (.error crash) (.error crash)

variable {s s' : Store} {op : Operation} {k target : ObjectRef} {content : ByteArray}
  {part : UInt32}

theorem place_eq_iff : s.place k = s'.place k ↔
    s.objects[k]? = s'.objects[k]? ∧
      ∀ part : UInt32, s.parts[(k, part)]? = s'.parts[(k, part)]? := by
  rw [place, place, Prod.mk.injEq, funext_iff]

theorem matches_iff : s.Matches s' ↔
    (∀ k, s.place k = s'.place k) ∧ s.operationsTotal = s'.operationsTotal := by
  constructor
  · rintro ⟨ho, hp, ht⟩
    refine ⟨fun k => place_eq_iff.2 ⟨?_, fun part => ?_⟩, ht⟩
    · exact (Std.TreeMap.equiv_iff_toList_eq.2 ho).getElem?_eq
    · exact (Std.TreeMap.equiv_iff_toList_eq.2 hp).getElem?_eq
  · rintro ⟨hplace, ht⟩
    have ho : s.objects.Equiv s'.objects :=
      .of_forall_constGet?_eq fun k => (place_eq_iff.1 (hplace k)).1
    have hp : s.parts.Equiv s'.parts :=
      .of_forall_constGet?_eq fun k => (place_eq_iff.1 (hplace k.1)).2 k.2
    exact ⟨ho.toList_eq, hp.toList_eq, ht⟩

theorem Matches.symm (h : s.Matches s') : s'.Matches s :=
  ⟨h.objects.symm, h.parts.symm, h.operationsTotal.symm⟩

theorem place_insert : ({ s with objects := s.objects.insert target content } : Store).place k =
    if target = k then (some content, (s.place k).2) else s.place k := by
  simp only [place, getElem?_insert]
  split <;> rfl

theorem place_erase : ({ s with objects := s.objects.erase target } : Store).place k =
    if target = k then (none, (s.place k).2) else s.place k := by
  simp only [place, getElem?_erase]
  split <;> rfl

theorem place_insert_part :
    ({ s with parts := s.parts.insert (target, part) content } : Store).place k =
      if target = k then ((s.place k).1, Function.update (s.place k).2 part (some content))
      else s.place k := by
  have hpart (n : UInt32) : (s.parts.insert (target, part) content)[(k, n)]? =
      if (target, part) = (k, n) then some content else s.parts[(k, n)]? := by
    simp [Std.TreeMap.getElem?_insert, Std.LawfulEqCmp.compare_eq_iff_eq]
  simp only [place, hpart]
  split
  case isTrue ht =>
    subst ht
    refine Prod.ext rfl (funext fun n => ?_)
    simp [Function.update_apply, eq_comm]
  case isFalse ht => simp [ht]

/-! ## What a request leaves alone -/

/-- A request changes what it touches and nothing else. -/
theorem place_apply (hk : k ∉ op.touched) : (s.apply op).2.place k = s.place k := by
  obtain ⟨htarget, hdestination⟩ : op.target ≠ k ∧
      ∀ d, op.kind = .copy → op.destination = some d → d ≠ k := by
    refine ⟨fun h => hk (h ▸ List.mem_cons_self), fun d hcopy hd h => hk ?_⟩
    rw [Operation.touched, if_pos hcopy, hd, h]
    exact List.mem_cons_of_mem _ List.mem_cons_self
  have happ := apply_applied op s
  generalize (s.apply op).1 = came at happ
  generalize (s.apply op).2 = s' at happ
  cases happ with
  | exhausted | unavailable | rejected | crashed => rfl
  | served _ _ _ hserved =>
    cases hserved with
    | write => exact place_insert.trans (if_neg htarget)
    | delete => exact place_erase.trans (if_neg htarget)
    | copy hcopy hd => exact place_insert.trans (if_neg (hdestination _ hcopy hd))
    | part => exact place_insert_part.trans (if_neg htarget)
    | read | deleteAbsent | missing | invalid => rfl

theorem IsUp.apply (h : s.IsUp) (op : Operation) : (s.apply op).2.IsUp :=
  ⟨(s.apply_disrupted op).trans h.disrupted, apply_failNext h.failNext⟩

/-! ## What a request looks at -/

theorem serve_alike (h : ∀ k ∈ op.touched, s.place k = s'.place k) :
    ServedAlike op (s.serve op) (s'.serve op) := by
  have hobject : s.objects[op.target]? = s'.objects[op.target]? :=
    (place_eq_iff.1 (h _ List.mem_cons_self)).1
  cases hk : op.kind with
  | write =>
    cases hp : op.payload with
    | none => simpa only [serve, hk, hp] using .answered h
    | some payload =>
      rcases bytes_cases payload with ⟨content, hb⟩ | hb
      · simp only [serve, hk, hp, hb, Except.map]
        refine .answered fun k hmem => ?_
        rw [place_insert, place_insert, h k hmem]
      · simpa only [serve, hk, hp, hb, Except.map] using .crashed
  | read =>
    simp only [serve, hk, hobject]
    cases s'.objects[op.target]? <;> exact .answered h
  | delete =>
    simp only [serve, hk, Std.TreeMap.contains_eq_isSome_getElem?, hobject]
    split
    · refine .answered fun k hmem => ?_
      rw [place_erase, place_erase, h k hmem]
    · exact .answered h
  | copy =>
    cases hd : op.destination with
    | none => simpa only [serve, hk, hd] using .answered h
    | some destination =>
      simp only [serve, hk, hd, hobject]
      cases s'.objects[op.target]? with
      | none => exact .answered h
      | some content =>
        refine .answered fun k hmem => ?_
        rw [place_insert, place_insert, h k hmem]
  | multipartPart =>
    cases hn : op.partNumber with
    | none => simpa only [serve, hk, hn] using .answered h
    | some part =>
      cases hp : op.payload with
      | none => simpa only [serve, hk, hn, hp] using .answered h
      | some payload =>
        rcases bytes_cases payload with ⟨content, hb⟩ | hb
        · simp only [serve, hk, hn, hp, hb, Except.map]
          refine .answered fun k hmem => ?_
          rw [place_insert_part, place_insert_part, h k hmem]
        · simpa only [serve, hk, hn, hp, hb, Except.map] using .crashed

theorem apply_of_serve {answer : Except StorageError Response} (h : s.IsUp) (hc : s.HasCount)
    (hserve : s.counted.serve op = .ok (answer, s')) : s.apply op = (.ok answer, s') := by
  unfold apply
  rw [if_pos (show s.operationsTotal.toNat + 1 < UInt64.size from hc)]
  simp only [h.disrupted, h.failNext]
  simp only [counted, h.disrupted, h.failNext] at hserve
  rw [hserve]

theorem apply_of_crash {crash : Crash} (h : s.IsUp) (hc : s.HasCount)
    (hserve : s.counted.serve op = .error crash) : s.apply op = (.error crash, s.counted) := by
  unfold apply
  rw [if_pos (show s.operationsTotal.toNat + 1 < UInt64.size from hc)]
  simp only [counted, h.disrupted, h.failNext] at hserve ⊢
  rw [hserve]

/-- Stores that agree on what a request touches answer it alike and still agree. -/
theorem apply_alike (hs : s.IsUp) (hs' : s'.IsUp) (hc : s.HasCount) (hc' : s'.HasCount)
    (h : ∀ k ∈ op.touched, s.place k = s'.place k) : (s.apply op).1 = (s'.apply op).1 ∧
      ∀ k ∈ op.touched, (s.apply op).2.place k = (s'.apply op).2.place k := by
  have halike : ServedAlike op (s.counted.serve op) (s'.counted.serve op) := serve_alike h
  generalize hserved : s.counted.serve op = served at halike
  generalize hserved' : s'.counted.serve op = served' at halike
  cases halike with
  | answered hplace =>
    rw [apply_of_serve hs hc hserved, apply_of_serve hs' hc' hserved']
    exact ⟨rfl, hplace⟩
  | crashed =>
    rw [apply_of_crash hs hc hserved, apply_of_crash hs' hc' hserved']
    exact ⟨rfl, h⟩

end Store

end FaultDrill
