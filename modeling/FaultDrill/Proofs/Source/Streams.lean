import Std.Data.String.ToNat
import FaultDrill.Proofs.Result
import FaultDrill.Proofs.Driver.Supply

/-! # The operations of the streams

What the sources of writes, reads and deletes give: each write goes to an object of its own,
within the sizes that the source was told; a read verifies one of the objects, and a delete is
of one of the targets.
-/

namespace FaultDrill

namespace Keystream

variable {low high x : UInt64} {s s' : Keystream} {width tries n : Nat}

/-- A fair draw lies in its range. -/
theorem findFair_lt (hwidth : 0 < width) (h : findFair width tries s = some (n, s')) :
    n < width := by
  induction tries generalizing s with
  | zero => cases h
  | succ tries ih =>
    unfold findFair at h
    split at h
    case h_1 word s₁ _ =>
      dsimp only at h
      split at h
      case isTrue =>
        cases h
        exact Nat.div_lt_of_lt_mul (Nat.mul_lt_mul_of_pos_right word.toNat_lt hwidth)
      case isFalse => exact ih h

/-- The width of a range, which wraps to zero for the range of all words. -/
theorem toNat_width (hle : low ≤ high) :
    (high - low + 1).toNat = 0 ∧ high.toNat + 1 = UInt64.size ∨
      (high - low + 1).toNat = high.toNat - low.toNat + 1 := by
  have hlow : low.toNat ≤ high.toNat := hle
  have hhigh : high.toNat < UInt64.size := high.toNat_lt
  have hwidth : (high - low + 1).toNat = (high.toNat - low.toNat + 1) % UInt64.size := by
    rw [UInt64.toNat_add, UInt64.toNat_sub_of_le _ _ hle]
    rfl
  rcases Nat.lt_or_ge (high.toNat - low.toNat + 1) UInt64.size with hlt | hge
  · exact .inr (hwidth.trans (Nat.mod_eq_of_lt hlt))
  · have hall : high.toNat - low.toNat + 1 = UInt64.size := by omega
    rw [hall, Nat.mod_self] at hwidth
    exact .inl ⟨hwidth, by omega⟩

theorem le_of_drawBetween (hle : low ≤ high) (h : drawBetween low high s = some (x, s')) :
    x ≤ high := by
  have hlow : low.toNat ≤ high.toNat := hle
  have hhigh : high.toNat < UInt64.size := high.toNat_lt
  rw [UInt64.le_iff_toNat_le]
  simp only [drawBetween] at h
  split at h
  case isTrue hzero =>
    -- every word is in range
    have hx : x.toNat < UInt64.size := x.toNat_lt
    rcases toNat_width hle with ⟨-, hall⟩ | hwidth
    · omega
    · omega
  case isFalse hne =>
    obtain ⟨⟨offset, s₁⟩, hfair, hx⟩ := Option.map_eq_some_iff.1 h
    cases hx
    have hoffset := findFair_lt (Nat.pos_of_ne_zero hne) hfair
    have hwidth := (toNat_width hle).resolve_left fun hall => hne hall.1
    have hsum : low.toNat + offset ≤ high.toNat := by omega
    rw [UInt64.toNat_add, UInt64.toNat_ofNat_of_lt' (by omega), Nat.mod_eq_of_lt]
    · exact hsum
    · exact Nat.lt_of_le_of_lt hsum hhigh

end Keystream

namespace WriteSource

variable {w w' : WriteSource} {id id' : TaskId} {op : Operation}

/-- A write of the source for this task. -/
structure Writes (w : WriteSource) (id : TaskId) (op : Operation) (payload : Payload) : Prop where
  kind : op.kind = .write
  key : op.target.key = w.key id
  payload_eq : op.payload = some payload
  size : payload.size ≤ w.maxSize

/-- A size can be drawn, and whatever is drawn fits in memory. -/
structure Bounded (w : WriteSource) : Prop where
  sizes : w.minSize ≤ w.maxSize
  limit : w.maxSize.toNat < Payload.sizeLimit

/-- The sources of writes that differ in what they draw next. -/
structure Alike (w w' : WriteSource) : Prop where
  keyPrefix : w'.keyPrefix = w.keyPrefix
  minSize : w'.minSize = w.minSize
  maxSize : w'.maxSize = w.maxSize

theorem writes_of_next (hsizes : w.minSize ≤ w.maxSize) (h : w.next id = some (op, w')) :
    (∃ payload, w.Writes id op payload) ∧ w.Alike w' := by
  simp only [next, Option.bind_eq_bind, Option.bind_eq_some_iff, Option.some.injEq,
    Prod.mk.injEq] at h
  obtain ⟨⟨bucket, s₁⟩, -, ⟨size, s₂⟩, hsize, rfl, rfl⟩ := h
  exact ⟨⟨_, rfl, rfl, rfl, Keystream.le_of_drawBetween hsizes hsize⟩, rfl, rfl, rfl⟩

theorem key_of_next (h : w.next id = some (op, w')) :
    op.kind = .write ∧ op.target.key = w.key id ∧ w'.keyPrefix = w.keyPrefix := by
  simp only [next, Option.bind_eq_bind, Option.bind_eq_some_iff, Option.some.injEq,
    Prod.mk.injEq] at h
  obtain ⟨_, -, _, -, rfl, rfl⟩ := h
  exact ⟨rfl, rfl, rfl⟩

theorem max_eq_of_le {a b : UInt64} (h : b ≤ a) : max a b = a := by
  unfold max instMaxUInt64 maxOfLe
  dsimp only
  split
  case isTrue hle => exact UInt64.le_antisymm h hle
  case isFalse => rfl

/-- What a source of writes is made of; sizes that are crossed count as the lower one. -/
theorem eq_of_ofConfig {c : WorkloadConfig} {seed : UInt64} (h : ofConfig c seed = .ok w) :
    w = {
      random := .ofSeed seed, buckets := max c.buckets 1, bucketPrefix := c.bucketPrefix
      minSize := c.minObjectSize, maxSize := max c.maxObjectSize c.minObjectSize } := by
  unfold ofConfig at h
  split at h
  case isTrue => exact (Except.ok.inj h).symm
  case isFalse => cases h

/-- A source of a configuration with its sizes in order has these sizes. -/
theorem ofConfig_eq {c : WorkloadConfig} {seed : UInt64}
    (hsizes : c.minObjectSize ≤ c.maxObjectSize) (h : ofConfig c seed = .ok w) :
    w = {
      random := .ofSeed seed, buckets := max c.buckets 1, bucketPrefix := c.bucketPrefix
      minSize := c.minObjectSize, maxSize := c.maxObjectSize } := by
  rw [eq_of_ofConfig h, max_eq_of_le hsizes]

/-- Different tasks have different keys. -/
theorem key_inj (h : w.key id = w.key id') : id = id' := by
  simp only [key, String.append_right_inj] at h
  exact congrArg TaskId.mk (UInt64.toNat_inj.1 (Nat.repr_inj.1 h))

/-- No task of either source has a key of the other if the prefixes differ at once. -/
theorem key_ne (h : w.keyPrefix.toList.head? ≠ w'.keyPrefix.toList.head?)
    (hw : w.keyPrefix ≠ "") (hw' : w'.keyPrefix ≠ "") : w.key id ≠ w'.key id' := by
  intro hkey
  have hhead {v : WriteSource} (hv : v.keyPrefix ≠ "") (id : TaskId) :
      (v.key id).toList.head? = v.keyPrefix.toList.head? := by
    rw [key, String.toList_append, String.toList_append, List.append_assoc,
      List.head?_append_of_ne_nil _ (by simpa using hv)]
  rw [← hhead hw id, ← hhead hw' id', hkey] at h
  exact h rfl

end WriteSource

namespace Source

variable {source s s' : Source} {ops ops' : List Operation} {op op' : Operation} {k i n : Nat}
  {P : Source → Prop} {Q : Nat → Operation → Prop}

/-- What holds of each answer, as long as something holds of the source, holds of all. -/
theorem GivesFrom.forall (hnext : ∀ k s op s', P s →
      s.next (.ofIndex k) = .ok (some op, s') → Q k op ∧ P s')
    (h : GivesFrom k s ops s') (hs : P s) (hop : ops[i]? = some op) : Q (k + i) op := by
  induction h generalizing i with
  | nil => cases hop
  | @cons k s first s₁ ops s₂ hfirst _ ih =>
    obtain ⟨hfits, hs₁⟩ := hnext k s first s₁ hs hfirst
    cases i with
    | zero =>
      cases hop
      exact hfits
    | succ i =>
      have hrest := ih hs₁ hop
      rwa [Nat.add_right_comm] at hrest

theorem Gives.forall (hnext : ∀ k s op s', P s →
      s.next (.ofIndex k) = .ok (some op, s') → Q k op ∧ P s')
    (h : source.Gives n op) (hs : P source) : Q n op := by
  obtain ⟨ops, s, hgives, hop⟩ := h
  have hfits := hgives.forall hnext hs hop
  rwa [Nat.zero_add] at hfits

theorem GivesFrom.eq_of_getElem? (h : GivesFrom k source ops s) (h' : GivesFrom k source ops' s')
    (hop : ops[i]? = some op) (hop' : ops'[i]? = some op') : op = op' := by
  induction h generalizing ops' i with
  | nil => cases hop
  | cons hfirst _ ih =>
    cases h' with
    | nil => cases hop'
    | cons hfirst' hrest' =>
      cases hfirst.symm.trans hfirst'
      cases i with
      | zero => exact Option.some.inj (hop.symm.trans hop')
      | succ i => exact ih hrest' hop hop'

/-- A source gives one operation to a task. -/
theorem Gives.eq (h : source.Gives n op) (h' : source.Gives n op') : op = op' := by
  obtain ⟨ops, s, hgives, hop⟩ := h
  obtain ⟨ops', s', hgives', hop'⟩ := h'
  exact hgives.eq_of_getElem? hgives' hop hop'

theorem Gives.mem_scripted {operations : List Operation}
    (h : (scripted operations).Gives n op) : op ∈ operations := by
  -- what is left of the script is part of it
  refine h.forall (P := fun s => ∃ rest, s = scripted rest ∧ rest ⊆ operations)
    (Q := fun _ op => op ∈ operations) ?_ ⟨operations, rfl, List.Subset.refl _⟩
  rintro k s op s' ⟨rest, rfl, hsub⟩ hnext
  cases rest with
  | nil => cases hnext
  | cons first rest =>
    cases hnext
    exact ⟨hsub List.mem_cons_self, rest, rfl, (List.cons_subset.1 hsub).2⟩

theorem Gives.exists_rule {answer : Nat → TaskId → Except Crash (Option Operation)}
    (h : (rule answer i).Gives n op) : ∃ k, answer k (.ofIndex n) = .ok (some op) := by
  refine h.forall (P := fun s => ∃ k, s = rule answer k)
    (Q := fun n op => ∃ k, answer k (.ofIndex n) = .ok (some op)) ?_ ⟨i, rfl⟩
  rintro n s op s' ⟨k, rfl⟩ hnext
  simp only [next] at hnext
  cases hanswer : answer k (.ofIndex n) with
  | error => rw [hanswer] at hnext; cases hnext
  | ok given =>
    rw [hanswer] at hnext
    cases hnext
    exact ⟨⟨k, hanswer⟩, k + 1, rfl⟩

variable {w : WriteSource} {objects : List StoredObject} {targets : List ObjectRef} {cursor : Nat}
  {o : StoredObject} {payload : Payload}

theorem Gives.writes (h : (write w).Gives n op) (hw : w.Bounded) :
    ∃ payload, w.Writes (.ofIndex n) op payload := by
  refine h.forall (P := fun s => ∃ w', s = write w' ∧ w.Alike w')
    (Q := fun k op => ∃ payload, w.Writes (.ofIndex k) op payload) ?_ ⟨w, rfl, rfl, rfl, rfl⟩
  rintro k _ op s' ⟨w₁, rfl, hw₁⟩ hop
  simp only [next] at hop
  split at hop
  case h_2 => cases hop
  case h_1 op w₂ hnext =>
    cases hop
    have hsizes : w₁.minSize ≤ w₁.maxSize := by
      rw [hw₁.minSize, hw₁.maxSize]
      exact hw.sizes
    obtain ⟨⟨payload, hwrites⟩, hw₂⟩ := WriteSource.writes_of_next hsizes hnext
    refine ⟨⟨payload, hwrites.kind, ?_, hwrites.payload_eq, hw₁.maxSize ▸ hwrites.size⟩, w₂, rfl,
      hw₂.keyPrefix.trans hw₁.keyPrefix, hw₂.minSize.trans hw₁.minSize,
      hw₂.maxSize.trans hw₁.maxSize⟩
    rw [hwrites.key, WriteSource.key, hw₁.keyPrefix]
    rfl

/-- Whatever sizes it draws, a source of writes names the object after the task. -/
theorem Gives.key (h : (write w).Gives n op) :
    op.kind = .write ∧ op.target.key = w.key (.ofIndex n) := by
  refine h.forall (P := fun s => ∃ w', s = write w' ∧ w'.keyPrefix = w.keyPrefix)
    (Q := fun k op => op.kind = .write ∧ op.target.key = w.key (.ofIndex k)) ?_ ⟨w, rfl, rfl⟩
  rintro k _ op s' ⟨w₁, rfl, hw₁⟩ hop
  simp only [next] at hop
  split at hop
  case h_2 => cases hop
  case h_1 op w₂ hnext =>
    cases hop
    obtain ⟨hkind, hkey, hw₂⟩ := WriteSource.key_of_next hnext
    refine ⟨⟨hkind, ?_⟩, w₂, rfl, hw₂.trans hw₁⟩
    rw [hkey, WriteSource.key, hw₁]
    rfl

/-- The source writes this object for one of its tasks. -/
def Puts (source : Source) (o : StoredObject) : Prop :=
  ∃ n op payload, n + 1 < UInt64.size ∧ source.Gives n op ∧ op.target = o.target ∧
    op.payload = some payload ∧ payload.checksum = .ok o.checksum

theorem Puts.key (h : (write w).Puts o) (hw : w.Bounded) :
    ∃ id, o.target.key = w.key id := by
  obtain ⟨n, op, payload, -, hgives, ht, -⟩ := h
  obtain ⟨payload', hwrites⟩ := hgives.writes hw
  exact ⟨.ofIndex n, ht ▸ hwrites.key⟩

/-- Whatever a source of writes puts into one object has the same content. -/
theorem Puts.checksum_eq (h : (write w).Puts o) (hgives : (write w).Gives n op)
    (hn : n + 1 < UInt64.size) (hw : w.Bounded) (ht : op.target = o.target)
    (hp : op.payload = some payload) : payload.checksum = .ok o.checksum := by
  obtain ⟨m, op', payload', hm, hgives', ht', hp', hsum⟩ := h
  obtain ⟨_, hwrites⟩ := hgives.writes hw
  obtain ⟨_, hwrites'⟩ := hgives'.writes hw
  have hkey : w.key (.ofIndex n) = w.key (.ofIndex m) := by
    rw [← hwrites.key, ← hwrites'.key, ht, ht']
  have hnumber : (TaskId.ofIndex n).seq.toNat = (TaskId.ofIndex m).seq.toNat :=
    congrArg (·.seq.toNat) (WriteSource.key_inj hkey)
  rw [TaskId.toNat_ofIndex hn, TaskId.toNat_ofIndex hm, Nat.add_right_cancel_iff] at hnumber
  subst hnumber
  obtain rfl := hgives.eq hgives'
  rw [hp, Option.some.injEq] at hp'
  rw [hp', hsum]

theorem Gives.verifies (h : (read objects cursor).Gives n op) :
    ∃ o ∈ objects, op = .verify o := by
  refine h.forall (P := fun s => ∃ cursor, s = read objects cursor)
    (Q := fun _ op => ∃ o ∈ objects, op = .verify o) ?_ ⟨cursor, rfl⟩
  rintro k _ op s' ⟨cursor, rfl⟩ hop
  simp only [next] at hop
  split at hop
  case h_1 => cases hop
  case h_2 object hobject =>
    cases hop
    exact ⟨⟨object, List.mem_of_getElem? hobject, rfl⟩, _, rfl⟩

theorem Gives.deletes (h : (delete targets).Gives n op) : ∃ t ∈ targets, op = .delete t := by
  refine h.forall (P := fun s => ∃ rest, s = delete rest ∧ rest ⊆ targets)
    (Q := fun _ op => ∃ t ∈ targets, op = .delete t) ?_ ⟨targets, rfl, List.Subset.refl _⟩
  rintro k _ op s' ⟨rest, rfl, hrest⟩ hop
  cases rest with
  | nil => cases hop
  | cons t rest =>
    cases hop
    exact ⟨⟨t, hrest List.mem_cons_self, rfl⟩, rest, rfl,
      fun t' ht' => hrest (List.mem_cons_of_mem t ht')⟩

end Source

end FaultDrill
