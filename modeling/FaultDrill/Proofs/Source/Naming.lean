import FaultDrill.Proofs.Config.Start
import FaultDrill.Proofs.Decimal
import FaultDrill.Proofs.Source.Answers

/-! # Names with a number

The key of a write is a prefix with the number of the task behind it. The digits can be told from
what stands before them, whatever that is, so that no two tasks come to the same key, nor do two
sources of writes with different prefixes. Any configuration makes a source that gives such writes.
-/

namespace FaultDrill

/-- Read from its end, a text with a dash and a number is the digits up to the dash. -/
theorem run_dashed (text : String) (n : Nat) :
    (text ++ "-" ++ toString n).toList.reverse.takeWhile Char.isDigit =
        (Nat.toDigits 10 n).reverse ∧
      (text ++ "-" ++ toString n).toList.reverse.dropWhile Char.isDigit =
        '-' :: text.toList.reverse := by
  have hchars : (text ++ "-" ++ toString n).toList.reverse =
      (Nat.toDigits 10 n).reverse ++ '-' :: text.toList.reverse := by simp
  rw [hchars]
  exact Decimal.takeWhile_run (fun c hc => Decimal.isDigit_of_mem (List.mem_reverse.1 hc))
    (by simp)

theorem dashed_inj {a b : String} {m n : Nat}
    (h : a ++ "-" ++ toString m = b ++ "-" ++ toString n) : a = b ∧ m = n := by
  obtain ⟨hdigits, hrest⟩ := run_dashed a m
  rw [h] at hdigits hrest
  rw [(run_dashed b n).1, List.reverse_inj] at hdigits
  rw [(run_dashed b n).2, List.cons.injEq, List.reverse_inj, String.toList_inj] at hrest
  refine ⟨hrest.2.symm, ?_⟩
  rw [← Decimal.value_toDigits m, ← hdigits, Decimal.value_toDigits]

/-- Among pulls for some tasks, one for this task gave the operation. -/
def Source.Pulled (source : Source) (id : TaskId) (op : Operation) : Prop :=
  ∃ (ids : List TaskId) (given : List (Option Operation)) (s : Source) (i : Nat),
    source.answers ids = .ok (given, s) ∧ ids[i]? = some id ∧ given[i]? = some (some op)

/-! ## Writes -/

namespace WriteSource

variable {w w' : WriteSource} {id : TaskId} {op : Operation} {ids : List TaskId} {position : Nat}

theorem eq_write_of_next (h : w.next id = some (op, w')) :
    ∃ payload, op = .write op.target payload := by
  simp only [next, Option.bind_eq_bind, Option.bind_eq_some_iff, Option.some.injEq,
    Prod.mk.injEq] at h
  obtain ⟨_, -, _, -, rfl, -⟩ := h
  exact ⟨_, rfl⟩

/-- Whatever the tasks, each of them gets a write of its own. -/
theorem Sound.answers (h : w.Sound) (hc : w.Covers) (ids : List TaskId) (position : Nat) :
    ∃ ops s, (Source.write (w.moveTo position)).answers ids = .ok (ops.map some, s) ∧
      List.Forall₂ (fun id op => w.Suits id op ∧ ∃ payload, op = .write op.target payload)
        ids ops := by
  induction ids generalizing position with
  | nil => exact ⟨[], _, rfl, .nil⟩
  | cons id ids ih =>
    have hsound : (w.moveTo position).Sound := ⟨h.buckets, h.sizes⟩
    obtain ⟨-, op, next, -, hsuits, hnext⟩ | ⟨hnot, -⟩ := hsound.next_cases id
    · obtain ⟨ops, s, hrest, hall⟩ := ih next
      have hfirst : (Source.write (w.moveTo position)).next id =
          .ok (some op, .write (w.moveTo next)) := by
        simp only [Source.next, hnext, moveTo_moveTo]
      exact ⟨op :: ops, s, Source.answers_cons hfirst hrest,
        .cons ⟨suits_moveTo hsuits, eq_write_of_next hnext⟩ hall⟩
    · exact absurd hc hnot

/-- Without the words that its draws need a source of writes does not answer at all. -/
theorem Sound.answers_endless (h : w.Sound) (hc : ¬ w.Covers) (hids : ids ≠ []) :
    (Source.write w).answers ids = .error .endless := by
  obtain ⟨id, ids, rfl⟩ := List.exists_cons_of_ne_nil hids
  obtain ⟨hcovers, -⟩ | ⟨-, hnext⟩ := h.next_cases id
  · exact absurd hcovers hc
  · exact Source.answers_error (by simp only [Source.next, hnext])

end WriteSource

namespace WorkloadConfig

/-- A write for the task into one of the buckets, its key the prefix with the number of the task,
its size within the bounds. A configuration without buckets has one, and one whose bounds are
crossed has the lower of them only. -/
structure Permits (c : WorkloadConfig) (keyPrefix : String) (id : TaskId) (op : Operation) :
    Prop where
  write : ∃ payload, op = .write op.target payload ∧
    c.minObjectSize.toNat ≤ payload.size.toNat ∧
      payload.size.toNat ≤ max c.minObjectSize.toNat c.maxObjectSize.toNat
  bucket : ∃ n < max 1 c.buckets.toNat, op.target.bucket = c.bucketPrefix ++ "-" ++ toString n
  key : op.target.key = keyPrefix ++ "-" ++ toString id.seq.toNat

/-- The stream of the seed has the words that the draws of a bucket and of a size need. -/
def Drawable (c : WorkloadConfig) (seed : UInt64) : Prop :=
  Keystream.Covers seed 0 (max c.buckets 1 - 1) ∧
    Keystream.Covers seed c.minObjectSize (max c.maxObjectSize c.minObjectSize)

variable {c c' : WorkloadConfig} {seed : UInt64} {keyPrefix keyPrefix' : String}
  {w : WriteSource} {id id' : TaskId} {op op' : Operation} {ids : List TaskId}

/-- What two sources of writes give goes to the same object only for the same task and from the same
prefix. -/
theorem Permits.target_inj (h : c.Permits keyPrefix id op) (h' : c'.Permits keyPrefix' id' op')
    (htarget : op.target = op'.target) : keyPrefix = keyPrefix' ∧ id = id' := by
  have hkey := congrArg ObjectRef.key htarget
  rw [h.key, h'.key] at hkey
  obtain ⟨hfront, hseq⟩ := dashed_inj hkey
  exact ⟨hfront, congrArg TaskId.mk (UInt64.toNat_inj.1 hseq)⟩

theorem bucketNames_ofConfig (h : WriteSource.ofConfig c seed = .ok w) :
    w.bucketNames = (List.range (max 1 c.buckets.toNat)).map
      fun n => c.bucketPrefix ++ "-" ++ toString n := by
  rw [WriteSource.eq_of_ofConfig h, WriteSource.bucketNames, UInt64.toNat_max, Nat.max_comm]
  rfl

theorem permits_of_suits (h : WriteSource.ofConfig c seed = .ok w)
    (hop : (w.withKeyPrefix keyPrefix).Suits id op)
    (hwrite : ∃ payload, op = .write op.target payload) : c.Permits keyPrefix id op := by
  obtain ⟨⟨payload, hwrites, hleast⟩, hbucket⟩ := hop
  obtain ⟨payload', hop⟩ := hwrite
  have hpayload : payload' = payload := by
    have hsame := hwrites.payload_eq
    rw [hop] at hsame
    exact Option.some.inj hsame
  have hmost := hwrites.size
  have hnames : (w.withKeyPrefix keyPrefix).bucketNames = w.bucketNames := rfl
  rw [hnames, bucketNames_ofConfig h] at hbucket
  obtain ⟨n, hn, hname⟩ := List.mem_map.1 hbucket
  rw [WriteSource.eq_of_ofConfig h] at hleast hmost
  rw [UInt64.le_iff_toNat_le] at hleast hmost
  refine ⟨⟨payload, hpayload ▸ hop, hleast, ?_⟩, ⟨n, List.mem_range.1 hn, hname.symm⟩,
    hwrites.key⟩
  rwa [Nat.max_comm, ← UInt64.toNat_max]

theorem sound_withKeyPrefix (h : WriteSource.ofConfig c seed = .ok w) (keyPrefix : String) :
    (w.withKeyPrefix keyPrefix).Sound :=
  ⟨(WriteSource.sound_ofConfig h).buckets, (WriteSource.sound_ofConfig h).sizes⟩

theorem covers_iff_drawable (h : WriteSource.ofConfig c seed = .ok w) :
    (w.withKeyPrefix keyPrefix).Covers ↔ c.Drawable seed := by
  rw [WriteSource.eq_of_ofConfig h]
  rfl

theorem answers_of_drawable (h : WriteSource.ofConfig c seed = .ok w) (hdraw : c.Drawable seed)
    (keyPrefix : String) (ids : List TaskId) :
    ∃ ops s, (Source.write (w.withKeyPrefix keyPrefix)).answers ids = .ok (ops.map some, s) ∧
      List.Forall₂ (c.Permits keyPrefix) ids ops := by
  obtain ⟨ops, s, hops, hall⟩ := (sound_withKeyPrefix h keyPrefix).answers
    ((covers_iff_drawable h).2 hdraw) ids w.random.position
  exact ⟨ops, s, hops, hall.imp fun _ _ hop => permits_of_suits h hop.1 hop.2⟩

/-- Whatever is pulled for a task from the writes of a configuration is permitted. -/
theorem permits_of_pulled (h : WriteSource.ofConfig c seed = .ok w)
    (hop : (Source.write (w.withKeyPrefix keyPrefix)).Pulled id op) :
    c.Permits keyPrefix id op := by
  obtain ⟨ids, given, s, i, hgiven, hid, hop⟩ := hop
  by_cases hdraw : c.Drawable seed
  · obtain ⟨ops, s', hops, hall⟩ := answers_of_drawable h hdraw keyPrefix ids
    cases hgiven.symm.trans hops
    rw [List.getElem?_map] at hop
    obtain ⟨op', hop, hsame⟩ := Option.map_eq_some_iff.1 hop
    cases hsame
    obtain ⟨id', hid', hpermits⟩ := forall₂_getElem? hall hop
    rwa [Option.some.inj (hid.symm.trans hid')]
  · have hids : ids ≠ [] := List.ne_nil_of_mem (List.mem_of_getElem? hid)
    have hendless := (sound_withKeyPrefix h keyPrefix).answers_endless
      (mt (covers_iff_drawable h).1 hdraw) hids
    cases hgiven.symm.trans hendless

/-- Any configuration with memory for the names of its buckets makes a source of writes. Whatever
tasks it is asked for, each pull gives a write that the configuration permits, unless the stream of
the seed lacks a word that ends the draws; then no pull returns. No two tasks, and no two sources
with different prefixes, come to the same object. -/
theorem write_law (c : WorkloadConfig) (seed : UInt64) (keyPrefix : String) :
    ((∃ w, WriteSource.ofConfig c seed = .ok w) ↔ c.buckets.toNat < WriteSource.bucketLimit) ∧
    (∀ w, WriteSource.ofConfig c seed = .ok w →
      w.bucketNames = (List.range (max 1 c.buckets.toNat)).map
        (fun n => c.bucketPrefix ++ "-" ++ toString n) ∧
      (∀ ids, c.Drawable seed → ∃ ops s,
        (Source.write (w.withKeyPrefix keyPrefix)).answers ids = .ok (ops.map some, s) ∧
          List.Forall₂ (c.Permits keyPrefix) ids ops) ∧
      (∀ ids, ids ≠ [] → ¬ c.Drawable seed →
        (Source.write (w.withKeyPrefix keyPrefix)).answers ids = .error .endless) ∧
      ∀ (c' : WorkloadConfig) (seed' : UInt64) (keyPrefix' : String) (w' : WriteSource),
        WriteSource.ofConfig c' seed' = .ok w' → ∀ id id' op op',
          (Source.write (w.withKeyPrefix keyPrefix)).Pulled id op →
          (Source.write (w'.withKeyPrefix keyPrefix')).Pulled id' op' →
          op.target = op'.target → keyPrefix = keyPrefix' ∧ id = id') := by
  refine ⟨?_, fun w h => ⟨bucketNames_ofConfig h, fun ids hdraw => ?_, fun ids hids hdraw => ?_,
    fun c' seed' keyPrefix' w' h' id id' op op' hop hop' => ?_⟩⟩
  · unfold WriteSource.ofConfig
    split
    case isTrue hroom => exact iff_of_true ⟨_, rfl⟩ hroom
    case isFalse hroom => exact iff_of_false (fun ⟨_, h⟩ => nomatch h) hroom
  · exact answers_of_drawable h hdraw keyPrefix ids
  · exact (sound_withKeyPrefix h keyPrefix).answers_endless
      (mt (covers_iff_drawable h).1 hdraw) hids
  · exact (permits_of_pulled h hop).target_inj (permits_of_pulled h' hop')

/-- No buckets, and every size there is. -/
def trialRange : WorkloadConfig :=
  { buckets := 0, minObjectSize := 0, maxObjectSize := 18446744073709551615 }

/-- Two tasks are asked for, the later one first, and get objects of their own. -/
theorem write_law_trial : ∃ w op op', WriteSource.ofConfig trialRange 7 = .ok w ∧
    trialRange.Drawable 7 ∧ trialRange.Permits "put" ⟨5⟩ op ∧
    trialRange.Permits "put" .first op' ∧
    (Source.write (w.withKeyPrefix "put")).Pulled ⟨5⟩ op ∧
    (Source.write (w.withKeyPrefix "put")).Pulled .first op' ∧ op.target ≠ op'.target := by
  have hdraw : trialRange.Drawable 7 := ⟨.inr ⟨1, by decide +kernel⟩, .inl (by decide)⟩
  obtain ⟨hmade, hlaw⟩ := write_law trialRange 7 "put"
  obtain ⟨w, hw⟩ := hmade.2 (by decide)
  obtain ⟨-, hpulls, -, hinj⟩ := hlaw w hw
  obtain ⟨ops, s, hops, hall⟩ := hpulls [⟨5⟩, .first] hdraw
  cases hall with
  | cons hop hall =>
    cases hall with
    | cons hop' hall =>
      cases hall
      have hfirst : (Source.write (w.withKeyPrefix "put")).Pulled ⟨5⟩ _ :=
        ⟨_, _, s, 0, hops, rfl, rfl⟩
      have hsecond : (Source.write (w.withKeyPrefix "put")).Pulled .first _ :=
        ⟨_, _, s, 1, hops, rfl, rfl⟩
      refine ⟨w, _, _, hw, hdraw, hop, hop', hfirst, hsecond, fun htarget => ?_⟩
      have hsame := (hinj trialRange 7 "put" w hw ⟨5⟩ .first _ _ hfirst hsecond htarget).2
      exact absurd hsame (by decide)

end WorkloadConfig

end FaultDrill
