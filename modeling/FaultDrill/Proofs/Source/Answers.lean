import FaultDrill.Proofs.Source

/-! # Pulls for any tasks

Whoever asks a source need not ask for tasks that follow each other, nor stop when it runs dry. An
upload does not look at the task: it gives its parts one after another and nothing after the last of
them, as long as the number of one part more can still be counted.
-/

namespace FaultDrill

namespace Source

/-- What the source answers to a pull for each of the tasks in turn, and the source after them. -/
def answers : List TaskId → Source → Except Crash (List (Option Operation) × Source)
  | [], source => .ok ([], source)
  | id :: ids, source =>
    match source.next id with
    | .error crash => .error crash
    | .ok (answer, source) =>
      (answers ids source).map fun (rest, source) => (answer :: rest, source)

variable {id : TaskId} {ids : List TaskId} {s s' s'' : Source} {answer : Option Operation}
  {given : List (Option Operation)} {crash : Crash}

theorem answers_cons (h : s.next id = .ok (answer, s'))
    (hrest : s'.answers ids = .ok (given, s'')) :
    s.answers (id :: ids) = .ok (answer :: given, s'') := by
  simp only [answers, h, hrest, Except.map]

theorem answers_cons_error (h : s.next id = .ok (answer, s'))
    (hrest : s'.answers ids = .error crash) : s.answers (id :: ids) = .error crash := by
  simp only [answers, h, hrest, Except.map]

theorem answers_error (h : s.next id = .error crash) : s.answers (id :: ids) = .error crash := by
  simp only [answers, h]

theorem next_multipart (m : MultipartSource) (id : TaskId) :
    (multipart m).next id = m.next.map fun (op, state) => (op, .multipart state) := rfl

end Source

/-! ## Uploads -/

namespace MultipartSource

/-- Part `n` of the upload, counted from one. -/
def part (n : Nat) (m : MultipartSource) : Operation :=
  .multipartPart m.target (.ofNat n) ⟨m.partSize, .ofNat (m.seed.toNat + n)⟩

/-- All parts of the upload, in order. -/
def upload (m : MultipartSource) : List Operation :=
  (List.range m.parts.toNat).map fun i => m.part (i + 1)

/-- The upload after so many pulls: the number of the next part stays where it is behind the last
part. -/
def after (pulls : Nat) (m : MultipartSource) : MultipartSource :=
  { m with nextPart := .ofNat (min pulls m.parts.toNat + 1) }

/-- One pull more can count up the number of the next part. -/
def HasNumber (pulls : Nat) (m : MultipartSource) : Prop :=
  m.parts.toNat + 1 < UInt32.size ∨ pulls + 2 < UInt32.size

variable {m : MultipartSource} {n pulls : Nat} {ids : List TaskId}

theorem getElem?_upload (n : Nat) :
    m.upload[n]? = if n < m.parts.toNat then some (m.part (n + 1)) else none := by
  rw [upload, List.getElem?_map]
  split
  case isTrue h => rw [List.getElem?_range h, Option.map_some]
  case isFalse h => rw [List.getElem?_eq_none (by simpa using h), Option.map_none]

/-- An upload that has given nothing stands at its first part. -/
theorem eq_after_zero (h : m.nextPart = 1) : m = m.after 0 := by
  rw [after, Nat.zero_min]
  exact congrArg (fun n => { m with nextPart := n }) h

theorem toNat_nextPart (h : min pulls m.parts.toNat + 1 < UInt32.size) :
    (m.after pulls).nextPart.toNat = min pulls m.parts.toNat + 1 :=
  UInt32.toNat_ofNat_of_lt' h

/-- While parts are left, the number of the next one is one more than the pulls there were. -/
theorem nextPart_of_lt (hlt : pulls < m.parts.toNat) :
    (m.after pulls).nextPart.toNat = pulls + 1 ∧
      ¬ (m.after pulls).parts < (m.after pulls).nextPart := by
  have hparts : m.parts.toNat < UInt32.size := m.parts.toNat_lt
  have htoNat : (m.after pulls).nextPart.toNat = pulls + 1 := by
    rw [toNat_nextPart (by omega), Nat.min_eq_left (Nat.le_of_lt hlt)]
  refine ⟨htoNat, ?_⟩
  rw [UInt32.lt_iff_toNat_lt, htoNat]
  exact Nat.not_lt.2 hlt

theorem next_of_lt (hlt : pulls < m.parts.toNat) (hnumber : pulls + 2 < UInt32.size) :
    (m.after pulls).next = .ok (some (m.part (pulls + 1)), m.after (pulls + 1)) := by
  obtain ⟨htoNat, hthere⟩ := nextPart_of_lt hlt
  have hnext : (m.after pulls).nextPart = .ofNat (pulls + 1) := by
    rw [after, Nat.min_eq_left (Nat.le_of_lt hlt)]
  have hseed : m.seed + (m.after pulls).nextPart.toUInt64 =
      .ofNat (m.seed.toNat + (pulls + 1)) := by
    rw [← UInt64.toNat_inj, UInt64.toNat_add, UInt32.toNat_toUInt64, htoNat, UInt64.toNat_ofNat']
  have hop : Operation.multipartPart m.target (m.after pulls).nextPart
      ⟨m.partSize, m.seed + (m.after pulls).nextPart.toUInt64⟩ = m.part (pulls + 1) := by
    rw [hseed, hnext, part]
  have hafter : { m.after pulls with nextPart := (m.after pulls).nextPart + 1 } =
      m.after (pulls + 1) := by
    rw [hnext, after, after, Nat.min_eq_left hlt, UInt32.ofNat_add (pulls + 1) 1]
    rfl
  rw [← hop, ← hafter]
  exact (if_neg hthere).trans (if_pos (htoNat ▸ hnumber))

/-- The number of the part is counted up although no part comes after it. -/
theorem next_of_full (hlt : pulls < m.parts.toNat) (hfull : UInt32.size ≤ pulls + 2) :
    (m.after pulls).next = .error .addOverflow := by
  obtain ⟨htoNat, hthere⟩ := nextPart_of_lt hlt
  exact (if_neg hthere).trans (if_neg (by omega))

theorem next_of_dry (hdry : m.parts.toNat ≤ pulls) (hnumber : m.parts.toNat + 1 < UInt32.size) :
    (m.after pulls).next = .ok (none, m.after (pulls + 1)) := by
  have htoNat : (m.after pulls).nextPart.toNat = m.parts.toNat + 1 := by
    rw [toNat_nextPart (by omega), Nat.min_eq_right hdry]
  have hgone : (m.after pulls).parts < (m.after pulls).nextPart := by
    rw [UInt32.lt_iff_toNat_lt, htoNat]
    exact Nat.lt_succ_self _
  have hafter : m.after pulls = m.after (pulls + 1) := by
    rw [after, after, Nat.min_eq_right hdry, Nat.min_eq_right (Nat.le_succ_of_le hdry)]
  exact (if_pos hgone).trans (congrArg (fun m => Except.ok (none, m)) hafter)

/-- A pull gives the next part, or nothing once there is none. -/
theorem next_after (h : m.HasNumber pulls) :
    (m.after pulls).next = .ok (m.upload[pulls]?, m.after (pulls + 1)) := by
  have hparts : m.parts.toNat < UInt32.size := m.parts.toNat_lt
  rw [getElem?_upload]
  split
  case isTrue hlt => exact next_of_lt hlt (by rcases h with h | h <;> omega)
  case isFalse hdry => exact next_of_dry (Nat.not_lt.1 hdry) (by rcases h with h | h <;> omega)

/-- So many pulls, whatever the tasks, give what comes next in the upload. -/
theorem answers_after
    (h : m.parts.toNat + 1 < UInt32.size ∨ pulls + ids.length + 1 < UInt32.size) :
    (Source.multipart (m.after pulls)).answers ids =
      .ok ((List.range' pulls ids.length).map (m.upload[·]?),
        .multipart (m.after (pulls + ids.length))) := by
  induction ids generalizing pulls with
  | nil => rfl
  | cons _ ids ih =>
    rw [List.length_cons] at h ⊢
    have hfirst : (m.after pulls).next = .ok (m.upload[pulls]?, m.after (pulls + 1)) :=
      next_after (h.imp id fun h => by omega)
    have hrest := @ih (pulls + 1) (h.imp id fun h => by omega)
    rw [List.range'_succ, List.map_cons, ← Nat.add_assoc, Nat.add_right_comm]
    refine Source.answers_cons ?_ hrest
    rw [Source.next_multipart, hfirst, Except.map]

/-- The pull for the last part that the numbers have room for crashes. -/
theorem answers_full (hfull : m.parts.toNat + 1 = UInt32.size) (hlt : pulls < m.parts.toNat)
    (hids : m.parts.toNat ≤ pulls + ids.length) :
    (Source.multipart (m.after pulls)).answers ids = .error .addOverflow := by
  induction ids generalizing pulls with
  | nil => exact absurd hids (Nat.not_le.2 hlt)
  | cons id ids ih =>
    rw [List.length_cons] at hids
    rcases Nat.lt_or_ge (pulls + 2) UInt32.size with hnumber | hfull'
    · have hnext : (Source.multipart (m.after pulls)).next id =
          .ok (some (m.part (pulls + 1)), .multipart (m.after (pulls + 1))) := by
        rw [Source.next_multipart, next_of_lt hlt hnumber, Except.map]
      exact Source.answers_cons_error hnext (ih (by omega) (by omega))
    · refine Source.answers_error ?_
      rw [Source.next_multipart, next_of_full hlt hfull', Except.map]

theorem answers_of_fresh (hfresh : m.nextPart = 1)
    (h : m.parts.toNat + 1 < UInt32.size ∨ ids.length < m.parts.toNat) :
    (Source.multipart m).answers ids =
      .ok ((List.range ids.length).map (m.upload[·]?), .multipart (m.after ids.length)) := by
  have hparts : m.parts.toNat < UInt32.size := m.parts.toNat_lt
  have hgiven := @answers_after m 0 ids (h.imp id fun h => by omega)
  rwa [← eq_after_zero hfresh, Nat.zero_add, ← List.range_eq_range'] at hgiven

theorem answers_of_fresh_full (hfresh : m.nextPart = 1) (hfull : m.parts.toNat + 1 = UInt32.size)
    (hids : m.parts.toNat ≤ ids.length) :
    (Source.multipart m).answers ids = .error .addOverflow := by
  rw [eq_after_zero hfresh]
  have hpos : 1 < m.parts.toNat + 1 := by
    rw [hfull]
    decide
  exact answers_full hfull (Nat.lt_of_succ_lt_succ hpos) (by rwa [Nat.zero_add])

/-- Pulled for any tasks, an upload gives its parts in order, each with its number and a seed of its
own, and then nothing more. Only an upload with as many parts as there are numbers crashes, and that
with the pull for its last part. -/
theorem upload_law (target : ObjectRef) (partSize : UInt64) (parts : UInt32) (seed : UInt64)
    (ids : List TaskId) :
    (parts.toNat + 1 < UInt32.size ∨ ids.length < parts.toNat →
      ∃ m, (Source.multipart { target, partSize, parts, seed }).answers ids =
        .ok ((List.range ids.length).map fun i =>
          if i < parts.toNat then
            some (.multipartPart target (.ofNat (i + 1))
              ⟨partSize, .ofNat (seed.toNat + (i + 1))⟩)
          else none, .multipart m)) ∧
    (parts.toNat + 1 = UInt32.size → parts.toNat ≤ ids.length →
      (Source.multipart { target, partSize, parts, seed }).answers ids = .error .addOverflow) := by
  constructor
  · intro h
    have hgiven := answers_of_fresh (m := { target, partSize, parts, seed }) rfl h
    simp only [getElem?_upload] at hgiven
    exact ⟨_, hgiven⟩
  · exact answers_of_fresh_full (m := { target, partSize, parts, seed }) rfl

/-- Two parts, pulled for tasks in no order, the first of them with the largest seed and one. -/
theorem upload_law_trial : ∃ m, (Source.multipart {
      target := ⟨"bucket", "key"⟩, partSize := 64, parts := 2,
      seed := 18446744073709551615 }).answers [⟨7⟩, .first, .first] =
    .ok ([some (.multipartPart ⟨"bucket", "key"⟩ 1 ⟨64, 0⟩),
      some (.multipartPart ⟨"bucket", "key"⟩ 2 ⟨64, 1⟩), none], .multipart m) :=
  (upload_law ⟨"bucket", "key"⟩ 64 2 18446744073709551615 [⟨7⟩, .first, .first]).1
    (.inl (by decide))

/-- An upload of the most parts that can be asked for does not give the last of them. -/
theorem upload_overflows : (Source.multipart {
      target := ⟨"bucket", "key"⟩, partSize := 64, parts := 4294967295, seed := 0 }).answers
        ((List.range 4294967295).map .ofIndex) = .error .addOverflow := by
  refine answers_of_fresh_full rfl (by decide) ?_
  rw [List.length_map, List.length_range]
  decide

end MultipartSource

end FaultDrill
