import FaultDrill.Proofs.Source.Streams

/-! # What a valid configuration can be used for

A valid configuration starts its pool as long as its gate can hold the permits. Its writes never run
dry: the keystream repeats itself, so that a draw comes to a fair word from wherever it begins, if
the stream has one. Its times are all within the range of durations.
-/

namespace FaultDrill

namespace Keystream

variable {seed low high x : UInt64} {s s' : Keystream} {width tries position i j : Nat}

/-! ## Draws -/

/-- A draw from a range of this width ends with the word. -/
def IsFair (width : Nat) (word : UInt64) : Prop := word.toNat * width % UInt64.size ≤ zone width

instance : Decidable (IsFair width (wordAt seed i)) :=
  inferInstanceAs (Decidable (_ ≤ _))

/-- The stream of the seed has a word with which a draw from the range ends. -/
def Covers (seed low high : UInt64) : Prop :=
  (high - low + 1).toNat = 0 ∨ ∃ i, IsFair (high - low + 1).toNat (wordAt seed i)

/-- The stream repeats itself, because the blocks are counted in 64 bits. -/
theorem wordAt_add_period : wordAt seed (i + period) = wordAt seed i := by
  have hblock : (i + period) / 8 = i / 8 + UInt64.size := by
    unfold period
    omega
  have hword : (i + period) % 8 = i % 8 := by
    unfold period
    omega
  have hcounter : UInt64.ofNat (i / 8 + UInt64.size) = UInt64.ofNat (i / 8) := by
    rw [← UInt64.toNat_inj, UInt64.toNat_ofNat', UInt64.toNat_ofNat']
    exact Nat.add_mod_right _ _
  simp only [wordAt, hblock, hword, hcounter]

theorem wordAt_mod_period : wordAt seed (i % period) = wordAt seed i := by
  induction i using Nat.strongRecOn with
  | _ i ih =>
    rcases Nat.lt_or_ge i period with hlt | hge
    · rw [Nat.mod_eq_of_lt hlt]
    · obtain ⟨j, rfl⟩ := Nat.exists_eq_add_of_le' hge
      rw [Nat.add_mod_right, wordAt_add_period]
      exact ih j (Nat.lt_add_of_pos_right (by decide))

/-- From wherever one looks, a fair word of the stream comes within one period. -/
theorem exists_fair_within (h : ∃ i, IsFair width (wordAt seed i)) (position : Nat) :
    ∃ i < period, IsFair width (wordAt seed (position + i)) := by
  obtain ⟨i, hi⟩ := h
  have hpos : 0 < period := by decide
  have hrest : position % period < period := Nat.mod_lt position hpos
  refine ⟨(i + (period - position % period)) % period, Nat.mod_lt _ hpos, ?_⟩
  have hplace : (position + (i + (period - position % period)) % period) % period = i % period := by
    have hround := Nat.mod_add_div position period
    rw [Nat.add_mod_mod, show position + (i + (period - position % period))
      = i + period * (position / period + 1) by rw [Nat.mul_add_one]; omega,
      Nat.add_mul_mod_self_left]
  rwa [← wordAt_mod_period, hplace, wordAt_mod_period]

/-- The search ends with the first fair word, and fails if none of its tries is fair. -/
theorem findFair_cases (width tries position : Nat) (seed : UInt64) :
    (∃ n, ∃ i < tries, IsFair width (wordAt seed (position + i)) ∧
      findFair width tries ⟨seed, position⟩ = some (n, ⟨seed, position + i + 1⟩)) ∨
    (∀ i < tries, ¬ IsFair width (wordAt seed (position + i))) ∧
      findFair width tries ⟨seed, position⟩ = none := by
  induction tries generalizing position with
  | zero => exact .inr ⟨fun _ h => absurd h (Nat.not_lt_zero _), rfl⟩
  | succ tries ih =>
    by_cases hfair : IsFair width (wordAt seed position)
    · exact .inl ⟨_, 0, Nat.succ_pos tries, hfair, if_pos hfair⟩
    · have hstep : findFair width (tries + 1) ⟨seed, position⟩ =
          findFair width tries ⟨seed, position + 1⟩ := if_neg hfair
      rw [hstep]
      refine (ih (position + 1)).imp ?_ ?_
      · rintro ⟨n, i, hi, hword, hfound⟩
        rw [Nat.add_right_comm, Nat.add_assoc] at hword
        rw [Nat.add_right_comm position 1 i] at hfound
        exact ⟨n, i + 1, Nat.succ_lt_succ hi, hword, hfound⟩
      · rintro ⟨hnone, hfailed⟩
        refine ⟨fun i hi => ?_, hfailed⟩
        cases i with
        | zero => exact hfair
        | succ i =>
          have := hnone i (Nat.lt_of_succ_lt_succ hi)
          rwa [Nat.add_right_comm, Nat.add_assoc] at this

/-- Only the range of all words has a width that wraps to zero. -/
theorem eq_zero_of_width (hle : low ≤ high) (h : (high - low + 1).toNat = 0) : low.toNat = 0 := by
  have hlow : low.toNat ≤ high.toNat := hle
  have hhigh : high.toNat < 18446744073709551616 := high.toNat_lt
  rw [UInt64.toNat_add, UInt64.toNat_sub_of_le _ _ hle, show (1 : UInt64).toNat = 1 from rfl] at h
  omega

theorem least_of_drawBetween (hle : low ≤ high) (h : drawBetween low high s = some (x, s')) :
    low ≤ x := by
  have hlow : low.toNat ≤ high.toNat := hle
  have hhigh : high.toNat < UInt64.size := high.toNat_lt
  rw [UInt64.le_iff_toNat_le]
  simp only [drawBetween] at h
  split at h
  case isTrue hzero =>
    have := eq_zero_of_width hle hzero
    omega
  case isFalse hne =>
    obtain ⟨⟨offset, s₁⟩, hfair, hx⟩ := Option.map_eq_some_iff.1 h
    cases hx
    have hoffset := findFair_lt (Nat.pos_of_ne_zero hne) hfair
    have hwidth := (toNat_width hle).resolve_left fun hall => hne hall.1
    rw [UInt64.toNat_add, UInt64.toNat_ofNat_of_lt' (by omega), Nat.mod_eq_of_lt]
    · exact Nat.le_add_right _ _
    · exact Nat.lt_of_le_of_lt (by omega) hhigh

/-- A draw ends wherever it begins in the stream, or nowhere. -/
theorem drawBetween_cases (hle : low ≤ high) (s : Keystream) :
    (Covers s.seed low high ∧ ∃ x position, s.position < position ∧ low ≤ x ∧ x ≤ high ∧
      drawBetween low high s = some (x, ⟨s.seed, position⟩)) ∨
    (¬ Covers s.seed low high ∧ drawBetween low high s = none) := by
  by_cases hzero : (high - low + 1).toNat = 0
  · have hdraw : drawBetween low high s = some s.next := if_pos hzero
    exact .inl ⟨.inl hzero, _, _, Nat.lt_succ_self _, least_of_drawBetween hle hdraw,
      le_of_drawBetween hle hdraw, hdraw⟩
  · have hdraw : drawBetween low high s =
        (findFair (high - low + 1).toNat period s).map fun draw =>
          (low + UInt64.ofNat draw.1, draw.2) := if_neg hzero
    rcases findFair_cases (high - low + 1).toNat period s.position s.seed with
      ⟨n, i, -, hfair, hfound⟩ | ⟨hnone, hfailed⟩
    · rw [show findFair _ _ s = _ from hfound, Option.map_some] at hdraw
      exact .inl ⟨.inr ⟨_, hfair⟩, _, _, by omega, least_of_drawBetween hle hdraw,
        le_of_drawBetween hle hdraw, hdraw⟩
    · rw [show findFair _ _ s = _ from hfailed, Option.map_none] at hdraw
      refine .inr ⟨?_, hdraw⟩
      rintro (h | h)
      · exact hzero h
      · obtain ⟨i, hi, hfair⟩ := exists_fair_within h s.position
        exact hnone i hi hfair

end Keystream

/-! ## Writes -/

namespace WriteSource

variable {w w' : WriteSource} {id : TaskId} {op : Operation}

/-- The stream of the source has the words that its draws need. -/
def Covers (w : WriteSource) : Prop :=
  Keystream.Covers w.random.seed 0 (w.buckets - 1) ∧
    Keystream.Covers w.random.seed w.minSize w.maxSize

/-- The source with its next draw at the place in its stream. -/
def moveTo (position : Nat) (w : WriteSource) : WriteSource :=
  { w with random := ⟨w.random.seed, position⟩ }

@[simp] theorem moveTo_moveTo (m n : Nat) (w : WriteSource) :
    (w.moveTo m).moveTo n = w.moveTo n := rfl

@[simp] theorem covers_moveTo (n : Nat) : (w.moveTo n).Covers ↔ w.Covers := Iff.rfl

/-- A write for the task into one of the buckets, of a size within the bounds. -/
structure Suits (w : WriteSource) (id : TaskId) (op : Operation) : Prop where
  writes : ∃ payload, w.Writes id op payload ∧ w.minSize ≤ payload.size
  bucket : op.target.bucket ∈ w.bucketNames

theorem suits_moveTo {n : Nat} (h : (w.moveTo n).Suits id op) : w.Suits id op := by
  obtain ⟨⟨payload, hwrites, hsize⟩, hbucket⟩ := h
  exact ⟨⟨payload, ⟨hwrites.kind, hwrites.key, hwrites.payload_eq, hwrites.size⟩, hsize⟩, hbucket⟩

/-- The source can be asked: there is a bucket, and the sizes are in order. -/
structure Sound (w : WriteSource) : Prop where
  buckets : w.buckets ≠ 0
  sizes : w.minSize ≤ w.maxSize

/-- A pull for any task at any place of the stream gives a write, unless the stream lacks a word
that is fair; then the pull does not return. -/
theorem Sound.next_cases (h : w.Sound) (id : TaskId) :
    (w.Covers ∧ ∃ op position, w.random.position < position ∧ w.Suits id op ∧
      w.next id = some (op, w.moveTo position)) ∨ (¬ w.Covers ∧ w.next id = none) := by
  have hfrom : 0 ≤ w.buckets - 1 := UInt64.zero_le
  rcases Keystream.drawBetween_cases hfrom w.random with
    ⟨hbuckets, bucket, m, hm, -, hbucket, hdraw⟩ | ⟨hbuckets, hdraw⟩
  · rcases Keystream.drawBetween_cases h.sizes ⟨w.random.seed, m⟩ with
      ⟨hsizes, size, n, hn, hleast, hmost, hdraw'⟩ | ⟨hsizes, hdraw'⟩
    · have hnext : w.next id = some (.write ⟨w.bucketName bucket.toNat, w.key id⟩
          ⟨size, Keystream.wordAt w.random.seed n⟩, w.moveTo (n + 1)) := by
        simp only [next, hdraw, hdraw', Option.bind_eq_bind, Option.bind_some]
        rfl
      have hlt : bucket.toNat < w.buckets.toNat := by
        have hpos : 1 ≤ w.buckets.toNat := UInt64.pos_iff_ne_zero.2 h.buckets
        have hle : bucket.toNat ≤ (w.buckets - 1).toNat := hbucket
        rw [UInt64.toNat_sub_of_le _ _ hpos, show (1 : UInt64).toNat = 1 from rfl] at hle
        omega
      exact .inl ⟨⟨hbuckets, hsizes⟩, _, n + 1, Nat.lt_succ_of_lt (Nat.lt_trans hm hn),
        ⟨⟨_, ⟨rfl, rfl, rfl, hmost⟩, hleast⟩, List.mem_map_of_mem (List.mem_range.2 hlt)⟩, hnext⟩
    · exact .inr ⟨fun hc => hsizes hc.2, by simp [next, hdraw, hdraw']⟩
  · exact .inr ⟨fun hc => hbuckets hc.1, by simp [next, hdraw]⟩

/-- However many tasks ask, each of them gets a write of its own. -/
theorem Sound.gives (h : w.Sound) (hc : w.Covers) (count : Nat) (k position : Nat) :
    ∃ ops s, Source.GivesFrom k (.write (w.moveTo position)) ops s ∧ ops.length = count ∧
      ∀ i op, ops[i]? = some op → w.Suits (.ofIndex (k + i)) op := by
  induction count generalizing k position with
  | zero => exact ⟨[], _, .nil, rfl, fun _ _ h => nomatch h⟩
  | succ count ih =>
    have hsound : (w.moveTo position).Sound := ⟨h.buckets, h.sizes⟩
    obtain ⟨-, op, next, -, hsuits, hnext⟩ | ⟨hnot, -⟩ := hsound.next_cases (.ofIndex k)
    · obtain ⟨ops, s, hgives, hlength, hall⟩ := ih (k + 1) next
      have hfirst : (Source.write (w.moveTo position)).next (.ofIndex k) =
          .ok (some op, .write (w.moveTo next)) := by
        simp only [Source.next, hnext, moveTo_moveTo]
      refine ⟨op :: ops, s, .cons hfirst hgives, congrArg (· + 1) hlength, fun i op' hop => ?_⟩
      cases i with
      | zero =>
        cases hop
        exact suits_moveTo hsuits
      | succ i =>
        have := hall i op' hop
        rwa [Nat.add_assoc, Nat.add_comm 1 i] at this
    · exact absurd hc hnot

end WriteSource

/-! ## Times -/

namespace Duration

theorem ofNanos?_millis (millis : UInt64) :
    ofNanos? (millis.toNat * 1000000) = some (ofMillis millis) :=
  dif_pos (ofMillis millis).bounded

theorem ofNanos?_secs (secs : UInt64) :
    ofNanos? (secs.toNat * 1000000000) = some (ofSecs secs) :=
  dif_pos (ofSecs secs).bounded

end Duration

/-! ## Pools -/

namespace Pool

variable {config : PoolConfig}

/-- A pool with a worker starts unless it has more permits than a gate holds, or more workers than
a list has room for. -/
theorem start_cases (name : String) (hworkers : config.workers ≠ 0) :
    (Crash.permitLimit < config.queueCapacity.toNat ∧
      start name config = .error (.crash .permitOverflow)) ∨
    (config.queueCapacity.toNat ≤ Crash.permitLimit ∧ workerLimit ≤ config.workers.toNat ∧
      start name config = .error (.crash .capacityOverflow)) ∨
    (config.queueCapacity.toNat ≤ Crash.permitLimit ∧ config.workers.toNat < workerLimit ∧
      ∃ p, start name config = .ok p) := by
  unfold start
  rw [if_neg hworkers]
  rcases Nat.lt_or_ge Crash.permitLimit config.queueCapacity.toNat with hover | hfits
  · exact .inl ⟨hover, if_pos hover⟩
  · rw [if_neg (Nat.not_lt.2 hfits)]
    rcases Nat.lt_or_ge config.workers.toNat workerLimit with hroom | hfull
    · exact .inr (.inr ⟨hfits, hroom, _, if_neg (Nat.not_le.2 hroom)⟩)
    · exact .inr (.inl ⟨hfits, hfull, if_pos hfull⟩)

end Pool

/-! ## Configurations -/

namespace Config

variable {c : Config}

theorem validate_eq_ok_iff : c.validate = .ok () ↔
    c.pool.workers ≠ 0 ∧ c.workload.buckets ≠ 0 ∧
      c.workload.minObjectSize ≤ c.workload.maxObjectSize := by
  unfold validate
  split
  case isTrue h => simp [h]
  case isFalse hworkers =>
    split
    case isTrue h => simp [h]
    case isFalse hbuckets =>
      split
      case isTrue h => simp [UInt64.not_le.2 h]
      case isFalse h => simp [hworkers, hbuckets, UInt64.not_lt.1 h]

end Config

/-- A write into one of the buckets, of a size within the bounds. -/
structure WorkloadConfig.Allows (c : WorkloadConfig) (op : Operation) : Prop where
  kind : op.kind = .write
  bucket : ∃ n < c.buckets.toNat, op.target.bucket = c.bucketPrefix ++ "-" ++ toString n
  size : ∃ payload, op.payload = some payload ∧ c.minObjectSize ≤ payload.size ∧
    payload.size ≤ c.maxObjectSize

namespace WriteSource

variable {c : WorkloadConfig} {w : WriteSource} {id : TaskId} {op : Operation} {seed : UInt64}

theorem buckets_ofConfig (hbuckets : c.buckets ≠ 0) : max c.buckets 1 = c.buckets :=
  max_eq_of_le (UInt64.pos_iff_ne_zero.2 hbuckets)

theorem sound_ofConfig (h : ofConfig c seed = .ok w) : w.Sound := by
  rw [eq_of_ofConfig h]
  constructor
  · intro hzero
    have htoNat := congrArg UInt64.toNat hzero
    rw [UInt64.toNat_max] at htoNat
    exact absurd htoNat (Nat.ne_of_gt (Nat.le_max_right _ _))
  · rw [UInt64.le_iff_toNat_le, UInt64.toNat_max]
    exact Nat.le_max_right _ _

/-- What suits the source of a configuration is allowed by it. -/
theorem Suits.allows (hbuckets : c.buckets ≠ 0) (hsizes : c.minObjectSize ≤ c.maxObjectSize)
    (h : ofConfig c seed = .ok w) (hop : w.Suits id op) : c.Allows op := by
  obtain ⟨⟨payload, hwrites, hleast⟩, hbucket⟩ := hop
  obtain ⟨n, hn, hname⟩ := List.mem_map.1 hbucket
  rw [ofConfig_eq hsizes h] at hwrites hleast hn hname
  rw [List.mem_range, buckets_ofConfig hbuckets] at hn
  exact ⟨hwrites.kind, ⟨n, hn, hname.symm⟩, payload, hwrites.payload_eq, hleast, hwrites.size⟩

theorem covers_ofConfig (hbuckets : c.buckets ≠ 0) (hsizes : c.minObjectSize ≤ c.maxObjectSize)
    (h : ofConfig c seed = .ok w) : w.Covers ↔
      Keystream.Covers seed 0 (c.buckets - 1) ∧
        Keystream.Covers seed c.minObjectSize c.maxObjectSize := by
  rw [ofConfig_eq hsizes h, Covers, buckets_ofConfig hbuckets]
  rfl

end WriteSource

namespace Config

variable {c : Config} {seed : UInt64}

/-- The stream of the seed has the words that the draws of a bucket and of a size need. -/
def Drawable (c : Config) (seed : UInt64) : Prop :=
  Keystream.Covers seed 0 (c.workload.buckets - 1) ∧
    Keystream.Covers seed c.workload.minObjectSize c.workload.maxObjectSize

/-- The writes of the configuration from a seed: one for each task that asks, wherever in the
stream it is drawn, and none is missing after however many. Only a stream without a fair word
leaves a pull without an answer. -/
def Writes (c : Config) (seed : UInt64) (w : WriteSource) : Prop :=
  (∀ position id,
    (c.Drawable seed → ∃ op position', position < position' ∧ c.workload.Allows op ∧
      op.target.key = w.key id ∧
      (Source.write (w.moveTo position)).next id = .ok (some op, .write (w.moveTo position'))) ∧
    (¬ c.Drawable seed → (Source.write (w.moveTo position)).next id = .error .endless)) ∧
  (c.Drawable seed → ∀ count, ∃ ops s, Source.GivesFrom 0 (.write w) ops s ∧ ops.length = count ∧
    ∀ op ∈ ops, c.workload.Allows op)

theorem writes_of_validate (hc : c.validate = .ok ())
    (hroom : c.workload.buckets.toNat < WriteSource.bucketLimit) :
    ∃ w, WriteSource.ofConfig c.workload seed = .ok w ∧ c.Writes seed w := by
  obtain ⟨-, hbuckets, hsizes⟩ := validate_eq_ok_iff.1 hc
  obtain ⟨w, hw⟩ : ∃ w, WriteSource.ofConfig c.workload seed = .ok w := ⟨_, if_pos hroom⟩
  have hsound := WriteSource.sound_ofConfig hw
  have hcovers : w.Covers ↔ c.Drawable seed := WriteSource.covers_ofConfig hbuckets hsizes hw
  refine ⟨w, hw, fun position id => ?_, fun hdraw count => ?_⟩
  · have hmoved : (w.moveTo position).Sound := ⟨hsound.buckets, hsound.sizes⟩
    rcases hmoved.next_cases id with ⟨hc, op, position', hlt, hsuits, hnext⟩ | ⟨hc, hnext⟩
    · have hsuits := WriteSource.suits_moveTo hsuits
      obtain ⟨payload, hwrites, -⟩ := hsuits.writes
      exact ⟨fun _ => ⟨op, position', hlt, hsuits.allows hbuckets hsizes hw, hwrites.key,
          by simp only [Source.next, hnext, WriteSource.moveTo_moveTo]⟩,
        fun hnot => absurd (hcovers.1 hc) hnot⟩
    · exact ⟨fun hdraw => absurd (hcovers.2 hdraw) hc, fun _ => by simp only [Source.next, hnext]⟩
  · obtain ⟨ops, s, hgives, hlength, hall⟩ :=
      hsound.gives (hcovers.2 hdraw) count 0 w.random.position
    refine ⟨ops, s, hgives, hlength, fun op hop => ?_⟩
    obtain ⟨i, hi⟩ := List.getElem?_of_mem hop
    exact (hall i op hi).allows hbuckets hsizes hw

/-- The times of the configuration are durations, each as long as it says. -/
structure Timely (c : Config) : Prop where
  pace : c.workload.paceMs ≠ 0 →
    c.workload.pace = Duration.ofNanos? (c.workload.paceMs.toNat * 1000000)
  timeout : some c.report.timeout = Duration.ofNanos? (c.report.timeoutSecs.toNat * 1000000000)
  grace : some (Policy.ofConfig c.policy).grace =
    Duration.ofNanos? (c.policy.graceMs.toNat * 1000000)
  fault : ∀ millis ∈ [c.fault.startAfterMs, c.fault.transitionMs],
    some (Duration.ofMillis millis) = Duration.ofNanos? (millis.toNat * 1000000)

theorem timely (c : Config) : c.Timely where
  pace h := by rw [WorkloadConfig.pace, if_neg h, Duration.ofNanos?_millis]
  timeout := (Duration.ofNanos?_secs _).symm
  grace := (Duration.ofNanos?_millis _).symm
  fault millis _ := (Duration.ofNanos?_millis millis).symm

/-- A valid configuration can be used but for one number: its pool starts, with the memory for its
workers, if and only if its gate can hold the permits, and crashes if it cannot. With the memory
for the buckets it has a write for every task. All its times are in range. -/
theorem use_law (hc : c.validate = .ok ()) (name : String) (seed : UInt64) :
    (c.pool.workers.toNat < Pool.workerLimit →
      ((∃ p, Pool.start name c.pool = .ok p) ↔
        c.pool.queueCapacity.toNat ≤ Crash.permitLimit)) ∧
    (Crash.permitLimit < c.pool.queueCapacity.toNat →
      Pool.start name c.pool = .error (.crash .permitOverflow)) ∧
    (c.workload.buckets.toNat < WriteSource.bucketLimit →
      ∃ w, WriteSource.ofConfig c.workload seed = .ok w ∧ c.Writes seed w) ∧
    c.Timely := by
  have hcases := Pool.start_cases name (validate_eq_ok_iff.1 hc).1
  refine ⟨fun hroom => ?_, fun hover => ?_, writes_of_validate hc, c.timely⟩
  · rcases hcases with ⟨hover, hcrash⟩ | ⟨-, hfull, -⟩ | ⟨hfits, -, hstarts⟩
    · exact iff_of_false (by simp [hcrash]) (Nat.not_le.2 hover)
    · exact absurd hroom (Nat.not_lt.2 hfull)
    · exact iff_of_true hstarts hfits
  · rcases hcases with ⟨-, hcrash⟩ | ⟨hfits, -⟩ | ⟨hfits, -⟩
    · exact hcrash
    · exact absurd hover (Nat.not_lt.2 hfits)
    · exact absurd hover (Nat.not_lt.2 hfits)

/-- With the defaults, a pool starts and a stream has its writes. -/
theorem use_law_defaults : ({} : Config).validate = .ok () ∧
    (∃ p, Pool.start "put" ({} : Config).pool = .ok p) ∧ ({} : Config).Drawable 7 ∧
    (∃ w, WriteSource.ofConfig ({} : Config).workload 7 = .ok w ∧ ({} : Config).Writes 7 w) ∧
    ({} : Config).Timely := by
  have hvalid : ({} : Config).validate = .ok () := by decide
  obtain ⟨hstarts, -, hwrites, htimely⟩ := use_law hvalid "put" 7
  exact ⟨hvalid, (hstarts (by decide)).2 (by decide),
    ⟨.inr ⟨0, by decide +kernel⟩, .inr ⟨0, by decide +kernel⟩⟩, hwrites (by decide), htimely⟩

/-- A configuration with one permit more than a gate holds. -/
def trialVast : Config := { pool := { workers := 1, queueCapacity := 2305843009213693952 } }

/-- It is valid, and its pool crashes at its start. -/
theorem vast_queue_crashes : trialVast.validate = .ok () ∧
    Pool.start "put" trialVast.pool = .error (.crash .permitOverflow) := ⟨by decide, rfl⟩

end Config

end FaultDrill
