import FaultDrill.Proofs.Aggregate.Partition
import FaultDrill.Proofs.Policy

/-! # Looser policies and wider windows

A failure that is excused stays excused when the window opens earlier or closes later, when the
grace grows and when more kinds are tolerated. The reason may change: what began after the close
and was tolerated there lies inside the window once the close has moved past it.
-/

namespace FaultDrill

variable {p p' p'' : Policy} {r : OperationResult} {b b' : WindowBounds} {grace : Duration}
  {kind : FailureKind} {k k' : OperationKind}

/-- A window with these edges. -/
def WindowBounds.window (b : WindowBounds) : Window where
  phase := if b.closedAt.isSome then .postFault else .open
  openedAt := some b.openedAt
  closedAt := b.closedAt

/-- The second edges lie around the first ones; a window that is still open has no end. -/
structure WindowBounds.Within (b b' : WindowBounds) : Prop where
  opened : b'.openedAt ≤ b.openedAt
  closed : ∀ closed', b'.closedAt = some closed' →
    ∃ closed, b.closedAt = some closed ∧ closed ≤ closed'

structure Policy.LooserThan (p' p : Policy) : Prop where
  grace : p.grace ≤ p'.grace
  tolerated : p.toleratedAfterClose ⊆ p'.toleratedAfterClose

/-! ## How a policy becomes looser -/

namespace Policy

theorem mem_tolerateAfterClose :
    k' ∈ (p.tolerateAfterClose k).toleratedAfterClose ↔ k' ∈ p.toleratedAfterClose ∨ k' = k := by
  unfold tolerateAfterClose
  split
  case isTrue h =>
    constructor
    · exact .inl
    · rintro (hk | rfl)
      · exact hk
      · exact List.contains_iff_mem.1 h
  case isFalse => simp

theorem LooserThan.trans (h' : p''.LooserThan p') (h : p'.LooserThan p) : p''.LooserThan p where
  grace := Nat.le_trans h.grace h'.grace
  tolerated := List.Subset.trans h.tolerated h'.tolerated

theorem looserThan_withGrace (h : p.grace ≤ grace) : (p.withGrace grace).LooserThan p where
  grace := h
  tolerated := List.Subset.refl _

theorem looserThan_tolerateAfterClose : (p.tolerateAfterClose k).LooserThan p where
  grace := by
    unfold tolerateAfterClose
    split <;> exact Nat.le_refl _
  tolerated _ hk := mem_tolerateAfterClose.2 (.inl hk)

/-! ## Why a failure is excused -/

theorem classify_passed (h : r.outcome.failureKind? = none) (bounds : Option WindowBounds) :
    p.classify r bounds = .ok .passed := by
  simp only [classify, h]

theorem classify_corrupt (h : r.outcome.failureKind? = some .corruption)
    (bounds : Option WindowBounds) : p.classify r bounds = .ok .unexpectedFailure := by
  simp only [classify, h]

theorem reaches_of_widenedClose {stop : Option Duration} (h : p.widenedClose b = .ok stop) :
    p.Reaches b.window := by
  intro closed hc
  have hclosed : b.closedAt = some closed := hc
  rw [widenedClose, hclosed] at h
  dsimp only at h
  split at h
  case h_1 hadd => rw [hadd]; rfl
  case h_2 => cases h

/-- A failure other than corruption is excused by the phase that its task saw, by its time or by
its kind. -/
theorem expected_iff (hr : r.startedAt ≤ r.finishedAt) (hb : b.window.Ordered)
    (hk : r.outcome.failureKind? = some kind) (hne : kind ≠ .corruption) :
    p.classify r (some b) = .ok .expectedFailure ↔ r.phaseAtStart = .open ∨
      p.Reaches b.window ∧ (r.Meets b.window p.grace ∨ p.Tolerates r b.window) := by
  have hlate : p.toleratesLate r b = true ↔ p.Tolerates r b.window :=
    toleratesLate_iff (w := b.window)
  rw [classify_failure hk hne]
  split
  case isTrue hopen => exact iff_of_true rfl (.inl hopen)
  case isFalse hopen =>
    rw [or_iff_right hopen]
    constructor
    · intro h
      cases hstop : p.widenedClose b with
      | error crash => rw [hstop] at h; cases h
      | ok stop =>
        have hmeets := overlaps_iff_meets (w := b.window) hr hb rfl hstop
        rw [hstop] at h
        dsimp only [bind, Except.bind] at h
        refine ⟨reaches_of_widenedClose hstop, ?_⟩
        split at h
        case isTrue ho => exact .inl (hmeets.1 ho)
        case isFalse =>
          split at h
          case isTrue hl => exact .inr (hlate.1 hl)
          case isFalse => cases h
    · rintro ⟨hreaches, h⟩
      obtain ⟨stop, hstop⟩ := hreaches.widenedClose b.openedAt
      have hmeets := overlaps_iff_meets hr hb rfl hstop
      change p.widenedClose b = .ok stop at hstop
      rw [hstop]
      dsimp only [bind, Except.bind]
      split
      case isTrue => rfl
      case isFalse ho => rw [if_pos (hlate.2 (h.resolve_left (ho ∘ hmeets.2)))]

/-- Of the kinds that are tolerated only the set matters. -/
theorem classify_congr (hgrace : p'.grace = p.grace)
    (htolerated : ∀ k, k ∈ p'.toleratedAfterClose ↔ k ∈ p.toleratedAfterClose)
    (bounds : Option WindowBounds) : p'.classify r bounds = p.classify r bounds := by
  have hcontains : p'.toleratedAfterClose.contains r.kind =
      p.toleratedAfterClose.contains r.kind := by
    rw [Bool.eq_iff_iff, List.contains_iff_mem, List.contains_iff_mem]
    exact htolerated r.kind
  have hclose (b : WindowBounds) : p'.widenedClose b = p.widenedClose b := by
    rw [widenedClose, widenedClose, hgrace]
  have hlate (b : WindowBounds) : p'.toleratesLate r b = p.toleratesLate r b := by
    rw [toleratesLate, toleratesLate, hcontains]
  simp only [classify, hgrace, hclose, hlate]

end Policy

/-! ## Wider windows -/

namespace WindowBounds

theorem Within.ordered (h : b.Within b') (hb : b.window.Ordered) : b'.window.Ordered := by
  intro closed' hc'
  obtain ⟨closed, hc, hle⟩ := h.closed closed' hc'
  obtain ⟨_, ⟨⟩, hopened⟩ := hb closed hc
  exact ⟨b'.openedAt, rfl, Nat.le_trans h.opened (Nat.le_trans hopened hle)⟩

/-- The moment at which a result met the window is one at which it meets the wider one. -/
theorem Within.meets (h : b.Within b') (hgrace : p.grace ≤ p'.grace)
    (hm : r.Meets b.window p.grace) : r.Meets b'.window p'.grace := by
  obtain ⟨_, ⟨⟩, t, hst, htf, hopened, hclosed⟩ := hm
  refine ⟨b'.openedAt, rfl, t, hst, htf, ?_, ?_⟩
  · have hle : b'.openedAt.nanos ≤ b.openedAt.nanos := h.opened
    have hle' : p.grace.nanos ≤ p'.grace.nanos := hgrace
    simp only [Duration.le_iff, Duration.sub] at hopened ⊢
    omega
  · intro closed' hc'
    obtain ⟨closed, hc, hle⟩ := h.closed closed' hc'
    have ht := hclosed closed hc
    have hle' : p.grace.nanos ≤ p'.grace.nanos := hgrace
    have : closed.nanos ≤ closed'.nanos := hle
    omega

/-- What began after the close begins after the later one or before it, and then it lies inside. -/
theorem Within.meets_or_tolerates (h : b.Within b') (hb : b.window.Ordered)
    (hr : r.startedAt ≤ r.finishedAt)
    (htolerated : p.toleratedAfterClose ⊆ p'.toleratedAfterClose) (ht : p.Tolerates r b.window) :
    r.Meets b'.window p'.grace ∨ p'.Tolerates r b'.window := by
  obtain ⟨closed, hc, hlate, hkind⟩ := ht
  obtain ⟨_, ⟨⟩, hopened⟩ := hb closed hc
  have hstart : b'.openedAt ≤ r.startedAt :=
    Nat.le_trans h.opened (Nat.le_trans hopened (Nat.le_of_lt hlate))
  by_cases hlate' : ∃ closed', b'.closedAt = some closed' ∧ closed' < r.startedAt
  · obtain ⟨closed', hc', hlate'⟩ := hlate'
    exact .inr ⟨closed', hc', hlate', htolerated hkind⟩
  · refine .inl ⟨b'.openedAt, rfl, r.startedAt, Nat.le_refl _, hr, ?_, ?_⟩
    · exact Nat.le_trans (Nat.sub_le _ _) hstart
    · intro closed' hc'
      have hle : r.startedAt.nanos ≤ closed'.nanos :=
        Nat.not_lt.1 fun hlt => hlate' ⟨closed', hc', hlt⟩
      exact Nat.le_trans hle (Nat.le_add_right _ _)

end WindowBounds

/-- Under a looser policy and wider edges what passed passes, what was excused is excused, and
corruption never is. Neither order nor repetition of the tolerated kinds matters. -/
theorem Policy.classify_mono (hr : r.startedAt ≤ r.finishedAt) (hb : b.window.Ordered)
    (hwithin : b.Within b') (hp : p'.LooserThan p) (hreaches : p'.Reaches b'.window) :
    (p.classify r (some b) = .ok .expectedFailure →
      p'.classify r (some b') = .ok .expectedFailure) ∧
    (p.classify r (some b) = .ok .passed → ∀ (q : Policy) bounds,
      q.classify r bounds = .ok .passed) ∧
    (r.outcome.failureKind? = some .corruption → ∀ (q : Policy) bounds,
      q.classify r bounds = .ok .unexpectedFailure) ∧
    (∀ (q q' : Policy), q'.grace = q.grace →
      (∀ k, k ∈ q'.toleratedAfterClose ↔ k ∈ q.toleratedAfterClose) →
      ∀ bounds, q'.classify r bounds = q.classify r bounds) := by
  refine ⟨fun hexpected => ?_, fun hpassed q bounds => ?_,
    fun hk q bounds => classify_corrupt hk bounds,
    fun q q' hgrace htolerated bounds => classify_congr hgrace htolerated bounds⟩
  · cases hk : r.outcome.failureKind? with
    | none => rw [classify_passed hk] at hexpected; cases hexpected
    | some kind =>
      have hne : kind ≠ .corruption := by
        rintro rfl
        rw [classify_corrupt hk] at hexpected
        cases hexpected
      rw [expected_iff hr (hwithin.ordered hb) hk hne]
      rcases (expected_iff hr hb hk hne).1 hexpected with hopen | ⟨-, hmeets | htolerates⟩
      · exact .inl hopen
      · exact .inr ⟨hreaches, .inl (hwithin.meets hp.grace hmeets)⟩
      · exact .inr ⟨hreaches, hwithin.meets_or_tolerates hb hr hp.tolerated htolerates⟩
  · cases hk : r.outcome.failureKind? with
    | none => exact classify_passed hk bounds
    | some kind => exact absurd hpassed (classify_ne_passed hk)

/-- A deletion that failed after the close is tolerated, and the window stays open longer. -/
def Policy.lateResult : OperationResult where
  taskId := .first
  stream := "trial"
  kind := .delete
  target := ⟨"bucket", "key"⟩
  written := none
  outcome := .failure .rejected "no"
  startedAt := .ofMillis 30
  finishedAt := .ofMillis 40
  phaseAtStart := .postFault

theorem Policy.classify_mono_late :
    let p : Policy := .tolerateAfterClose .delete .strict
    let p' : Policy := .tolerateAfterClose .read (.withGrace (.ofMillis 5) p)
    let b : WindowBounds := ⟨.ofMillis 10, some (.ofMillis 20)⟩
    let b' : WindowBounds := ⟨.ofMillis 8, some (.ofMillis 32)⟩
    p.classify lateResult (some b) = .ok .expectedFailure ∧ b.Within b' ∧ p'.LooserThan p ∧
      p'.Reaches b'.window ∧ p'.classify lateResult (some b') = .ok .expectedFailure := by
  intro p p' b b'
  have hr : lateResult.startedAt ≤ lateResult.finishedAt := by decide
  have hb : b.window.Ordered := by
    rintro _ ⟨⟩
    exact ⟨.ofMillis 10, rfl, by decide⟩
  have hwithin : b.Within b' := by
    constructor
    · decide
    · rintro _ ⟨⟩
      exact ⟨.ofMillis 20, rfl, by decide⟩
  have hp : p'.LooserThan p :=
    looserThan_tolerateAfterClose.trans (looserThan_withGrace (Nat.zero_le _))
  have hreaches : p'.Reaches b'.window := by
    rintro _ ⟨⟩
    rfl
  have hexpected : p.classify lateResult (some b) = .ok .expectedFailure := rfl
  exact ⟨hexpected, hwithin, hp, hreaches, (classify_mono hr hb hwithin hp hreaches).1 hexpected⟩

end FaultDrill
