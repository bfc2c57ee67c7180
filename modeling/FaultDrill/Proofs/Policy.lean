import FaultDrill.Policy

/-! # What a window excuses

A failure is excused by the edges of the window and its own times alone. The phase that its
task saw at the start is a shortcut, and a sound one where the phase agrees with the edges.
-/

namespace FaultDrill

variable {r : OperationResult} {w : Window} {p : Policy} {grace : Duration}

/-- At some moment the task ran and the window, widened by the grace on both sides, was open. -/
def OperationResult.Meets (r : OperationResult) (w : Window) (grace : Duration) : Prop :=
  ∃ opened, w.openedAt = some opened ∧ ∃ t : Duration, r.startedAt ≤ t ∧ t ≤ r.finishedAt ∧
    opened.sub grace ≤ t ∧ ∀ closed, w.closedAt = some closed → t.nanos ≤ closed.nanos + grace.nanos

/-- The task began after the window closed, and its kind is tolerated there. -/
def Policy.Tolerates (p : Policy) (r : OperationResult) (w : Window) : Prop :=
  ∃ closed, w.closedAt = some closed ∧ closed < r.startedAt ∧ r.kind ∈ p.toleratedAfterClose

/-- The policy excuses the result. -/
def Policy.Excuses (p : Policy) (r : OperationResult) (w : Window) : Prop :=
  (∃ kind, r.outcome.failureKind? = some kind ∧ kind ≠ .corruption) ∧
    w.openedAt.isSome = true ∧ (r.Meets w p.grace ∨ p.Tolerates r w)

/-- The edges of a window are in order. -/
def Window.Ordered (w : Window) : Prop :=
  ∀ closed, w.closedAt = some closed → ∃ opened, w.openedAt = some opened ∧ opened ≤ closed

/-- Both edges of the window can be moved out by the grace. -/
def Policy.Reaches (p : Policy) (w : Window) : Prop :=
  ∀ closed, w.closedAt = some closed → (closed.add? p.grace).isSome = true

theorem Duration.nanos_of_add? {a b c : Duration} (h : a.add? b = some c) :
    c.nanos = a.nanos + b.nanos := by
  unfold Duration.add? Duration.ofNanos? at h
  split at h
  · cases h; rfl
  · cases h

/-- Two times meet if each begins before the other ends. -/
theorem OperationResult.overlaps_iff {start : Duration} {stop : Option Duration}
    (hr : r.startedAt ≤ r.finishedAt) (hs : ∀ e, stop = some e → start ≤ e) :
    r.overlaps start stop = true ↔
      ∃ t : Duration, r.startedAt ≤ t ∧ t ≤ r.finishedAt ∧ start ≤ t ∧
        ∀ e, stop = some e → t ≤ e := by
  simp only [OperationResult.overlaps, Bool.and_eq_true, Option.all_eq_true, decide_eq_true_eq]
  constructor
  · rintro ⟨hstop, hstart⟩
    rcases Nat.le_total r.startedAt.nanos start.nanos with hle | hle
    · exact ⟨start, hle, hstart, Nat.le_refl _, hs⟩
    · exact ⟨r.startedAt, Nat.le_refl _, hr, hle, hstop⟩
  · rintro ⟨t, hst, htf, hstart, hstop⟩
    exact ⟨fun e he => Nat.le_trans hst (hstop e he), Nat.le_trans hstart htf⟩

theorem Policy.toleratesLate_iff {opened : Duration} :
    p.toleratesLate r ⟨opened, w.closedAt⟩ = true ↔ p.Tolerates r w := by
  unfold Policy.toleratesLate Policy.Tolerates
  cases w.closedAt with
  | none => simp
  | some closed => simp

/-- The times of a result are compared with the edges as they should be. -/
theorem Policy.overlaps_iff_meets {opened : Duration} {stop : Option Duration}
    (hr : r.startedAt ≤ r.finishedAt) (hw : w.Ordered) (ho : w.openedAt = some opened)
    (hstop : p.widenedClose ⟨opened, w.closedAt⟩ = .ok stop) :
    r.overlaps (opened.sub p.grace) stop = true ↔ r.Meets w p.grace := by
  have hedge : (stop = none ∧ w.closedAt = none) ∨
      ∃ closed edge, stop = some edge ∧ w.closedAt = some closed ∧
        edge.nanos = closed.nanos + p.grace.nanos := by
    unfold Policy.widenedClose at hstop
    cases hc : w.closedAt with
    | none =>
      rw [hc] at hstop
      cases hstop
      exact .inl ⟨rfl, rfl⟩
    | some closed =>
      rw [hc] at hstop
      dsimp only at hstop
      split at hstop
      case h_1 edge hadd =>
        cases hstop
        exact .inr ⟨closed, edge, rfl, rfl, Duration.nanos_of_add? hadd⟩
      case h_2 => cases hstop
  have hsame (t : Duration) : (∀ e, stop = some e → t ≤ e) ↔
      ∀ closed, w.closedAt = some closed → t.nanos ≤ closed.nanos + p.grace.nanos := by
    rcases hedge with ⟨rfl, hc⟩ | ⟨closed, edge, rfl, hc, hnanos⟩
    · simp [hc]
    · simp [hc, Duration.le_iff, hnanos]
  have hle : ∀ e, stop = some e → opened.sub p.grace ≤ e := by
    rw [hsame]
    intro closed hc
    obtain ⟨opened', ho', hle⟩ := hw closed hc
    rw [ho] at ho'
    cases ho'
    have : opened.nanos ≤ closed.nanos := hle
    simp only [Duration.sub]
    omega
  rw [OperationResult.overlaps_iff hr hle]
  simp only [OperationResult.Meets, ho, Option.some.injEq, exists_eq_left', hsame]

/-- The window widened by the grace has an end, or no end while it is open. -/
theorem Policy.Reaches.widenedClose (hp : p.Reaches w) (opened : Duration) :
    ∃ stop, p.widenedClose ⟨opened, w.closedAt⟩ = .ok stop := by
  unfold Policy.widenedClose
  cases hc : w.closedAt with
  | none => exact ⟨none, rfl⟩
  | some closed =>
    obtain ⟨edge, hedge⟩ := Option.isSome_iff_exists.1 (hp closed hc)
    exact ⟨some edge, by simp only [hedge]⟩

theorem Policy.classify_failure {kind : FailureKind} (hk : r.outcome.failureKind? = some kind)
    (hne : kind ≠ .corruption) (bounds : WindowBounds) :
    p.classify r (some bounds) =
      if r.phaseAtStart = .open then .ok .expectedFailure
      else p.widenedClose bounds >>= fun stop =>
        if r.overlaps (bounds.openedAt.sub p.grace) stop then .ok .expectedFailure
        else if p.toleratesLate r bounds then .ok .expectedFailure
        else .ok .unexpectedFailure := by
  unfold Policy.classify
  rw [hk]
  cases kind <;> first | rfl | exact absurd rfl hne

/-- A failure that met the window is not blamed, unless it is corruption. -/
theorem Policy.not_unexpected {kind : FailureKind} (hr : r.startedAt ≤ r.finishedAt)
    (hw : w.Ordered) (hm : r.Meets w p.grace) (hk : r.outcome.failureKind? = some kind)
    (hne : kind ≠ .corruption) : p.classify r w.bounds ≠ .ok .unexpectedFailure := by
  intro hc
  obtain ⟨opened, ho, -⟩ := id hm
  rw [Window.bounds, ho, Option.map_some, Policy.classify_failure hk hne] at hc
  split at hc
  case isTrue => cases hc
  case isFalse =>
    cases hstop : p.widenedClose ⟨opened, w.closedAt⟩ with
    | error crash => rw [hstop] at hc; cases hc
    | ok stop =>
      have hoverlaps := (Policy.overlaps_iff_meets hr hw ho hstop).2 hm
      rw [hstop] at hc
      dsimp only [bind, Except.bind] at hc
      rw [if_pos hoverlaps] at hc
      cases hc

/-- A result is excused as its times and the edges of the window say, if the phase that its task
saw agrees with them. -/
theorem Policy.classify_iff (hr : r.startedAt ≤ r.finishedAt) (hw : w.Ordered)
    (hphase : r.phaseAtStart = .open → r.Meets w p.grace) (hp : p.Reaches w) :
    ∃ c, p.classify r w.bounds = .ok c ∧ (c = .expectedFailure ↔ p.Excuses r w) := by
  cases hk : r.outcome.failureKind? with
  | none =>
    refine ⟨.passed, by simp only [Policy.classify, hk], ?_⟩
    simp [Policy.Excuses, hk]
  | some kind =>
    by_cases hne : kind = .corruption
    · subst hne
      refine ⟨.unexpectedFailure, by simp only [Policy.classify, hk], ?_⟩
      simp [Policy.Excuses, hk]
    · cases ho : w.openedAt with
      | none =>
        refine ⟨.unexpectedFailure, ?_, by simp [Policy.Excuses, ho]⟩
        simp only [Policy.classify, hk, Window.bounds, ho, Option.map_none]
      | some opened =>
        have hexcuses : p.Excuses r w ↔ r.Meets w p.grace ∨ p.Tolerates r w := by
          simp [Policy.Excuses, hk, hne, ho]
        rw [Window.bounds, ho, Option.map_some, Policy.classify_failure hk hne]
        split
        case isTrue hopen => exact ⟨_, rfl, iff_of_true rfl (hexcuses.2 (.inl (hphase hopen)))⟩
        case isFalse =>
          obtain ⟨stop, hstop⟩ := hp.widenedClose opened
          have hmeets := Policy.overlaps_iff_meets hr hw ho hstop
          have hlate : p.toleratesLate r ⟨opened, w.closedAt⟩ = true ↔ p.Tolerates r w :=
            Policy.toleratesLate_iff
          rw [hstop, hexcuses, ← hmeets, ← hlate]
          dsimp only [bind, Except.bind]
          split
          case isTrue hm => exact ⟨_, rfl, iff_of_true rfl (.inl hm)⟩
          case isFalse hm =>
            split
            case isTrue hl => exact ⟨_, rfl, iff_of_true rfl (.inr hl)⟩
            case isFalse hl => exact ⟨_, rfl, iff_of_false nofun (not_or.2 ⟨hm, hl⟩)⟩

end FaultDrill
