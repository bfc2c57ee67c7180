import FaultDrill.Proofs.Collection
import FaultDrill.Proofs.Policy.Looser

/-! # A grace that is too large

The opening edge of a window stops at zero when the grace is taken from it. The closing edge has
nowhere to stop: a failure for which it has to be looked at brings down the classification, and
with it the report and the collection. Every other result has the class that it would have if an
edge past the largest duration were no edge at all.
-/

namespace FaultDrill

variable {p policy : Policy} {r : OperationResult} {b : WindowBounds} {bounds : Option WindowBounds}
  {rest results : List OperationResult} {streams : List String} {total : UInt64}
  {driver : DriverReport} {reports before : List DriverReport}

namespace Policy

/-- The closing edge moved out by the grace, if there is one and it has such a place. -/
def saturatedClose (p : Policy) (b : WindowBounds) : Option Duration :=
  b.closedAt.bind (·.add? p.grace)

/-- The class of a result if an edge past the largest duration is no edge. -/
def classOf (p : Policy) (r : OperationResult) (bounds : Option WindowBounds) : Classification :=
  match r.outcome.failureKind?, bounds with
  | none, _ => .passed
  | some .corruption, _ | some _, none => .unexpectedFailure
  | some _, some b =>
    if r.phaseAtStart = .open ∨ r.overlaps (b.openedAt.sub p.grace) (p.saturatedClose b) ∨
        p.toleratesLate r b then .expectedFailure
    else .unexpectedFailure

/-- The class depends on the closing edge moved out by the grace, and that is past the largest
duration. -/
structure Overreaches (p : Policy) (r : OperationResult) (bounds : Option WindowBounds) : Prop where
  failed : ∃ kind, r.outcome.failureKind? = some kind ∧ kind ≠ .corruption
  unseen : r.phaseAtStart ≠ .open
  edge : ∃ b closed, bounds = some b ∧ b.closedAt = some closed ∧
    Duration.limit ≤ closed.nanos + p.grace.nanos

theorem widenedClose_of_le {closed : Duration} (hc : b.closedAt = some closed)
    (hle : Duration.limit ≤ closed.nanos + p.grace.nanos) :
    p.widenedClose b = .error .durationOverflow := by
  have hadd : closed.add? p.grace = none := dif_neg (Nat.not_lt.2 hle)
  simp only [widenedClose, hc, hadd]

theorem widenedClose_of_lt (hlt : ∀ closed, b.closedAt = some closed →
    closed.nanos + p.grace.nanos < Duration.limit) :
    p.widenedClose b = .ok (p.saturatedClose b) := by
  unfold widenedClose saturatedClose
  cases hc : b.closedAt with
  | none => rfl
  | some closed =>
    have hadd : closed.add? p.grace = some ⟨_, hlt closed hc⟩ := dif_pos (hlt closed hc)
    simp only [hadd, Option.bind_some]

theorem Overreaches.crashes (h : p.Overreaches r bounds) :
    p.classify r bounds = .error .durationOverflow := by
  obtain ⟨⟨kind, hk, hne⟩, hunseen, b, closed, rfl, hc, hle⟩ := h
  rw [classify_failure hk hne, if_neg hunseen, widenedClose_of_le hc hle]
  rfl

/-- A result whose class does not depend on such an edge has its class. -/
theorem classify_of_not_overreaches (h : ¬p.Overreaches r bounds) :
    p.classify r bounds = .ok (p.classOf r bounds) := by
  cases hk : r.outcome.failureKind? with
  | none => simp only [classify_passed hk, classOf, hk]
  | some kind =>
    by_cases hne : kind = .corruption
    · subst hne
      simp only [classify_corrupt hk, classOf, hk]
    · cases bounds with
      | none => simp only [classify, classOf, hk]
      | some b =>
        rw [classify_failure hk hne]
        unfold classOf
        rw [hk]
        by_cases hunseen : r.phaseAtStart = .open
        · simp [hunseen]
        · have hlt : ∀ closed, b.closedAt = some closed →
              closed.nanos + p.grace.nanos < Duration.limit := by
            intro closed hc
            exact Nat.lt_of_not_le fun hle =>
              h ⟨⟨kind, hk, hne⟩, hunseen, b, closed, rfl, hc, hle⟩
          rw [if_neg hunseen, widenedClose_of_lt hlt]
          dsimp only [bind, Except.bind]
          by_cases ho : r.overlaps (b.openedAt.sub p.grace) (p.saturatedClose b) = true
          · simp [ho]
          · by_cases hl : p.toleratesLate r b = true <;> simp [ho, hl, hunseen]

end Policy

/-! ## Reports -/

namespace AggregateReport

open Policy (Overreaches)

theorem foldlM_add_of_overreaches (h : ∃ r ∈ rest, policy.Overreaches r bounds) :
    rest.foldlM (add policy) (sorted policy bounds streams total results) =
      .error .durationOverflow := by
  induction rest generalizing results with
  | nil => obtain ⟨r, ⟨⟩, -⟩ := h
  | cons r rest ih =>
    rw [List.foldlM_cons]
    by_cases hr : policy.Overreaches r bounds
    · have hadd : (sorted policy bounds streams total results).add policy r =
          .error .durationOverflow := by
        have hc : policy.classify r (sorted policy bounds streams total results).window =
            .error .durationOverflow := hr.crashes
        simp only [add, hc, bind, Except.bind]
      rw [hadd]
      rfl
    · rw [add_sorted (Policy.classify_of_not_overreaches hr)]
      refine ih ?_
      obtain ⟨r', hmem, hr'⟩ := h
      rcases List.mem_cons.1 hmem with rfl | hmem
      · exact absurd hr' hr
      · exact ⟨r', hmem, hr'⟩

theorem foldlM_addDriver_of_overreaches
    (hsum : DriverReport.submissions (before ++ reports) < UInt64.size)
    (h : ∃ r ∈ DriverReport.delivered reports, policy.Overreaches r bounds) :
    reports.foldlM (addDriver policy) (ofReports policy bounds before) =
      .error .durationOverflow := by
  induction reports generalizing before with
  | nil => obtain ⟨r, ⟨⟩, -⟩ := h
  | cons driver reports ih =>
    have hcons : before ++ driver :: reports = (before ++ [driver]) ++ reports := by simp
    have hdelivered : DriverReport.delivered (driver :: reports) =
        driver.results ++ DriverReport.delivered reports := by simp [DriverReport.delivered]
    rw [hcons] at hsum
    rw [hdelivered] at h
    have hnext : DriverReport.submissions (before ++ [driver]) < UInt64.size := by
      refine Nat.lt_of_le_of_lt ?_ hsum
      simp [DriverReport.submissions]
    have hbefore : DriverReport.submissions before < UInt64.size := by
      refine Nat.lt_of_le_of_lt ?_ hnext
      simp [DriverReport.submissions]
    rw [List.foldlM_cons]
    by_cases hdriver : ∃ r ∈ driver.results, policy.Overreaches r bounds
    · have htotal : (ofReports policy bounds before).totalSubmitted.toNat +
          driver.submitted.toNat < UInt64.size := by
        rw [DriverReport.submissions_snoc] at hnext
        rwa [show (ofReports policy bounds before).totalSubmitted.toNat = _ from
          UInt64.toNat_ofNat_of_lt' hbefore]
      have hadd : (ofReports policy bounds before).addDriver policy driver =
          .error .durationOverflow := by
        unfold addDriver
        rw [if_pos htotal]
        exact foldlM_add_of_overreaches hdriver
      rw [hadd]
      rfl
    · have hclass : ∀ r ∈ driver.results, ∃ c, policy.classify r bounds = .ok c := fun r hr =>
        ⟨_, Policy.classify_of_not_overreaches fun hover => hdriver ⟨r, hr, hover⟩⟩
      rw [(addDriver_eq_ok_iff hbefore).2 ⟨hnext, hclass, rfl⟩]
      refine ih hsum ?_
      obtain ⟨r, hmem, hr⟩ := h
      rcases List.mem_append.1 hmem with hmem | hmem
      · exact absurd ⟨r, hmem, hr⟩ hdriver
      · exact ⟨r, hmem, hr⟩

/-- One result is enough to bring down the report. -/
theorem classify_of_overreaches (hsum : DriverReport.submissions reports < UInt64.size)
    (h : ∃ r ∈ DriverReport.delivered reports, policy.Overreaches r bounds) :
    classify reports bounds policy = .error .durationOverflow := by
  have hsum' : DriverReport.submissions ([] ++ reports) < UInt64.size := hsum
  exact foldlM_addDriver_of_overreaches hsum' h

theorem classify_of_not_overreaches (hsum : DriverReport.submissions reports < UInt64.size)
    (h : ∀ r ∈ DriverReport.delivered reports, ¬policy.Overreaches r bounds) :
    classify reports bounds policy = .ok (ofReports policy bounds reports) :=
  classify_eq_ok_iff.2 ⟨hsum, fun r hr => ⟨_, Policy.classify_of_not_overreaches (h r hr)⟩, rfl⟩

theorem ofClass_ofReports (h : ∀ r ∈ DriverReport.delivered reports, ¬policy.Overreaches r bounds)
    (c : Classification) : (ofReports policy bounds reports).ofClass c =
      (DriverReport.delivered reports).filter (policy.classOf · bounds = c) := by
  rw [ofReports, ofClass_sorted]
  refine List.filter_congr fun r hr => ?_
  rw [Policy.puts, Policy.classify_of_not_overreaches (h r hr)]

end AggregateReport

/-- Only a collection that has its reports classifies them, and so it crashes. -/
theorem Collection.crash_iff {timer : Nat} {mailbox mailbox' : Mailbox} {c c' : Collection}
    {event : Option Event} {crash : Crash}
    (h : c.step? policy bounds timer mailbox = some (c', mailbox', event))
    (hsum : DriverReport.submissions c.received < UInt64.size) :
    c'.ended = some (.crash crash) ↔ crash = .durationOverflow ∧
      c.expected.toNat ≤ c.received.length ∧
      ∃ r ∈ DriverReport.delivered c.received, policy.Overreaches r bounds := by
  obtain ⟨hgoes, hturn⟩ := turn_of_step? h
  cases hturn with
  | receive hfew => simp [hgoes, Nat.not_le.2 hfew]
  | abort hfew | giveUp hfew => simp [Nat.not_le.2 hfew]
  | conclude hall hc =>
    refine iff_of_false (by rintro ⟨⟩) ?_
    rintro ⟨-, -, hover⟩
    rw [AggregateReport.classify_of_overreaches hsum hover] at hc
    cases hc
  | @crash crash' hall hc =>
    by_cases hover : ∃ r ∈ DriverReport.delivered c.received, policy.Overreaches r bounds
    · rw [AggregateReport.classify_of_overreaches hsum hover] at hc
      cases hc
      simp [hall, hover, eq_comm]
    · have hnone : ∀ r ∈ DriverReport.delivered c.received, ¬policy.Overreaches r bounds :=
        fun r hr hover' => hover ⟨r, hr, hover'⟩
      rw [AggregateReport.classify_of_not_overreaches hsum hnone] at hc
      cases hc

/-- A result is put into the class that it has when an edge past the largest duration is no edge,
unless its class depends on such an edge. Then classification crashes, and with it the report on
these results and the collection that has received them. -/
theorem Policy.saturation (p : Policy) (bounds : Option WindowBounds) :
    (∀ r, (p.Overreaches r bounds → p.classify r bounds = .error .durationOverflow) ∧
      (¬p.Overreaches r bounds → p.classify r bounds = .ok (p.classOf r bounds))) ∧
    (∀ reports, DriverReport.submissions reports < UInt64.size →
      ((∃ r ∈ DriverReport.delivered reports, p.Overreaches r bounds) →
        AggregateReport.classify reports bounds p = .error .durationOverflow) ∧
      ((∀ r ∈ DriverReport.delivered reports, ¬p.Overreaches r bounds) →
        ∃ report, AggregateReport.classify reports bounds p = .ok report ∧
          ∀ c, report.ofClass c =
            (DriverReport.delivered reports).filter (p.classOf · bounds = c))) ∧
    (∀ timer mailbox mailbox' event (c c' : Collection),
      c.step? p bounds timer mailbox = some (c', mailbox', event) →
      DriverReport.submissions c.received < UInt64.size →
      ∀ crash, c'.ended = some (.crash crash) ↔ crash = .durationOverflow ∧
        c.expected.toNat ≤ c.received.length ∧
        ∃ r ∈ DriverReport.delivered c.received, p.Overreaches r bounds) := by
  refine ⟨fun r => ⟨Overreaches.crashes, classify_of_not_overreaches⟩,
    fun reports hsum => ⟨AggregateReport.classify_of_overreaches hsum, fun hnone => ?_⟩,
    fun _ _ _ _ _ _ hstep hsum _ => Collection.crash_iff hstep hsum⟩
  exact ⟨_, AggregateReport.classify_of_not_overreaches hsum hnone,
    AggregateReport.ofClass_ofReports hnone⟩

/-! ## The largest grace -/

def Duration.greatest : Duration := ⟨limit - 1, by decide⟩

namespace Policy

/-- A request that was lost while the window opened. -/
def strayResult : OperationResult where
  taskId := .first
  stream := "trial"
  kind := .delete
  target := ⟨"bucket", "key"⟩
  written := none
  outcome := .failure .transport "lost"
  startedAt := .ofMillis 10
  finishedAt := .ofMillis 20
  phaseAtStart := .preFault

def strayReport : DriverReport where
  stream := "trial"
  submitted := 1
  passed := []
  failed := [strayResult]

def strayBounds : Option WindowBounds := some ⟨.ofMillis 15, some (.ofMillis 25)⟩

theorem saturation_stray :
    DriverReport.submissions [strayReport] < UInt64.size ∧
      (strict.withGrace .greatest).Overreaches strayResult strayBounds ∧
      AggregateReport.classify [strayReport] strayBounds (strict.withGrace .greatest) =
        .error .durationOverflow := by
  have hsum : DriverReport.submissions [strayReport] < UInt64.size := by decide
  have hover : (strict.withGrace .greatest).Overreaches strayResult strayBounds :=
    ⟨⟨.transport, rfl, by decide⟩, by decide, _, _, rfl, rfl, by decide⟩
  have hmem : strayResult ∈ DriverReport.delivered [strayReport] := by decide
  exact ⟨hsum, hover, ((saturation _ _).2.1 _ hsum).1 ⟨_, hmem, hover⟩⟩

/-- The result is excused if the closing edge is no edge, but there is no class for it. -/
theorem vast_grace_crashes :
    (strict.withGrace .greatest).classOf strayResult strayBounds = .expectedFailure ∧
      (∀ c, (strict.withGrace .greatest).classify strayResult strayBounds ≠ .ok c) ∧
      ∀ report, AggregateReport.classify [strayReport] strayBounds (strict.withGrace .greatest) ≠
        .ok report := by
  have hcrash : (strict.withGrace .greatest).classify strayResult strayBounds =
      .error .durationOverflow := rfl
  have hcrash' : AggregateReport.classify [strayReport] strayBounds
      (strict.withGrace .greatest) = .error .durationOverflow := rfl
  refine ⟨rfl, fun c => ?_, fun report => ?_⟩
  · rw [hcrash]
    rintro ⟨⟩
  · rw [hcrash']
    rintro ⟨⟩

end Policy

end FaultDrill
