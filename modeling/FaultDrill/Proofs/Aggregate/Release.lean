import FaultDrill.Check
import FaultDrill.Proofs.Policy.Saturation

/-! # The moment at which a report is released

A report is made against the edges that the window has at that moment. If every task had begun by
the time at which the window closes, it makes no difference whether the report is released before
or after that, though a window without an end is looked at in another way.
-/

namespace FaultDrill

variable {policy : Policy} {r : OperationResult} {opened closed : Duration}
  {bounds bounds' : Option WindowBounds} {driver : DriverReport} {reports : List DriverReport}

namespace Policy

/-- An end of the window that lies behind the start of the task does not matter. -/
theorem classify_close (hstarted : r.startedAt ≤ closed)
    (hreach : (closed.add? policy.grace).isSome = true) :
    policy.classify r (some ⟨opened, some closed⟩) =
      policy.classify r (some ⟨opened, none⟩) := by
  cases hk : r.outcome.failureKind? with
  | none => rw [classify_passed hk, classify_passed hk]
  | some kind =>
    by_cases hne : kind = .corruption
    · subst hne
      rw [classify_corrupt hk, classify_corrupt hk]
    · obtain ⟨edge, hedge⟩ := Option.isSome_iff_exists.1 hreach
      have hwidened : policy.widenedClose ⟨opened, some closed⟩ = .ok (some edge) := by
        simp only [widenedClose, hedge]
      have hbefore : r.startedAt ≤ edge := by
        have hnanos := Duration.nanos_of_add? hedge
        have : r.startedAt.nanos ≤ closed.nanos := hstarted
        rw [Duration.le_iff]
        omega
      have hoverlaps (start : Duration) :
          r.overlaps start (some edge) = r.overlaps start none := by
        simp [OperationResult.overlaps, hbefore]
      -- What is tolerated after the close has not begun before it.
      have hlate : policy.toleratesLate r ⟨opened, some closed⟩ = false := by
        simp [toleratesLate, Duration.lt_iff, Nat.not_lt.2 hstarted]
      rw [classify_failure hk hne, classify_failure hk hne, hwidened]
      simp only [bind, Except.bind, hoverlaps, hlate]
      rfl

end Policy

namespace AggregateReport

/-- The same report against other edges. -/
def withWindow (bounds : Option WindowBounds) (report : AggregateReport) : AggregateReport :=
  { report with window := bounds }

/-- What is done to a report with these edges is done to the same report with the other ones. -/
def SameAgainst (bounds bounds' : Option WindowBounds)
    (f : AggregateReport → Except Crash AggregateReport) : Prop :=
  ∀ report, report.window = bounds →
    f (report.withWindow bounds') = (f report).map (withWindow bounds') ∧
      ∀ report', f report = .ok report' → report'.window = bounds

theorem SameAgainst.foldlM {α : Type} {l : List α}
    {f : AggregateReport → α → Except Crash AggregateReport}
    (h : ∀ a ∈ l, SameAgainst bounds bounds' (f · a)) :
    SameAgainst bounds bounds' (l.foldlM f ·) := by
  intro report hwindow
  induction l generalizing report with
  | nil =>
    refine ⟨rfl, ?_⟩
    rintro _ ⟨⟩
    exact hwindow
  | cons a l ih =>
    obtain ⟨hsame, hkeeps⟩ := h a List.mem_cons_self report hwindow
    dsimp only at hsame
    simp only [List.foldlM_cons, hsame]
    cases hf : f report a with
    | error => exact ⟨rfl, by rintro _ ⟨⟩⟩
    | ok report' =>
      exact ih (fun a' ha' => h a' (List.mem_cons_of_mem a ha')) report' (hkeeps report' hf)

theorem sameAgainst_add (h : policy.classify r bounds' = policy.classify r bounds) :
    SameAgainst bounds bounds' (add policy · r) := by
  rintro report rfl
  have hwindow : (report.withWindow bounds').window = bounds' := rfl
  simp only [add, hwindow, h]
  cases policy.classify r report.window with
  | error => exact ⟨rfl, by rintro _ ⟨⟩⟩
  | ok c =>
    cases c <;> refine ⟨rfl, ?_⟩ <;> rintro _ ⟨⟩ <;> rfl

theorem sameAgainst_addDriver
    (h : ∀ r ∈ driver.results, policy.classify r bounds' = policy.classify r bounds) :
    SameAgainst bounds bounds' (addDriver policy · driver) := by
  intro report hwindow
  have htotal : (report.withWindow bounds').totalSubmitted = report.totalSubmitted := rfl
  simp only [addDriver, htotal]
  split
  case isTrue =>
    have hfold : SameAgainst bounds bounds' (driver.results.foldlM (add policy) ·) :=
      SameAgainst.foldlM fun r hr => sameAgainst_add (h r hr)
    exact hfold { report with
      streams := report.streams ++ [driver.stream]
      totalSubmitted := .ofNat (report.totalSubmitted.toNat + driver.submitted.toNat) } hwindow
  case isFalse => exact ⟨rfl, by rintro _ ⟨⟩⟩

/-- Of the edges a report has only the classes of its results. -/
theorem classify_withWindow (h : ∀ r ∈ DriverReport.delivered reports,
    policy.classify r bounds' = policy.classify r bounds) :
    classify reports bounds' policy =
      (classify reports bounds policy).map (withWindow bounds') := by
  have hdriver : ∀ driver ∈ reports, SameAgainst bounds bounds' (addDriver policy · driver) := by
    refine fun driver hmem => sameAgainst_addDriver fun r hr => h r ?_
    exact List.mem_flatMap.2 ⟨driver, hmem, hr⟩
  exact (SameAgainst.foldlM hdriver (empty bounds) rfl).1

theorem exists_classify_unclosed : (∃ report, classify reports (some ⟨opened, none⟩) policy =
    .ok report) ↔ DriverReport.submissions reports < UInt64.size := by
  constructor
  · rintro ⟨report, h⟩
    exact (classify_eq_ok_iff.1 h).1
  · refine fun hsum => ⟨_, classify_of_not_overreaches hsum fun r _ hover => ?_⟩
    obtain ⟨b, closed, ⟨⟩, ⟨⟩, -⟩ := hover.edge

/-- If every task had begun by the time at which the window closes, then the report that is
released while the window is open differs from the one that is released after it has closed in the
closing edge only. One is made exactly if the other is, and every policy judges them alike. -/
theorem release_law (hstarted : ∀ r ∈ DriverReport.delivered reports, r.startedAt ≤ closed)
    (hreach : (closed.add? policy.grace).isSome = true) :
    classify reports (some ⟨opened, some closed⟩) policy =
        (classify reports (some ⟨opened, none⟩) policy).map
          (withWindow (some ⟨opened, some closed⟩)) ∧
      ((∃ before, classify reports (some ⟨opened, none⟩) policy = .ok before) ↔
        DriverReport.submissions reports < UInt64.size) ∧
      ∀ before after, classify reports (some ⟨opened, none⟩) policy = .ok before →
        classify reports (some ⟨opened, some closed⟩) policy = .ok after →
        (∀ c, after.ofClass c = before.ofClass c) ∧ after.phases = before.phases ∧
          after.totalSubmitted = before.totalSubmitted ∧ after.streams = before.streams ∧
          ∀ judging, after.verdict judging = before.verdict judging := by
  have hsame : classify reports (some ⟨opened, some closed⟩) policy =
      (classify reports (some ⟨opened, none⟩) policy).map
        (withWindow (some ⟨opened, some closed⟩)) :=
    classify_withWindow fun r hr => Policy.classify_close (hstarted r hr) hreach
  refine ⟨hsame, exists_classify_unclosed, fun before after hbefore hafter => ?_⟩
  rw [hbefore] at hsame
  obtain rfl : before.withWindow _ = after := Except.ok.inj (hsame.symm.trans hafter)
  exact ⟨fun c => by cases c <;> rfl, rfl, rfl, rfl, fun _ => rfl⟩

/-- One task saw the window open, the other one ended at the very moment at which it closed. -/
def releasedReports : List DriverReport :=
  [{ stream := "first", submitted := 1
     passed := []
     failed := [trialResult (.failure .rejected "no") .open] },
   { stream := "second", submitted := 1
     passed := []
     failed := [{ trialResult (.failure .transport "lost") .preFault with
       startedAt := .ofMillis 2, finishedAt := .ofMillis 2 }] }]

theorem release_law_trial :
    (∀ r ∈ DriverReport.delivered releasedReports, r.startedAt ≤ .ofMillis 2) ∧
      (Duration.add? (.ofMillis 2) Policy.strict.grace).isSome = true ∧
      ∃ report, classify releasedReports (some ⟨.ofMillis 1, some (.ofMillis 2)⟩) .strict =
          .ok report ∧ report.expectedFailureCount = 2 ∧
        classify releasedReports (some ⟨.ofMillis 1, none⟩) .strict =
          .ok (report.withWindow (some ⟨.ofMillis 1, none⟩)) := by
  have hstarted : ∀ r ∈ DriverReport.delivered releasedReports, r.startedAt ≤ .ofMillis 2 := by
    decide
  have hreach : (Duration.add? (.ofMillis 2) Policy.strict.grace).isSome = true := rfl
  have hopen : classify releasedReports (some ⟨.ofMillis 1, none⟩) .strict =
      .ok (ofReports .strict (some ⟨.ofMillis 1, none⟩) releasedReports) := rfl
  have hsame : classify releasedReports (some ⟨.ofMillis 1, some (.ofMillis 2)⟩) .strict = _ :=
    (release_law hstarted hreach).1
  rw [hopen] at hsame
  exact ⟨hstarted, hreach, _, hsame, rfl, hopen⟩

end AggregateReport

end FaultDrill
