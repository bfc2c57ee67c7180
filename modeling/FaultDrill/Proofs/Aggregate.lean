import FaultDrill.Check
import FaultDrill.Proofs.Policy
import FaultDrill.Proofs.Aggregate.Partition

/-! # Aggregated reports

An aggregated report has every result of the reports that it is made of, each in the class that
the policy puts it in. It passes the first three checks of its verdict if every task has a result
and none of the results is blamed.
-/

namespace FaultDrill

namespace AggregateReport

/-- The report has these results, each in its class, of so many submissions. -/
structure Covers (policy : Policy) (bounds : Option WindowBounds) (submitted : Nat)
    (results : List OperationResult) (report : AggregateReport) : Prop where
  window : report.window = bounds
  submitted : report.totalSubmitted.toNat = submitted
  count : report.passCount + report.failCount = results.length
  expected : ∀ r ∈ report.expectedFailures,
    r ∈ results ∧ policy.classify r bounds = .ok .expectedFailure
  unexpected : ∀ r ∈ report.unexpectedFailures,
    r ∈ results ∧ policy.classify r bounds = .ok .unexpectedFailure

/-- Every submission is accounted for, and nothing is blamed. -/
structure Clean (report : AggregateReport) : Prop where
  accounted : report.totalSubmitted.toNat = report.passCount + report.failCount
  unexpected : report.unexpectedFailures = []
  intact : ∀ r ∈ report.failures, r.outcome.failureKind? ≠ some .corruption

variable {policy judge : Policy} {bounds : Option WindowBounds} {n : Nat}
  {results : List OperationResult} {report : AggregateReport} {r : OperationResult}
  {reports : List DriverReport}

/-- The report is made of all results of all reports. -/
theorem covers_of_classify (h : classify reports bounds policy = .ok report) :
    report.Covers policy bounds (DriverReport.submissions reports)
      (DriverReport.delivered reports) := by
  obtain ⟨hsum, hclass, rfl⟩ := classify_eq_ok_iff.1 h
  have hmem (c : Classification) (r : OperationResult)
      (hr : r ∈ (DriverReport.delivered reports).filter (policy.puts bounds c)) :
      r ∈ DriverReport.delivered reports ∧ policy.classify r bounds = .ok c :=
    (List.mem_filter.1 hr).imp_right Policy.puts_iff.1
  refine ⟨rfl, UInt64.toNat_ofNat_of_lt' hsum, ?_, hmem _, hmem _⟩
  rw [passCount_ofReports, failCount_ofReports hclass]
  simpa using (List.length_eq_countP_add_countP OperationResult.isSuccess).symm

/-- Corruption is never excused. -/
theorem classify_corruption (hk : r.outcome.failureKind? = some .corruption) :
    policy.classify r bounds = .ok .unexpectedFailure := by
  simp only [Policy.classify, hk]

theorem Covers.clean (h : report.Covers policy bounds n results) (hn : n = results.length)
    (hok : ∀ r ∈ results, policy.classify r bounds ≠ .ok .unexpectedFailure) : report.Clean := by
  have hunexpected : report.unexpectedFailures = [] := by
    apply List.eq_nil_iff_forall_not_mem.2
    intro r hr
    obtain ⟨hmem, hc⟩ := h.unexpected r hr
    exact hok r hmem hc
  refine ⟨?_, hunexpected, ?_⟩
  · rw [h.submitted, hn, h.count]
  · intro r hr hk
    rw [failures, hunexpected, List.append_nil] at hr
    obtain ⟨hmem, -⟩ := h.expected r hr
    exact hok r hmem (classify_corruption hk)

/-! ## The verdict -/

/-- The first check compares what was submitted with the results that there are. -/
theorem holds_checkAccounted : report.checkAccounted.holds = true ↔
    report.totalSubmitted.toNat = report.passCount + report.failCount := by
  rw [checkAccounted, Check.holds, decide_eq_true_eq, eq_comm]

/-- A clean report passes if it is within the budget, and no other report does. -/
theorem passed_iff_clean : (report.verdict judge).passed = true ↔ report.Clean ∧
    ∀ most, judge.maxExpectedFailures = some most →
      report.expectedFailureCount ≤ most.toNat := by
  have hintact : report.checkNoCorruption.holds = true ↔
      ∀ r ∈ report.failures, r.outcome.failureKind? ≠ some .corruption := by
    simp only [checkNoCorruption, Check.holds, List.isEmpty_iff, List.filter_eq_nil_iff,
      decide_eq_true_eq, ne_eq]
  have hunexpected : report.checkNoUnexpectedFailures.holds = true ↔
      report.unexpectedFailures = [] := List.isEmpty_iff
  have hbudget : (report.checkExpectedWithinBudget judge.maxExpectedFailures).holds = true ↔
      ∀ most, judge.maxExpectedFailures = some most →
        report.expectedFailureCount ≤ most.toNat := by
    simp [checkExpectedWithinBudget, Check.holds, Option.all_eq_true]
  simp only [verdict, Verdict.passed, List.all_cons, List.all_nil, Bool.and_true, Bool.and_eq_true,
    holds_checkAccounted, hintact, hunexpected, hbudget]
  constructor
  · rintro ⟨ha, hi, hu, hb⟩
    exact ⟨⟨ha, hu, hi⟩, hb⟩
  · rintro ⟨⟨ha, hu, hi⟩, hb⟩
    exact ⟨ha, hi, hu, hb⟩

/-- The verdict on a clean report depends on the budget alone. -/
theorem Clean.passed_iff (h : report.Clean) : (report.verdict judge).passed = true ↔
    ∀ most, judge.maxExpectedFailures = some most →
      report.expectedFailureCount ≤ most.toNat :=
  passed_iff_clean.trans (and_iff_right h)

/-- A report is clean if every submission has a result and every failure is excused. -/
theorem clean_iff (h : classify reports bounds policy = .ok report) :
    report.Clean ↔
      DriverReport.submissions reports = (DriverReport.delivered reports).length ∧
        ∀ r ∈ DriverReport.delivered reports, r.isSuccess = false →
          policy.classify r bounds = .ok .expectedFailure := by
  have hcovers := covers_of_classify h
  obtain ⟨-, hclass, rfl⟩ := classify_eq_ok_iff.1 h
  constructor
  · intro hclean
    refine ⟨?_, fun r hr hfailed => ?_⟩
    · rw [← hcovers.submitted, ← hcovers.count, hclean.accounted]
    · obtain ⟨c, hc⟩ := hclass r hr
      cases c with
      | passed =>
        rw [← Policy.puts_iff, Policy.puts_passed, hfailed] at hc
        cases hc
      | expectedFailure => exact hc
      | unexpectedFailure =>
        have hmem : r ∈ (ofReports policy bounds reports).unexpectedFailures :=
          List.mem_filter.2 ⟨hr, Policy.puts_iff.2 hc⟩
        rw [hclean.unexpected] at hmem
        cases hmem
  · rintro ⟨hn, hexcused⟩
    refine hcovers.clean hn fun r hr hc => ?_
    cases hs : r.isSuccess with
    | true =>
      rw [← policy.puts_passed bounds, Policy.puts_iff, hc] at hs
      cases hs
    | false =>
      rw [hexcused r hr hs] at hc
      cases hc

/-- A corrupted read is counted among the unexpected failures and found by both checks. -/
theorem failures_of_corruption (h : classify reports bounds policy = .ok report)
    (hr : r ∈ DriverReport.delivered reports) (hk : r.outcome.failureKind? = some .corruption) :
    .noCorruption ((DriverReport.delivered reports).filter
        (·.outcome.failureKind? = some .corruption)) ∈ (report.verdict judge).failures ∧
      .noUnexpectedFailures ((DriverReport.delivered reports).filter
        (policy.puts bounds .unexpectedFailure)) ∈ (report.verdict judge).failures := by
  obtain ⟨-, -, rfl⟩ := classify_eq_ok_iff.1 h
  have hexpected : (ofReports policy bounds reports).expectedFailures.filter
      (·.outcome.failureKind? = some .corruption) = [] := by
    rw [List.filter_eq_nil_iff]
    intro q hq hkind
    have hc := Policy.puts_iff.1 (List.mem_filter.1 hq).2
    rw [classify_corruption (of_decide_eq_true hkind)] at hc
    cases hc
  have hcorrupted : (ofReports policy bounds reports).checkNoCorruption =
      .noCorruption ((DriverReport.delivered reports).filter
        (·.outcome.failureKind? = some .corruption)) := by
    rw [checkNoCorruption, failures, List.filter_append, hexpected, List.nil_append]
    change Check.noCorruption (((DriverReport.delivered reports).filter _).filter _) = _
    rw [List.filter_filter]
    congr 1
    refine List.filter_congr fun q _ => ?_
    cases hkind : decide (q.outcome.failureKind? = some .corruption) with
    | true => exact Policy.puts_iff.2 (classify_corruption (of_decide_eq_true hkind))
    | false => rfl
  have hunexpected : policy.puts bounds .unexpectedFailure r = true :=
    Policy.puts_iff.2 (classify_corruption hk)
  refine ⟨List.mem_filter.2 ⟨?_, ?_⟩, List.mem_filter.2 ⟨?_, ?_⟩⟩
  · rw [← hcorrupted]
    exact .tail _ (.head _)
  · have hmem : r ∈ (DriverReport.delivered reports).filter
        (·.outcome.failureKind? = some .corruption) := List.mem_filter.2 ⟨hr, decide_eq_true hk⟩
    rw [Check.holds, List.isEmpty_eq_false_iff_exists_mem.2 ⟨r, hmem⟩]
    rfl
  · exact .tail _ (.tail _ (.head _))
  · have hmem := List.mem_filter.2 ⟨hr, hunexpected⟩
    rw [Check.holds, List.isEmpty_eq_false_iff_exists_mem.2 ⟨r, hmem⟩]
    rfl

/-- The verdict on the report passes exactly if every submission has a result, every failure is
excused, and no more of them are than the budget of the verdict allows. A corrupted read makes it
fail, whatever the window and the policies, and two of its checks say so. -/
theorem verdict_exact (h : classify reports bounds policy = .ok report) :
    ((report.verdict judge).passed = true ↔
      DriverReport.submissions reports = (DriverReport.delivered reports).length ∧
        (∀ r ∈ DriverReport.delivered reports, r.isSuccess = false →
          policy.classify r bounds = .ok .expectedFailure) ∧
        ∀ most, judge.maxExpectedFailures = some most →
          (DriverReport.delivered reports).countP (policy.puts bounds .expectedFailure) ≤
            most.toNat) ∧
      ((∃ r ∈ DriverReport.delivered reports, r.outcome.failureKind? = some .corruption) →
        (report.verdict judge).passed = false ∧
          .noCorruption ((DriverReport.delivered reports).filter
            (·.outcome.failureKind? = some .corruption)) ∈ (report.verdict judge).failures ∧
          .noUnexpectedFailures ((DriverReport.delivered reports).filter
            (policy.puts bounds .unexpectedFailure)) ∈ (report.verdict judge).failures) := by
  constructor
  · rw [passed_iff_clean, clean_iff h, and_assoc]
    obtain ⟨-, -, rfl⟩ := classify_eq_ok_iff.1 h
    rw [List.countP_eq_length_filter]
    rfl
  · rintro ⟨r, hr, hk⟩
    refine ⟨?_, failures_of_corruption h hr hk⟩
    rw [← Bool.not_eq_true, passed_iff_clean, clean_iff h]
    rintro ⟨⟨-, hexcused⟩, -⟩
    have hfailed : r.isSuccess = false := by
      cases ho : r.outcome with
      | success => rw [ho] at hk; cases hk
      | failure => rw [OperationResult.isSuccess, ho]; rfl
    have hc := hexcused r hr hfailed
    rw [classify_corruption hk] at hc
    cases hc

/-- A driver of which one read failed while the window was open. -/
def trialRead (kind : FailureKind) : List DriverReport :=
  [{ stream := "reads", submitted := 2
     passed := [trialResult (.success "ok") .preFault]
     failed := [trialResult (.failure kind "read") .open] }]

theorem verdict_exact_trial :
    (∃ report, classify (trialRead .rejected) trialBounds .strict = .ok report ∧
      (report.verdict (Policy.strict.withMaxExpectedFailures 1)).passed = true) ∧
    ∃ report, classify (trialRead .corruption) trialBounds .strict = .ok report ∧
      (report.verdict .strict).passed = false := by
  obtain ⟨excused, hexcused⟩ :
      ∃ report, classify (trialRead .rejected) trialBounds .strict = .ok report := ⟨_, rfl⟩
  obtain ⟨corrupted, hcorrupted⟩ :
      ∃ report, classify (trialRead .corruption) trialBounds .strict = .ok report := ⟨_, rfl⟩
  refine ⟨⟨excused, hexcused, ?_⟩, ⟨corrupted, hcorrupted, ?_⟩⟩
  · refine (verdict_exact hexcused).1.2 ⟨rfl, ?_, ?_⟩
    · intro r hr hfailed
      change r ∈ [trialResult (.success "ok") .preFault,
        trialResult (.failure .rejected "read") .open] at hr
      simp only [List.mem_cons, List.not_mem_nil, or_false] at hr
      rcases hr with rfl | rfl
      · cases hfailed
      · rfl
    · rintro most ⟨⟩
      decide
  · have hmem : trialResult (.failure .corruption "read") .open ∈
        DriverReport.delivered (trialRead .corruption) := .tail _ (.head _)
    exact ((verdict_exact hcorrupted).2 ⟨_, hmem, rfl⟩).1

end AggregateReport

end FaultDrill
