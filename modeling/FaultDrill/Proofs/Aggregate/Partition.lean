import Mathlib.Algebra.GroupWithZero.Nat
import FaultDrill.Report

/-! # The classes of an aggregated report

The policy sorts the results of all reports into three lists, which keep the order of delivery. A
report is made whenever the submissions can be added up and every result has a class, and then it
is determined by the results alone.
-/

namespace FaultDrill

theorem bind_eq_ok_iff {ε α β : Type} {x : Except ε α} {f : α → Except ε β} {b : β} :
    x >>= f = .ok b ↔ ∃ a, x = .ok a ∧ f a = .ok b := by
  cases x <;> simp [bind, Except.bind]

/-- The results of all reports, in the order in which they are delivered. -/
def DriverReport.delivered (reports : List DriverReport) : List OperationResult :=
  reports.flatMap results

/-- What was submitted according to all reports. -/
def DriverReport.submissions (reports : List DriverReport) : Nat :=
  (reports.map fun driver => driver.submitted.toNat).sum

/-- The report has as many results as tasks. -/
def DriverReport.IsBalanced (driver : DriverReport) : Prop :=
  driver.submitted.toNat = driver.passed.length + driver.failed.length

/-- The results that began in a phase, counted. -/
def PhaseTally.ofResults (results : List OperationResult) (phase : WindowPhase) : PhaseTally where
  phase
  passed := results.countP fun r => decide (r.phaseAtStart = phase) && r.isSuccess
  failed := results.countP fun r => decide (r.phaseAtStart = phase) && !r.isSuccess

/-- The policy puts the result into this class. -/
def Policy.puts (p : Policy) (bounds : Option WindowBounds) (c : Classification)
    (r : OperationResult) : Bool :=
  match p.classify r bounds with
  | .ok c' => c' = c
  | .error _ => false

variable {policy : Policy} {bounds : Option WindowBounds} {c : Classification}
  {r : OperationResult} {results rest : List OperationResult} {streams : List String}
  {total : UInt64} {report : AggregateReport} {driver : DriverReport}
  {reports before : List DriverReport}

theorem DriverReport.submissions_snoc :
    submissions (before ++ [driver]) = submissions before + driver.submitted.toNat := by
  simp [submissions]

theorem DriverReport.delivered_snoc :
    delivered (before ++ [driver]) = delivered before ++ driver.results := by
  simp [delivered]

theorem DriverReport.isBalanced_iff_length :
    driver.IsBalanced ↔ driver.submitted.toNat = driver.results.length := by
  rw [IsBalanced, results, List.length_append]

/-- Where every report is balanced, all of them together are. -/
theorem DriverReport.length_delivered (h : ∀ driver ∈ reports, driver.IsBalanced) :
    (delivered reports).length = submissions reports := by
  rw [delivered, List.length_flatMap, submissions]
  refine congrArg List.sum (List.map_congr_left fun driver hdriver => ?_)
  exact (isBalanced_iff_length.1 (h driver hdriver)).symm

theorem PhaseTally.count_ofResults (phase : WindowPhase) :
    (ofResults results phase).count r = ofResults (results ++ [r]) phase := by
  unfold count ofResults
  by_cases hp : r.phaseAtStart = phase
  · cases hs : r.isSuccess <;> simp [hp, hs]
  · simp [hp, Ne.symm hp]

theorem Policy.puts_iff : policy.puts bounds c r = true ↔ policy.classify r bounds = .ok c := by
  unfold puts
  split
  case h_1 h => simp [h]
  case h_2 h => simp [h]

/-- A failure is not among the results that passed. -/
theorem Policy.classify_ne_passed {kind : FailureKind} (hk : r.outcome.failureKind? = some kind) :
    policy.classify r bounds ≠ .ok .passed := by
  intro h
  unfold classify at h
  rw [hk] at h
  split at h
  case h_1 hnone => cases hnone
  case h_2 | h_3 => cases h
  case h_4 bounds _ _ =>
    split at h
    case isTrue => cases h
    case isFalse =>
      cases hstop : policy.widenedClose bounds with
      | error => rw [hstop] at h; cases h
      | ok stop =>
        rw [hstop] at h
        dsimp only [bind, Except.bind] at h
        split at h
        case isTrue => cases h
        case isFalse => split at h <;> cases h

/-- Those that succeeded have passed, and no others. -/
theorem Policy.puts_passed (policy : Policy) (bounds : Option WindowBounds)
    (r : OperationResult) : policy.puts bounds .passed r = r.isSuccess := by
  rw [Bool.eq_iff_iff, puts_iff]
  unfold OperationResult.isSuccess
  cases ho : r.outcome with
  | success => simp [classify, ho, Outcome.failureKind?, Outcome.isSuccess]
  | failure kind =>
    have hk : r.outcome.failureKind? = some kind := by rw [ho]; rfl
    exact iff_of_false (classify_ne_passed hk) nofun

namespace AggregateReport

/-- The list of the report for this class. -/
def ofClass (report : AggregateReport) : Classification → List OperationResult
  | .passed => report.passed
  | .expectedFailure => report.expectedFailures
  | .unexpectedFailure => report.unexpectedFailures

/-- The report in which every result is in its class. -/
def sorted (policy : Policy) (bounds : Option WindowBounds) (streams : List String)
    (total : UInt64) (results : List OperationResult) : AggregateReport where
  streams
  totalSubmitted := total
  passed := results.filter (policy.puts bounds .passed)
  expectedFailures := results.filter (policy.puts bounds .expectedFailure)
  unexpectedFailures := results.filter (policy.puts bounds .unexpectedFailure)
  phases := WindowPhase.all.map (PhaseTally.ofResults results)
  window := bounds

/-- The report that is made of these reports. -/
def ofReports (policy : Policy) (bounds : Option WindowBounds) (reports : List DriverReport) :
    AggregateReport :=
  sorted policy bounds (reports.map DriverReport.stream)
    (.ofNat (DriverReport.submissions reports)) (DriverReport.delivered reports)

theorem ofClass_sorted :
    (sorted policy bounds streams total results).ofClass c =
      results.filter (policy.puts bounds c) := by
  cases c <;> rfl

/-- A result that has a class joins it. -/
theorem add_sorted (hc : policy.classify r bounds = .ok c) :
    (sorted policy bounds streams total results).add policy r =
      .ok (sorted policy bounds streams total (results ++ [r])) := by
  have hphases : (WindowPhase.all.map (PhaseTally.ofResults results)).map (PhaseTally.count r) =
      WindowPhase.all.map (PhaseTally.ofResults (results ++ [r])) := by
    rw [List.map_map]
    exact List.map_congr_left fun phase _ => PhaseTally.count_ofResults phase
  have hfilter (c' : Classification) : (results ++ [r]).filter (policy.puts bounds c') =
      results.filter (policy.puts bounds c') ++ if c = c' then [r] else [] := by
    by_cases h : c = c' <;> simp [Policy.puts, hc, h]
  unfold add
  simp only [sorted, hc, hphases, hfilter]
  cases c <;> simp [bind, Except.bind]

/-- All results are sorted into their classes if they have one, and otherwise there is no report. -/
theorem foldlM_add_eq_ok_iff :
    rest.foldlM (add policy) (sorted policy bounds streams total results) = .ok report ↔
      (∀ r ∈ rest, ∃ c, policy.classify r bounds = .ok c) ∧
        report = sorted policy bounds streams total (results ++ rest) := by
  induction rest generalizing results with
  | nil => simp [pure, Except.pure, eq_comm]
  | cons r rest ih =>
    rw [List.foldlM_cons]
    cases hc : policy.classify r bounds with
    | error crash =>
      have hadd : (sorted policy bounds streams total results).add policy r = .error crash := by
        unfold add
        rw [show (sorted policy bounds streams total results).window = bounds from rfl, hc]
        rfl
      rw [hadd]
      simp [hc, bind, Except.bind]
    | ok c =>
      rw [add_sorted hc]
      simpa [hc, bind, Except.bind] using @ih (results ++ [r])

/-- One report more, unless there are more submissions than can be counted. -/
theorem addDriver_eq_ok_iff (hbefore : DriverReport.submissions before < UInt64.size) :
    (ofReports policy bounds before).addDriver policy driver = .ok report ↔
      DriverReport.submissions (before ++ [driver]) < UInt64.size ∧
        (∀ r ∈ driver.results, ∃ c, policy.classify r bounds = .ok c) ∧
        report = ofReports policy bounds (before ++ [driver]) := by
  have htotal : (ofReports policy bounds before).totalSubmitted.toNat + driver.submitted.toNat =
      DriverReport.submissions (before ++ [driver]) := by
    rw [DriverReport.submissions_snoc]
    congr 1
    exact UInt64.toNat_ofNat_of_lt' hbefore
  unfold addDriver
  dsimp only
  rw [htotal]
  split
  case isTrue hlt =>
    rw [and_iff_right hlt]
    unfold ofReports
    rw [DriverReport.delivered_snoc, List.map_append]
    exact foldlM_add_eq_ok_iff
  case isFalse hle => simp [hle]

theorem foldlM_addDriver_eq_ok_iff (hbefore : DriverReport.submissions before < UInt64.size) :
    reports.foldlM (addDriver policy) (ofReports policy bounds before) = .ok report ↔
      DriverReport.submissions (before ++ reports) < UInt64.size ∧
        (∀ r ∈ DriverReport.delivered reports, ∃ c, policy.classify r bounds = .ok c) ∧
        report = ofReports policy bounds (before ++ reports) := by
  induction reports generalizing before with
  | nil => simp [pure, Except.pure, hbefore, DriverReport.delivered, eq_comm]
  | cons driver reports ih =>
    have hcons : before ++ driver :: reports = (before ++ [driver]) ++ reports := by simp
    have hmem : DriverReport.delivered (driver :: reports) =
        driver.results ++ DriverReport.delivered reports := by simp [DriverReport.delivered]
    rw [List.foldlM_cons, bind_eq_ok_iff, hcons, hmem, List.forall_mem_append]
    constructor
    · rintro ⟨_, hadd, hrest⟩
      obtain ⟨hlt, hdriver, rfl⟩ := (addDriver_eq_ok_iff hbefore).1 hadd
      obtain ⟨hall, hclass, hreport⟩ := (ih hlt).1 hrest
      exact ⟨hall, ⟨hdriver, hclass⟩, hreport⟩
    · rintro ⟨hall, ⟨hdriver, hclass⟩, hreport⟩
      have hlt : DriverReport.submissions (before ++ [driver]) < UInt64.size := by
        refine Nat.lt_of_le_of_lt ?_ hall
        simp [DriverReport.submissions]
      exact ⟨_, (addDriver_eq_ok_iff hbefore).2 ⟨hlt, hdriver, rfl⟩,
        (ih hlt).2 ⟨hall, hclass, hreport⟩⟩

/-- A report is made of other reports exactly if their submissions can be added up and every result
has a class, and it is the one in which every result is in its class. -/
theorem classify_eq_ok_iff :
    classify reports bounds policy = .ok report ↔
      DriverReport.submissions reports < UInt64.size ∧
        (∀ r ∈ DriverReport.delivered reports, ∃ c, policy.classify r bounds = .ok c) ∧
        report = ofReports policy bounds reports :=
  foldlM_addDriver_eq_ok_iff (show DriverReport.submissions [] < UInt64.size by decide)

/-! ## Nothing is lost -/

/-- Every result began in one phase. -/
theorem sum_phases (f : OperationResult → Bool) :
    (WindowPhase.all.map fun phase =>
      results.countP fun r => decide (r.phaseAtStart = phase) && f r).sum = results.countP f := by
  simp only [WindowPhase.all, List.map_cons, List.map_nil, List.sum_cons, List.sum_nil]
  induction results with
  | nil => rfl
  | cons r results ih =>
    simp only [List.countP_cons]
    cases r.phaseAtStart <;> cases f r <;> simp <;> omega

/-- A failure that has a class is excused or not. -/
theorem countP_failures (hclass : ∀ r ∈ results, ∃ c, policy.classify r bounds = .ok c) :
    results.countP (policy.puts bounds .expectedFailure) +
      results.countP (policy.puts bounds .unexpectedFailure) =
        results.countP fun r => !r.isSuccess := by
  induction results with
  | nil => rfl
  | cons r results ih =>
    rw [List.forall_mem_cons] at hclass
    obtain ⟨⟨c, hc⟩, hclass⟩ := hclass
    have hsuccess := policy.puts_passed bounds r
    have ih := ih hclass
    simp only [List.countP_cons, ← hsuccess]
    cases c <;> simp [Policy.puts, hc] <;> omega

/-- What succeeded has passed. -/
theorem passed_ofReports : (ofReports policy bounds reports).passed =
    (DriverReport.delivered reports).filter OperationResult.isSuccess :=
  List.filter_congr fun r _ => policy.puts_passed bounds r

theorem passCount_ofReports : (ofReports policy bounds reports).passCount =
    (DriverReport.delivered reports).countP OperationResult.isSuccess := by
  rw [passCount, passed_ofReports, List.countP_eq_length_filter]

theorem failCount_ofReports
    (hclass : ∀ r ∈ DriverReport.delivered reports, ∃ c, policy.classify r bounds = .ok c) :
    (ofReports policy bounds reports).failCount =
      (DriverReport.delivered reports).countP fun r => !r.isSuccess := by
  rw [← countP_failures hclass, List.countP_eq_length_filter, List.countP_eq_length_filter]
  rfl

/-- Every result of every report is in the list of its class as often as it was delivered, and in no
other list. The lists keep the order of delivery, and what succeeded has passed. The tallies, the
streams and the submissions are those of the reports. -/
theorem classify_partition (hsum : DriverReport.submissions reports < UInt64.size)
    (hclass : ∀ r ∈ DriverReport.delivered reports, ∃ c, policy.classify r bounds = .ok c) :
    ∃ report, classify reports bounds policy = .ok report ∧
      (∀ r ∈ DriverReport.delivered reports, ∃ c, policy.classify r bounds = .ok c ∧
        (report.ofClass c).count r = (DriverReport.delivered reports).count r ∧
        ∀ c' ≠ c, r ∉ report.ofClass c') ∧
      (∀ c, (report.ofClass c).Sublist (DriverReport.delivered reports)) ∧
      report.passed = (DriverReport.delivered reports).filter OperationResult.isSuccess ∧
      report.totalSubmitted.toNat = DriverReport.submissions reports ∧
      report.streams = reports.map DriverReport.stream ∧
      report.phases = WindowPhase.all.map (PhaseTally.ofResults (DriverReport.delivered reports)) ∧
      (report.phases.map PhaseTally.passed).sum = report.passCount ∧
      (report.phases.map PhaseTally.failed).sum = report.failCount := by
  refine ⟨_, classify_eq_ok_iff.2 ⟨hsum, hclass, rfl⟩, ?_, ?_, passed_ofReports, ?_, rfl, rfl,
    ?_, ?_⟩
  · intro r hr
    obtain ⟨c, hc⟩ := hclass r hr
    refine ⟨c, hc, ?_, fun c' hne hmem => ?_⟩
    · rw [ofReports, ofClass_sorted]
      exact List.count_filter (Policy.puts_iff.2 hc)
    · rw [ofReports, ofClass_sorted, List.mem_filter, Policy.puts_iff, hc] at hmem
      exact hne (Except.ok.inj hmem.2).symm
  · intro c
    rw [ofReports, ofClass_sorted]
    exact List.filter_sublist
  · exact UInt64.toNat_ofNat_of_lt' hsum
  · rw [passCount_ofReports]
    exact sum_phases OperationResult.isSuccess
  · rw [failCount_ofReports hclass]
    exact sum_phases fun r => !r.isSuccess

/-! ## A trial -/

def trialResult (outcome : Outcome) (phase : WindowPhase) : OperationResult where
  taskId := .first
  stream := "trial"
  kind := .read
  target := ⟨"bucket", "key"⟩
  written := none
  outcome
  startedAt := .zero
  finishedAt := .zero
  phaseAtStart := phase

/-- Two drivers; the first has its results in the wrong lists. -/
def trialReports : List DriverReport :=
  [{ stream := "first", submitted := 2
     passed := [trialResult (.failure .rejected "no") .open]
     failed := [trialResult (.success "ok") .preFault] },
   { stream := "second", submitted := 1
     passed := []
     failed := [trialResult (.failure .transport "lost") .postFault] }]

def trialBounds : Option WindowBounds := some ⟨.ofMillis 1, some (.ofMillis 2)⟩

theorem classify_partition_trial :
    DriverReport.submissions trialReports < UInt64.size ∧
      (∀ r ∈ DriverReport.delivered trialReports,
        ∃ c, Policy.strict.classify r trialBounds = .ok c) ∧
      ∃ report, classify trialReports trialBounds .strict = .ok report ∧
        report.passed = [trialResult (.success "ok") .preFault] ∧
        report.streams = ["first", "second"] ∧ (report.phases.map PhaseTally.failed).sum = 2 := by
  have hsum : DriverReport.submissions trialReports < UInt64.size := by decide
  have hclass : ∀ r ∈ DriverReport.delivered trialReports,
      ∃ c, Policy.strict.classify r trialBounds = .ok c := by
    intro r hr
    change r ∈ [trialResult (.failure .rejected "no") .open, trialResult (.success "ok") .preFault,
      trialResult (.failure .transport "lost") .postFault] at hr
    simp only [List.mem_cons, List.not_mem_nil, or_false] at hr
    rcases hr with rfl | rfl | rfl
    · exact ⟨.expectedFailure, rfl⟩
    · exact ⟨.passed, rfl⟩
    · exact ⟨.unexpectedFailure, rfl⟩
  obtain ⟨report, hreport, -, -, hpassed, -, hstreams, hphases, -⟩ :=
    classify_partition hsum hclass
  refine ⟨hsum, hclass, report, hreport, hpassed, hstreams, ?_⟩
  rw [hphases]
  decide

end AggregateReport

end FaultDrill
