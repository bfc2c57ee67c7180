import FaultDrill.Proofs.Aggregate

/-! # Totals and single reports

The first check of a verdict adds up what all drivers submitted and what all of them delivered. It
passes exactly if the tasks that were lost are as many as the results that came without a task, so
that a loss in one report is made up for by another report with too many results. Where no report
has more results than tasks the check finds every loss.
-/

namespace FaultDrill

namespace DriverReport

/-- The number of tasks without a result. -/
def lost (driver : DriverReport) : Nat := driver.submitted.toNat - driver.results.length

/-- The number of results without a task. -/
def surplus (driver : DriverReport) : Nat := driver.results.length - driver.submitted.toNat

variable {driver : DriverReport} {reports : List DriverReport}

theorem isBalanced_iff : driver.IsBalanced ↔ driver.lost = 0 ∧ driver.surplus = 0 := by
  rw [isBalanced_iff_length, lost, surplus]
  omega

/-- What was submitted and what was delivered differ by what was lost and what came in surplus. -/
theorem submissions_add_surplus (reports : List DriverReport) :
    submissions reports + (reports.map surplus).sum =
      (delivered reports).length + (reports.map lost).sum := by
  induction reports with
  | nil => rfl
  | cons driver reports ih =>
    have hone : driver.submitted.toNat + driver.surplus = driver.results.length + driver.lost := by
      unfold surplus lost
      omega
    simp only [submissions, delivered, List.map_cons, List.sum_cons, List.flatMap_cons,
      List.length_append] at ih ⊢
    omega

theorem sum_map_eq_zero_iff {f : DriverReport → Nat} :
    (reports.map f).sum = 0 ↔ ∀ driver ∈ reports, f driver = 0 := by
  rw [List.sum_eq_zero_iff_forall_eq_nat, List.forall_mem_map]

theorem forall_isBalanced_iff : (∀ driver ∈ reports, driver.IsBalanced) ↔
    (reports.map lost).sum = 0 ∧ (reports.map surplus).sum = 0 := by
  simp only [isBalanced_iff, sum_map_eq_zero_iff]
  exact forall₂_and

end DriverReport

namespace AggregateReport

variable {policy : Policy} {bounds : Option WindowBounds} {reports : List DriverReport}
  {report : AggregateReport}

/-- The first check passes exactly if all reports together came with as many results too many as
they have lost tasks. So every report has as many results as tasks exactly if the check passes and
there is no surplus, or no loss, in any of them. -/
theorem accounting_law (h : classify reports bounds policy = .ok report) :
    (report.checkAccounted.holds = true ↔
      (reports.map DriverReport.lost).sum = (reports.map DriverReport.surplus).sum) ∧
    ((∀ driver ∈ reports, driver.IsBalanced) ↔
      report.checkAccounted.holds = true ∧ ∀ driver ∈ reports, driver.surplus = 0) ∧
    ((∀ driver ∈ reports, driver.IsBalanced) ↔
      report.checkAccounted.holds = true ∧ ∀ driver ∈ reports, driver.lost = 0) := by
  have hcovers := covers_of_classify h
  have hbalance := DriverReport.submissions_add_surplus reports
  have hholds : report.checkAccounted.holds = true ↔
      (reports.map DriverReport.lost).sum = (reports.map DriverReport.surplus).sum := by
    rw [holds_checkAccounted, hcovers.submitted, hcovers.count]
    omega
  refine ⟨hholds, ?_, ?_⟩
  · rw [hholds, DriverReport.forall_isBalanced_iff, ← DriverReport.sum_map_eq_zero_iff]
    omega
  · rw [hholds, DriverReport.forall_isBalanced_iff, ← DriverReport.sum_map_eq_zero_iff]
    omega

/-- The first driver has lost a task, and nothing makes up for it. -/
def trialLoss : List DriverReport :=
  [{ stream := "first", submitted := 2
     passed := [trialResult (.success "ok") .preFault]
     failed := [] },
   { stream := "second", submitted := 1
     passed := []
     failed := [trialResult (.failure .transport "lost") .open] }]

theorem accounting_law_trial :
    (∃ report, classify trialReports trialBounds .strict = .ok report ∧
      ∀ driver ∈ trialReports, driver.IsBalanced) ∧
    ∃ report, classify trialLoss trialBounds .strict = .ok report ∧
      report.checkAccounted.holds = false := by
  obtain ⟨balanced, hbalanced⟩ :
      ∃ report, classify trialReports trialBounds .strict = .ok report := ⟨_, rfl⟩
  obtain ⟨short, hshort⟩ : ∃ report, classify trialLoss trialBounds .strict = .ok report := ⟨_, rfl⟩
  refine ⟨⟨balanced, hbalanced, ?_⟩, ⟨short, hshort, ?_⟩⟩
  · obtain ⟨hholds, hall, -⟩ := accounting_law hbalanced
    exact hall.2 ⟨hholds.2 rfl, by decide⟩
  · rw [← Bool.not_eq_true, (accounting_law hshort).1]
    decide

/-- The first driver has lost its task, and the second one delivers a result without a task. -/
def trialCover : List DriverReport :=
  [{ stream := "first", submitted := 1, passed := [], failed := [] },
   { stream := "second", submitted := 0
     passed := [trialResult (.success "ok") .preFault]
     failed := [] }]

/-- The loss goes unnoticed, by the check and by the whole verdict. -/
theorem loss_covered : ∃ report, classify trialCover none .strict = .ok report ∧
    report.checkAccounted.holds = true ∧ (report.verdict .strict).passed = true ∧
    ∃ driver ∈ trialCover, driver.lost = 1 ∧ ¬ driver.IsBalanced :=
  ⟨_, rfl, rfl, rfl, _, List.mem_cons_self, rfl, nofun⟩

end AggregateReport

end FaultDrill
