import FaultDrill.Record
import FaultDrill.Proofs.Json.Data

/-! # The record of a drill can be read

What is written for the record of a drill is read as that record and says all that is in it, as
long as what it counts fits in a word.
-/

namespace FaultDrill

open Json

theorem WindowBounds.faithful : Faithful WindowBounds.toJson WindowBounds.ofJson? where
  isPlain b := by
    refine isPlain_object ?_
    simp only [List.forall_mem_cons, List.not_mem_nil, false_imp_iff, implies_true, and_true]
    exact ⟨Duration.faithful.isPlain _, Duration.faithful.isPlain_optional _⟩
  decode_encode b := by
    have hcolumns : columns? ["opened_at", "closed_at"] b.toJson =
        some [some b.openedAt.toJson, some (optional Duration.toJson b.closedAt)] :=
      columns?_object rfl (by decide)
    have hclosedAt := Duration.faithful.nullable?_optional (by rintro _ ⟨⟩) b.closedAt
    simp [ofJson?, hcolumns, required?, Duration.faithful.decode_encode, hclosedAt]

namespace DrillRecord

def fieldNames : List String :=
  ["scenario_id", "name", "started_at", "duration", "passed", "submitted", "succeeded",
    "expected_failures", "unexpected_failures", "window", "failed_checks"]

def count? (j : Json) : Option Nat := (word? j).map UInt64.toNat

/-- The record that a value writes. -/
def ofJson? (j : Json) : Option DrillRecord := do
  let [id, name, startedAt, duration, passed, submitted, succeeded, expected, unexpected, window,
      failedChecks] ← columns? fieldNames j
    | none
  some {
    id := ← required? text? id
    name := ← required? text? name
    startedAt := ← required? count? startedAt
    duration := ← required? Duration.ofJson? duration
    passed := ← required? bool? passed
    submitted := ← required? word? submitted
    succeeded := ← required? count? succeeded
    expectedFailures := ← required? count? expected
    unexpectedFailures := ← required? count? unexpected
    window := ← nullable? WindowBounds.ofJson? window
    failedChecks := ← required? (list? text?) failedChecks }

/-- What it counts fits in a word. -/
structure Fits (r : DrillRecord) : Prop where
  startedAt : r.startedAt < UInt64.size
  succeeded : r.succeeded < UInt64.size
  expectedFailures : r.expectedFailures < UInt64.size
  unexpectedFailures : r.unexpectedFailures < UInt64.size

variable {r : DrillRecord}

theorem Fits.isPlain (h : r.Fits) : r.toJson.IsPlain := by
  refine isPlain_object ?_
  simp only [List.forall_mem_cons, List.not_mem_nil, false_imp_iff, implies_true, and_true]
  exact ⟨isPlain_text _, isPlain_text _, isPlain_nat h.startedAt, Duration.faithful.isPlain _,
    isPlain_bool _, isPlain_word _, isPlain_nat h.succeeded, isPlain_nat h.expectedFailures,
    isPlain_nat h.unexpectedFailures, WindowBounds.faithful.isPlain_optional _,
    faithful_text.isPlain_map _⟩

theorem Fits.ofJson?_toJson (h : r.Fits) : ofJson? r.toJson = some r := by
  have hcolumns : columns? fieldNames r.toJson =
      some [some (.text r.id), some (.text r.name), some (nat r.startedAt),
        some r.duration.toJson, some (.bool r.passed), some (word r.submitted),
        some (nat r.succeeded), some (nat r.expectedFailures), some (nat r.unexpectedFailures),
        some (optional WindowBounds.toJson r.window),
        some (.array (r.failedChecks.map .text))] := columns?_object rfl (by decide)
  have hwindow := WindowBounds.faithful.nullable?_optional (by rintro _ ⟨⟩) r.window
  simp [ofJson?, hcolumns, required?, count?, text?, bool?, word?_word, word?_nat h.startedAt,
    word?_nat h.succeeded, word?_nat h.expectedFailures, word?_nat h.unexpectedFailures,
    Duration.faithful.decode_encode, hwindow, faithful_text.list?_map]

end DrillRecord

end FaultDrill
