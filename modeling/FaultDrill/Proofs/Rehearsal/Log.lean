import FaultDrill.LoggedRehearsal
import FaultDrill.Proofs.Record
import FaultDrill.Proofs.Rehearsal.Story
import FaultDrill.Proofs.Sink

/-! # The log of a run

A run appends every event to its log when it is logged, and nothing else until it appends the
record and returns. So the lines of a run that has ended well tell the story of its rehearsal, and
the record that is read from the last of them agrees with it.
-/

namespace FaultDrill

theorem RehearsalSummary.passed_record (summary : RehearsalSummary) (id name : String)
    (started : Int) (duration : Duration) :
    (summary.record id name started duration).passed = summary.passed := by
  rw [Bool.eq_iff_iff]
  simp [record, DrillRecord.ofReport, passed, Verdict.passed, Verdict.failures]

namespace LoggedRehearsal

open EventLog
open Rehearsal (streamNames prologue epilogue Interleaves)

/-- What the log has, behind what the file had before. -/
inductive Keeps (before : List UInt8) (x : LoggedRehearsal) : Prop
  | events : x.returned = none → x.sink.Holds before (x.rehearsal.world.log.map Event.toJson) →
      Keeps before x
  | record {summary : RehearsalSummary} : x.rehearsal.result? = some (.ok summary) →
      x.returned = some (.ok (x.record summary).passed) →
      x.sink.Holds before (x.rehearsal.world.log.map Event.toJson ++ [(x.record summary).toJson]) →
      Keeps before x
  | failed {failure : RehearsalFailure} : x.returned = some (.error failure) → Keeps before x

/-- The run is one of this rehearsal, and its log is behind this content. -/
structure IsOf (x : LoggedRehearsal) (config : Config) (options : RehearsalOptions) (id : String)
    (started : Int64) (content : Option ByteArray) : Prop where
  rehearsal : (Rehearsal.start config options).Reachable x.rehearsal
  id : x.id = id
  started : x.started = started
  keeps : x.Keeps (content.getD .empty).data.toList

variable {config : Config} {options : RehearsalOptions} {id : String} {started : Int64}
  {content : Option ByteArray} {before : List UInt8} {x x' : LoggedRehearsal} {next : Rehearsal}
  {passed : Bool}

/-! ## One move -/

theorem Keeps.advance {m : Rehearsal.Move} (hgoes : x.returned = none) (h : x.Keeps before)
    (hm : x.rehearsal.move? m = some next) : (x.advance next).Keeps before := by
  cases h with
  | record _ hreturned | failed hreturned => cases hgoes.symm.trans hreturned
  | events _ hholds =>
    obtain ⟨es, hes⟩ := Rehearsal.log_extends_of_move? hm
    have hnews : x.news next = es := by rw [news, ← hes, List.drop_left]
    have hsink : (x.advance next).sink = es.foldl .emit x.sink := by
      rw [LoggedRehearsal.advance, hnews]
    refine .events hgoes ?_
    rw [hsink, show (x.advance next).rehearsal = next from rfl, ← hes, List.map_append]
    exact hholds.emit es

theorem Keeps.finish {result : Except RehearsalFailure RehearsalSummary}
    (hgoes : x.returned = none) (h : x.Keeps before) (hresult : x.rehearsal.result? = some result) :
    (x.finish result).Keeps before := by
  cases h with
  | record _ hreturned | failed hreturned => cases hgoes.symm.trans hreturned
  | events _ hholds =>
    cases result with
    | ok summary => exact .record hresult rfl (hholds.writeLine _)
    | error failure => exact .failed rfl

theorem IsOf.move {m : Move} (h : x.IsOf config options id started content)
    (hm : x.move? m = some x') : x'.IsOf config options id started content := by
  unfold move? at hm
  split at hm
  case isTrue => cases hm
  case isFalse hgoes =>
    have hgoes : x.returned = none := by simpa using hgoes
    cases m with
    | rehearse m =>
      obtain ⟨next, hnext, rfl⟩ := Option.map_eq_some_iff.1 hm
      exact ⟨h.rehearsal.move m hnext, h.id, h.started, h.keeps.advance hgoes hnext⟩
    | finish =>
      obtain ⟨result, hresult, rfl⟩ := Option.map_eq_some_iff.1 hm
      exact ⟨h.rehearsal, h.id, h.started, h.keeps.finish hgoes hresult⟩

theorem Reachable.isOf (h : Reachable (start config options id started content) x) :
    x.IsOf config options id started content := by
  induction h with
  | refl => exact ⟨.refl, rfl, rfl, .events rfl (LogSink.holds_create content)⟩
  | move m _ hm ih => exact ih.move hm

/-- Whatever a rehearsal comes to, a run of it comes to that too before it returns. -/
theorem exists_of_rehearsal {r : Rehearsal} (h : (Rehearsal.start config options).Reachable r)
    (id : String) (started : Int64) (content : Option ByteArray) :
    ∃ x, Reachable (start config options id started content) x ∧ x.rehearsal = r ∧
      x.returned = none := by
  induction h with
  | refl => exact ⟨_, .refl, rfl, rfl⟩
  | @move r next m _ hm ih =>
    obtain ⟨x, hx, rfl, hgoes⟩ := ih
    refine ⟨x.advance next, hx.move (.rehearse m) ?_, rfl, hgoes⟩
    rw [move?, hgoes]
    exact congrArg (Option.map x.advance) hm

/-! ## The whole run -/

theorem fits_record {summary : RehearsalSummary} {succeeded expected unexpected : UInt64}
    (hsucceeded : succeeded.toNat = summary.report.passCount)
    (hexpected : expected.toNat = summary.report.expectedFailureCount)
    (hunexpected : unexpected.toNat = summary.report.unexpectedFailureCount) :
    (x.record summary).Fits where
  startedAt := by
    have hlt := x.started.toInt_lt
    change x.started.toInt.toNat < 18446744073709551616
    omega
  succeeded := hsucceeded.symm.trans_lt succeeded.toNat_lt_size
  expectedFailures := hexpected.symm.trans_lt expected.toNat_lt_size
  unexpectedFailures := hunexpected.symm.trans_lt unexpected.toNat_lt_size

/-- The lines that a run has appended once its rehearsal has ended well. First they tell how it
started and how the preload went, then what the streams and the fault did, in some order, and after
all of that what was reported and that the component is back. The last line is the record. What the
lines count agrees, and the record says that the run has passed exactly if it returns so. -/
theorem Reachable.one_story (h : Reachable (start config options id started content) x)
    (hreturned : x.returned = some (.ok passed)) :
    ∃ (lines : List (List UInt8)) (last : List UInt8) (record : DrillRecord)
      (preload reads writes deletes : DriverReport) (fault : FaultRecord)
      (opened closed succeeded expected unexpected : UInt64) (between : List Event),
      x.sink.close.data.toList = (content.getD .empty).data.toList ++
        (lines ++ [last]).flatMap (· ++ [lineBreak]) ∧
      (∀ line ∈ lines ++ [last], lineBreak ∉ line) ∧
      lines.map parse? = (prologue options.name preload ++ between ++
        epilogue succeeded expected unexpected fault.component).map some ∧
      (value? last).bind DrillRecord.ofJson? = some record ∧
      [preload, reads, writes, deletes].map DriverReport.stream = streamNames ∧
      Interleaves [reads, writes, deletes] (fault.account opened closed) between ∧
      record.id = id ∧ record.name = options.name ∧
      succeeded.toNat = record.succeeded ∧ expected.toNat = record.expectedFailures ∧
      unexpected.toNat = record.unexpectedFailures ∧
      succeeded.toNat + expected.toNat + unexpected.toNat = record.submitted.toNat ∧
      record.submitted.toNat =
        reads.submitted.toNat + writes.submitted.toNat + deletes.submitted.toNat ∧
      record.passed = passed ∧ (record.passed = true ↔ record.failedChecks = []) ∧
      ∃ summary, x.rehearsal.result? = some (.ok summary) ∧ record = x.record summary ∧
        summary.passed = passed := by
  have hx := h.isOf
  cases hx.keeps with
  | events hnone | failed hnone => cases hreturned.symm.trans hnone
  | @record summary hresult hpassed hholds =>
    obtain rfl : passed = (x.record summary).passed := by
      rw [hreturned] at hpassed
      cases hpassed
      rfl
    obtain ⟨preload, reads, writes, deletes, fault, opened, closed, succeeded, expected, unexpected,
      between, hnames, hlog, hinterleaves, hsucceeded, hexpected, hunexpected, htotal,
      hsubmitted⟩ := hx.rehearsal.log_eq hresult
    have hfits : (x.record summary).Fits := fits_record hsucceeded hexpected hunexpected
    have hfile : x.sink.close.data.toList = (content.getD .empty).data.toList ++
        (x.rehearsal.world.log.map line ++ [lineOf (x.record summary).toJson]).flatMap
          (· ++ [lineBreak]) := by
      rw [hholds.close, List.map_append, map_toJson, List.map_singleton]
    have hbreak : ∀ l ∈ x.rehearsal.world.log.map line ++ [lineOf (x.record summary).toJson],
        lineBreak ∉ l := by
      intro l hl
      rcases List.mem_append.1 hl with hl | hl
      · obtain ⟨e, -, rfl⟩ := List.mem_map.1 hl
        exact lineBreak_not_mem_line e
      · cases List.mem_singleton.1 hl
        exact lineBreak_not_mem_lineOf hfits.isPlain
    have hlines : (x.rehearsal.world.log.map line).map parse? =
        x.rehearsal.world.log.map some := by
      rw [List.map_map]
      exact List.map_congr_left fun e _ => parse?_line e
    have hlast : (value? (lineOf (x.record summary).toJson)).bind DrillRecord.ofJson? =
        some (x.record summary) := by
      rw [value?_lineOf hfits.isPlain, Option.bind_some, hfits.ofJson?_toJson]
    have hname : (x.record summary).name = options.name :=
      congrArg RehearsalOptions.name hx.rehearsal.told.options
    exact ⟨_, _, x.record summary, preload, reads, writes, deletes, fault, opened, closed,
      succeeded, expected, unexpected, between, hfile, hbreak, hlog ▸ hlines, hlast, hnames,
      hinterleaves, hx.id, hname, hsucceeded, hexpected, hunexpected, htotal, hsubmitted, rfl,
      List.isEmpty_iff, summary, hresult, rfl, (summary.passed_record ..).symm⟩

/-- In the trial two failures are reported, and the log tells of them between the streams. -/
theorem one_story_trial : ∃ x passed,
    Reachable (start Rehearsal.trialConfig { preload := 1 } "trial" 0 none) x ∧
    x.returned = some (.ok passed) ∧
    ∃ (lines : List (List UInt8)) (last : List UInt8) (record : DrillRecord)
      (preload : DriverReport) (fault : FaultRecord) (passed unexpected : UInt64)
      (between : List Event),
      x.sink.close.data.toList = (lines ++ [last]).flatMap (· ++ [lineBreak]) ∧
      lines.map parse? = (prologue "multi-data-pod-failure" preload ++ between ++
        epilogue passed 2 unexpected fault.component).map some ∧
      (value? last).bind DrillRecord.ofJson? = some record ∧ record.expectedFailures = 2 := by
  have hend : ((Rehearsal.start Rehearsal.trialConfig { preload := 1 }).moves?
      Rehearsal.trialMoves).any (fun r => (r.result?.bind Except.toOption).any (fun summary =>
        summary.report.expectedFailureCount = 2)) = true := by decide +kernel
  obtain ⟨r, hr, hend⟩ := (Option.any_eq_true _ _).1 hend
  obtain ⟨summary, hsummary, hcount⟩ := (Option.any_eq_true _ _).1 hend
  obtain ⟨result, hresult, hok⟩ := Option.bind_eq_some_iff.1 hsummary
  obtain rfl := toOption_eq_some hok
  obtain ⟨x, hx, rfl, hgoes⟩ := exists_of_rehearsal (.of_moves? .refl hr) "trial" 0 none
  have hfinish : x.move? .finish = some (x.finish (.ok summary)) := by
    rw [move?, hgoes]
    exact congrArg (Option.map x.finish) hresult
  have hreached := hx.move .finish hfinish
  obtain ⟨lines, last, record, preload, reads, writes, deletes, fault, opened, closed, succeeded,
    expected, unexpected, between, hfile, -, hlines, hlast, -, -, -, -, -, hexpected, -, -, -, -,
    -, summary', hsummary', rfl, -⟩ := hreached.one_story rfl
  obtain rfl : summary = summary' := by
    cases hresult.symm.trans hsummary'
    rfl
  have htwo : (x.record summary).expectedFailures = 2 := of_decide_eq_true hcount
  obtain rfl : expected = 2 := UInt64.toNat_inj.1 (hexpected.trans htwo)
  exact ⟨_, _, hreached, rfl, lines, last, _, preload, fault, succeeded, unexpected, between, hfile,
    hlines, hlast, htwo⟩

end LoggedRehearsal

end FaultDrill
