import FaultDrill.Sink
import FaultDrill.Proofs.Json.Data

/-! # A log can be read

Whatever is in an event, it takes one line of the log, and the line is read as the event. So a log
that was written in any number of sittings holds the events of all of them, behind what was in the
file before.
-/

namespace FaultDrill

/-! ## Lines -/

namespace Json

theorem lineBreak_not_mem_escape (c : Char) : '\n' ∉ escape c := by
  rcases escape_cases c with ⟨e, hescape, -, -, hn⟩ | ⟨hlow, hescape⟩ | ⟨-, -, hc, hescape⟩
  · simp [hescape, Ne.symm hn]
  · have hall : ∀ n < 0x20, '\n' ∉ escapeHex n := by decide
    rw [hescape]
    exact hall c.toNat hlow
  · rw [hescape, List.mem_singleton]
    rintro rfl
    exact absurd hc (by decide)

theorem Token.IsPlain.lineBreak_not_mem {t : Token} (h : t.IsPlain) : '\n' ∉ t.chars := by
  cases t with
  | number n =>
    cases n with
    | integer i =>
      intro hmem
      exact absurd (isNumberChar_of_mem hmem) (by decide)
    | decimal => exact h.elim
  | text s =>
    simp only [Token.chars, List.mem_cons, List.mem_append, List.mem_flatMap, List.not_mem_nil,
      or_false, not_or]
    refine ⟨by decide, ?_, by decide⟩
    rintro ⟨c, -, hc⟩
    exact lineBreak_not_mem_escape c hc
  | illFormed => exact h.elim
  | bool b => cases b <;> decide
  | _ => decide

/-- A plain value takes one line. -/
theorem IsPlain.lineBreak_not_mem {v : Json} (h : v.IsPlain) : '\n' ∉ v.render.toList := by
  rw [render, String.toList_ofList, List.mem_flatMap]
  rintro ⟨t, ht, hmem⟩
  exact (h t ht).lineBreak_not_mem hmem

end Json

namespace EventLog

theorem lineBreak_not_mem_utf8 {c : Char} (h : c ≠ '\n') :
    lineBreak ∉ String.utf8EncodeChar c := by
  have byte {n : Nat} (hlow : 10 ≠ n % 256) : lineBreak ≠ UInt8.ofNat n := by
    intro heq
    have := congrArg UInt8.toNat heq
    rw [UInt8.toNat_ofNat'] at this
    exact hlow this
  have hval : c.val.toNat ≠ 10 := by
    intro heq
    exact h (by rw [← Char.ofNat_toNat c, show c.toNat = 10 from heq])
  unfold String.utf8EncodeChar
  simp only
  split
  · rw [List.mem_singleton]
    exact byte (by omega)
  · split
    · simp only [List.mem_cons, List.not_mem_nil, or_false, not_or]
      exact ⟨byte (by omega), byte (by omega)⟩
    · split
      · simp only [List.mem_cons, List.not_mem_nil, or_false, not_or]
        exact ⟨byte (by omega), byte (by omega), byte (by omega)⟩
      · simp only [List.mem_cons, List.not_mem_nil, or_false, not_or]
        exact ⟨byte (by omega), byte (by omega), byte (by omega), byte (by omega)⟩

end EventLog

/-! ## Events -/

namespace Event

theorem isPlain (e : Event) : e.toJson.IsPlain := by
  refine Json.isPlain_object fun kv hkv => ?_
  rcases List.mem_cons.1 hkv with rfl | hkv
  · exact Json.isPlain_text _
  · cases e <;>
      simp only [fields, List.mem_cons, List.not_mem_nil, or_false] at hkv <;>
      rcases hkv with rfl | rfl | rfl | rfl <;>
      first | exact Json.isPlain_text _ | exact Json.isPlain_word _

theorem ofJson?_toJson (e : Event) : ofJson? e.toJson = some e := by
  cases e with
  | windowOpened n =>
    change ((Json.word? (Json.word n)).bind fun n => some (windowOpened n)) = _
    rw [Json.word?_word, Option.bind_some]
  | windowClosed n =>
    change ((Json.word? (Json.word n)).bind fun n => some (windowClosed n)) = _
    rw [Json.word?_word, Option.bind_some]
  | driverFinished s a b c =>
    change ((Json.word? (Json.word a)).bind fun a => (Json.word? (Json.word b)).bind fun b =>
      (Json.word? (Json.word c)).bind fun c => some (driverFinished s a b c)) = _
    simp only [Json.word?_word, Option.bind_some]
  | reportReady a b c =>
    change ((Json.word? (Json.word a)).bind fun a => (Json.word? (Json.word b)).bind fun b =>
      (Json.word? (Json.word c)).bind fun c => some (reportReady a b c)) = _
    simp only [Json.word?_word, Option.bind_some]
  | _ => rfl

end Event

/-! ## Files -/

namespace EventLog

/-- The bytes of the line that a value takes. -/
def lineOf (v : Json) : List UInt8 := v.render.toList.flatMap String.utf8EncodeChar

/-- The bytes of the line that an event takes. -/
def line (e : Event) : List UInt8 := lineOf e.toJson

theorem map_toJson (events : List Event) :
    (events.map Event.toJson).map lineOf = events.map line := by
  rw [List.map_map]
  exact List.map_congr_left fun e _ => by rw [Function.comp_apply, line]

/-- The value that a line of a file writes. -/
def value? (line : List UInt8) : Option Json := do
  Json.read? (← String.fromUTF8? line.toByteArray)

theorem toUTF8_writeLine (v : Json) :
    (writeLine "" v).toUTF8.data.toList = lineOf v ++ [lineBreak] := by
  have hbreak : String.utf8EncodeChar '\n' = [lineBreak] :=
    String.utf8EncodeChar_eq_singleton (by decide)
  rw [String.toUTF8_eq_toByteArray, ← String.utf8Encode_toList, List.utf8Encode,
    List.toList_data_toByteArray]
  simp [writeLine, lineOf, hbreak]

theorem lineBreak_not_mem_lineOf {v : Json} (h : v.IsPlain) : lineBreak ∉ lineOf v := by
  rw [lineOf, List.mem_flatMap]
  rintro ⟨c, hc, hmem⟩
  refine lineBreak_not_mem_utf8 ?_ hmem
  rintro rfl
  exact h.lineBreak_not_mem hc

theorem lineBreak_not_mem_line (e : Event) : lineBreak ∉ line e :=
  lineBreak_not_mem_lineOf e.isPlain

theorem fromUTF8?_toByteArray (s : String) : String.fromUTF8? s.toByteArray = some s := by
  rw [String.fromUTF8?, dif_pos s.isValidUTF8]
  rfl

/-- The line of a plain value is read as the value. -/
theorem value?_lineOf {v : Json} (h : v.IsPlain) : value? (lineOf v) = some v := by
  have hbytes : (lineOf v).toByteArray = v.render.toByteArray := by
    rw [← String.utf8Encode_toList]
    rfl
  rw [value?, hbytes, fromUTF8?_toByteArray, Option.bind_eq_bind, Option.bind_some,
    Json.read?_render h]

theorem parse?_eq (line : List UInt8) : parse? line = (value? line).bind Event.ofJson? :=
  (Option.bind_assoc ..).symm

/-- The line of an event is read as the event. -/
theorem parse?_line (e : Event) : parse? (line e) = some e := by
  rw [parse?_eq, line, value?_lineOf e.isPlain, Option.bind_some, e.ofJson?_toJson]

/-- Lines that were written one after another are found at the line breaks. -/
theorem splitOn_lines {lines : List (List UInt8)} (h : ∀ line ∈ lines, lineBreak ∉ line) :
    (lines.flatMap (· ++ [lineBreak])).splitOn lineBreak = lines ++ [[]] := by
  induction lines with
  | nil => rfl
  | cons line lines ih =>
    rw [List.flatMap_cons, List.append_assoc, List.singleton_append,
      List.splitOn_append_cons_self_of_not_mem (h line List.mem_cons_self),
      ih fun line hline => h line (List.mem_cons_of_mem _ hline)]
    rfl

/-- Nothing stands in the file behind its last line break. -/
def EndsLine (file : ByteArray) : Prop :=
  file.data.toList = [] ∨ file.data.toList.getLast? = some lineBreak

theorem EndsLine.splitOn_append {file : ByteArray} (h : EndsLine file) (rest : List UInt8) :
    (file.data.toList ++ rest).splitOn lineBreak =
      (file.data.toList.splitOn lineBreak).dropLast ++ rest.splitOn lineBreak := by
  rcases h with hnil | hlast
  · simp [hnil]
  · obtain ⟨before, heq⟩ := List.getLast?_eq_some_iff.1 hlast
    rw [heq, List.append_assoc, List.singleton_append, List.splitOn_append_cons_self,
      List.splitOn_append_cons_self, List.splitOn_nil, List.dropLast_concat]

end EventLog

namespace LogSink

open EventLog

/-- The file has these bytes and, behind them, a line for each of these values. Nothing waits to be
written. -/
structure Holds (s : LogSink) (content : List UInt8) (values : List Json) : Prop where
  buffer : s.buffer = ""
  file : s.file.data.toList = content ++ (values.map lineOf).flatMap (· ++ [lineBreak])

theorem holds_create (content : Option ByteArray) :
    (create content).Holds (content.getD .empty).data.toList [] :=
  ⟨rfl, (List.append_nil _).symm⟩

section Holds

variable {s : LogSink} {content : List UInt8} {values : List Json} (h : s.Holds content values)
include h

theorem Holds.writeLine (v : Json) : (s.writeLine v).Holds content (values ++ [v]) := by
  refine ⟨rfl, ?_⟩
  have hfile : (s.writeLine v).file.data.toList =
      s.file.data.toList ++ (lineOf v ++ [lineBreak]) := by
    rw [← toUTF8_writeLine]
    simp [LogSink.writeLine, flush, h.buffer, ByteArray.data_append]
  simp [hfile, h.file]

theorem Holds.emit (events : List Event) :
    (events.foldl LogSink.emit s).Holds content (values ++ events.map Event.toJson) := by
  induction events generalizing s values with
  | nil =>
    rw [List.map_nil, List.append_nil]
    exact h
  | cons e events ih =>
    rw [List.foldl_cons, List.map_cons, List.append_cons]
    exact ih (h.writeLine e.toJson)

theorem Holds.close : s.close.data.toList =
    content ++ (values.map lineOf).flatMap (· ++ [lineBreak]) := by
  rw [← h.file]
  simp [LogSink.close, flush, h.buffer]

end Holds

/-- However the events were distributed over sinks, the file has a line for each of them. -/
theorem file_foldl_record (content : Option ByteArray) (sittings : List (List Event)) :
    ((sittings.foldl record content).getD .empty).data.toList =
      (content.getD .empty).data.toList ++
        (sittings.flatten.map line).flatMap (· ++ [lineBreak]) := by
  induction sittings generalizing content with
  | nil => simp
  | cons events sittings ih =>
    rw [List.foldl_cons, ih, record, Option.getD_some, ((holds_create content).emit events).close,
      List.nil_append, map_toJson]
    simp

/-- A log keeps what was in the file and adds one line for each event, in order, and from its lines
the events are read back. The whole file has the lines that it had before and those. -/
theorem read_back (content : Option ByteArray) (sittings : List (List Event))
    (h : EndsLine (content.getD .empty)) :
    ∃ lines : List (List UInt8),
      ((sittings.foldl record content).getD .empty).data.toList =
          (content.getD .empty).data.toList ++ lines.flatMap (· ++ [lineBreak]) ∧
        (∀ line ∈ lines, lineBreak ∉ line) ∧
        (lines.flatMap (· ++ [lineBreak])).splitOn lineBreak = lines ++ [[]] ∧
        ((sittings.foldl record content).getD .empty).data.toList.splitOn lineBreak =
          ((content.getD .empty).data.toList.splitOn lineBreak).dropLast ++ (lines ++ [[]]) ∧
        lines.map parse? = sittings.flatten.map some := by
  have hlines : ∀ l ∈ sittings.flatten.map line, lineBreak ∉ l := by
    intro l hl
    obtain ⟨e, -, rfl⟩ := List.mem_map.1 hl
    exact lineBreak_not_mem_line e
  have hfile := file_foldl_record content sittings
  refine ⟨sittings.flatten.map line, hfile, hlines, splitOn_lines hlines, ?_, ?_⟩
  · rw [hfile, h.splitOn_append, splitOn_lines hlines]
  · rw [List.map_map]
    exact List.map_congr_left fun e _ => parse?_line e

/-- Three sittings over a file with one line, one of them without an event. -/
theorem read_back_trial :
    EndsLine (Option.getD (some "old\n".toUTF8) .empty) ∧
      ∃ lines : List (List UInt8),
        (([[.scenarioStarted "two\nlines, \"quoted\" \\ \x00 \r"], [],
            [.driverFinished "läuft" 18446744073709551615 0 1]].foldl record
              (some "old\n".toUTF8)).getD .empty).data.toList =
          "old\n".toUTF8.data.toList ++ lines.flatMap (· ++ [lineBreak]) ∧
        lines.map parse? =
          [some (.scenarioStarted "two\nlines, \"quoted\" \\ \x00 \r"),
            some (.driverFinished "läuft" 18446744073709551615 0 1)] := by
  have h : EndsLine (Option.getD (some "old\n".toUTF8) .empty) := .inr (by decide)
  obtain ⟨lines, hfile, -, -, -, hparse⟩ := read_back (some "old\n".toUTF8)
    [[.scenarioStarted "two\nlines, \"quoted\" \\ \x00 \r"], [],
      [.driverFinished "läuft" 18446744073709551615 0 1]] h
  exact ⟨h, lines, hfile, hparse⟩

end LogSink

end FaultDrill
