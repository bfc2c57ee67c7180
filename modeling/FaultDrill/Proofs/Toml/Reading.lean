import FaultDrill.Toml.Reader
import FaultDrill.Proofs.Decimal
import FaultDrill.Proofs.Toml.Quoted

/-! # A document is read back

Each value of a section is read as what it was written for, each line as its key with that value,
and the lines together as one table for each section.
-/

namespace FaultDrill.Toml

variable {n : Nat} {c : Char} {digits chars rest : List Char} {around : List Frame}
  {place next : Place}

/-! ## Numbers -/

theorem afterDate?_eq_none (h : '-' ∉ digits) : afterDate? digits = none := by
  unfold afterDate?
  split
  · simp at h
  · rfl

theorem afterClock?_eq_none (h : ':' ∉ digits) : afterClock? digits = none := by
  unfold afterClock?
  split
  · simp at h
  · rfl

theorem ungroup?_digits (h : ∀ c ∈ digits, c.isDigit = true) (hne : digits ≠ []) :
    ungroup? Char.isDigit digits = some digits := by
  induction digits with
  | nil => exact absurd rfl hne
  | cons c digits ih =>
    have hc := h c List.mem_cons_self
    have htail := fun c hc => h c (List.mem_cons_of_mem _ hc)
    rcases digits with - | ⟨d, digits⟩
    · rw [ungroup?, if_pos hc]
    · rw [ungroup?, if_pos hc, ih htail (List.cons_ne_nil _ _)]
      · rfl
      · exact fun h => absurd h nofun
      · intro _ heq
        cases heq
        exact absurd (htail '_' List.mem_cons_self) (by decide)

theorem plainDigits?_toDigits (n : Nat) :
    plainDigits? (Nat.toDigits 10 n) = some (Nat.toDigits 10 n) := by
  rcases Nat.eq_zero_or_pos n with rfl | hn
  · rfl
  · have hhead := Decimal.head_toDigits hn
    rw [plainDigits?, ungroup?_digits (fun _ => Decimal.isDigit_of_mem) Nat.toDigits_ne_nil]
    split
    · next h => exact (Option.some.inj h).symm ▸ rfl
    · next h => exact absurd (Option.some.inj h ▸ rfl) hhead
    · rfl

theorem not_mem_toDigits (h : c.isDigit = false) : c ∉ Nat.toDigits 10 n := fun hc => by
  rw [Decimal.isDigit_of_mem hc] at h
  cases h

theorem withSign_of_digits (h : ∀ c ∈ digits, c.isDigit = true) :
    withSign digits = (1, digits) := by
  unfold withSign
  split
  · exact absurd (h '-' List.mem_cons_self) (by decide)
  · exact absurd (h '+' List.mem_cons_self) (by decide)
  · rfl

theorem size_half : UInt64.size / 2 = 9223372036854775808 := by decide

theorem inRange?_ofNat (h : n < 9223372036854775808) : inRange? n = some (n : Int) := by
  rw [inRange?, if_pos (by omega)]

theorem integer?_of_plain (h : ∀ c ∈ digits, c.isDigit = true)
    (hplain : plainDigits? digits = some digits) :
    integer? digits = inRange? (Decimal.value digits) := by
  unfold integer?
  split
  · exact absurd (h 'x' (by simp)) (by decide)
  · exact absurd (h 'o' (by simp)) (by decide)
  · exact absurd (h 'b' (by simp)) (by decide)
  · rw [withSign_of_digits h]
    dsimp only
    rw [hplain, Option.bind_eq_bind, Option.bind_some, Int.one_mul]

theorem integer?_toDigits (h : n < UInt64.size / 2) :
    integer? (Nat.toDigits 10 n) = some (n : Int) := by
  rw [integer?_of_plain (fun _ => Decimal.isDigit_of_mem) (plainDigits?_toDigits n),
    Decimal.value_toDigits, inRange?_ofNat (size_half ▸ h)]

theorem isFloat_of_digits (h : ∀ c ∈ digits, c.isDigit = true) (hne : digits ≠ []) :
    isFloat digits = false := by
  have hgrouped : ∀ c ∈ digits, isGrouped c = true := fun c hc => by simp [isGrouped, h c hc]
  have hword : ¬(digits = ['i', 'n', 'f'] ∨ digits = ['n', 'a', 'n']) := by
    rintro (rfl | rfl)
    · exact absurd (h 'i' List.mem_cons_self) (by decide)
    · exact absurd (h 'n' List.mem_cons_self) (by decide)
  unfold isFloat
  rw [withSign_of_digits h]
  simp only [if_neg hword, List.takeWhile_eq_self_iff.2 hgrouped,
    List.dropWhile_eq_nil_iff.2 hgrouped]
  cases plainDigits? digits <;> rfl

/-- A number that a document can hold is read as itself. -/
theorem scalar?_toDigits (h : n < UInt64.size / 2) :
    scalar? (Nat.toDigits 10 n) = some (.integer n) := by
  have hdigits : ∀ c ∈ Nat.toDigits 10 n, c.isDigit = true := fun _ => Decimal.isDigit_of_mem
  have hword {c : Char} {cs : List Char} (hc : c.isDigit = false := by decide) :
      Nat.toDigits 10 n ≠ c :: cs := fun heq =>
    not_mem_toDigits hc (heq ▸ List.mem_cons_self)
  have hdate : isDateTime (Nat.toDigits 10 n) = false := by
    rw [isDateTime, afterDate?_eq_none (not_mem_toDigits (by decide)),
      afterClock?_eq_none (not_mem_toDigits (by decide))]
    rfl
  rw [scalar?, if_neg hword, if_neg hword, hdate, isFloat_of_digits hdigits Nat.toDigits_ne_nil,
    integer?_toDigits h]
  rfl

theorem scalarRun_toDigits :
    scalarRun (Nat.toDigits 10 n ++ '\n' :: rest) = (Nat.toDigits 10 n, '\n' :: rest) := by
  have hscalar : ∀ c ∈ Nat.toDigits 10 n, isScalarChar c = true := fun c hc => by
    simp [isScalarChar, Char.isAlphanum, Decimal.isDigit_of_mem hc]
  have hbreak : ∀ c ∈ ('\n' :: rest).head?, isScalarChar c = false := by
    rintro _ ⟨⟩
    decide
  obtain ⟨htake, hdrop⟩ := Decimal.takeWhile_run hscalar hbreak
  rw [scalarRun]
  simp only [htake, hdrop, afterDate?_eq_none (not_mem_toDigits (by decide))]

/-! ## Values -/

/-- What an entry is read as. -/
def Entry.toml : Entry → Toml
  | number n => .integer n
  | text s => .text s
  | texts list => .array (list.map .text)

/-- A number is small enough for a document. -/
def Entry.Fits : Entry → Prop
  | number n => n < UInt64.size / 2
  | _ => True

instance : DecidablePred Entry.Fits
  | .number n => inferInstanceAs (Decidable (n < UInt64.size / 2))
  | .text _ => isTrue trivial
  | .texts _ => isTrue trivial

theorem readFrom_of_step (next : Place) (rest : List Char)
    (h : step place (skipBlanks chars) = some (next, rest)) :
    readFrom place chars = readFrom next rest := by
  have hdone : ∀ v, place ≠ .done v := by
    rintro v rfl
    cases h
  rw [readFrom]
  · split
    · next hnone => rw [h] at hnone; cases hnone
    · next hsome => rw [h] at hsome; cases hsome; rfl
  · exact hdone

theorem readFrom_done (v : Toml) (chars : List Char) :
    readFrom (.done v) chars = some (v, chars) := by
  rw [readFrom]

theorem skipBlanks_writeText (text : List Char) :
    skipBlanks (writeText text ++ rest) = writeText text ++ rest := by
  obtain ⟨d, ds, htext, rfl | rfl⟩ := writeText_eq_cons text <;> rw [htext] <;> rfl

theorem skipBlanks_toDigits :
    skipBlanks (Nat.toDigits 10 n ++ rest) = Nat.toDigits 10 n ++ rest := by
  cases hdigits : Nat.toDigits 10 n with
  | nil => exact absurd hdigits Nat.toDigits_ne_nil
  | cons d ds =>
    have hd : isBlank d = false := by
      have hdigit : d.isDigit = true := Decimal.isDigit_of_mem (hdigits ▸ List.mem_cons_self)
      have no (c : Char) (hc : c.isDigit = false) : d ≠ c := by
        rintro rfl
        rw [hdigit] at hc
        cases hc
      simp [isBlank, no ' ' (by decide), no '\t' (by decide)]
    simp [skipBlanks, hd]

/-- A text at the place of a value, with something behind it that is no quote. -/
theorem startValue_writeText (s : String) (hdouble : c ≠ '"') (hsingle : c ≠ '\'') :
    startValue around (writeText s.toList ++ c :: rest) =
      (give (.text s) around).map (·, c :: rest) := by
  have hquoted : quoted? (writeText s.toList ++ c :: rest) = some (s.toList, c :: rest) :=
    quoted?_writeText s.toList (by simpa using hdouble) (by simpa using hsingle)
  have hstart : startValue around (writeText s.toList ++ c :: rest) =
      (quoted? (writeText s.toList ++ c :: rest)).bind fun x =>
        (give (.text (String.ofList x.1)) around).bind fun place => some (place, x.2) := by
    obtain ⟨d, ds, htext, rfl | rfl⟩ := writeText_eq_cons s.toList <;> rw [htext] <;> rfl
  rw [hstart, hquoted, Option.bind_some]
  dsimp only
  rw [String.ofList_toList]
  cases give (.text s) around <;> rfl

theorem startValue_toDigits (h : n < UInt64.size / 2) :
    startValue around (Nat.toDigits 10 n ++ '\n' :: rest) =
      (give (.integer n) around).map (·, '\n' :: rest) := by
  have hstart : startValue around (Nat.toDigits 10 n ++ '\n' :: rest) =
      if (scalarRun (Nat.toDigits 10 n ++ '\n' :: rest)).1 = [] then none
      else (scalar? (scalarRun (Nat.toDigits 10 n ++ '\n' :: rest)).1).bind fun v =>
        (give v around).bind fun place =>
          some (place, (scalarRun (Nat.toDigits 10 n ++ '\n' :: rest)).2) := by
    cases hdigits : Nat.toDigits 10 n with
    | nil => exact absurd hdigits Nat.toDigits_ne_nil
    | cons d ds =>
      have no (c : Char) (hc : c.isDigit = false) : d ≠ c := by
        rintro rfl
        exact not_mem_toDigits hc (hdigits ▸ List.mem_cons_self)
      rw [List.cons_append, startValue]
      · rfl
      · exact fun _ heq => no '[' (by decide) (List.cons.inj heq).1
      · exact fun _ heq => no '\x7b' (by decide) (List.cons.inj heq).1
      · exact fun _ heq => no '"' (by decide) (List.cons.inj heq).1
      · exact fun _ heq => no '\'' (by decide) (List.cons.inj heq).1
  rw [hstart, scalarRun_toDigits, if_neg Nat.toDigits_ne_nil, scalar?_toDigits h,
    Option.bind_some]
  cases give (.integer n) around <;> rfl

/-! ### Lists -/

theorem step_element_close (before : List Toml) :
    step (.element around before) (']' :: rest) =
      (give (.array before.reverse) around).map (·, rest) := by
  rw [step]
  cases give (.array before.reverse) around <;> rfl

theorem step_element_text (s : String) (before : List Toml) (hdouble : c ≠ '"')
    (hsingle : c ≠ '\'') :
    step (.element around before) (writeText s.toList ++ c :: rest) =
      some (.afterElement around (.text s :: before), c :: rest) := by
  have hstart : step (.element around before) (writeText s.toList ++ c :: rest) =
      startValue (.array before :: around) (writeText s.toList ++ c :: rest) := by
    obtain ⟨d, ds, htext, rfl | rfl⟩ := writeText_eq_cons s.toList <;> rw [htext] <;> rfl
  rw [hstart, startValue_writeText s hdouble hsingle]
  rfl

/-- The lines of a list and the bracket that closes it. -/
theorem readFrom_lines (list : List String) (before : List Toml) (rest : List Char) :
    readFrom (.element [] before)
        ((list.flatMap fun s => "    ".toList ++ writeText s.toList ++ [',', '\n']) ++
          ']' :: rest) =
      some (.array (before.reverse ++ list.map .text), rest) := by
  induction list generalizing before with
  | nil =>
    rw [List.flatMap_nil, List.nil_append, readFrom_of_step _ _ (step_element_close before),
      readFrom_done, List.map_nil, List.append_nil]
  | cons s list ih =>
    rw [List.flatMap_cons, List.append_assoc, List.append_assoc, List.append_assoc]
    have hblanks (chars : List Char) : skipBlanks ("    ".toList ++ chars) = skipBlanks chars := rfl
    rw [readFrom_of_step (.afterElement [] (.text s :: before)) (',' :: '\n' :: (_ ++ ']' :: rest))]
    · rw [readFrom_of_step (.element [] (.text s :: before)) ('\n' :: (_ ++ ']' :: rest)) rfl,
        readFrom_of_step (.element [] (.text s :: before)) (_ ++ ']' :: rest) rfl]
      exact (ih _).trans (by simp)
    · rw [hblanks, skipBlanks_writeText]
      exact step_element_text s before (by decide) (by decide)

theorem value?_entry {e : Entry} (h : e.Fits) :
    value? (' ' :: (e.chars ++ '\n' :: rest)) = some (e.toml, '\n' :: rest) := by
  have hblank (chars : List Char) : skipBlanks (' ' :: chars) = skipBlanks chars := rfl
  rw [value?]
  match e with
  | .number n =>
    rw [readFrom_of_step (.done (.integer n)) ('\n' :: rest), readFrom_done, Entry.toml]
    rw [hblank, Entry.chars, skipBlanks_toDigits, step, startValue_toDigits h]
    rfl
  | .text s =>
    rw [readFrom_of_step (.done (.text s)) ('\n' :: rest), readFrom_done, Entry.toml]
    rw [hblank, Entry.chars, skipBlanks_writeText, step, startValue_writeText s (by decide)
      (by decide)]
    rfl
  | .texts [] =>
    rw [readFrom_of_step (.element [] []) (']' :: '\n' :: rest) rfl,
      readFrom_of_step (.done (.array [])) ('\n' :: rest) rfl, readFrom_done]
    rfl
  | .texts [s] =>
    rw [readFrom_of_step (.element [] []) (writeText s.toList ++ ']' :: '\n' :: rest),
      readFrom_of_step (.afterElement [] [.text s]) (']' :: '\n' :: rest),
      readFrom_of_step (.done (.array [.text s])) ('\n' :: rest) rfl, readFrom_done]
    · rfl
    · rw [skipBlanks_writeText]
      exact step_element_text s [] (by decide) (by decide)
    · simp [Entry.chars, hblank]
      rfl
  | .texts (s :: t :: list) =>
    have hchars : (Entry.texts (s :: t :: list)).chars ++ '\n' :: rest =
        '[' :: '\n' :: (((s :: t :: list).flatMap fun s =>
          "    ".toList ++ writeText s.toList ++ [',', '\n']) ++ ']' :: '\n' :: rest) := by
      simp [Entry.chars]
    rw [hchars, readFrom_of_step (.element [] []) _ rfl, readFrom_of_step (.element [] []) _ rfl,
      readFrom_lines]
    rfl

end FaultDrill.Toml
