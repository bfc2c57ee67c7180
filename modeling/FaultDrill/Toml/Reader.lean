import FaultDrill.Toml.Quoted
import FaultDrill.Toml.Table

/-! # Reading TOML

A document is a sequence of lines that name a table or give a key its value. The reader
of a value keeps the arrays and inline tables that are still open.
-/

namespace FaultDrill.Toml

/-! ## Blanks, comments and line breaks -/

def skipBlanks (chars : List Char) : List Char := chars.dropWhile isBlank

def skipComment : List Char → List Char
  | '#' :: rest => rest.dropWhile isPlain
  | chars => chars

def lineBreak? : List Char → Option (List Char)
  | '\n' :: rest => some rest
  | '\r' :: '\n' :: rest => some rest
  | _ => none

theorem skipBlanks_length (chars : List Char) : (skipBlanks chars).length ≤ chars.length :=
  (List.dropWhile_sublist _).length_le

theorem skipComment_length (chars : List Char) : (skipComment chars).length ≤ chars.length := by
  unfold skipComment
  split
  · next rest => have := (List.dropWhile_sublist isPlain (l := rest)).length_le; simp; omega
  · exact Nat.le_refl _

theorem lineBreak?_length {chars rest : List Char} (h : lineBreak? chars = some rest) :
    rest.length < chars.length := by
  unfold lineBreak? at h
  split at h <;> cases h <;> simp only [List.length_cons] <;> omega

/-! ## Keys -/

def isBare (c : Char) : Bool := c.isAlphanum || c = '_' || c = '-'

def simpleKey? (chars : List Char) : Option (String × List Char) :=
  let bare := chars.takeWhile isBare
  if bare.isEmpty then (quotedKey? chars).map fun (k, rest) => (String.ofList k, rest)
  else some (String.ofList bare, chars.dropWhile isBare)

theorem simpleKey?_length {chars : List Char} {s : String × List Char}
    (h : simpleKey? chars = some s) : s.2.length < chars.length := by
  unfold simpleKey? at h
  dsimp only at h
  split at h
  · simp only [Option.map_eq_some_iff] at h
    obtain ⟨q, hq, rfl⟩ := h
    exact quotedKey?_length hq
  · next hb =>
    cases h
    cases chars with
    | nil => simp at hb
    | cons c rest =>
      by_cases hc : isBare c
      · have := (List.dropWhile_sublist isBare (l := rest)).length_le
        simp [hc]; omega
      · simp [hc] at hb

/-- Keys and containers are nested less deeply than this. -/
def nestingLimit : Nat := 80

/-- Keys joined by dots; blanks may stand around each dot. -/
def dottedKey? (chars : List Char) : Option (List String × List Char) :=
  match h : simpleKey? chars with
  | none => none
  | some (key, rest) =>
    match hd : skipBlanks rest with
    | '.' :: after =>
      have : (skipBlanks after).length < chars.length := by
        have hk := simpleKey?_length h
        have hr := skipBlanks_length rest
        have ha := skipBlanks_length after
        rw [hd] at hr
        simp at *; omega
      (dottedKey? (skipBlanks after)).map fun (keys, rest) => (key :: keys, rest)
    | _ => some ([key], rest)
termination_by chars.length

theorem dottedKey?_length {chars : List Char} {s : List String × List Char}
    (h : dottedKey? chars = some s) : s.2.length < chars.length := by
  induction hn : chars.length using Nat.strongRecOn generalizing chars s with
  | ind n ih =>
    subst hn
    unfold dottedKey? at h
    split at h
    · cases h
    · next key rest hk =>
      have hl := simpleKey?_length hk
      split at h
      · next after hd =>
        have hb := skipBlanks_length rest
        have ha := skipBlanks_length after
        rw [hd] at hb
        simp only [Option.map_eq_some_iff] at h
        obtain ⟨t, ht, rfl⟩ := h
        have := ih (skipBlanks after).length (by simp at *; omega) ht rfl
        simp at *; omega
      · cases h; exact hl

def path? (chars : List Char) : Option (List String × List Char) := do
  let (keys, rest) ← dottedKey? chars
  if keys.length < nestingLimit then some (keys, rest) else none

theorem path?_length {chars : List Char} {s : List String × List Char}
    (h : path? chars = some s) : s.2.length < chars.length := by
  simp only [path?, Option.bind_eq_bind, Option.bind_eq_some_iff] at h
  obtain ⟨t, ht, h⟩ := h
  split at h
  · cases h; exact dottedKey?_length ht
  · cases h

/-! ## Values -/

def isScalarChar (c : Char) : Bool :=
  c.isAlphanum || c = '_' || c = '+' || c = '-' || c = '.' || c = ':'

/-- The characters of a number, a date or a word. One blank may part a date from its time. -/
def scalarRun (chars : List Char) : List Char × List Char :=
  let run := chars.takeWhile isScalarChar
  match afterDate? run, chars.dropWhile isScalarChar with
  | some [], ' ' :: c :: rest =>
    if c.isDigit then
      (run ++ ' ' :: (c :: rest).takeWhile isScalarChar, (c :: rest).dropWhile isScalarChar)
    else (run, ' ' :: c :: rest)
  | _, rest => (run, rest)

theorem scalarRun_of_no_run {chars : List Char} (h : chars.takeWhile isScalarChar = []) :
    (scalarRun chars).1 = [] := by
  unfold scalarRun
  rw [h]
  rfl

theorem scalarRun_rest_length (chars : List Char) :
    (scalarRun chars).2.length ≤ (chars.dropWhile isScalarChar).length := by
  unfold scalarRun
  dsimp only
  split
  · next c rest hd hr =>
    rw [hr]
    split
    · exact Nat.le_succ_of_le (List.dropWhile_sublist isScalarChar (l := c :: rest)).length_le
    · exact Nat.le_refl _
  · exact Nat.le_refl _

theorem scalarRun_length {chars : List Char} (h : (scalarRun chars).1 ≠ []) :
    (scalarRun chars).2.length < chars.length := by
  cases chars with
  | nil => exact absurd (scalarRun_of_no_run rfl) h
  | cons c rest =>
    by_cases hc : isScalarChar c = true
    · have hrest := scalarRun_rest_length (c :: rest)
      rw [List.dropWhile_cons_of_pos hc] at hrest
      exact Nat.lt_succ_of_le
        (Nat.le_trans hrest (List.dropWhile_sublist isScalarChar (l := rest)).length_le)
    · exact absurd (scalarRun_of_no_run (List.takeWhile_cons_of_neg hc)) h

/-- A container that is still open, as it waits for a value. -/
inductive Frame
  /-- An array; its elements so far, last first. -/
  | array (before : List Toml)
  /-- An inline table, and the key of the value. -/
  | inline (entries : Entries) (path : List String)

/-- What may come next in a value, and the containers around it, innermost first. -/
inductive Place
  | value (around : List Frame)
  | element (around : List Frame) (before : List Toml)
  | afterElement (around : List Frame) (before : List Toml)
  | firstKey (around : List Frame)
  | key (around : List Frame) (entries : Entries)
  | afterPair (around : List Frame) (entries : Entries)
  | done (value : Toml)

/-- The place after a value has been read. -/
def give (v : Toml) : List Frame → Option Place
  | [] => some (.done v)
  | .array before :: around => some (.afterElement around (v :: before))
  | .inline entries path :: around => do
    let key ← path.getLast?
    some (.afterPair around (← Entries.insertPair key v path.dropLast entries))

/-- One more container may be opened inside these. -/
def mayOpen (around : List Frame) : Bool := around.length + 1 < nestingLimit

/-- A value begins here: the place after its first lexeme, and what follows that. -/
def startValue (around : List Frame) (chars : List Char) : Option (Place × List Char) :=
  match chars with
  | '[' :: rest => if mayOpen around then some (.element around [], rest) else none
  | '\x7b' :: rest => if mayOpen around then some (.firstKey around, rest) else none
  | '"' :: _ | '\'' :: _ => do
    let (s, rest) ← quoted? chars
    some (← give (.text (String.ofList s)) around, rest)
  | _ =>
    let run := scalarRun chars
    if run.1 = [] then none
    else do some (← give (← scalar? run.1) around, run.2)

/-- A key of an inline table and its equals sign. -/
def startPair (around : List Frame) (entries : Entries) (chars : List Char) :
    Option (Place × List Char) := do
  let (path, rest) ← path? chars
  match skipBlanks rest with
  | '=' :: rest => some (.value (.inline entries path :: around), rest)
  | _ => none

/-- One lexeme of a value at its place; blanks before it are gone. -/
def step : Place → List Char → Option (Place × List Char)
  | .value around, chars => startValue around chars
  | .element around before, chars =>
    match chars with
    | ']' :: rest => do some (← give (.array before.reverse) around, rest)
    | '\n' :: _ | '\r' :: _ => (lineBreak? chars).map (.element around before, ·)
    | '#' :: rest => some (.element around before, rest.dropWhile isPlain)
    | _ => startValue (.array before :: around) chars
  | .afterElement around before, chars =>
    match chars with
    | ']' :: rest => do some (← give (.array before.reverse) around, rest)
    | ',' :: rest => some (.element around before, rest)
    | '\n' :: _ | '\r' :: _ => (lineBreak? chars).map (.afterElement around before, ·)
    | '#' :: rest => some (.afterElement around before, rest.dropWhile isPlain)
    | _ => none
  | .firstKey around, chars =>
    match chars with
    | '\x7d' :: rest => do some (← give (.table []) around, rest)
    | _ => startPair around [] chars
  | .key around entries, chars => startPair around entries chars
  | .afterPair around entries, chars =>
    match chars with
    | '\x7d' :: rest => do some (← give (.table (Node.values entries)) around, rest)
    | ',' :: rest => some (.key around entries, rest)
    | _ => none
  | .done _, _ => none

theorem startValue_length {around : List Frame} {chars : List Char} {s : Place × List Char}
    (h : startValue around chars = some s) : s.2.length < chars.length := by
  have opened {place : Place} {c : Char} {rest : List Char}
      (h : (if mayOpen around then some (place, rest) else none) = some s) :
      s.2.length < (c :: rest).length := by
    split at h
    · cases h; simp
    · cases h
  unfold startValue at h
  split at h
  · exact opened h
  · exact opened h
  all_goals first
    | (simp only [Option.bind_eq_bind, Option.bind_eq_some_iff] at h
       obtain ⟨t, ht, p, _, h⟩ := h
       cases h
       exact quoted?_length ht)
    | (dsimp only at h
       split at h
       · cases h
       · next hr =>
         simp only [Option.bind_eq_bind, Option.bind_eq_some_iff] at h
         obtain ⟨v, _, p, _, h⟩ := h
         cases h
         exact scalarRun_length hr)

theorem startPair_length {around : List Frame} {entries : Entries} {chars : List Char}
    {s : Place × List Char} (h : startPair around entries chars = some s) :
    s.2.length < chars.length := by
  simp only [startPair, Option.bind_eq_bind, Option.bind_eq_some_iff] at h
  obtain ⟨t, ht, h⟩ := h
  have hl := path?_length ht
  split at h
  · next rest hb =>
    cases h
    have := skipBlanks_length t.2
    rw [hb] at this
    simp at *; omega
  · cases h

theorem step_length {place : Place} {chars : List Char} {s : Place × List Char}
    (h : step place chars = some s) : s.2.length < chars.length := by
  have close {v : Toml} {around : List Frame} {c : Char} {rest : List Char}
      (h : (do some (← give v around, rest)) = some s) : s.2.length < (c :: rest).length := by
    simp only [Option.bind_eq_bind, Option.bind_eq_some_iff] at h
    obtain ⟨p, _, h⟩ := h
    cases h; simp
  have comment {rest : List Char} : (rest.dropWhile isPlain).length < ('#' :: rest).length := by
    have := (List.dropWhile_sublist isPlain (l := rest)).length_le; simp; omega
  have break' {p : Place} (h : (lineBreak? chars).map (p, ·) = some s) :
      s.2.length < chars.length := by
    obtain ⟨r, hr, rfl⟩ := Option.map_eq_some_iff.1 h
    exact lineBreak?_length hr
  unfold step at h
  split at h
  · exact startValue_length h
  · split at h
    · exact close h
    · exact break' h
    · exact break' h
    · cases h; exact comment
    · exact startValue_length h
  · split at h
    · exact close h
    · cases h; simp
    · exact break' h
    · exact break' h
    · cases h; exact comment
    · cases h
  · split at h
    · exact close h
    · exact startPair_length h
  · exact startPair_length h
  · split at h
    · exact close h
    · cases h; simp
    · cases h
  · cases h

/-- The value from this place on, and what follows it. -/
def readFrom (place : Place) (chars : List Char) : Option (Toml × List Char) :=
  match place with
  | .done v => some (v, chars)
  | place =>
    match h : step place (skipBlanks chars) with
    | none => none
    | some (place, rest) =>
      have : rest.length < chars.length := by
        have := step_length h; have := skipBlanks_length chars; simp at *; omega
      readFrom place rest
termination_by chars.length

def value? (chars : List Char) : Option (Toml × List Char) := readFrom (.value []) chars

/-! ## Lines -/

inductive Statement
  | table (path : List String)
  | element (path : List String)
  | pair (path : List String) (value : Toml)

/-- The statement at the front, if the line holds one, and what follows it. -/
def statement? (chars : List Char) : Option (Option Statement × List Char) :=
  match chars with
  | [] => some (none, [])
  | '#' :: _ | '\n' :: _ | '\r' :: _ => some (none, chars)
  | '[' :: '[' :: rest => do
    let (path, rest) ← path? (skipBlanks rest)
    match skipBlanks rest with
    | ']' :: ']' :: rest => some (some (.element path), rest)
    | _ => none
  | '[' :: rest => do
    let (path, rest) ← path? (skipBlanks rest)
    match skipBlanks rest with
    | ']' :: rest => some (some (.table path), rest)
    | _ => none
  | _ => do
    let (path, rest) ← path? chars
    match skipBlanks rest with
    | '=' :: rest =>
      let (v, rest) ← value? rest
      some (some (.pair path v), rest)
    | _ => none

theorem readFrom_length {place : Place} {chars : List Char} {s : Toml × List Char}
    (h : readFrom place chars = some s) : s.2.length ≤ chars.length := by
  induction hn : chars.length using Nat.strongRecOn generalizing place chars s with
  | ind n ih =>
    subst hn
    unfold readFrom at h
    split at h
    · cases h; exact Nat.le_refl _
    · split at h
      · cases h
      · next hs =>
        have hl := step_length hs
        have hb := skipBlanks_length chars
        have := ih _ (Nat.lt_of_lt_of_le hl hb) h rfl
        simp at *; omega

theorem statement?_length {chars : List Char} {s : Option Statement × List Char}
    (h : statement? chars = some s) : s.2.length ≤ chars.length := by
  unfold statement? at h
  split at h
  · cases h; simp
  · cases h; simp
  · cases h; simp
  · cases h; simp
  · simp only [Option.bind_eq_bind, Option.bind_eq_some_iff] at h
    obtain ⟨t, ht, h⟩ := h
    have hp := Nat.lt_of_lt_of_le (path?_length ht) (skipBlanks_length _)
    have hb := skipBlanks_length t.2
    split at h
    · next hs => cases h; rw [hs] at hb; simp at *; omega
    · cases h
  · simp only [Option.bind_eq_bind, Option.bind_eq_some_iff] at h
    obtain ⟨t, ht, h⟩ := h
    have hp := Nat.lt_of_lt_of_le (path?_length ht) (skipBlanks_length _)
    have hb := skipBlanks_length t.2
    split at h
    · next hs => cases h; rw [hs] at hb; simp at *; omega
    · cases h
  · simp only [Option.bind_eq_bind, Option.bind_eq_some_iff] at h
    obtain ⟨t, ht, h⟩ := h
    have := path?_length ht
    have hb := skipBlanks_length t.2
    split at h
    · next hs =>
      simp only [Option.bind_eq_some_iff] at h
      obtain ⟨v, hv, h⟩ := h
      have := readFrom_length hv
      cases h; rw [hs] at hb; simp at *; omega
    · cases h

/-- What stands after the end of a line: nothing, or the next line. -/
def nextLine? (chars : List Char) : Option (List Char) :=
  match skipComment (skipBlanks chars) with
  | [] => some []
  | rest => lineBreak? rest

theorem nextLine?_length {chars rest : List Char} (h : nextLine? chars = some rest) :
    rest = [] ∨ rest.length < chars.length := by
  have := skipBlanks_length chars
  have := skipComment_length (skipBlanks chars)
  unfold nextLine? at h
  split at h
  · cases h; exact .inl rfl
  · right; have := lineBreak?_length h; omega

/-- The statements of the lines. A line ends at a line break or where the text ends. -/
def statements? (chars : List Char) : Option (List Statement) :=
  match h : statement? (skipBlanks chars) with
  | none => none
  | some (statement, rest) =>
    match hn : nextLine? rest with
    | none => none
    | some [] => some statement.toList
    | some (c :: rest') =>
      have : (c :: rest').length < chars.length := by
        have := statement?_length h
        have := skipBlanks_length chars
        rcases nextLine?_length hn with hr | hr
        · cases hr
        · simp at *; omega
      (statements? (c :: rest')).map (statement.toList ++ ·)
termination_by chars.length

/-! ## Documents -/

/-- The tables built so far, and the path of the header in force. -/
structure Building where
  entries : Entries
  header : List String

/-- The path to the table that holds the last key, and that key. -/
def splitLast (path : List String) : Option (List String × String) :=
  path.getLast?.map (path.dropLast, ·)

def Building.add (b : Building) : Statement → Option Building
  | .table path => do
    let (around, name) ← splitLast path
    some ⟨← b.entries.atPath (Entries.openTable name) around, path⟩
  | .element path => do
    let (around, name) ← splitLast path
    some ⟨← b.entries.atPath (Entries.openElement name) around, path⟩
  | .pair path v => do
    let (around, key) ← splitLast path
    some { b with entries := ← b.entries.atPath (Entries.insertPair key v around) b.header }

/-- A mark of byte order at the start does not count. -/
def skipMark : List Char → List Char
  | '\uFEFF' :: rest => rest
  | chars => chars

def read? (text : String) : Option Toml := do
  let chars := skipMark text.toList
  let statements ← statements? chars
  let built ← statements.foldlM Building.add ⟨[], []⟩
  some (.table (Node.values built.entries))

end FaultDrill.Toml
