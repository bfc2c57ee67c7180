import FaultDrill.Proofs.Toml.Reading

/-! # A document is read back

Each line is one statement, and the statements of the sections build one table for each of them.
-/

namespace FaultDrill.Toml

variable {c : Char} {chars rest : List Char} {key name : String} {e : Entry}
  {entries : List (String × Entry)} {inner : Entries} {node : Node}

/-! ## Lines -/

/-- A name that is written without quotes. -/
structure IsBareKey (key : String) : Prop where
  nonempty : key.toList ≠ []
  bare : ∀ c ∈ key.toList, isBare c = true

instance (key : String) : Decidable (IsBareKey key) :=
  decidable_of_iff (key.toList ≠ [] ∧ key.toList.all isBare = true)
    ⟨fun h => ⟨h.1, List.all_eq_true.1 h.2⟩, fun h => ⟨h.nonempty, List.all_eq_true.2 h.bare⟩⟩

/-- A bare name starts with none of the characters that mean something at the start of a line. -/
theorem IsBareKey.head (h : IsBareKey key) :
    ∃ d ds, key.toList = d :: ds ∧ isBlank d = false ∧ d ≠ '#' ∧ d ≠ '\n' ∧ d ≠ '\r' ∧ d ≠ '[' := by
  cases hkey : key.toList with
  | nil => exact absurd hkey h.nonempty
  | cons d ds =>
    have hd : isBare d = true := h.bare d (hkey ▸ List.mem_cons_self)
    have no (c : Char) (hc : isBare c = false) : d ≠ c := by
      rintro rfl
      rw [hd] at hc
      cases hc
    have hblank : isBlank d = false := by
      simp [isBlank, no ' ' (by decide), no '\t' (by decide)]
    exact ⟨d, ds, rfl, hblank, no '#' (by decide), no '\n' (by decide), no '\r' (by decide),
      no '[' (by decide)⟩

theorem IsBareKey.skipBlanks (h : IsBareKey key) :
    skipBlanks (key.toList ++ rest) = key.toList ++ rest := by
  obtain ⟨d, ds, hkey, hblank, -⟩ := h.head
  simp [Toml.skipBlanks, hkey, hblank]

/-- A bare name is a whole path where neither its characters nor a dot follow. -/
theorem IsBareKey.path? (h : IsBareKey key) (hrest : ∀ c ∈ rest.head?, isBare c = false)
    (hdot : ∀ after, Toml.skipBlanks rest ≠ '.' :: after) :
    path? (key.toList ++ rest) = some ([key], rest) := by
  obtain ⟨htake, hdrop⟩ := Decimal.takeWhile_run h.bare hrest
  have hsimple : simpleKey? (key.toList ++ rest) = some (key, rest) := by
    rw [simpleKey?]
    simp only [htake, hdrop, String.ofList_toList]
    rw [if_neg (by simpa using h.nonempty)]
  have hdotted : dottedKey? (key.toList ++ rest) = some ([key], rest) := by
    rw [dottedKey?]
    split
    · next hnone => rw [hsimple] at hnone; cases hnone
    · next hsome =>
      rw [hsimple] at hsome
      cases hsome
      split
      · next after hd => exact absurd hd (hdot after)
      · rfl
  rw [Toml.path?, hdotted]
  rfl

theorem statement?_line (hkey : IsBareKey key) (he : e.Fits) (rest : List Char) :
    statement? (skipBlanks (line key e ++ rest)) =
      some (some (.pair [key] e.toml), '\n' :: rest) := by
  have hline : line key e ++ rest =
      key.toList ++ ' ' :: '=' :: ' ' :: (e.chars ++ '\n' :: rest) := by
    simp [line]
  obtain ⟨d, ds, hd, -, hcomment, hbreak, hreturn, hbracket⟩ := hkey.head
  have hpath : path? (key.toList ++ ' ' :: '=' :: ' ' :: (e.chars ++ '\n' :: rest)) =
      some ([key], ' ' :: '=' :: ' ' :: (e.chars ++ '\n' :: rest)) :=
    hkey.path? (by rintro _ ⟨⟩; decide) (by rintro after ⟨⟩)
  rw [hline, hkey.skipBlanks]
  rw [hd, List.cons_append] at hpath ⊢
  rw [statement?, hpath, Option.bind_eq_bind, Option.bind_some]
  · change ((value? (' ' :: (e.chars ++ '\n' :: rest))).bind fun x =>
      some (some (Statement.pair [key] x.1), x.2)) = _
    rw [value?_entry he]
    rfl
  · rintro ⟨⟩
  · exact fun _ heq => hcomment (List.cons.inj heq).1
  · exact fun _ heq => hbreak (List.cons.inj heq).1
  · exact fun _ heq => hreturn (List.cons.inj heq).1
  · exact fun _ heq => hbracket (List.cons.inj heq).1
  · exact fun _ heq => hbracket (List.cons.inj heq).1

theorem statement?_header (hname : IsBareKey name) :
    statement? (skipBlanks ('[' :: (name.toList ++ ']' :: '\n' :: rest))) =
      some (some (.table [name]), '\n' :: rest) := by
  obtain ⟨d, ds, hd, -, -, -, -, hbracket⟩ := hname.head
  have hpath : path? (skipBlanks (name.toList ++ ']' :: '\n' :: rest)) =
      some ([name], ']' :: '\n' :: rest) := by
    rw [hname.skipBlanks]
    exact hname.path? (by rintro _ ⟨⟩; decide) (by rintro after ⟨⟩)
  change statement? ('[' :: (name.toList ++ ']' :: '\n' :: rest)) = _
  rw [hd, List.cons_append] at hpath ⊢
  rw [statement?, hpath]
  · rfl
  · exact fun _ heq => hbracket (List.cons.inj heq).1

theorem statements?_nil : statements? [] = some [] := by
  rw [statements?]
  rfl

/-- A statement with a line break behind it is the first of the document. -/
theorem statements?_line {statement : Option Statement}
    (h : statement? (skipBlanks chars) = some (statement, '\n' :: rest)) :
    statements? chars = (statements? rest).map (statement.toList ++ ·) := by
  rw [statements?]
  split
  · next hnone =>
    rw [h] at hnone
    cases hnone
  · next hsome =>
    rw [h] at hsome
    cases hsome
    have hnext : nextLine? ('\n' :: rest) = some rest := rfl
    split
    · next hnone =>
      rw [hnext] at hnone
      cases hnone
    · next hsome =>
      rw [hnext] at hsome
      cases hsome
      rw [statements?_nil]
      simp
    · next hsome =>
      rw [hnext] at hsome
      cases hsome
      rfl

/-! ## Sections -/

/-- The statement of a line. -/
def pairOf (pair : String × Entry) : Statement := .pair [pair.1] pair.2.toml

/-- The statements of a section. -/
def sectionStatements (sec : String × List (String × Entry)) : List Statement :=
  .table [sec.1] :: sec.2.map pairOf

/-- Its lines can be read, and no key stands on two of them. -/
structure IsSection (sec : String × List (String × Entry)) : Prop where
  name : IsBareKey sec.1
  keys : ∀ pair ∈ sec.2, IsBareKey pair.1
  fits : ∀ pair ∈ sec.2, pair.2.Fits
  nodup : (sec.2.map Prod.fst).Nodup

theorem statements?_lines (hkeys : ∀ pair ∈ entries, IsBareKey pair.1)
    (hfits : ∀ pair ∈ entries, pair.2.Fits) :
    statements? ((entries.flatMap fun (key, e) => line key e) ++ rest) =
      (statements? rest).map (entries.map pairOf ++ ·) := by
  induction entries with
  | nil => simp
  | cons pair entries ih =>
    obtain ⟨key, e⟩ := pair
    have hline := statements?_line (statement?_line (hkeys _ List.mem_cons_self)
      (hfits _ List.mem_cons_self) ((entries.flatMap fun (key, e) => line key e) ++ rest))
    rw [List.flatMap_cons, List.append_assoc, hline, ih, Option.map_map]
    · rfl
    · exact fun pair h => hkeys pair (List.mem_cons_of_mem _ h)
    · exact fun pair h => hfits pair (List.mem_cons_of_mem _ h)

theorem statements?_section {sec : String × List (String × Entry)} (h : IsSection sec)
    (rest : List Char) :
    statements? (sectionChars sec.1 sec.2 ++ rest) =
      (statements? rest).map (sectionStatements sec ++ ·) := by
  have hheader : sectionChars sec.1 sec.2 ++ rest = '[' :: (sec.1.toList ++ ']' :: '\n' ::
      ((sec.2.flatMap fun (key, e) => line key e) ++ rest)) := by
    simp [sectionChars]
  rw [hheader, statements?_line (statement?_header h.name), statements?_lines h.keys h.fits,
    Option.map_map]
  rfl

theorem statements?_document {secs : List (String × List (String × Entry))}
    (h : ∀ sec ∈ secs, IsSection sec) :
    statements? (document secs) = some (secs.flatMap sectionStatements) := by
  fun_induction document secs with
  | case1 => exact statements?_nil
  | case2 name entries =>
    have hsection := statements?_section (h _ List.mem_cons_self) []
    rw [List.append_nil] at hsection
    rw [hsection, statements?_nil]
    rfl
  | case3 name entries secs hne ih =>
    have hblank : statement? (skipBlanks ('\n' :: document secs)) =
        some (none, '\n' :: document secs) := rfl
    rw [statements?_section (h (name, entries) List.mem_cons_self), statements?_line hblank,
      ih fun sec hsec => h sec (List.mem_cons_of_mem _ hsec)]
    rfl

/-! ## Tables -/

/-- The table under construction that a section makes. -/
def sectionEntries (entries : List (String × Entry)) : Entries :=
  entries.map fun (key, e) => (key, .leaf e.toml)

/-- What a section is read as. -/
def sectionToml (entries : List (String × Entry)) : Toml :=
  .table (entries.map fun (key, e) => (key, e.toml))

theorem replace_append {built : Entries} (tail : Entries) (h : key ∉ built.map Prod.fst) :
    Entries.replace key node (built ++ tail) = built ++ Entries.replace key node tail := by
  induction built with
  | nil => rfl
  | cons pair built ih =>
    obtain ⟨hne, htail⟩ := List.ne_and_not_mem_of_not_mem_cons h
    obtain ⟨k, n⟩ := pair
    rw [List.cons_append, Entries.replace, if_neg (Ne.symm hne), ih htail]
    rfl

theorem get?_append {built : Entries} (tail : Entries) (h : key ∉ built.map Prod.fst) :
    Entries.get? key (built ++ tail) = Entries.get? key tail := by
  induction built with
  | nil => rfl
  | cons pair built ih =>
    obtain ⟨hne, htail⟩ := List.ne_and_not_mem_of_not_mem_cons h
    rw [← ih htail, List.cons_append, Entries.get?, List.lookup_cons, beq_false_of_ne hne]
    rfl

theorem add_header {b : Building} (h : name ∉ b.entries.map Prod.fst) :
    b.add (.table [name]) = some ⟨b.entries ++ [(name, .table false false [])], [name]⟩ := by
  have hget : Entries.get? name b.entries = none := by
    simpa [Entries.get?] using get?_append [] h
  have hreplace : Entries.replace name (.table false false []) b.entries =
      b.entries ++ [(name, .table false false [])] := by
    simpa [Entries.replace] using replace_append [] h
  change (Entries.openTable name b.entries).bind
    (fun entries => some (Building.mk entries [name])) = _
  rw [Entries.openTable, hget, ← hreplace]
  rfl

theorem insertPair_new {v : Toml} (h : key ∉ inner.map Prod.fst) :
    Entries.insertPair key v [] inner = some (inner ++ [(key, .leaf v)]) := by
  have hget : Entries.get? key inner = none := by
    simpa [Entries.get?] using get?_append [] h
  have hreplace : Entries.replace key (.leaf v) inner = inner ++ [(key, .leaf v)] := by
    simpa [Entries.replace] using replace_append [] h
  rw [Entries.insertPair, hget, ← hreplace]

/-- A line adds its key to the table of the header that is in force, which is the last one. -/
theorem add_line {built : Entries} (hname : name ∉ built.map Prod.fst)
    (hkey : key ∉ inner.map Prod.fst) :
    Building.add ⟨built ++ [(name, .table false false inner)], [name]⟩ (pairOf (key, e)) =
      some ⟨built ++ [(name, .table false false (inner ++ [(key, .leaf e.toml)]))], [name]⟩ := by
  have hget : Entries.get? name (built ++ [(name, .table false false inner)]) =
      some (.table false false inner) := by
    rw [get?_append _ hname]
    simp [Entries.get?]
  have hat : Entries.atPath (Entries.insertPair key e.toml []) [name]
        (built ++ [(name, .table false false inner)]) =
      some (built ++ [(name, .table false false (inner ++ [(key, .leaf e.toml)]))]) := by
    rw [Entries.atPath, hget]
    simp only [Entries.atPath, insertPair_new hkey, Option.map_some, replace_append _ hname]
    simp [Entries.replace]
  change (Entries.atPath (Entries.insertPair key e.toml []) [name] _).bind
    (fun entries => some (Building.mk entries [name])) = _
  rw [hat]
  rfl

theorem foldlM_lines {built : Entries} (hname : name ∉ built.map Prod.fst)
    (hnodup : (inner.map Prod.fst ++ entries.map Prod.fst).Nodup) :
    (entries.map pairOf).foldlM Building.add ⟨built ++ [(name, .table false false inner)], [name]⟩ =
      some ⟨built ++ [(name, .table false false (inner ++ sectionEntries entries))], [name]⟩ := by
  induction entries generalizing inner with
  | nil => simp [sectionEntries]
  | cons pair entries ih =>
    obtain ⟨key, e⟩ := pair
    have hkey : key ∉ inner.map Prod.fst := fun h =>
      (List.nodup_append.1 hnodup).2.2 key h key List.mem_cons_self rfl
    rw [List.map_cons, List.foldlM_cons, add_line hname hkey, Option.bind_eq_bind, Option.bind_some,
      ih (by simpa using hnodup)]
    simp [sectionEntries]

theorem foldlM_section {b : Building} {sec : String × List (String × Entry)} (h : IsSection sec)
    (hname : sec.1 ∉ b.entries.map Prod.fst) :
    (sectionStatements sec).foldlM Building.add b =
      some ⟨b.entries ++ [(sec.1, .table false false (sectionEntries sec.2))], [sec.1]⟩ := by
  rw [sectionStatements, List.foldlM_cons, add_header hname, Option.bind_eq_bind, Option.bind_some,
    foldlM_lines hname (by simpa using h.nodup), List.nil_append]

theorem foldlM_document {secs : List (String × List (String × Entry))} (b : Building)
    (h : ∀ sec ∈ secs, IsSection sec)
    (hnodup : (b.entries.map Prod.fst ++ secs.map Prod.fst).Nodup) :
    ∃ header, (secs.flatMap sectionStatements).foldlM Building.add b =
      some ⟨b.entries ++ secs.map fun sec => (sec.1, .table false false (sectionEntries sec.2)),
        header⟩ := by
  induction secs generalizing b with
  | nil => exact ⟨b.header, by simp⟩
  | cons sec secs ih =>
    have hname : sec.1 ∉ b.entries.map Prod.fst := fun h =>
      (List.nodup_append.1 hnodup).2.2 sec.1 h sec.1 List.mem_cons_self rfl
    obtain ⟨header, hrest⟩ := ih
      ⟨b.entries ++ [(sec.1, .table false false (sectionEntries sec.2))], [sec.1]⟩
      (fun sec hsec => h sec (List.mem_cons_of_mem _ hsec)) (by simpa using hnodup)
    refine ⟨header, ?_⟩
    rw [List.flatMap_cons, List.foldlM_append, foldlM_section (h sec List.mem_cons_self) hname,
      Option.bind_eq_bind, Option.bind_some, hrest]
    simp

theorem values_sectionEntries (entries : List (String × Entry)) :
    Node.values (sectionEntries entries) = entries.map fun (key, e) => (key, e.toml) := by
  induction entries with
  | nil => rfl
  | cons pair entries ih =>
    rw [sectionEntries, List.map_cons, Node.values, ← sectionEntries, ih]
    rfl

theorem values_sections (secs : List (String × List (String × Entry))) :
    Node.values (secs.map fun sec => (sec.1, .table false false (sectionEntries sec.2))) =
      secs.map fun sec => (sec.1, sectionToml sec.2) := by
  induction secs with
  | nil => rfl
  | cons sec secs ih =>
    rw [List.map_cons, Node.values, ih, Node.value, values_sectionEntries]
    rfl

/-- A document of sections is read as the table of their tables. -/
theorem read?_document {secs : List (String × List (String × Entry))}
    (h : ∀ sec ∈ secs, IsSection sec) (hnodup : (secs.map Prod.fst).Nodup) :
    read? (String.ofList (document secs)) =
      some (.table (secs.map fun sec => (sec.1, sectionToml sec.2))) := by
  have hmark : skipMark (document secs) = document secs := by
    fun_cases document secs <;> rfl
  obtain ⟨header, hbuilt⟩ := foldlM_document ⟨[], []⟩ h (by simpa using hnodup)
  rw [read?]
  simp only [String.toList_ofList, hmark, statements?_document h, Option.bind_eq_bind,
    Option.bind_some, hbuilt, List.nil_append, values_sections]

end FaultDrill.Toml
