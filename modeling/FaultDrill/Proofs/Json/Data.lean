import Mathlib.Logic.Function.Basic
import FaultDrill.Injection
import FaultDrill.Proofs.Json.Reading

/-! # Data and their text

What is written for a value of the data model is read as that value. So the text determines the
value: two values never share one.
-/

namespace FaultDrill

namespace Json

variable {α β : Type} {encode : α → Json} {decode : Json → Option α}

/-! ## Plain values -/

theorem isPlain_text (s : String) : (text s).IsPlain := by
  intro t ht
  rw [tokens, List.mem_singleton] at ht
  subst ht
  trivial

theorem isPlain_null : null.IsPlain := by
  intro t ht
  rw [tokens, List.mem_singleton] at ht
  subst ht
  trivial

theorem isPlain_nat {n : Nat} (h : n < UInt64.size) : (nat n).IsPlain := by
  intro t ht
  rw [nat, tokens, List.mem_singleton] at ht
  subst ht
  exact ⟨by omega, by omega⟩

theorem isPlain_word (n : UInt64) : (word n).IsPlain := isPlain_nat n.toNat_lt_size

theorem isPlain_fieldTokens {kvs : List (String × Json)} (h : ∀ kv ∈ kvs, kv.2.IsPlain) :
    ∀ t ∈ fieldTokens kvs, t.IsPlain := by
  induction kvs with
  | nil => simp [fieldTokens, Token.IsPlain]
  | cons kv kvs ih =>
    intro t ht
    simp only [fieldTokens, List.mem_cons, List.mem_append] at ht
    rcases ht with rfl | rfl | rfl | ht | ht
    · trivial
    · trivial
    · trivial
    · exact h kv List.mem_cons_self t ht
    · exact ih (fun kv hkv => h kv (List.mem_cons_of_mem _ hkv)) t ht

theorem isPlain_object {kvs : List (String × Json)} (h : ∀ kv ∈ kvs, kv.2.IsPlain) :
    (object kvs).IsPlain := by
  intro t ht
  cases kvs with
  | nil =>
    simp only [tokens, List.mem_cons, List.not_mem_nil, or_false] at ht
    rcases ht with rfl | rfl <;> trivial
  | cons kv kvs =>
    -- But for its brace an object is written as its fields are that follow another one.
    refine (?_ : t = .openBrace ∨ t ∈ fieldTokens (kv :: kvs)).elim (fun ht => ht ▸ trivial)
      (isPlain_fieldTokens h t)
    simp only [tokens, List.mem_cons] at ht
    simp only [fieldTokens, List.mem_cons]
    tauto

theorem isPlain_bool (b : Bool) : (bool b).IsPlain := by
  intro t ht
  rw [tokens, List.mem_singleton] at ht
  subst ht
  trivial

theorem isPlain_elementTokens {vs : List Json} (h : ∀ v ∈ vs, v.IsPlain) :
    ∀ t ∈ elementTokens vs, t.IsPlain := by
  induction vs with
  | nil => simp [elementTokens, Token.IsPlain]
  | cons v vs ih =>
    obtain ⟨hv, hvs⟩ := List.forall_mem_cons.1 h
    intro t ht
    simp only [elementTokens, List.mem_cons, List.mem_append] at ht
    rcases ht with rfl | ht | ht
    · trivial
    · exact hv t ht
    · exact ih hvs t ht

theorem isPlain_array {vs : List Json} (h : ∀ v ∈ vs, v.IsPlain) : (array vs).IsPlain := by
  intro t ht
  cases vs with
  | nil =>
    simp only [tokens, List.mem_cons, List.not_mem_nil, or_false] at ht
    rcases ht with rfl | rfl <;> trivial
  | cons v vs =>
    obtain ⟨hv, hvs⟩ := List.forall_mem_cons.1 h
    simp only [tokens, List.mem_cons, List.mem_append] at ht
    rcases ht with rfl | ht | ht
    · trivial
    · exact hv t ht
    · exact isPlain_elementTokens hvs t ht

/-! ## Encodings -/

/-- Every value is encoded as plain JSON and decoded from it. -/
structure Faithful (encode : α → Json) (decode : Json → Option α) : Prop where
  isPlain : ∀ a, (encode a).IsPlain
  decode_encode : ∀ a, decode (encode a) = some a

/-- The text that is written for a value is read as that value, and no other has it. -/
def Lossless (encode : α → Json) (decode : Json → Option α) : Prop :=
  ∀ a, (read? (encode a).render).bind decode = some a ∧
    ∀ b, (encode b).render = (encode a).render → b = a

theorem Faithful.lossless (h : Faithful encode decode) : Lossless encode decode := by
  have back (a : α) : (read? (encode a).render).bind decode = some a := by
    rw [read?_render (h.isPlain a), Option.bind_some, h.decode_encode]
  refine fun a => ⟨back a, fun b hb => Option.some.inj ?_⟩
  rw [← back a, ← back b, hb]

theorem faithful_text : Faithful text text? := ⟨isPlain_text, fun _ => rfl⟩

theorem natBelow?_nat {limit n : Nat} (h : n < limit) : natBelow? limit (nat n) = some n :=
  if_pos h

theorem word?_word (n : UInt64) : word? (word n) = some n := by
  rw [word?, word, natBelow?_nat n.toNat_lt_size, Option.map_some, UInt64.ofNat_toNat]

theorem word?_nat {n : Nat} (h : n < UInt64.size) : (word? (nat n)).map UInt64.toNat = some n := by
  rw [word?, natBelow?_nat h, Option.map_some, Option.map_some, UInt64.toNat_ofNat_of_lt' h]

theorem faithful_halfWord : Faithful (fun n : UInt32 => nat n.toNat) halfWord? where
  isPlain n := isPlain_nat (Nat.lt_trans n.toNat_lt_size (by decide))
  decode_encode n := by
    rw [halfWord?, natBelow?_nat n.toNat_lt_size, Option.map_some, UInt32.ofNat_toNat]

/-- A name is encoded by its text. -/
theorem faithful_name {name : α → String} {ofName? : String → Option α}
    (h : ∀ a, ofName? (name a) = some a) :
    Faithful (fun a => text (name a)) fun j => (name? j).bind ofName? :=
  ⟨fun a => isPlain_text (name a), h⟩

/-- A value that may be absent, for an encoding by which nothing is null. -/
theorem Faithful.nullable?_optional (h : Faithful encode decode) (hnull : ∀ a, encode a ≠ null)
    (a : Option α) : nullable? decode (some (optional encode a)) = some a := by
  cases a with
  | none => rfl
  | some a =>
    have hdecode := h.decode_encode a
    have hne := hnull a
    change nullable? decode (some (encode a)) = _
    generalize encode a = j at hdecode hne ⊢
    cases j with
    | null => exact absurd rfl hne
    | _ => rw [nullable?, hdecode, Option.map_some]; exact nofun

theorem Faithful.isPlain_optional (h : Faithful encode decode) (a : Option α) :
    (optional encode a).IsPlain := by
  cases a with
  | none => exact isPlain_null
  | some a => exact h.isPlain a

/-- A list, each of whose elements is encoded. -/
theorem Faithful.list?_map (h : Faithful encode decode) (l : List α) :
    list? decode (array (l.map encode)) = some l := by
  change (l.map encode).mapM decode = some l
  induction l with
  | nil => rfl
  | cons a l ih => rw [List.map_cons, List.mapM_cons, h.decode_encode, ih]; rfl

theorem Faithful.isPlain_map (h : Faithful encode decode) (l : List α) :
    (array (l.map encode)).IsPlain := by
  refine isPlain_array fun v hv => ?_
  obtain ⟨a, -, rfl⟩ := List.mem_map.1 hv
  exact h.isPlain a

/-! ## Records -/

theorem fieldValues_of_mem {fields : List (String × Json)} (h : (fields.map Prod.fst).Nodup)
    {name : String} {v : Json} (hmem : (name, v) ∈ fields) : fieldValues name fields = [v] := by
  induction fields with
  | nil => cases hmem
  | cons kv fields ih =>
    obtain ⟨k, x⟩ := kv
    obtain ⟨hk, hfields⟩ := List.nodup_cons.1 h
    rcases List.mem_cons.1 hmem with heq | hmem
    · cases heq
      have hnone : fieldValues name fields = [] := by
        refine List.filterMap_eq_nil_iff.2 fun kv hkv => if_neg ?_
        rintro rfl
        exact hk (List.mem_map.2 ⟨kv, hkv, rfl⟩)
      simpa [fieldValues] using hnone
    · have hne : k ≠ name := by
        rintro rfl
        exact hk (List.mem_map.2 ⟨(k, v), hmem, rfl⟩)
      simpa [fieldValues, hne] using ih hfields hmem

/-- Of an object with these fields and no others each has its column. -/
theorem columnsOf?_fields {names : List String} {fields : List (String × Json)}
    (hnames : fields.map Prod.fst = names) (h : names.Nodup) :
    columnsOf? names fields = some (fields.map fun kv => some kv.2) := by
  subst hnames
  have hall : ∀ kvs : List (String × Json), (∀ kv ∈ kvs, kv ∈ fields) →
      columnsOf? (kvs.map Prod.fst) fields = some (kvs.map fun kv => some kv.2) := by
    intro kvs hkvs
    induction kvs with
    | nil => rfl
    | cons kv kvs ih =>
      have hrest := ih fun kv hkv => hkvs kv (List.mem_cons_of_mem _ hkv)
      unfold columnsOf? at hrest ⊢
      simp only [List.map_cons, List.mapM_cons,
        fieldValues_of_mem h (hkvs kv List.mem_cons_self), hrest]
      rfl
  exact hall fields fun _ hkv => hkv

theorem columns?_object {names : List String} {fields : List (String × Json)}
    (hnames : fields.map Prod.fst = names) (h : names.Nodup) :
    columns? names (object fields) = some (fields.map fun kv => some kv.2) :=
  columnsOf?_fields hnames h

theorem closedColumns?_object {names : List String} {fields : List (String × Json)}
    (hnames : fields.map Prod.fst = names) (h : names.Nodup) :
    closedColumns? names (object fields) = some (fields.map fun kv => some kv.2) := by
  have hall : (fields.all fun kv => names.contains kv.1) = true := by
    rw [List.all_eq_true]
    intro kv hkv
    rw [List.contains_iff_mem, ← hnames]
    exact List.mem_map_of_mem hkv
  exact (if_pos hall).trans (columnsOf?_fields hnames h)

end Json

open Json

/-! ## The data model -/

theorem TaskId.faithful : Faithful TaskId.toJson TaskId.ofJson? where
  isPlain id := isPlain_word id.seq
  decode_encode id := by rw [toJson, ofJson?, word?_word, Option.map_some]

theorem OperationKind.faithful : Faithful OperationKind.toJson OperationKind.ofJson? :=
  faithful_name OperationKind.ofName?_name

theorem WindowPhase.faithful : Faithful WindowPhase.toJson WindowPhase.ofJson? :=
  faithful_name WindowPhase.ofName?_name

theorem Duration.ofParts?_parts (d : Duration) : ofParts? d.secs d.subsecNanos = some d := by
  have hsum : d.secs * 1000000000 + d.subsecNanos = d.nanos := by
    rw [secs, subsecNanos]
    omega
  rw [ofParts?, hsum, ofNanos?, dif_pos d.bounded]

theorem Duration.secs_lt (d : Duration) : d.secs < UInt64.size := by
  have := d.bounded
  rw [secs, UInt64.size]
  omega

theorem Duration.subsecNanos_lt (d : Duration) : d.subsecNanos < UInt32.size := by
  rw [subsecNanos, UInt32.size]
  omega

theorem Duration.faithful : Faithful Duration.toJson Duration.ofJson? where
  isPlain d := by
    refine isPlain_object ?_
    simp only [List.forall_mem_cons, List.not_mem_nil, false_imp_iff, implies_true, and_true]
    exact ⟨isPlain_nat d.secs_lt, isPlain_nat (Nat.lt_trans d.subsecNanos_lt (by decide))⟩
  decode_encode d := by
    have hcolumns : closedColumns? ["secs", "nanos"] d.toJson =
        some [some (nat d.secs), some (nat d.subsecNanos)] :=
      closedColumns?_object rfl (by decide)
    have hbinds : ofJson? d.toJson = (natBelow? UInt64.size (nat d.secs)).bind fun secs =>
        (natBelow? UInt32.size (nat d.subsecNanos)).bind fun nanos => ofParts? secs nanos := by
      rw [ofJson?, hcolumns]
      rfl
    rw [hbinds, natBelow?_nat d.secs_lt, Option.bind_some, natBelow?_nat d.subsecNanos_lt,
      Option.bind_some, ofParts?_parts]

theorem ObjectRef.faithful : Faithful ObjectRef.toJson ObjectRef.ofJson? where
  isPlain r := by
    refine isPlain_object ?_
    simp only [List.forall_mem_cons, List.not_mem_nil, false_imp_iff, implies_true, and_true]
    exact ⟨isPlain_text _, isPlain_text _⟩
  decode_encode r := by
    have hcolumns : columns? ["bucket", "key"] r.toJson =
        some [some (.text r.bucket), some (.text r.key)] := columns?_object rfl (by decide)
    simp [ofJson?, hcolumns, required?, text?]

theorem Payload.faithful : Faithful Payload.toJson Payload.ofJson? where
  isPlain p := by
    refine isPlain_object ?_
    simp only [List.forall_mem_cons, List.not_mem_nil, false_imp_iff, implies_true, and_true]
    exact ⟨isPlain_word _, isPlain_word _⟩
  decode_encode p := by
    have hcolumns : columns? ["size", "seed"] p.toJson =
        some [some (word p.size), some (word p.seed)] := columns?_object rfl (by decide)
    simp [ofJson?, hcolumns, required?, word?_word]

theorem StoredObject.faithful : Faithful StoredObject.toJson StoredObject.ofJson? where
  isPlain o := by
    refine isPlain_object ?_
    simp only [List.forall_mem_cons, List.not_mem_nil, false_imp_iff, implies_true, and_true]
    exact ⟨ObjectRef.faithful.isPlain _, isPlain_text _, isPlain_word _⟩
  decode_encode o := by
    have hcolumns : columns? ["target", "checksum", "size"] o.toJson =
        some [some o.target.toJson, some (.text o.checksum), some (word o.size)] :=
      columns?_object rfl (by decide)
    simp [ofJson?, hcolumns, required?, word?_word, text?, ObjectRef.faithful.decode_encode]

theorem Operation.faithful : Faithful Operation.toJson Operation.ofJson? where
  isPlain op := by
    refine isPlain_object ?_
    simp only [List.forall_mem_cons, List.not_mem_nil, false_imp_iff, implies_true, and_true]
    exact ⟨OperationKind.faithful.isPlain _, ObjectRef.faithful.isPlain _,
      ObjectRef.faithful.isPlain_optional _, faithful_halfWord.isPlain_optional _,
      Payload.faithful.isPlain_optional _, faithful_text.isPlain_optional _⟩
  decode_encode op := by
    have hcolumns : columns? fieldNames op.toJson =
        some [some op.kind.toJson, some op.target.toJson,
          some (optional ObjectRef.toJson op.destination),
          some (optional (fun n => nat n.toNat) op.partNumber),
          some (optional Payload.toJson op.payload),
          some (optional .text op.expectedChecksum)] := columns?_object rfl (by decide)
    simp [ofJson?, hcolumns, required?, OperationKind.faithful.decode_encode,
      ObjectRef.faithful.decode_encode, ObjectRef.faithful.nullable?_optional nofun,
      faithful_halfWord.nullable?_optional nofun, Payload.faithful.nullable?_optional nofun,
      faithful_text.nullable?_optional nofun]

/-- A tagged record may stand in other containers, but not too deep. -/
theorem Outcome.ofJsonWithin?_toJson {around : Nat} (h : around < depthLimit) (o : Outcome) :
    ofJsonWithin? around o.toJson = some o := by
  have hlimit : decide (around + 1 ≤ depthLimit) = true := decide_eq_true h
  cases o with
  | success detail =>
    have htagged : tagged? "outcome" around (success detail).toJson =
        some ("success", .object [("detail", .text detail)]) := if_pos hlimit
    rw [ofJsonWithin?, htagged]
    rfl
  | failure kind detail =>
    have htagged : tagged? "outcome" around (failure kind detail).toJson =
        some ("failure", .object [("kind", kind.toJson), ("detail", .text detail)]) :=
      if_pos hlimit
    rw [ofJsonWithin?, htagged]
    cases kind <;> rfl

theorem Outcome.faithful : Faithful Outcome.toJson Outcome.ofJson? where
  isPlain o := by
    cases o <;> refine isPlain_object ?_ <;>
      simp only [List.forall_mem_cons, List.not_mem_nil, false_imp_iff, implies_true, and_true]
    · exact ⟨isPlain_text _, isPlain_text _⟩
    · exact ⟨isPlain_text _, isPlain_text _, isPlain_text _⟩
  decode_encode := ofJsonWithin?_toJson (by decide)

theorem OperationResult.faithful : Faithful OperationResult.toJson OperationResult.ofJson? where
  isPlain r := by
    refine isPlain_object ?_
    simp only [List.forall_mem_cons, List.not_mem_nil, false_imp_iff, implies_true, and_true]
    exact ⟨TaskId.faithful.isPlain _, isPlain_text _, OperationKind.faithful.isPlain _,
      ObjectRef.faithful.isPlain _, StoredObject.faithful.isPlain_optional _,
      Outcome.faithful.isPlain _, Duration.faithful.isPlain _, Duration.faithful.isPlain _,
      WindowPhase.faithful.isPlain _⟩
  decode_encode r := by
    have hcolumns : columns? fieldNames r.toJson =
        some [some r.taskId.toJson, some (.text r.stream), some r.kind.toJson,
          some r.target.toJson, some (optional StoredObject.toJson r.written),
          some r.outcome.toJson, some r.startedAt.toJson, some r.finishedAt.toJson,
          some r.phaseAtStart.toJson] := columns?_object rfl (by decide)
    simp [ofJson?, hcolumns, required?, text?, TaskId.faithful.decode_encode,
      OperationKind.faithful.decode_encode, ObjectRef.faithful.decode_encode,
      StoredObject.faithful.nullable?_optional nofun,
      Outcome.ofJsonWithin?_toJson (by decide : 1 < depthLimit),
      Duration.faithful.decode_encode, WindowPhase.faithful.decode_encode]

/-! ## Metadata -/

namespace Metadata

theorem insertEntry_append {key value : String} {entries : List (String × String)}
    (h : ∀ k ∈ entries.map Prod.fst, k < key) :
    insertEntry key value entries = entries ++ [(key, value)] := by
  induction entries with
  | nil => rfl
  | cons kv entries ih =>
    have hlt : kv.1 < key := h kv.1 List.mem_cons_self
    rw [insertEntry, if_neg (String.lt_asymm hlt), if_neg (String.ne_of_lt hlt).symm,
      ih fun k hk => h k (List.mem_cons_of_mem _ hk)]
    rfl

/-- Entries that come in the order of their names stay in it. -/
theorem foldl_insert {m : Metadata} {entries : List (String × String)}
    (h : ((m.entries ++ entries).map Prod.fst).Pairwise (· < ·)) :
    (entries.foldl (fun m (k, v) => m.insert k v) m).entries = m.entries ++ entries := by
  induction entries generalizing m with
  | nil => exact (List.append_nil _).symm
  | cons kv entries ih =>
    have hlast : (m.insert kv.1 kv.2).entries = m.entries ++ [kv] := by
      refine insertEntry_append fun k hk => ?_
      rw [List.map_append, List.pairwise_append] at h
      exact h.2.2 k hk kv.1 List.mem_cons_self
    rw [List.append_cons, ← hlast] at h
    rw [List.foldl_cons, ih h, hlast, ← List.append_cons]

theorem ofList_entries (m : Metadata) : ofList m.entries = m :=
  Metadata.ext (foldl_insert (m := {}) m.sorted)

end Metadata

theorem mapM_texts {f : String × Json → Option (String × String)}
    (hf : ∀ k s, f (k, .text s) = some (k, s)) (entries : List (String × String)) :
    (entries.map fun kv => (kv.1, Json.text kv.2)).mapM f = some entries := by
  induction entries with
  | nil => rfl
  | cons kv entries ih => rw [List.map_cons, List.mapM_cons, ih, hf]; rfl

theorem FaultRecord.faithful : Faithful FaultRecord.toJson FaultRecord.ofJson? where
  isPlain r := by
    refine isPlain_object ?_
    simp only [List.forall_mem_cons, List.not_mem_nil, false_imp_iff, implies_true, and_true]
    refine ⟨isPlain_text _, isPlain_object fun kv hkv => ?_⟩
    obtain ⟨entry, -, rfl⟩ := List.mem_map.1 hkv
    exact isPlain_text _
  decode_encode r := by
    have hcolumns : columns? ["component", "metadata"] r.toJson =
        some [some (.text r.component),
          some (.object (r.metadata.entries.map fun kv => (kv.1, .text kv.2)))] :=
      columns?_object rfl (by decide)
    rw [ofJson?, hcolumns]
    simp only [Option.bind_eq_bind, Option.bind_some]
    rw [mapM_texts fun _ _ => rfl, Option.bind_some, Metadata.ofList_entries]
    rfl

/-- Whatever a value of the data model holds, its text is read as it and as nothing else. -/
theorem data_lossless :
    Lossless Operation.toJson Operation.ofJson? ∧ Lossless Payload.toJson Payload.ofJson? ∧
      Lossless ObjectRef.toJson ObjectRef.ofJson? ∧
      Lossless StoredObject.toJson StoredObject.ofJson? ∧
      Lossless TaskId.toJson TaskId.ofJson? ∧ Lossless Outcome.toJson Outcome.ofJson? ∧
      Lossless OperationResult.toJson OperationResult.ofJson? ∧
      Lossless FaultRecord.toJson FaultRecord.ofJson? :=
  ⟨Operation.faithful.lossless, Payload.faithful.lossless, ObjectRef.faithful.lossless,
    StoredObject.faithful.lossless, TaskId.faithful.lossless, Outcome.faithful.lossless,
    OperationResult.faithful.lossless, FaultRecord.faithful.lossless⟩

end FaultDrill
