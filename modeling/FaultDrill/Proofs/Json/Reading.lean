import FaultDrill.Json.Reader
import FaultDrill.Proofs.Decimal

/-! # What is written is read back

The text of a value is read as that value. The tokens come back because no number and no name
stands next to another, and from the tokens the fold builds the value that they were written for.
-/

namespace FaultDrill.Json

/-! ## Strings -/

/-- A character is written with a letter behind a backslash, with its number, or as it is. -/
theorem escape_cases (c : Char) :
    (∃ e, escape c = ['\\', e] ∧ simpleEscape? e = some c ∧ e ≠ 'u' ∧ e ≠ '\n') ∨
      (c.toNat < 0x20 ∧ escape c = escapeHex c.toNat) ∨
      (c ≠ '"' ∧ c ≠ '\\' ∧ 0x20 ≤ c.toNat ∧ escape c = [c]) := by
  have hc {n : Nat} (h : c.toNat = n) : c = Char.ofNat n := by rw [← h, Char.ofNat_toNat]
  have letter (e : Char) (hescape : escape c = ['\\', e]) (he : simpleEscape? e = some c)
      (hu : e ≠ 'u' := by decide) (hn : e ≠ '\n' := by decide) :
      ∃ e, escape c = ['\\', e] ∧ simpleEscape? e = some c ∧ e ≠ 'u' ∧ e ≠ '\n' :=
    ⟨e, hescape, he, hu, hn⟩
  by_cases hquote : c = '"'
  · exact .inl (letter '"' (by simp [escape, hquote]) (by rw [hquote]; rfl))
  by_cases hslash : c = '\\'
  · exact .inl (letter '\\' (by simp [escape, hslash]) (by rw [hslash]; rfl))
  by_cases hb : c.toNat = 0x08
  · exact .inl (letter 'b' (by simp [escape, hquote, hslash, hb]) (by rw [hc hb]; rfl))
  by_cases ht : c = '\t'
  · exact .inl (letter 't' (by rw [ht]; rfl) (by rw [ht]; rfl))
  by_cases hn : c = '\n'
  · exact .inl (letter 'n' (by rw [hn]; rfl) (by rw [hn]; rfl))
  by_cases hf : c.toNat = 0x0c
  · exact .inl (letter 'f' (by rw [hc hf]; rfl) (by rw [hc hf]; rfl))
  by_cases hr : c = '\r'
  · exact .inl (letter 'r' (by rw [hr]; rfl) (by rw [hr]; rfl))
  by_cases hlow : c.toNat < 0x20
  · exact .inr (.inl ⟨hlow, by simp [escape, hquote, hslash, hb, ht, hn, hf, hr, hlow]⟩)
  · exact .inr (.inr ⟨hquote, hslash, Nat.not_lt.1 hlow,
      by simp [escape, hquote, hslash, hb, ht, hn, hf, hr, hlow]⟩)

theorem number?_escapeHex {n : Nat} (h : n < 0x20) :
    Hex.number? [Nat.digitChar (n / 4096 % 16), Nat.digitChar (n / 256 % 16),
      Nat.digitChar (n / 16 % 16), Nat.digitChar (n % 16)] = some n := by
  have hall : ∀ n < 0x20, Hex.number? [Nat.digitChar (n / 4096 % 16),
      Nat.digitChar (n / 256 % 16), Nat.digitChar (n / 16 % 16),
      Nat.digitChar (n % 16)] = some n := by decide
  exact hall n h

theorem ofUnit_toNat {c : Char} (h : c.toNat < 0x20) : Piece.ofUnit c.toNat = .char c := by
  have hleading : isLeading c.toNat = false := by simp [isLeading]; omega
  have htrailing : isTrailing c.toNat = false := by simp [isTrailing]; omega
  simp [Piece.ofUnit, hleading, htrailing]

/-- An escaped character is read as itself. -/
theorem scanText_escape (read : List Piece) (c : Char) (rest : List Char) :
    scanText read (escape c ++ rest) = scanText (.char c :: read) rest := by
  rcases escape_cases c with
    ⟨e, hescape, he, hu, -⟩ | ⟨hlow, hescape⟩ | ⟨hquote, hslash, hc, hescape⟩
  · rw [hescape, List.cons_append, List.singleton_append, scanText, he]
    intro _ _ _ _ _ h
    exact absurd h hu
  · rw [hescape]
    simp only [escapeHex, List.cons_append, List.nil_append, scanText, number?_escapeHex hlow,
      ofUnit_toNat hlow]
  · rw [hescape, List.singleton_append, scanText]
    · simp [Nat.not_lt.2 hc, hslash]
    · exact hquote
    · exact fun _ _ _ _ _ h => absurd h hslash
    · exact fun _ _ h => absurd h hslash

theorem scanText_text (read : List Piece) (cs rest : List Char) :
    scanText read (cs.flatMap escape ++ '"' :: rest) =
      some (read.reverse ++ cs.map .char, rest) := by
  induction cs generalizing read with
  | nil => simp [scanText]
  | cons c cs ih =>
    rw [List.flatMap_cons, List.append_assoc, scanText_escape, ih]
    simp

theorem joinPieces_chars (cs : List Char) : joinPieces (cs.map .char) = some cs := by
  induction cs with
  | nil => rfl
  | cons c cs ih => simp [joinPieces, ih]

theorem textToken_chars (s : String) : textToken (s.toList.map .char) = .text s := by
  simp [textToken, joinPieces_chars]

/-! ## Numbers -/

/-- An integer of 64 bits, with or without a sign. -/
def Number.IsWord : Number → Prop
  | .integer i => -(UInt64.size / 2 : Nat) ≤ i ∧ i < UInt64.size
  | .decimal _ _ _ => False

theorem natural?_toDigits (n : Nat) : natural? (Nat.toDigits 10 n) = some n := by
  rcases Nat.eq_zero_or_pos n with rfl | hn
  · rfl
  · have hhead := Decimal.head_toDigits hn
    have hvalue := Decimal.value_toDigits n
    generalize Nat.toDigits 10 n = digits at hhead hvalue
    unfold natural?
    split
    · exact absurd hvalue (Nat.ne_of_lt hn)
    · exact absurd rfl hhead
    · exact absurd rfl hhead
    · rw [hvalue]

theorem unsignedNumber?_toDigits (negative : Bool) (n : Nat) :
    unsignedNumber? negative (Nat.toDigits 10 n) = some (whole negative n) := by
  have hdigits : ∀ c ∈ Nat.toDigits 10 n, c.isDigit = true :=
    fun _ => Decimal.isDigit_of_mem
  have htake : (Nat.toDigits 10 n).takeWhile Char.isDigit = Nat.toDigits 10 n :=
    List.takeWhile_eq_self_iff.2 hdigits
  have hdrop : (Nat.toDigits 10 n).dropWhile Char.isDigit = [] :=
    List.dropWhile_eq_nil_iff.2 hdigits
  simp [unsignedNumber?, htake, hdrop, natural?_toDigits]

theorem number?_integerChars {i : Int} (h : (Number.integer i).IsWord) :
    number? (integerChars i) = some (.integer i) := by
  obtain ⟨hlow, hhigh⟩ := h
  cases i with
  | ofNat n =>
    have hnot : ∀ rest, integerChars (.ofNat n) ≠ '-' :: rest := by
      intro rest heq
      have hmem : '-' ∈ Nat.toDigits 10 n := by
        rw [show Nat.toDigits 10 n = '-' :: rest from heq]
        exact List.mem_cons_self
      exact absurd (Decimal.isDigit_of_mem hmem) (by decide)
    have hlt : n < UInt64.size := Int.ofNat_lt.1 hhigh
    rw [number?]
    · change unsignedNumber? false (Nat.toDigits 10 n) = _
      rw [unsignedNumber?_toDigits, whole, if_neg Bool.false_ne_true, if_pos hlt]
      rfl
    · exact fun rest heq => hnot rest heq
  | negSucc n =>
    have hle : ¬(n + 1 = 0 ∨ UInt64.size / 2 < n + 1) := by omega
    rw [integerChars, number?, unsignedNumber?_toDigits, whole, if_pos rfl, if_neg hle]
    rfl

/-! ## Tokens -/

/-- What can stand behind a number or a name without being taken for a part of it. -/
def Ends (rest : List Char) : Prop := ∀ c ∈ rest.head?, isNumberChar c = false ∧ c.isAlpha = false

/-- A token that is read back as it is written, and not as another one. -/
def Token.IsPlain : Token → Prop
  | .number n => n.IsWord
  | .illFormed => False
  | _ => True

theorem isNumberChar_of_mem {i : Int} {c : Char} (h : c ∈ integerChars i) :
    isNumberChar c = true := by
  have hdigit {n : Nat} (h : c ∈ Nat.toDigits 10 n) : isNumberChar c = true := by
    simp [isNumberChar, Decimal.isDigit_of_mem h]
  cases i with
  | ofNat n => exact hdigit h
  | negSucc n =>
    rcases List.mem_cons.1 h with rfl | h
    · rfl
    · exact hdigit h

theorem integerChars_ne_nil (i : Int) : integerChars i ≠ [] := by
  cases i with
  | ofNat n => exact Nat.toDigits_ne_nil
  | negSucc n => exact List.cons_ne_nil _ _

/-- Which of its branches the reader takes for a character that can begin a number. -/
theorem isNumberChar_start {c : Char} (h : isNumberChar c = true) :
    isBlank c = false ∧ c ≠ '"' ∧ punctuation? c = none := by
  have no (d : Char) (hd : isNumberChar d = false := by decide) : c ≠ d := by
    rintro rfl
    rw [h] at hd
    cases hd
  refine ⟨?_, no '"', ?_⟩
  · simp [isBlank, no ' ', no '\t', no '\n', no '\r']
  · unfold punctuation?
    split <;> first | rfl | exact absurd rfl (no _)

theorem lex_number {n : Number} (h : n.IsWord) {rest : List Char} (hrest : Ends rest) :
    lex (n.chars ++ rest) = (lex rest).map (.number n :: ·) := by
  cases n with
  | decimal => exact h.elim
  | integer i =>
    have hnumber := number?_integerChars h
    have hall : ∀ c ∈ integerChars i, isNumberChar c = true := fun c hc => isNumberChar_of_mem hc
    rw [Number.chars]
    cases hcs : integerChars i with
    | nil => exact absurd hcs (integerChars_ne_nil i)
    | cons c cs =>
      rw [hcs] at hnumber hall
      have hc := hall c List.mem_cons_self
      obtain ⟨hblank, hquote, hpunctuation⟩ := isNumberChar_start hc
      obtain ⟨htake, hdrop⟩ := Decimal.takeWhile_run
        (fun c hc => hall c (List.mem_cons_of_mem _ hc)) fun c hc => (hrest c hc).1
      rw [List.cons_append, lex]
      simp only [hblank, hquote, hpunctuation, hc, htake, hdrop, hnumber, Bool.false_eq_true,
        if_false, if_true, Option.bind_eq_bind, Option.bind_some]
      cases lex rest <;> rfl

theorem lex_text (s : String) (rest : List Char) :
    lex ((Token.text s).chars ++ rest) = (lex rest).map (.text s :: ·) := by
  have hscan : scanText [] (s.toList.flatMap escape ++ '"' :: rest) =
      some (s.toList.map .char, rest) := by
    rw [scanText_text, List.reverse_nil, List.nil_append]
  rw [Token.chars, List.cons_append, List.append_assoc, List.singleton_append, lex,
    if_neg (by decide), if_pos rfl]
  split
  case h_1 h =>
    rw [hscan] at h
    cases h
  case h_2 h =>
    rw [hscan] at h
    cases h
    rw [textToken_chars]

theorem lex_literal {t : Token} {c : Char} {cs rest : List Char}
    (hstart : isBlank c = false ∧ c ≠ '"' ∧ punctuation? c = none ∧ isNumberChar c = false)
    (hcs : cs.all Char.isAlpha = true) (ht : literal? (c :: cs) = some t) (hrest : Ends rest) :
    lex (c :: (cs ++ rest)) = (lex rest).map (t :: ·) := by
  obtain ⟨hblank, hquote, hpunctuation, hnumber⟩ := hstart
  obtain ⟨htake, hdrop⟩ := Decimal.takeWhile_run (List.all_eq_true.1 hcs) fun c hc =>
    (hrest c hc).2
  rw [lex]
  simp only [hblank, hquote, hpunctuation, hnumber, htake, hdrop, ht, Bool.false_eq_true,
    if_false, Option.bind_eq_bind, Option.bind_some]
  cases lex rest <;> rfl

theorem lex_punctuation {t : Token} {c : Char} (hstart : isBlank c = false ∧ c ≠ '"')
    (ht : punctuation? c = some t) (rest : List Char) :
    lex (c :: rest) = (lex rest).map (t :: ·) := by
  rw [lex]
  simp only [hstart.1, hstart.2, ht, Bool.false_eq_true, if_false]

/-- A token of one character that is not a part of a number or a name. -/
def Token.isMark : Token → Bool
  | openBrace | closeBrace | openBracket | closeBracket | comma | colon => true
  | _ => false

theorem lex_mark {t : Token} (h : t.isMark = true) (rest : List Char) :
    lex (t.chars ++ rest) = (lex rest).map (t :: ·) := by
  cases t with
  | openBrace | closeBrace | openBracket | closeBracket | comma | colon =>
    exact lex_punctuation (by decide) rfl rest
  | _ => cases h

/-- A token is read from the front of what follows it. -/
theorem lex_token {t : Token} (h : t.IsPlain) {rest : List Char} (hrest : Ends rest) :
    lex (t.chars ++ rest) = (lex rest).map (t :: ·) := by
  cases t with
  | number n => exact lex_number h hrest
  | text s => exact lex_text s rest
  | illFormed => exact h.elim
  | null => exact lex_literal (by decide) rfl rfl hrest
  | bool b => cases b <;> exact lex_literal (by decide) rfl rfl hrest
  | _ => exact lex_mark rfl rest

/-- The tokens are read back, with whatever follows them. -/
def Reads (ts : List Token) : Prop :=
  ∀ rest, Ends rest → lex (ts.flatMap Token.chars ++ rest) = (lex rest).map (ts ++ ·)

theorem ends_mark {t : Token} (h : t.isMark = true) (rest : List Char) :
    Ends (t.chars ++ rest) := by
  intro c hc
  cases t with
  | openBrace | closeBrace | openBracket | closeBracket | comma | colon =>
    cases hc
    decide
  | _ => cases h

theorem Reads.token {t : Token} (h : t.IsPlain) : Reads [t] := by
  intro rest hrest
  rw [List.flatMap_singleton, lex_token h hrest]
  rfl

theorem Reads.mark {t : Token} {ts : List Token} (ht : t.isMark = true) (h : Reads ts) :
    Reads (t :: ts) := by
  intro rest hrest
  rw [List.flatMap_cons, List.append_assoc, lex_mark ht, h rest hrest, Option.map_map]
  rfl

theorem Reads.append {t : Token} {xs ts : List Token} (hxs : Reads xs) (ht : t.isMark = true)
    (h : Reads (t :: ts)) : Reads (xs ++ t :: ts) := by
  intro rest hrest
  have hends : Ends ((t :: ts).flatMap Token.chars ++ rest) := by
    rw [List.flatMap_cons, List.append_assoc]
    exact ends_mark ht _
  rw [List.flatMap_append, List.append_assoc, hxs _ hends, h rest hrest, Option.map_map]
  congr 1
  funext zs
  simp

/-! ## Values -/

/-- The value has no half of a surrogate pair in it and no numbers but integers of 64 bits. -/
def IsPlain (v : Json) : Prop := ∀ t ∈ v.tokens, t.IsPlain

theorem elementTokens_eq (vs : List Json) :
    ∃ t ts, elementTokens vs = t :: ts ∧ t.isMark = true := by
  cases vs <;> exact ⟨_, _, by rw [elementTokens], rfl⟩

theorem fieldTokens_eq (kvs : List (String × Json)) :
    ∃ t ts, fieldTokens kvs = t :: ts ∧ t.isMark = true := by
  cases kvs <;> exact ⟨_, _, by rw [fieldTokens], rfl⟩

theorem Reads.element {t : Token} {v : Json} {vs : List Json} (ht : t.isMark = true)
    (hv : Reads v.tokens) (hvs : Reads (elementTokens vs)) :
    Reads (t :: (v.tokens ++ elementTokens vs)) := by
  obtain ⟨first, ts, heq, hfirst⟩ := elementTokens_eq vs
  rw [heq] at hvs ⊢
  exact .mark ht (hv.append hfirst hvs)

theorem Reads.field {t : Token} {k : String} {v : Json} {kvs : List (String × Json)}
    (ht : t.isMark = true) (hv : Reads v.tokens) (hkvs : Reads (fieldTokens kvs)) :
    Reads (t :: .text k :: .colon :: (v.tokens ++ fieldTokens kvs)) := by
  obtain ⟨first, ts, heq, hfirst⟩ := fieldTokens_eq kvs
  rw [heq] at hkvs ⊢
  have hk : Reads [Token.text k] := .token trivial
  exact .mark ht (hk.append (t := .colon) rfl (.mark rfl (hv.append hfirst hkvs)))

mutual

theorem reads_tokens (v : Json) (h : ∀ t ∈ v.tokens, t.IsPlain) : Reads v.tokens := by
  match v with
  | .null | .bool _ | .number _ | .text _ | .illFormed =>
    rw [tokens] at h ⊢
    exact .token (h _ List.mem_cons_self)
  | .array [] =>
    rw [tokens]
    exact .mark rfl (.token trivial)
  | .array (v :: vs) =>
    rw [tokens] at h ⊢
    have hv := reads_tokens v fun t ht => h t (by simp [ht])
    have hvs := reads_elementTokens vs fun t ht => h t (by simp [ht])
    exact .element rfl hv hvs
  | .object [] =>
    rw [tokens]
    exact .mark rfl (.token trivial)
  | .object ((k, v) :: kvs) =>
    rw [tokens] at h ⊢
    have hv := reads_tokens v fun t ht => h t (by simp [ht])
    have hkvs := reads_fieldTokens kvs fun t ht => h t (by simp [ht])
    exact .field rfl hv hkvs

theorem reads_elementTokens (vs : List Json) (h : ∀ t ∈ elementTokens vs, t.IsPlain) :
    Reads (elementTokens vs) := by
  match vs with
  | [] =>
    rw [elementTokens]
    exact .token trivial
  | v :: vs =>
    rw [elementTokens] at h ⊢
    have hv := reads_tokens v fun t ht => h t (by simp [ht])
    have hvs := reads_elementTokens vs fun t ht => h t (by simp [ht])
    exact .element rfl hv hvs

theorem reads_fieldTokens (kvs : List (String × Json)) (h : ∀ t ∈ fieldTokens kvs, t.IsPlain) :
    Reads (fieldTokens kvs) := by
  match kvs with
  | [] =>
    rw [fieldTokens]
    exact .token trivial
  | (k, v) :: kvs =>
    rw [fieldTokens] at h ⊢
    have hv := reads_tokens v fun t ht => h t (by simp [ht])
    have hkvs := reads_fieldTokens kvs fun t ht => h t (by simp [ht])
    exact .field rfl hv hkvs

end

theorem tokens_eq (v : Json) : ∃ t ts, v.tokens = t :: ts ∧ t ≠ .closeBracket := by
  cases v with
  | array vs => cases vs <;> exact ⟨_, _, by rw [tokens], by simp⟩
  | object kvs => rcases kvs with - | ⟨⟨k, v⟩, kvs⟩ <;> exact ⟨_, _, by rw [tokens], by simp⟩
  | _ => exact ⟨_, _, by rw [tokens], by simp⟩

/-- A first element is read as any other value. -/
theorem foldlM_firstElement (v : Json) (around : List Frame) (ts : List Token) :
    (v.tokens ++ ts).foldlM step (.firstElement around) =
      (v.tokens ++ ts).foldlM step (.value (.array [] :: around)) := by
  obtain ⟨t, rest, heq, ht⟩ := tokens_eq v
  rw [heq, List.cons_append, List.foldlM_cons, List.foldlM_cons]
  cases t with
  | closeBracket => exact absurd rfl ht
  | _ => rfl

theorem ofFields_map (fields : List (String × Json)) :
    ofFields (fields.map fun kv => (some kv.1, kv.2)) = .object fields := by
  have hall : (fields.map fun kv => (some kv.1, kv.2)).mapM
      (fun (kv : RawField) => kv.1.map fun k => (k, kv.2)) = some fields := by
    induction fields with
    | nil => rfl
    | cons kv fields ih => simp [ih]
  unfold ofFields
  rw [hall]

mutual

/-- The tokens of a value are folded into the value. -/
theorem foldlM_tokens (v : Json) (around : List Frame) (ts : List Token) :
    (v.tokens ++ ts).foldlM step (.value around) = ts.foldlM step (give v around) := by
  match v with
  | .null | .bool _ | .number _ | .text _ | .illFormed => rw [tokens]; rfl
  | .array [] => rw [tokens]; rfl
  | .array (v :: vs) =>
    rw [tokens, List.cons_append, List.foldlM_cons]
    change (v.tokens ++ elementTokens vs ++ ts).foldlM step (.firstElement around) = _
    rw [List.append_assoc, foldlM_firstElement, foldlM_tokens v, give, foldlM_elementTokens vs]
    rfl
  | .object [] => rw [tokens]; rfl
  | .object ((k, v) :: kvs) =>
    rw [tokens, List.cons_append, List.cons_append, List.cons_append, List.foldlM_cons]
    change (v.tokens ++ fieldTokens kvs ++ ts).foldlM step
      (.value (.object [] (some k) :: around)) = _
    rw [List.append_assoc, foldlM_tokens v, give]
    exact foldlM_fieldTokens kvs around [(k, v)] ts

theorem foldlM_elementTokens (vs : List Json) (around : List Frame) (before : List Json)
    (ts : List Token) :
    (elementTokens vs ++ ts).foldlM step (.afterElement around before) =
      ts.foldlM step (give (.array (before.reverse ++ vs)) around) := by
  match vs with
  | [] => rw [elementTokens, List.append_nil]; rfl
  | v :: vs =>
    rw [elementTokens, List.cons_append, List.foldlM_cons]
    change (v.tokens ++ elementTokens vs ++ ts).foldlM step (.value (.array before :: around)) = _
    rw [List.append_assoc, foldlM_tokens v, give, foldlM_elementTokens vs]
    simp

theorem foldlM_fieldTokens (kvs : List (String × Json)) (around : List Frame)
    (before : List (String × Json)) (ts : List Token) :
    (fieldTokens kvs ++ ts).foldlM step
        (.afterField around (before.map fun kv => (some kv.1, kv.2))) =
      ts.foldlM step (give (.object (before.reverse ++ kvs)) around) := by
  match kvs with
  | [] =>
    rw [fieldTokens, List.append_nil, ← ofFields_map, List.map_reverse]
    rfl
  | (k, v) :: kvs =>
    rw [fieldTokens, List.cons_append, List.cons_append, List.cons_append, List.foldlM_cons]
    change (v.tokens ++ fieldTokens kvs ++ ts).foldlM step
      (.value (.object (before.map fun kv => (some kv.1, kv.2)) (some k) :: around)) = _
    rw [List.append_assoc, foldlM_tokens v, give]
    have hrest := foldlM_fieldTokens kvs around ((k, v) :: before) ts
    rw [List.map_cons] at hrest
    rw [hrest, List.reverse_cons, List.append_assoc, List.singleton_append]

end

theorem ofTokens?_tokens (v : Json) : ofTokens? v.tokens = some v := by
  have h := foldlM_tokens v [] []
  rw [List.append_nil] at h
  unfold ofTokens?
  rw [h]
  rfl

/-- A plain value is read back from its text. -/
theorem read?_render {v : Json} (h : v.IsPlain) : read? v.render = some v := by
  have hlex := reads_tokens v h [] nofun
  rw [List.append_nil, lex] at hlex
  unfold read? render
  rw [String.toList_ofList, hlex, Option.map_some, List.append_nil]
  exact ofTokens?_tokens v

end FaultDrill.Json
