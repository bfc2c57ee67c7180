import Mathlib.Data.List.Basic
import FaultDrill.Toml.Writer

/-! # Quoted text is read back

Whichever of its forms a text is written in, the reader of that form takes exactly the text and
leaves what follows the closing quotes.
-/

namespace FaultDrill.Toml

variable {c : Char} {read text rest : List Char} {multiline : Bool} {quotes : Nat}

/-! ## Characters -/

theorem isPlain_of_not_isControl (h : isControl c = false) (hbreak : c ≠ '\n') :
    isPlain c = true := by
  simp only [isControl, Bool.or_eq_false_iff, Bool.and_eq_false_iff, decide_eq_false_iff_not] at h
  simp only [isPlain, Bool.or_eq_true, Bool.and_eq_true, decide_eq_true_eq]
  rcases h with ⟨(hlow | htab) | hbreak', hdel⟩
  · exact .inr ⟨Nat.not_lt.1 hlow, hdel⟩
  · exact .inl (by simpa using htab)
  · exact absurd (by simpa using hbreak') hbreak

/-- A character is written as a backslash with a letter behind it, by its number, or as it is. -/
theorem escape_cases (multiline : Bool) (c : Char) :
    (∃ e, escape multiline c = ['\\', e] ∧ simpleEscape? e = some c) ∨
      (isControl c = true ∧ escape multiline c = escapeHex c.toNat) ∨
      (escape multiline c = [c] ∧ c ≠ '\\' ∧
        (isPlain c = true ∨ multiline = true ∧ c = '\n')) := by
  have hc {n : Nat} (h : c.toNat = n) : c = Char.ofNat n := by rw [← h, Char.ofNat_toNat]
  by_cases hslash : c = '\\'
  · exact .inl ⟨'\\', by simp [escape, hslash], by rw [hslash]; rfl⟩
  by_cases hb : c.toNat = 0x08
  · exact .inl ⟨'b', by simp [escape, hslash, hb], by rw [hc hb]; rfl⟩
  by_cases ht : c = '\t'
  · exact .inl ⟨'t', by rw [ht]; rfl, by rw [ht]; rfl⟩
  by_cases hn : c = '\n'
  · cases multiline with
    | false => exact .inl ⟨'n', by rw [hn]; rfl, by rw [hn]; rfl⟩
    | true => exact .inr (.inr ⟨by rw [hn]; rfl, hslash, .inr ⟨rfl, hn⟩⟩)
  by_cases hf : c.toNat = 0x0c
  · exact .inl ⟨'f', by simp [escape, hslash, ht, hn, hf], by rw [hc hf]; rfl⟩
  by_cases hr : c = '\r'
  · exact .inl ⟨'r', by rw [hr]; rfl, by rw [hr]; rfl⟩
  cases hcontrol : isControl c with
  | true => exact .inr (.inl ⟨rfl, by simp [escape, hslash, hb, ht, hn, hf, hr, hcontrol]⟩)
  | false =>
    exact .inr (.inr ⟨by simp [escape, hslash, hb, ht, hn, hf, hr, hcontrol], hslash,
      .inl (isPlain_of_not_isControl hcontrol hn)⟩)

/-- Only a quote is written with a quote in front. -/
theorem escape_eq_cons (multiline : Bool) (hquote : c ≠ '"') :
    ∃ d ds, escape multiline c = d :: ds ∧ d ≠ '"' := by
  rcases escape_cases multiline c with ⟨e, hescape, -⟩ | ⟨-, hescape⟩ | ⟨hescape, -⟩
  · exact ⟨'\\', [e], hescape, by decide⟩
  · exact ⟨'\\', _, hescape, by decide⟩
  · exact ⟨c, [], hescape, hquote⟩

theorem toNat_of_isControl (h : isControl c = true) : c.toNat < 0x80 := by
  simp only [isControl, Bool.or_eq_true, Bool.and_eq_true, decide_eq_true_eq] at h
  omega

theorem hexEscape?_escapeHex (h : c.toNat < 0x80) :
    hexEscape? [upperHex (c.toNat / 4096), upperHex (c.toNat / 256), upperHex (c.toNat / 16),
      upperHex c.toNat] = some c := by
  have hall : ∀ n < 0x80, hexEscape? [upperHex (n / 4096), upperHex (n / 256), upperHex (n / 16),
      upperHex n] = some (Char.ofNat n) := by decide
  rw [hall c.toNat h, Char.ofNat_toNat]

/-! ## One line -/

theorem basic_escape (hquote : c ≠ '"') :
    basic read (escape false c ++ rest) = basic (c :: read) rest := by
  rcases escape_cases false c with ⟨e, hescape, he⟩ | ⟨hcontrol, hescape⟩ | ⟨hescape, hslash, hc⟩
  · rw [hescape, List.cons_append, List.singleton_append, basic, he]
    · rintro a b c d rest rfl
      cases he
    · rintro a b c d e f g h rest rfl
      cases he
  · rw [hescape]
    simp only [escapeHex, List.cons_append, List.nil_append, basic,
      hexEscape?_escapeHex (toNat_of_isControl hcontrol)]
  · have hplain : isPlain c = true := hc.resolve_right nofun
    rw [hescape, List.singleton_append, basic]
    · simp [hplain, hslash]
    · exact hquote
    · exact fun _ _ _ _ _ h => absurd h hslash
    · exact fun _ _ _ _ _ _ _ _ _ h => absurd h hslash
    · exact fun _ _ h => absurd h hslash

theorem basic_basicBody (text read rest : List Char) :
    basic read (basicBody text ++ '"' :: rest) = some (read.reverse ++ text, rest) := by
  fun_induction basicBody text generalizing read with
  | case1 => simp [basic]
  | case2 text ih =>
    change basic ('"' :: read) (basicBody text ++ '"' :: rest) = _
    rw [ih]
    simp
  | case3 c text hquote ih =>
    rw [List.append_assoc, basic_escape hquote, ih]
    simp

theorem literal_text (h : ∀ c ∈ text, isPlain c = true ∧ c ≠ '\'') :
    literal read (text ++ '\'' :: rest) = some (read.reverse ++ text, rest) := by
  induction text generalizing read with
  | nil => simp [literal]
  | cons c text ih =>
    obtain ⟨hplain, hquote⟩ := h c List.mem_cons_self
    rw [List.cons_append, literal, if_pos hplain, ih fun c hc => h c (List.mem_cons_of_mem _ hc)]
    · simp
    · exact hquote

/-! ## Several lines -/

/-- Neither a quote nor a backslash nor a break. -/
theorem multilineBasic_plain (hquote : c ≠ '"') (hslash : c ≠ '\\') (hplain : isPlain c = true) :
    multilineBasic read .none (c :: rest) = multilineBasic (c :: read) .none rest := by
  have hbreak : c ≠ '\n' := by
    rintro rfl
    cases hplain
  have hreturn : c ≠ '\r' := by
    rintro rfl
    cases hplain
  rw [multilineBasic]
  · simp [hplain, hslash]
  all_goals simp_all

theorem multilineBasic_escape (hquote : c ≠ '"') :
    multilineBasic read .none (escape true c ++ rest) = multilineBasic (c :: read) .none rest := by
  rcases escape_cases true c with
    ⟨e, hescape, he⟩ | ⟨hcontrol, hescape⟩ | ⟨hescape, hslash, hplain | ⟨-, rfl⟩⟩
  · rw [hescape, List.cons_append, List.singleton_append]
    unfold simpleEscape? at he
    split at he <;> cases he <;> rfl
  · rw [hescape]
    simp only [escapeHex, List.cons_append, List.nil_append, multilineBasic,
      hexEscape?_escapeHex (toNat_of_isControl hcontrol)]
  · rw [hescape, List.singleton_append, multilineBasic_plain hquote hslash hplain]
  · rfl

/-- Two quotes do not close the text, whatever stands behind them but a third. -/
theorem multilineBasic_quotes (hquotes : quotes ≤ 2) (hc : c ≠ '"') :
    multilineBasic read .none (List.replicate quotes '"' ++ c :: rest) =
      multilineBasic (List.replicate quotes '"' ++ read) .none (c :: rest) := by
  have single (next read : List Char) (h : ∀ rest, next ≠ '"' :: '"' :: rest) :
      multilineBasic read .none ('"' :: next) = multilineBasic ('"' :: read) .none next := by
    rw [multilineBasic]
    · rfl
    all_goals simp_all
  match quotes, hquotes with
  | 0, _ => rfl
  | 1, _ => exact single _ _ (by simp [hc])
  | 2, _ =>
    change multilineBasic read .none ('"' :: '"' :: c :: rest) = _
    rw [single _ _ (by simp [hc]), single _ _ (by simp [hc])]
    rfl

/-- Quotes that were just written may belong to the text or be the first to close it, so they are
read only with what follows them. -/
theorem multilineBasic_body (quotes : Nat) (text read : List Char) (hquotes : quotes ≤ 2)
    (hrest : rest.head? ≠ some '"') :
    multilineBasic read .none (List.replicate quotes '"' ++ multilineBasicBody quotes text ++
        '"' :: '"' :: '"' :: rest) =
      some (read.reverse ++ List.replicate quotes '"' ++ text, rest) := by
  induction text generalizing quotes read with
  | nil =>
    have hclose : ∀ next, rest ≠ '"' :: next := by
      rintro next rfl
      exact hrest rfl
    match quotes, hquotes with
    | 0, _ | 1, _ | 2, _ =>
      simp only [multilineBasicBody, List.replicate, List.nil_append, List.cons_append]
      rw [multilineBasic] <;> simp_all
  | cons c text ih =>
    by_cases hc : c = '"'
    · subst hc
      rw [multilineBasicBody]
      split
      case isTrue htwo =>
        subst htwo
        rw [List.append_assoc]
        change multilineBasic read .none (List.replicate 2 '"' ++ '\\' :: _) = _
        rw [multilineBasic_quotes hquotes (by decide)]
        exact (ih 0 ('"' :: '"' :: '"' :: read) (by decide)).trans (by simp)
      case isFalse htwo =>
        have hmore := ih (quotes + 1) read (by omega)
        rw [List.replicate_succ'] at hmore
        simpa using hmore
    · obtain ⟨d, ds, hescape, hd⟩ := escape_eq_cons true hc
      have hbody : multilineBasicBody quotes (c :: text) =
          escape true c ++ multilineBasicBody 0 text := by
        rw [multilineBasicBody]
        exact hc
      rw [hbody, hescape, List.append_assoc, List.append_assoc, List.cons_append,
        multilineBasic_quotes hquotes hd, ← List.cons_append, ← hescape, multilineBasic_escape hc]
      exact (ih 0 _ (by decide)).trans (by simp)

theorem multilineLiteral_quote (hnext : ∀ next, rest ≠ '\'' :: '\'' :: next) :
    multilineLiteral read ('\'' :: rest) = multilineLiteral ('\'' :: read) rest := by
  rw [multilineLiteral]
  · rfl
  all_goals simp_all

theorem multilineLiteral_char (hquote : c ≠ '\'') (hc : isControl c = false) :
    multilineLiteral read (c :: rest) = multilineLiteral (c :: read) rest := by
  by_cases hbreak : c = '\n'
  · subst hbreak
    rfl
  · have hreturn : c ≠ '\r' := by
      rintro rfl
      cases hc
    rw [multilineLiteral, if_pos (isPlain_of_not_isControl hc hbreak)]
    all_goals simp_all

theorem hasRun_tail {d : Char} (h : hasRun c (d :: text) = false) : hasRun c text = false := by
  match text with
  | [] | [_] => rfl
  | a :: b :: text => exact (Bool.or_eq_false_iff.1 h).2

theorem multilineLiteral_text (read : List Char) (htext : ∀ c ∈ text, isControl c = false)
    (hrun : hasRun '\'' text = false) (hrest : rest.head? ≠ some '\'') :
    multilineLiteral read (text ++ '\'' :: '\'' :: '\'' :: rest) =
      some (read.reverse ++ text, rest) := by
  have hclose : ∀ next, rest ≠ '\'' :: next := by
    rintro next rfl
    exact hrest rfl
  induction text generalizing read with
  | nil => rw [List.nil_append, multilineLiteral] <;> simp_all
  | cons c text ih =>
    have hmore := ih (c :: read) (fun c hc => htext c (List.mem_cons_of_mem _ hc))
      (hasRun_tail hrun)
    have hgoal : (c :: read).reverse ++ text = read.reverse ++ c :: text := by simp
    by_cases hquote : c = '\''
    · subst hquote
      have single (hnext : ∀ next, text ++ '\'' :: '\'' :: '\'' :: rest ≠ '\'' :: '\'' :: next) :
          multilineLiteral read ('\'' :: text ++ '\'' :: '\'' :: '\'' :: rest) =
            some (read.reverse ++ '\'' :: text, rest) := by
        rw [List.cons_append, multilineLiteral_quote hnext, hmore, hgoal]
      -- One quote or two at the end of the text stand next to those that close it.
      rcases text with - | ⟨d, - | ⟨e, text⟩⟩
      · simp only [List.nil_append, List.cons_append]
        rw [multilineLiteral] <;> simp_all
      · by_cases hd : d = '\''
        · subst hd
          simp only [List.nil_append, List.cons_append]
          rw [multilineLiteral]
          simp
        · exact single fun next h => hd (List.cons.inj h).1
      · refine single fun next h => ?_
        simp only [List.cons_append, List.cons.injEq] at h
        obtain ⟨rfl, rfl, -⟩ := h
        cases hrun
    · rw [List.cons_append, multilineLiteral_char hquote (htext c List.mem_cons_self), hmore, hgoal]

/-! ## Forms -/

theorem writeText_eq_cons (text : List Char) :
    ∃ c cs, writeText text = c :: cs ∧ (c = '"' ∨ c = '\'') := by
  unfold writeText
  split
  · exact ⟨_, _, rfl, .inl rfl⟩
  · exact ⟨_, _, rfl, .inr rfl⟩
  · exact ⟨_, _, rfl, .inl rfl⟩
  · exact ⟨_, _, rfl, .inr rfl⟩

theorem form_literal (h : formOf text = .literal) : ∀ c ∈ text, isPlain c = true ∧ c ≠ '\'' := by
  have hform : text.any isControl = false ∧ text.contains '\n' = false ∧
      text.contains '\'' = false := by
    unfold formOf at h
    grind
  simp only [List.any_eq_false, List.contains_eq_mem, decide_eq_false_iff_not] at hform
  obtain ⟨hcontrol, hbreak, hquote⟩ := hform
  refine fun c hc => ⟨isPlain_of_not_isControl (by simpa using hcontrol c hc) ?_, ?_⟩
  · rintro rfl
    exact hbreak hc
  · rintro rfl
    exact hquote hc

theorem form_multilineLiteral (h : formOf text = .multilineLiteral) :
    (∀ c ∈ text, isControl c = false) ∧ hasRun '\'' text = false := by
  have hform : text.any isControl = false ∧ hasRun '\'' text = false := by
    unfold formOf at h
    grind
  simpa using hform

/-- The line break that the opening quotes take with them is the one that was written for it. -/
theorem skipBreak_opening {body : List Char}
    (h : '\n' ∉ text → ∀ c ∈ body.head?, c ≠ '\n' ∧ c ≠ '\r') :
    skipBreak (opening text ++ body) = body := by
  unfold opening
  split
  case isTrue => rfl
  case isFalse hbreak =>
    have hhead := h (by simpa using hbreak)
    rw [List.nil_append]
    unfold skipBreak
    split
    · exact absurd rfl (hhead '\n' rfl).1
    · exact absurd rfl (hhead '\r' rfl).2
    · rfl

theorem head?_multilineBasicBody (hbreak : '\n' ∉ text) :
    ∀ c ∈ (multilineBasicBody 0 text ++ '"' :: rest).head?, c ≠ '\n' ∧ c ≠ '\r' := by
  rcases text with - | ⟨c, text⟩
  · simp [multilineBasicBody]
  by_cases hquote : c = '"'
  · subst hquote
    simp [multilineBasicBody]
  rw [multilineBasicBody]
  · rcases escape_cases true c with ⟨e, hescape, -⟩ | ⟨-, hescape⟩ | ⟨hescape, -, hplain | ⟨-, rfl⟩⟩
    · simp [hescape]
    · simp [hescape, escapeHex]
    · have hreturn : c ≠ '\r' := by
        rintro rfl
        cases hplain
      simp [hescape, hreturn, Ne.symm (List.ne_of_not_mem_cons hbreak)]
    · exact absurd List.mem_cons_self hbreak
  · exact hquote

theorem head?_plainText (htext : ∀ c ∈ text, isControl c = false) (hbreak : '\n' ∉ text) :
    ∀ c ∈ (text ++ '\'' :: rest).head?, c ≠ '\n' ∧ c ≠ '\r' := by
  rcases text with - | ⟨c, text⟩
  · simp
  have hreturn : c ≠ '\r' := by
    rintro rfl
    cases htext '\r' List.mem_cons_self
  simp [hreturn, Ne.symm (List.ne_of_not_mem_cons hbreak)]

/-- A text on one line opens with one quote only: the next is not one, or closes it. -/
theorem basicBody_opens (hrest : rest.head? ≠ some '"') (next : List Char) :
    basicBody text ++ '"' :: rest ≠ '"' :: '"' :: next := by
  rcases text with - | ⟨c, text⟩
  · rintro h
    simp_all [basicBody]
  by_cases hquote : c = '"'
  · subst hquote
    simp [basicBody]
  obtain ⟨d, ds, hescape, hd⟩ := escape_eq_cons false hquote
  rw [basicBody]
  · simp [hescape, hd]
  · exact hquote

/-- Text is read back in whatever form it is written. -/
theorem quoted?_writeText (text : List Char) (hdouble : rest.head? ≠ some '"')
    (hsingle : rest.head? ≠ some '\'') : quoted? (writeText text ++ rest) = some (text, rest) := by
  unfold writeText
  split
  case h_1 =>
    simp only [List.cons_append, List.append_assoc, List.nil_append]
    rw [quoted?, basic_basicBody]
    · rfl
    · exact basicBody_opens hdouble
  case h_2 hform =>
    have htext := form_literal hform
    simp only [List.cons_append, List.append_assoc, List.nil_append]
    rw [quoted?, literal_text htext]
    · rfl
    · intro next h
      rcases text with - | ⟨c, text⟩
      · simp_all
      · exact (htext c List.mem_cons_self).2 (List.cons.inj h).1
  case h_3 =>
    simp only [List.cons_append, List.append_assoc, List.nil_append]
    rw [quoted?, skipBreak_opening head?_multilineBasicBody]
    exact multilineBasic_body 0 text [] (Nat.zero_le 2) hdouble
  case h_4 hform =>
    obtain ⟨htext, hrun⟩ := form_multilineLiteral hform
    simp only [List.cons_append, List.append_assoc, List.nil_append]
    rw [quoted?, skipBreak_opening (head?_plainText htext),
      multilineLiteral_text [] htext hrun hsingle]
    rfl

end FaultDrill.Toml
