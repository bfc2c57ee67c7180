import Mathlib.Data.List.Basic
import FaultDrill.Toml.Reader

/-! # Numbers of a document

No number that a document holds needs more than sixty-three bits: the reader refuses it, and the
tables under construction only hand on what the reader gave them.
-/

namespace FaultDrill.Toml

/-! ## Values -/

/-- No integer in the value is above the greatest one that can be written. -/
inductive Fits : Toml → Prop
  | text : Fits (.text s)
  | integer (h : n < 9223372036854775808) : Fits (.integer n)
  | bool : Fits (.bool b)
  | float : Fits .float
  | dateTime : Fits .dateTime
  | array (h : ∀ t ∈ elements, Fits t) : Fits (.array elements)
  | table (h : ∀ pair ∈ entries, Fits pair.2) : Fits (.table entries)

inductive Node.Fits : Node → Prop
  | leaf (h : v.Fits) : Node.Fits (.leaf v)
  | table (h : ∀ pair ∈ entries, Node.Fits pair.2) : Node.Fits (.table implied dotted entries)
  | tables (h : ∀ entries ∈ elements, ∀ pair ∈ entries, Node.Fits pair.2) :
    Node.Fits (.tables elements)

def Entries.Fits (entries : Entries) : Prop := ∀ pair ∈ entries, pair.2.Fits

def Frame.Fits : Frame → Prop
  | .array before => ∀ t ∈ before, t.Fits
  | .inline entries _ => entries.Fits

def Place.Fits : Place → Prop
  | .value around => ∀ frame ∈ around, frame.Fits
  | .element around before | .afterElement around before =>
    (∀ frame ∈ around, frame.Fits) ∧ ∀ t ∈ before, t.Fits
  | .firstKey around => ∀ frame ∈ around, frame.Fits
  | .key around entries | .afterPair around entries =>
    (∀ frame ∈ around, frame.Fits) ∧ entries.Fits
  | .done v => v.Fits

def Statement.Fits : Statement → Prop
  | .pair _ v => v.Fits
  | _ => True

variable {v : Toml} {n m : Int} {chars rest : List Char} {entries entries' : Entries} {node : Node}
  {key : String} {path : List String} {around : List Frame} {place next : Place}

/-! ## Scalars -/

theorem inRange?_fits (h : inRange? n = some m) : m < 9223372036854775808 := by
  unfold inRange? at h
  split at h
  · next hn => cases h; exact hn.2
  · cases h

theorem integer?_fits (h : integer? chars = some n) : n < 9223372036854775808 := by
  unfold integer? at h
  split at h
  case h_4 =>
    dsimp only at h
    obtain ⟨_, -, h⟩ := Option.bind_eq_some_iff.1 h
    exact inRange?_fits h
  all_goals
    obtain ⟨_, -, h⟩ := Option.bind_eq_some_iff.1 h
    exact inRange?_fits h

theorem scalar?_fits (h : scalar? chars = some v) : v.Fits := by
  unfold scalar? at h
  split at h
  · cases h; exact .bool
  split at h
  · cases h; exact .bool
  split at h
  · cases h; exact .dateTime
  split at h
  · cases h; exact .float
  · obtain ⟨n, hn, rfl⟩ := Option.map_eq_some_iff.1 h
    exact .integer (integer?_fits hn)

/-! ## Tables -/

theorem Entries.Fits.replace (h : entries.Fits) (hnode : node.Fits) :
    (Entries.replace key node entries).Fits := by
  induction entries with
  | nil => exact List.forall_mem_singleton.2 hnode
  | cons pair entries ih =>
    obtain ⟨hpair, htail⟩ := List.forall_mem_cons.1 h
    unfold Entries.replace
    split
    · exact List.forall_mem_cons.2 ⟨hnode, htail⟩
    · exact List.forall_mem_cons.2 ⟨hpair, ih htail⟩

theorem Entries.Fits.get? (h : entries.Fits) (hget : entries.get? key = some node) : node.Fits := by
  obtain ⟨before, after, rfl, -⟩ := List.lookup_eq_some_iff.1 hget
  exact h (key, node) (by simp)

theorem Entries.fits_nil : Entries.Fits [] := nofun

theorem Entries.Fits.insertPair (h : entries.Fits) (hv : v.Fits)
    (hinsert : Entries.insertPair key v path entries = some entries') : entries'.Fits := by
  induction path generalizing entries entries' with
  | nil =>
    unfold Entries.insertPair at hinsert
    split at hinsert
    · cases hinsert; exact h.replace (.leaf hv)
    · cases hinsert
  | cons name path ih =>
    unfold Entries.insertPair at hinsert
    split at hinsert
    · obtain ⟨inner, hinner, rfl⟩ := Option.map_eq_some_iff.1 hinsert
      exact h.replace (.table (ih Entries.fits_nil hinner))
    · next hget =>
      split at hinsert
      · cases hinsert
      · obtain ⟨inner, hinner, rfl⟩ := Option.map_eq_some_iff.1 hinsert
        cases h.get? hget with
        | table hold => exact h.replace (.table (ih hold hinner))
    · next hget =>
      split at hinsert
      · cases hinsert
      · obtain ⟨inner, hinner, rfl⟩ := Option.map_eq_some_iff.1 hinsert
        cases h.get? hget with
        | tables hold =>
          obtain ⟨hlast, hbefore⟩ := List.forall_mem_cons.1 hold
          exact h.replace (.tables (List.forall_mem_cons.2 ⟨ih hlast hinner, hbefore⟩))
    · cases hinsert

theorem Entries.Fits.atPath {change : Entries → Option Entries}
    (hchange : ∀ {entries entries'}, Entries.Fits entries → change entries = some entries' →
      Entries.Fits entries')
    (h : entries.Fits) (hat : Entries.atPath change path entries = some entries') :
    entries'.Fits := by
  induction path generalizing entries entries' with
  | nil => exact hchange h hat
  | cons name path ih =>
    unfold Entries.atPath at hat
    split at hat
    · obtain ⟨inner, hinner, rfl⟩ := Option.map_eq_some_iff.1 hat
      exact h.replace (.table (ih Entries.fits_nil hinner))
    · next hget =>
      obtain ⟨inner, hinner, rfl⟩ := Option.map_eq_some_iff.1 hat
      cases h.get? hget with
      | table hold => exact h.replace (.table (ih hold hinner))
    · next hget =>
      obtain ⟨inner, hinner, rfl⟩ := Option.map_eq_some_iff.1 hat
      cases h.get? hget with
      | tables hold =>
        obtain ⟨hlast, hbefore⟩ := List.forall_mem_cons.1 hold
        exact h.replace (.tables (List.forall_mem_cons.2 ⟨ih hlast hinner, hbefore⟩))
    · cases hat

theorem Entries.Fits.openTable (h : entries.Fits)
    (hopen : Entries.openTable key entries = some entries') : entries'.Fits := by
  unfold Entries.openTable at hopen
  split at hopen
  · cases hopen; exact h.replace (.table nofun)
  · next hget =>
    cases hopen
    cases h.get? hget with
    | table hold => exact h.replace (.table hold)
  · cases hopen

theorem Entries.Fits.openElement (h : entries.Fits)
    (hopen : Entries.openElement key entries = some entries') : entries'.Fits := by
  unfold Entries.openElement at hopen
  split at hopen
  · cases hopen; exact h.replace (.tables (by simp))
  · next hget =>
    cases hopen
    cases h.get? hget with
    | tables hold => exact h.replace (.tables (List.forall_mem_cons.2 ⟨nofun, hold⟩))
  · cases hopen

mutual

theorem Node.Fits.value : ∀ {node : Node}, node.Fits → (Node.value node).Fits
  | .leaf _, .leaf h => h
  | .table _ _ _, .table h => .table (Entries.Fits.values h)
  | .tables _, .tables h => .array fun t ht =>
    Node.fits_valuesOfTables h t (List.mem_reverse.1 ht)

theorem Entries.Fits.values : ∀ {entries : List (String × Node)},
    (∀ pair ∈ entries, pair.2.Fits) → ∀ pair ∈ Node.values entries, pair.2.Fits
  | [], _ => nofun
  | (_, _) :: _, h =>
    have h := List.forall_mem_cons.1 h
    List.forall_mem_cons.2 ⟨Node.Fits.value h.1, Entries.Fits.values h.2⟩

theorem Node.fits_valuesOfTables : ∀ {elements : List (List (String × Node))},
    (∀ entries ∈ elements, ∀ pair ∈ entries, pair.2.Fits) →
    ∀ t ∈ Node.valuesOfTables elements, t.Fits
  | [], _ => nofun
  | _ :: _, h =>
    have h := List.forall_mem_cons.1 h
    List.forall_mem_cons.2 ⟨.table (Entries.Fits.values h.1), Node.fits_valuesOfTables h.2⟩

end

/-! ## Places -/

theorem give_fits (hv : v.Fits) (haround : ∀ frame ∈ around, frame.Fits)
    (h : give v around = some next) : next.Fits := by
  unfold give at h
  split at h
  · cases h; exact hv
  · cases h
    obtain ⟨hbefore, haround⟩ := List.forall_mem_cons.1 haround
    exact ⟨haround, List.forall_mem_cons.2 ⟨hv, hbefore⟩⟩
  · obtain ⟨hentries, haround⟩ := List.forall_mem_cons.1 haround
    simp only [Option.bind_eq_bind, Option.bind_eq_some_iff] at h
    obtain ⟨key, -, entries, hinsert, h⟩ := h
    cases h
    exact ⟨haround, Entries.Fits.insertPair hentries hv hinsert⟩

/-- What the reader of a lexeme gives to the containers around it. -/
theorem given_fits {rest : List Char} (hv : v.Fits) (haround : ∀ frame ∈ around, frame.Fits)
    (h : ((give v around).bind fun place => some (place, rest)) = some (next, chars)) :
    next.Fits := by
  obtain ⟨place, hgive, h⟩ := Option.bind_eq_some_iff.1 h
  cases h
  exact give_fits hv haround hgive

theorem startValue_fits (haround : ∀ frame ∈ around, frame.Fits)
    (h : startValue around chars = some (next, rest)) : next.Fits := by
  have hquoted {chars : List Char} (h : ((quoted? chars).bind fun x =>
      (give (.text (String.ofList x.1)) around).bind fun place => some (place, x.2)) =
        some (next, rest)) : next.Fits := by
    obtain ⟨_, -, h⟩ := Option.bind_eq_some_iff.1 h
    exact given_fits .text haround h
  unfold startValue at h
  split at h
  · split at h
    · cases h; exact ⟨haround, List.forall_mem_nil _⟩
    · cases h
  · split at h
    · cases h; exact haround
    · cases h
  · exact hquoted h
  · exact hquoted h
  · dsimp only at h
    split at h
    · cases h
    · obtain ⟨v, hv, h⟩ := Option.bind_eq_some_iff.1 h
      exact given_fits (scalar?_fits hv) haround h

theorem startPair_fits (haround : ∀ frame ∈ around, frame.Fits) (hentries : entries.Fits)
    (h : startPair around entries chars = some (next, rest)) : next.Fits := by
  obtain ⟨⟨path, after⟩, -, h⟩ := Option.bind_eq_some_iff.1 h
  dsimp only at h
  split at h
  · cases h; exact List.forall_mem_cons.2 ⟨hentries, haround⟩
  · cases h

theorem lineBreak_fits (h : (lineBreak? chars).map (place, ·) = some (next, rest))
    (hplace : place.Fits) : next.Fits := by
  obtain ⟨_, -, h⟩ := Option.map_eq_some_iff.1 h
  cases h
  exact hplace

/-- No lexeme brings a greater number into what is open. -/
theorem step_fits (hplace : place.Fits) (h : step place chars = some (next, rest)) : next.Fits := by
  unfold step at h
  split at h
  case h_1 => exact startValue_fits hplace h
  case h_2 around before =>
    obtain ⟨haround, hbefore⟩ := hplace
    split at h
    · exact given_fits (.array (by simpa using hbefore)) haround h
    · exact lineBreak_fits h ⟨haround, hbefore⟩
    · exact lineBreak_fits h ⟨haround, hbefore⟩
    · cases h; exact ⟨haround, hbefore⟩
    · have hframes : ∀ frame ∈ Frame.array before :: around, frame.Fits :=
        List.forall_mem_cons.2 ⟨hbefore, haround⟩
      exact startValue_fits hframes h
  case h_3 around before =>
    obtain ⟨haround, hbefore⟩ := hplace
    split at h
    · exact given_fits (.array (by simpa using hbefore)) haround h
    · cases h; exact ⟨haround, hbefore⟩
    · exact lineBreak_fits h ⟨haround, hbefore⟩
    · exact lineBreak_fits h ⟨haround, hbefore⟩
    · cases h; exact ⟨haround, hbefore⟩
    · cases h
  case h_4 =>
    split at h
    · exact given_fits (.table (List.forall_mem_nil _)) hplace h
    · exact startPair_fits hplace Entries.fits_nil h
  case h_5 => exact startPair_fits hplace.1 hplace.2 h
  case h_6 around entries =>
    obtain ⟨haround, hentries⟩ := hplace
    split at h
    · exact given_fits (.table (Entries.Fits.values hentries)) haround h
    · cases h; exact ⟨haround, hentries⟩
    · cases h
  case h_7 => cases h

theorem readFrom_fits (hplace : place.Fits) (h : readFrom place chars = some (v, rest)) :
    v.Fits := by
  fun_induction readFrom place chars with
  | case1 => cases h; exact hplace
  | case2 => cases h
  | case3 _ _ _ _ _ hstep _ ih => exact ih (step_fits hplace hstep) h

theorem value?_fits (h : value? chars = some (v, rest)) : v.Fits := by
  have hplace : (Place.value []).Fits := List.forall_mem_nil _
  exact readFrom_fits hplace h

/-! ## Documents -/

theorem statement?_fits {statement : Statement}
    (h : statement? chars = some (some statement, rest)) : statement.Fits := by
  unfold statement? at h
  split at h
  case h_7 =>
    obtain ⟨_, -, h⟩ := Option.bind_eq_some_iff.1 h
    dsimp only at h
    split at h
    · obtain ⟨_, hv, h⟩ := Option.bind_eq_some_iff.1 h
      cases h
      exact value?_fits hv
    · cases h
  case h_5 | h_6 =>
    obtain ⟨_, -, h⟩ := Option.bind_eq_some_iff.1 h
    dsimp only at h
    split at h
    · cases h; trivial
    · cases h
  all_goals cases h

theorem statements?_fits {statements : List Statement} (h : statements? chars = some statements) :
    ∀ statement ∈ statements, statement.Fits := by
  have hone {statement : Option Statement} {chars rest : List Char}
      (h : statement? chars = some (statement, rest)) : ∀ s ∈ statement.toList, s.Fits := by
    intro s hs
    rw [Option.mem_toList] at hs
    cases hs
    exact statement?_fits h
  fun_induction statements? chars generalizing statements with
  | case1 => cases h
  | case2 => cases h
  | case3 _ _ _ hstatement => cases h; exact hone hstatement
  | case4 _ _ _ hstatement _ _ _ _ ih =>
    obtain ⟨later, hlater, rfl⟩ := Option.map_eq_some_iff.1 h
    exact List.forall_mem_append.2 ⟨hone hstatement, ih hlater⟩

theorem add_fits {b b' : Building} {statement : Statement} (hb : b.entries.Fits)
    (hstatement : statement.Fits) (h : b.add statement = some b') : b'.entries.Fits := by
  unfold Building.add at h
  split at h
  all_goals
    simp only [Option.bind_eq_bind, Option.bind_eq_some_iff] at h
    obtain ⟨⟨around, name⟩, -, entries, hat, h⟩ := h
    cases h
  · exact Entries.Fits.atPath Entries.Fits.openTable hb hat
  · exact Entries.Fits.atPath Entries.Fits.openElement hb hat
  · exact Entries.Fits.atPath (fun h => Entries.Fits.insertPair h hstatement) hb hat

theorem foldlM_fits {statements : List Statement} {b b' : Building} (hb : b.entries.Fits)
    (hstatements : ∀ statement ∈ statements, statement.Fits)
    (h : statements.foldlM Building.add b = some b') : b'.entries.Fits := by
  induction statements generalizing b with
  | nil => cases h; exact hb
  | cons statement statements ih =>
    obtain ⟨hfirst, hlater⟩ := List.forall_mem_cons.1 hstatements
    rw [List.foldlM_cons] at h
    obtain ⟨next, hadd, h⟩ := Option.bind_eq_some_iff.1 h
    exact ih (add_fits hb hfirst hadd) hlater h

/-- No number in a document is above the greatest one that a document can hold. -/
theorem read?_fits {text : String} (h : read? text = some v) : v.Fits := by
  simp only [read?, Option.bind_eq_bind, Option.bind_eq_some_iff] at h
  obtain ⟨statements, hstatements, built, hbuilt, h⟩ := h
  cases h
  exact .table (Entries.Fits.values
    (foldlM_fits Entries.fits_nil (statements?_fits hstatements) hbuilt))

end FaultDrill.Toml
