import FaultDrill.CommandLine
import FaultDrill.Proofs.Sink
import FaultDrill.Proofs.Toml.Document
import FaultDrill.Proofs.Toml.Range

/-! # Configurations are written as they are read

The document of a configuration is read as that configuration. A configuration that was read from
a document has such a document, because none of its numbers is too large for one.
-/

namespace FaultDrill

open Toml

variable {t : Toml} {entries : List (String × Entry)}

namespace Toml

/-! ## Numbers -/

/-- Every number of a section can stand in a document. -/
def AllFit (entries : List (String × Entry)) : Prop := ∀ pair ∈ entries, pair.2.Fits

instance : Decidable (AllFit entries) :=
  inferInstanceAs (Decidable (∀ pair ∈ entries, pair.2.Fits))

theorem columns?_fits {names : List String} {columns : List (Option Toml)} (ht : t.Fits)
    (h : columns? names t = some columns) : ∀ column ∈ columns, ∀ v ∈ column, v.Fits := by
  cases ht with
  | table hentries =>
    cases h
    intro column hcolumn v hv
    obtain ⟨name, -, rfl⟩ := List.mem_map.1 hcolumn
    obtain ⟨before, after, rfl, -⟩ := List.lookup_eq_some_iff.1 hv
    exact hentries (name, v) (by simp)
  | array helements =>
    cases h
    intro column hcolumn v hv
    rcases List.mem_append.1 hcolumn with h | h
    · obtain ⟨element, helement, rfl⟩ := List.mem_map.1 h
      cases hv
      exact helements _ (List.mem_of_mem_take helement)
    · cases (List.mem_replicate.1 h).2
      cases hv
  | dateTime =>
    cases h
    intro column hcolumn v hv
    obtain ⟨name, -, rfl⟩ := List.mem_map.1 hcolumn
    cases hv
  | text | integer | bool | float => cases h

theorem word?_fits {w : UInt64} (ht : t.Fits) (h : word? t = some w) :
    (Entry.number w.toNat).Fits := by
  unfold word? at h
  split at h
  · next n =>
    cases h
    cases ht with
    | integer hn =>
      have hn : n < UInt64.size / 2 := size_half ▸ Int.ofNat_lt.1 hn
      rw [Entry.Fits, UInt64.toNat_ofNat']
      exact Nat.lt_of_le_of_lt (Nat.mod_le _ _) hn
  · cases h

/-- A column decodes to something good if its default is good and every value of it does. -/
theorem withDefault?_of_fits {α : Type} {P : α → Prop} {default a : α} {decode : Toml → Option α}
    {column : Option Toml} (hcolumn : ∀ v ∈ column, v.Fits)
    (hdecode : ∀ {t a}, Toml.Fits t → decode t = some a → P a)
    (h : withDefault? default decode column = some a) (hdefault : P default) : P a := by
  cases column with
  | none => cases h; exact hdefault
  | some v => exact hdecode (hcolumn v rfl) h

theorem withDefault?_word {default w : UInt64} {column : Option Toml}
    (hcolumn : ∀ v ∈ column, v.Fits) (h : withDefault? default word? column = some w)
    (hdefault : (Entry.number default.toNat).Fits) : (Entry.number w.toNat).Fits :=
  withDefault?_of_fits (P := fun w => (Entry.number w.toNat).Fits) hcolumn word?_fits h hdefault

theorem word?_integer (w : UInt64) : word? (.integer w.toNat) = some w := by
  change some (UInt64.ofNat w.toNat) = _
  rw [UInt64.ofNat_toNat]

end Toml

/-! ## Sections -/

theorem PoolConfig.allFit {c : PoolConfig} (ht : t.Fits) (h : ofToml? t = some c) :
    AllFit c.tomlEntries := by
  obtain ⟨columns, hcolumns, h⟩ := Option.bind_eq_some_iff.1 h
  have hfits := columns?_fits ht hcolumns
  split at h
  · simp only [Option.bind_eq_bind, Option.bind_eq_some_iff] at h
    obtain ⟨workers, hworkers, capacity, hcapacity, h⟩ := h
    cases h
    simp only [List.forall_mem_cons] at hfits
    simp only [AllFit, tomlEntries, List.forall_mem_cons]
    exact ⟨withDefault?_word hfits.1 hworkers (by decide),
      withDefault?_word hfits.2.1 hcapacity (by decide), List.forall_mem_nil _⟩
  · cases h

theorem WorkloadConfig.allFit {c : WorkloadConfig} (ht : t.Fits) (h : ofToml? t = some c) :
    AllFit c.tomlEntries := by
  obtain ⟨columns, hcolumns, h⟩ := Option.bind_eq_some_iff.1 h
  have hfits := columns?_fits ht hcolumns
  split at h
  · simp only [Option.bind_eq_bind, Option.bind_eq_some_iff] at h
    obtain ⟨buckets, hbuckets, stem, -, least, hleast, greatest, hgreatest, pace, hpace, h⟩ := h
    cases h
    simp only [List.forall_mem_cons] at hfits
    obtain ⟨fbuckets, -, fleast, fgreatest, fpace, -⟩ := hfits
    simp only [AllFit, tomlEntries, List.forall_mem_cons]
    exact ⟨withDefault?_word fbuckets hbuckets (by decide), trivial,
      withDefault?_word fleast hleast (by decide),
      withDefault?_word fgreatest hgreatest (by decide),
      withDefault?_word fpace hpace (by decide), List.forall_mem_nil _⟩
  · cases h

theorem ReportConfig.allFit {c : ReportConfig} (ht : t.Fits) (h : ofToml? t = some c) :
    AllFit c.tomlEntries := by
  obtain ⟨columns, hcolumns, h⟩ := Option.bind_eq_some_iff.1 h
  have hfits := columns?_fits ht hcolumns
  split at h
  · simp only [Option.bind_eq_bind, Option.bind_eq_some_iff] at h
    obtain ⟨timeout, htimeout, h⟩ := h
    cases h
    simp only [List.forall_mem_cons] at hfits
    simp only [AllFit, tomlEntries, List.forall_mem_cons]
    exact ⟨withDefault?_word hfits.1 htimeout (by decide), List.forall_mem_nil _⟩
  · cases h

theorem PolicyConfig.allFit {c : PolicyConfig} (ht : t.Fits) (h : ofToml? t = some c) :
    AllFit c.tomlEntries := by
  obtain ⟨columns, hcolumns, h⟩ := Option.bind_eq_some_iff.1 h
  have hfits := columns?_fits ht hcolumns
  split at h
  · simp only [Option.bind_eq_bind, Option.bind_eq_some_iff] at h
    obtain ⟨grace, hgrace, budget, hbudget, tolerated, -, h⟩ := h
    cases h
    simp only [List.forall_mem_cons] at hfits
    obtain ⟨fgrace, fbudget, -⟩ := hfits
    have hset : ∀ n ∈ budget, (Entry.number n.toNat).Fits := by
      refine withDefault?_of_fits (P := fun budget : Option UInt64 => ∀ n ∈ budget,
        (Entry.number n.toNat).Fits) fbudget (fun ht hword => ?_) hbudget nofun
      obtain ⟨n, hn, rfl⟩ := Option.map_eq_some_iff.1 hword
      rintro _ ⟨⟩
      exact word?_fits ht hn
    simp only [AllFit, tomlEntries, List.forall_mem_cons, List.cons_append, List.forall_mem_append,
      List.forall_mem_map, Option.mem_toList]
    exact ⟨withDefault?_word fgrace hgrace (by decide), hset, trivial, List.forall_mem_nil _⟩
  · cases h

theorem FaultConfig.allFit {c : FaultConfig} (ht : t.Fits) (h : ofToml? t = some c) :
    AllFit c.tomlEntries := by
  obtain ⟨columns, hcolumns, h⟩ := Option.bind_eq_some_iff.1 h
  have hfits := columns?_fits ht hcolumns
  split at h
  · simp only [Option.bind_eq_bind, Option.bind_eq_some_iff] at h
    obtain ⟨start, hstart, transition, htransition, h⟩ := h
    cases h
    simp only [List.forall_mem_cons] at hfits
    simp only [AllFit, tomlEntries, List.forall_mem_cons]
    exact ⟨withDefault?_word hfits.1 hstart (by decide),
      withDefault?_word hfits.2.1 htransition (by decide), List.forall_mem_nil _⟩
  · cases h

theorem PoolConfig.ofToml?_tomlEntries (c : PoolConfig) :
    ofToml? (sectionToml c.tomlEntries) = some c := by
  have hcolumns : columns? ["workers", "queue_capacity"] (sectionToml c.tomlEntries) =
      some [some (.integer c.workers.toNat), some (.integer c.queueCapacity.toNat)] := rfl
  rw [ofToml?, hcolumns]
  simp [withDefault?, word?_integer]

theorem WorkloadConfig.ofToml?_tomlEntries (c : WorkloadConfig) :
    ofToml? (sectionToml c.tomlEntries) = some c := by
  have hcolumns : columns? ["buckets", "bucket_prefix", "min_object_size", "max_object_size",
        "pace_ms"] (sectionToml c.tomlEntries) =
      some [some (.integer c.buckets.toNat), some (.text c.bucketPrefix),
        some (.integer c.minObjectSize.toNat), some (.integer c.maxObjectSize.toNat),
        some (.integer c.paceMs.toNat)] := rfl
  rw [ofToml?, hcolumns]
  simp [withDefault?, word?_integer, text?]

theorem ReportConfig.ofToml?_tomlEntries (c : ReportConfig) :
    ofToml? (sectionToml c.tomlEntries) = some c := by
  have hcolumns : columns? ["timeout_secs"] (sectionToml c.tomlEntries) =
      some [some (.integer c.timeoutSecs.toNat)] := rfl
  rw [ofToml?, hcolumns]
  simp [withDefault?, word?_integer]

theorem FaultConfig.ofToml?_tomlEntries (c : FaultConfig) :
    ofToml? (sectionToml c.tomlEntries) = some c := by
  have hcolumns : columns? ["start_after_ms", "transition_ms"] (sectionToml c.tomlEntries) =
      some [some (.integer c.startAfterMs.toNat), some (.integer c.transitionMs.toNat)] := rfl
  rw [ofToml?, hcolumns]
  simp [withDefault?, word?_integer]

/-- The names of kinds are read back one by one, repetitions included. -/
theorem list?_names (kinds : List OperationKind) :
    list? (fun t => (name? t).bind OperationKind.ofName?)
      (.array (kinds.map (.text ∘ OperationKind.name))) = some kinds := by
  rw [list?]
  induction kinds with
  | nil => rfl
  | cons kind kinds ih =>
    rw [List.map_cons, List.mapM_cons, ih, Function.comp_apply, name?, Option.bind_some,
      OperationKind.ofName?_name]
    rfl

/-- A budget that is not set has no line, and without a line it is not set. -/
theorem PolicyConfig.ofToml?_tomlEntries (c : PolicyConfig) :
    ofToml? (sectionToml c.tomlEntries) = some c := by
  have hcolumns : columns? ["grace_ms", "max_expected_failures", "tolerated_after_close"]
        (sectionToml c.tomlEntries) =
      some [some (.integer c.graceMs.toNat),
        c.maxExpectedFailures.map fun n => .integer n.toNat,
        some (.array ((c.toleratedAfterClose.map OperationKind.name).map .text))] := by
    obtain ⟨grace, budget, tolerated⟩ := c
    cases budget <;> rfl
  rw [ofToml?, hcolumns]
  obtain ⟨grace, budget, tolerated⟩ := c
  cases budget <;> simp [withDefault?, word?_integer, list?_names]

/-! ## Documents -/

namespace Config

variable {c : Config}

theorem isWritable_iff : c.isWritable = true ↔ ∀ sec ∈ c.sections, AllFit sec.2 := by
  simp only [isWritable, List.all_eq_true, AllFit]
  refine forall₂_congr fun sec _ => forall₂_congr fun pair _ => ?_
  obtain ⟨key, e⟩ := pair
  cases e <;> simp [Entry.Fits]

/-- A configuration that a document holds has no number that is too large for one. -/
theorem isWritable_of_ofToml? (ht : t.Fits) (h : ofToml? t = some c) : c.isWritable = true := by
  obtain ⟨columns, hcolumns, h⟩ := Option.bind_eq_some_iff.1 h
  have hfits := columns?_fits ht hcolumns
  split at h
  · simp only [Option.bind_eq_bind, Option.bind_eq_some_iff] at h
    obtain ⟨pool, hpool, workload, hworkload, report, hreport, policy, hpolicy, fault, hfault, h⟩ :=
      h
    cases h
    simp only [List.forall_mem_cons] at hfits
    obtain ⟨fpool, fworkload, freport, fpolicy, ffault, -⟩ := hfits
    simp only [isWritable_iff, sections, List.forall_mem_cons]
    exact ⟨withDefault?_of_fits (P := fun c => AllFit c.tomlEntries) fpool PoolConfig.allFit
        hpool (by decide),
      withDefault?_of_fits (P := fun c => AllFit c.tomlEntries) fworkload WorkloadConfig.allFit
        hworkload (by decide),
      withDefault?_of_fits (P := fun c => AllFit c.tomlEntries) freport ReportConfig.allFit
        hreport (by decide),
      withDefault?_of_fits (P := fun c => AllFit c.tomlEntries) fpolicy PolicyConfig.allFit
        hpolicy (by decide),
      withDefault?_of_fits (P := fun c => AllFit c.tomlEntries) ffault FaultConfig.allFit
        hfault (by decide),
      List.forall_mem_nil _⟩
  · cases h

/-- The names of the sections and of their keys; a budget that is not set has no key. -/
def keys (budget : Bool) : List (String × List String) :=
  [("pool", ["workers", "queue_capacity"]),
    ("workload", ["buckets", "bucket_prefix", "min_object_size", "max_object_size", "pace_ms"]),
    ("report", ["timeout_secs"]),
    ("policy", "grace_ms" :: (if budget then ["max_expected_failures"] else [])
      ++ ["tolerated_after_close"]),
    ("fault", ["start_after_ms", "transition_ms"])]

theorem keys_sections (c : Config) :
    c.sections.map (fun sec => (sec.1, sec.2.map Prod.fst)) =
      keys c.policy.maxExpectedFailures.isSome := by
  obtain ⟨pool, workload, report, ⟨grace, budget, tolerated⟩, fault⟩ := c
  cases budget <;> rfl

theorem isSection (h : c.isWritable = true) : ∀ sec ∈ c.sections, IsSection sec := by
  have hkeys : ∀ budget, ∀ row ∈ keys budget,
      IsBareKey row.1 ∧ (∀ key ∈ row.2, IsBareKey key) ∧ row.2.Nodup := by decide
  intro sec hsec
  obtain ⟨hname, hbare, hnodup⟩ := hkeys _ (sec.1, sec.2.map Prod.fst)
    (keys_sections c ▸ List.mem_map_of_mem hsec)
  exact ⟨hname, fun pair hpair => hbare pair.1 (List.mem_map_of_mem hpair),
    isWritable_iff.1 h sec hsec, hnodup⟩

/-- The document of a configuration is read as the configuration. -/
theorem ofToml?_document (h : c.isWritable = true) :
    (Toml.read? (String.ofList (document c.sections))).bind ofToml? = some c := by
  have hnodup : (c.sections.map Prod.fst).Nodup := by
    change ["pool", "workload", "report", "policy", "fault"].Nodup
    decide
  have hcolumns : columns? ["pool", "workload", "report", "policy", "fault"]
      (.table (c.sections.map fun sec => (sec.1, sectionToml sec.2))) =
      some [some (sectionToml c.pool.tomlEntries), some (sectionToml c.workload.tomlEntries),
        some (sectionToml c.report.tomlEntries), some (sectionToml c.policy.tomlEntries),
        some (sectionToml c.fault.tomlEntries)] := rfl
  rw [read?_document (isSection h) hnodup, Option.bind_some, ofToml?, hcolumns]
  simp [withDefault?, PoolConfig.ofToml?_tomlEntries, WorkloadConfig.ofToml?_tomlEntries,
    ReportConfig.ofToml?_tomlEntries, PolicyConfig.ofToml?_tomlEntries,
    FaultConfig.ofToml?_tomlEntries]

/-- A document is accepted where the configuration in it can be used. -/
theorem load_eq_ok_iff {file : Option ByteArray} : load file = .ok c ↔
    ∃ content, file.bind String.fromUTF8? = some content ∧
      (Toml.read? content).bind ofToml? = some c ∧ c.validate = .ok () := by
  constructor
  · intro h
    unfold load at h
    split at h
    · cases h
    · next content hcontent =>
      unfold parse at h
      split at h
      · cases h
      · next hread =>
        split at h
        · cases h
        · next hvalid => cases h; exact ⟨content, hcontent, hread, hvalid⟩
  · rintro ⟨content, hcontent, hread, hvalid⟩
    simp [load, hcontent, parse, hread, hvalid]

theorem isWritable_of_load {file : Option ByteArray} (h : load file = .ok c) :
    c.isWritable = true := by
  obtain ⟨content, -, hread, -⟩ := load_eq_ok_iff.1 h
  obtain ⟨t, ht, hc⟩ := Option.bind_eq_some_iff.1 hread
  exact isWritable_of_ofToml? (read?_fits ht) hc

/-- A usable configuration is loaded from the document that is written for it. -/
theorem load_document (hvalid : c.validate = .ok ()) (h : c.isWritable = true) :
    load (some (String.ofList (document c.sections)).toUTF8) = .ok c :=
  load_eq_ok_iff.2 ⟨_, EventLog.fromUTF8?_toByteArray _, ofToml?_document h, hvalid⟩

/-- Files hold the usable configurations whose numbers can stand in a document, whatever the prefix,
the budget and the tolerated kinds. A configuration that a file holds is printed, and what is
printed below the title is a file that holds the same configuration. -/
theorem rendered_back (c : Config) :
    ((∃ file, load file = .ok c) ↔ c.validate = .ok () ∧ c.isWritable = true) ∧
      ∀ file, load file = .ok c → ∃ text, c.render? = some text ∧
        CommandLine.checkConfig c =
          { code := 0, output := "=== faultline configuration ===\n\n" ++ text ++ "\n" } ∧
        load (some text.toUTF8) = .ok c := by
  have hload {file : Option ByteArray} (h : load file = .ok c) :
      c.validate = .ok () ∧ c.isWritable = true := by
    obtain ⟨-, -, -, hvalid⟩ := load_eq_ok_iff.1 h
    exact ⟨hvalid, isWritable_of_load h⟩
  refine ⟨⟨?_, ?_⟩, ?_⟩
  · rintro ⟨file, h⟩
    exact hload h
  · rintro ⟨hvalid, h⟩
    exact ⟨_, load_document hvalid h⟩
  · intro file h
    obtain ⟨hvalid, hwritable⟩ := hload h
    have hrender : c.render? = some (String.ofList (document c.sections)) := if_pos hwritable
    refine ⟨_, hrender, ?_, load_document hvalid hwritable⟩
    rw [CommandLine.checkConfig, hvalid, hrender]

/-- A prefix with a line break, runs of both quotes, a backslash, and a quote at its end. -/
theorem rendered_back_lines :
    let c : Config := { workload := { bucketPrefix := "\n''' \"\"\"\\\"" } }
    let file := "[workload]\nbucket_prefix = \"\"\"\n\n''' \"\"\\\"\\\\\"\"\"\"\n"
    load (some file.toUTF8) = .ok c ∧
      ∃ text, c.render? = some text ∧ load (some text.toUTF8) = .ok c := by
  intro c file
  let secs := [("workload", [("bucket_prefix", Entry.text c.workload.bucketPrefix)])]
  have hdocument : String.ofList (document secs) = file := by decide +kernel
  have hsections : ∀ sec ∈ secs, IsSection sec :=
    List.forall_mem_singleton.2 ⟨by decide, by decide, by decide, by decide⟩
  have hread := read?_document hsections (by decide)
  rw [hdocument] at hread
  have hload : load (some file.toUTF8) = .ok c :=
    load_eq_ok_iff.2 ⟨file, EventLog.fromUTF8?_toByteArray file, by rw [hread]; rfl, by decide⟩
  obtain ⟨text, hrender, -, htext⟩ := (rendered_back c).2 _ hload
  exact ⟨hload, text, hrender, htext⟩

end Config

end FaultDrill
