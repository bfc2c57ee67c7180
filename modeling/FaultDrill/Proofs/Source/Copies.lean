import FaultDrill.Proofs.Source.Naming
import FaultDrill.Proofs.Store.Latest

/-! # Copies with a name of their own

A source of copies names the destination after the object and the task. No two tasks come to the
same destination. A destination is an object that is to be copied itself only where that one has the
name of a copy already; all others keep their content.
-/

namespace FaultDrill

namespace ObjectRef

/-- The object that the task with this number copies to. -/
def copyFor (n : Nat) (o : ObjectRef) : ObjectRef := ⟨o.bucket, o.key ++ "-copy-" ++ toString n⟩

variable {o o' : ObjectRef} {m n : Nat}

theorem copyFor_inj (h : o.copyFor m = o'.copyFor n) : o = o' ∧ m = n := by
  have hdash (key : String) (n : Nat) :
      key ++ "-copy-" ++ toString n = key ++ "-copy" ++ "-" ++ toString n := by
    rw [@String.append_assoc key "-copy" "-"]
    rfl
  obtain ⟨hbucket, hkey⟩ := ObjectRef.mk.inj h
  rw [hdash, hdash] at hkey
  obtain ⟨hcopy, hnumber⟩ := dashed_inj hkey
  rw [String.append_left_inj] at hcopy
  cases o
  cases o'
  exact ⟨congr (congrArg ObjectRef.mk hbucket) hcopy, hnumber⟩

theorem copyFor_ne (n : Nat) (o : ObjectRef) : o.copyFor n ≠ o := by
  intro h
  have hlength := congrArg (fun o => o.key.length) h
  have hcopy : "-copy-".length = 6 := rfl
  simp only [copyFor, String.length_append, hcopy] at hlength
  omega

end ObjectRef

/-- A copy leaves every object but its destination as it is. -/
theorem Store.objects_of_copy {op : Operation} {o : ObjectRef} (hk : op.kind = .copy)
    (ho : op.destination ≠ some o) (s : Store) : (s.apply op).2.objects[o]? = s.objects[o]? := by
  have hkeeps : ¬ s.Alters o (.request op) := fun halters => by
    simpa [hk, ho] using (alters_request halters).2
  simpa [Deed.result] using objects_of_not_alters hkeeps

namespace Source

/-- What a source of copies gives to the task with this number, counted from zero: the objects take
turns. -/
def Copies (sources : List ObjectRef) (n : Nat) (op : Operation) : Prop :=
  ∃ o, sources[n % sources.length]? = some o ∧ op = .copy o (o.copyFor (n + 1))

variable {sources : List ObjectRef} {n k count : Nat} {op : Operation} {ops : List Operation}
  {o : ObjectRef}

theorem next_copy (hne : sources ≠ []) (hn : n + 1 < UInt64.size) :
    ∃ op, Copies sources n op ∧
      (copy sources).next (.ofIndex n) = .ok (some op, copy sources) := by
  have hnumber := TaskId.toNat_ofIndex hn
  have hlt : n % sources.length < sources.length :=
    Nat.mod_lt n (List.length_pos_of_ne_nil hne)
  have hturn := List.getElem?_eq_getElem hlt
  have hid : (TaskId.ofIndex n).seq ≠ 0 := by
    intro hzero
    rw [hzero] at hnumber
    cases hnumber
  refine ⟨_, ⟨_, hturn, rfl⟩, ?_⟩
  simp only [next, List.isEmpty_iff, hne, hid, if_false, hnumber, Nat.add_sub_cancel, hturn,
    Option.map_some, Operation.copyAside]
  rfl

/-- Tasks that follow each other get their copies, and the source is as before. -/
theorem answers_copy (hne : sources ≠ []) (hcount : k + count < UInt64.size) :
    ∃ ops, (copy sources).answers ((List.range' k count).map .ofIndex) =
        .ok (ops.map some, copy sources) ∧
      List.Forall₂ (Copies sources) (List.range' k count) ops := by
  induction count generalizing k with
  | zero => exact ⟨[], rfl, .nil⟩
  | succ count ih =>
    obtain ⟨op, hop, hnext⟩ := next_copy (n := k) hne (by omega)
    obtain ⟨ops, hrest, hall⟩ := ih (k := k + 1) (by omega)
    rw [List.range'_succ]
    exact ⟨op :: ops, answers_cons hnext hrest, .cons hop hall⟩

theorem eq_copy_of_mem {ns : List Nat} (h : List.Forall₂ (Copies sources) ns ops) (hop : op ∈ ops) :
    ∃ (n : Nat) (source : ObjectRef), op = .copy source (source.copyFor n) := by
  obtain ⟨i, hi⟩ := List.getElem?_of_mem hop
  obtain ⟨n, -, source, -, rfl⟩ := forall₂_getElem? h hi
  exact ⟨n + 1, source, rfl⟩

/-- Some object is the destination of a task if and only if it has the name of the copy for it. -/
theorem mem_destinations {ns : List Nat} (h : List.Forall₂ (Copies sources) ns ops) :
    some o ∈ ops.map (·.destination) ↔ ∃ n ∈ ns, ∃ source,
      sources[n % sources.length]? = some source ∧ o = source.copyFor (n + 1) := by
  induction h with
  | nil => simp
  | @cons n op ns ops hop _ ih =>
    obtain ⟨source, hturn, rfl⟩ := hop
    rw [List.map_cons, List.mem_cons, ih, List.exists_mem_cons_iff]
    refine or_congr_left ?_
    constructor
    · intro ho
      exact ⟨source, hturn, Option.some.inj ho⟩
    · rintro ⟨source', hturn', rfl⟩
      cases hturn.symm.trans hturn'
      rfl

theorem nodup_destinations {ns : List Nat} (h : List.Forall₂ (Copies sources) ns ops)
    (hns : ns.Nodup) : (ops.map (·.destination)).Nodup := by
  induction h with
  | nil => exact List.nodup_nil
  | @cons n op ns ops hop hrest ih =>
    obtain ⟨source, -, rfl⟩ := hop
    obtain ⟨hn, hns⟩ := List.nodup_cons.1 hns
    refine List.nodup_cons.2 ⟨fun hagain => ?_, ih hns⟩
    obtain ⟨n', hn', source', -, hname⟩ := (mem_destinations hrest).1 hagain
    obtain rfl : n = n' := Nat.add_right_cancel (ObjectRef.copyFor_inj hname).2
    exact hn hn'

/-- Copies and reads that do not have the object for their destination leave it as it is. -/
theorem objects_of_performed {performed : List Operation}
    (h : ∀ op ∈ performed, op.kind = .copy ∧ op.destination ≠ some o ∨ op.kind = .read)
    (s : Store) : (s.after (performed.map .request)).objects[o]? = s.objects[o]? := by
  induction performed generalizing s with
  | nil => rfl
  | cons op performed ih =>
    have hfirst : (s.apply op).2.objects[o]? = s.objects[o]? := by
      rcases h op List.mem_cons_self with ⟨hk, ho⟩ | hk
      · exact Store.objects_of_copy hk ho s
      · rw [Store.objects_of_read hk]
    exact (ih (fun op hop => h op (List.mem_cons_of_mem _ hop)) (s.apply op).2).trans hfirst

/-- What holds of the operations that a source of copies gives to so many tasks. -/
structure CopyRun (sources : List ObjectRef) (count : Nat) (ops : List Operation) : Prop where
  turns : List.Forall₂ (Copies sources) (List.range count) ops
  apart : (ops.map (·.destination)).Nodup
  /-- No object is copied onto itself. -/
  moved : ∀ op ∈ ops, op.destination ≠ some op.target
  /-- A destination has the name of the copy that goes to it, and every such name is one. -/
  named : ∀ o, some o ∈ ops.map (·.destination) ↔ ∃ n < count, ∃ source,
    sources[n % sources.length]? = some source ∧ o = source.copyFor (n + 1)
  /-- Objects without the name of a copy are not overwritten. -/
  fresh : (∀ o ∈ sources, ∀ base n, o.key ≠ base ++ "-copy-" ++ toString (n : Nat)) →
    ∀ o ∈ sources, some o ∉ ops.map (·.destination)
  /-- What is no destination keeps its content while the copies are performed and objects are
  read, in whatever order. -/
  kept : ∀ o, some o ∉ ops.map (·.destination) → ∀ performed : List Operation,
    (∀ op ∈ performed, op ∈ ops ∨ op.kind = .read) → ∀ s : Store,
      (s.after (performed.map .request)).objects[o]? = s.objects[o]?

theorem copyRun (h : List.Forall₂ (Copies sources) (List.range count) ops) :
    CopyRun sources count ops where
  turns := h
  apart := nodup_destinations h List.nodup_range
  moved op hop := by
    obtain ⟨n, source, rfl⟩ := eq_copy_of_mem h hop
    exact fun hself => source.copyFor_ne n (Option.some.inj hself)
  named o := by
    simp only [mem_destinations h, List.mem_range]
  fresh hplain o ho hdestination := by
    obtain ⟨n, -, source, -, rfl⟩ := (mem_destinations h).1 hdestination
    exact hplain _ ho source.key (n + 1) rfl
  kept o ho performed hperformed s := by
    refine objects_of_performed (fun op hop => (hperformed op hop).imp_left fun hgiven => ?_) s
    obtain ⟨n, source, rfl⟩ := eq_copy_of_mem h hgiven
    exact ⟨rfl, fun hsame => ho (hsame ▸ List.mem_map_of_mem hgiven)⟩

/-- Any objects to copy make a source that never runs dry: they take turns, and every task has a
destination of its own, which is not the object it copies. A destination is one of the objects only
if that object has the name of this very copy. -/
theorem copy_law (hne : sources ≠ []) (hcount : count < UInt64.size) :
    ∃ ops, (copy sources).answers ((List.range count).map .ofIndex) =
      .ok (ops.map some, copy sources) ∧ CopyRun sources count ops := by
  obtain ⟨ops, hops, hall⟩ := answers_copy (k := 0) hne (by rwa [Nat.zero_add])
  rw [← List.range_eq_range'] at hops hall
  exact ⟨ops, hops, copyRun hall⟩

/-- Two objects in turn, for three tasks. -/
theorem copy_law_trial : ∃ ops,
    (copy [⟨"bucket", "a"⟩, ⟨"bucket", "b"⟩]).answers ((List.range 3).map .ofIndex) =
      .ok (ops.map some, copy [⟨"bucket", "a"⟩, ⟨"bucket", "b"⟩]) ∧
    CopyRun [⟨"bucket", "a"⟩, ⟨"bucket", "b"⟩] 3 ops ∧
    some ⟨"bucket", "a-copy-3"⟩ ∈ ops.map (·.destination) := by
  obtain ⟨ops, hops, hrun⟩ := copy_law (List.cons_ne_nil ⟨"bucket", "a"⟩ [⟨"bucket", "b"⟩])
    (by decide : 3 < UInt64.size)
  exact ⟨ops, hops, hrun, (hrun.named _).2 ⟨2, by decide, _, rfl, by decide⟩⟩

/-- An object, and one with the name of its first copy. -/
def trialCopied : List ObjectRef := [⟨"bucket", "key"⟩, ⟨"bucket", "key-copy-1"⟩]

/-- The copy of the first object goes to the second one, which is to be copied next. -/
theorem copy_overwrites : ∃ op o, (copy trialCopied).answers [.first] =
      .ok ([some op], copy trialCopied) ∧ op.destination = some o ∧ o ∈ trialCopied :=
  ⟨_, _, rfl, rfl, by decide⟩

end Source

end FaultDrill
