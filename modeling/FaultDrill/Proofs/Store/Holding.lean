import FaultDrill.Proofs.Store.History
import FaultDrill.Proofs.Outage

/-! # Objects that a store holds

A request that names another object, or writes the same content once more, leaves an object
as it was written. A store that rejects nothing and has room to count does what it is asked, unless
it is down: it answers that it is unavailable then, and in no other way.
-/

namespace FaultDrill

/-- The object is there with the content that was written. -/
def Store.Holds (s : Store) (o : StoredObject) : Prop :=
  ∃ content, s.objects[o.target]? = some content ∧ checksum content = o.checksum

/-- The operation leaves the object as it was written. -/
structure Operation.Spares (op : Operation) (o : StoredObject) : Prop where
  copy : op.kind ≠ .copy
  delete : op.kind = .delete → op.target ≠ o.target
  write : op.kind = .write → op.target = o.target →
    ∀ payload, op.payload = some payload → payload.checksum = .ok o.checksum

/-- The store can do what is asked. -/
inductive Store.Can (s : Store) : Operation → Prop
  | verify {o : StoredObject} : s.Holds o → s.Can (.verify o)
  | delete (target : ObjectRef) : s.Can (.delete target)
  | write {op : Operation} {payload : Payload} : op.kind = .write → op.payload = some payload →
      payload.size.toNat < Payload.sizeLimit → s.Can op

/-- The request succeeded, or it found the store down. -/
def Outcome.IsFine (o : Outcome) : Prop := o.isSuccess = true ∨ o.IsUnavailable

namespace Store

variable {s s' : Store} {o : StoredObject} {op : Operation}

theorem bytes_of_checksum {payload : Payload} {content : ByteArray} {sum : String}
    (hb : payload.bytes = .ok content) (hc : payload.checksum = .ok sum) :
    checksum content = sum := by
  rw [Payload.checksum, hb] at hc
  exact Except.ok.inj hc

theorem Holds.apply (h : s.Holds o) (hop : op.Spares o) : (s.apply op).2.Holds o := by
  obtain ⟨content, hcontent, hsum⟩ := h
  have heffect := request_effect s o.target op
  unfold Holds
  generalize (s.apply op).2.objects[o.target]? = after at heffect ⊢
  cases heffect with
  | put hput =>
    cases hput with
    | write _ hk ht hp hb => exact ⟨_, rfl, bytes_of_checksum hb (hop.write hk ht _ hp)⟩
    | copy _ hk => exact (hop.copy hk).elim
  | remove hremove =>
    cases hremove with
    | delete _ hk ht => exact (hop.delete hk ht).elim
  | keep =>
    rw [List.count_singleton, if_neg (by simp), Function.iterate_zero, Option.map_id,
      id_eq]
    exact ⟨content, hcontent, hsum⟩

theorem Holds.of_write {payload : Payload} (hs : s.Succeeds op) (hk : op.kind = .write)
    (ht : op.target = o.target) (hp : op.payload = some payload)
    (hc : payload.checksum = .ok o.checksum) : (s.apply op).2.Holds o := by
  have heffect := request_effect s o.target op
  unfold Holds
  generalize (s.apply op).2.objects[o.target]? = after at heffect ⊢
  cases heffect with
  | put hput =>
    cases hput with
    | write _ _ _ hp' hb =>
      rw [hp, Option.some.injEq] at hp'
      subst hp'
      exact ⟨_, rfl, bytes_of_checksum hb hc⟩
    | copy _ hk' => cases hk.symm.trans hk'
  | remove hremove =>
    cases hremove with
    | delete _ hk' => cases hk.symm.trans hk'
  | keep hkeep =>
    obtain ⟨content, hb⟩ : ∃ content, payload.bytes = .ok content := by
      rcases bytes_cases payload with hb | hb
      · exact hb
      · rw [Payload.checksum, hb] at hc
        cases hc
    exact (hkeep (.inl ⟨content, .write hs hk ht hp hb⟩)).elim

/-- Nothing is rejected next that was not before. -/
theorem apply_failNext (hf : s.failNext = []) : (s.apply op).2.failNext = [] := by
  have happ := apply_applied op s
  generalize (s.apply op).1 = came at happ
  generalize (s.apply op).2 = s' at happ
  cases happ with
  | exhausted | unavailable | crashed => exact hf
  | rejected _ _ hf' => cases hf.symm.trans hf'
  | served _ _ _ hserved => cases hserved <;> exact hf

end Store

namespace Handler

variable {task : Task} {s : Store}

theorem storage_store (task : Task) (s : Store) :
    (storage.act task s).2 = (s.apply task.operation).2 := by
  unfold storage
  dsimp only
  split <;> rename_i h <;> rw [h]

theorem storage_outcome (task : Task) (s : Store) : (storage.act task s).1 =
    match (s.apply task.operation).1 with
    | .ok answer => .ofAnswer task.operation answer
    | .error crash => .ofCrash crash.message := by
  unfold storage
  dsimp only
  split <;> rename_i h <;> rw [h]

theorem succeeds_of_isSuccess (h : (storage.act task s).1.isSuccess = true) :
    s.Succeeds task.operation := by
  unfold storage at h
  dsimp only at h
  split at h
  case h_1 answer _ ha =>
    cases answer with
    | error => cases h
    | ok response =>
      refine ⟨response, congrArg Prod.fst ha, ?_⟩
      unfold Outcome.ofAnswer Outcome.ofResponse at h
      dsimp only at h
      split at h
      case isTrue hsuccess => exact hsuccess
      case isFalse => cases h
  case h_2 => cases h

theorem ofAnswer_isSuccess {op : Operation} {response : Response} (hs : response.success = true)
    (hsum : op.kind = .read → ∀ sum, op.expectedChecksum = some sum →
      response.checksum = some sum) :
    (Outcome.ofAnswer op (.ok response)).isSuccess = true := by
  unfold Outcome.ofAnswer Outcome.ofResponse
  dsimp only
  rw [if_pos hs]
  split
  case h_1 expected hk he => rw [if_pos (hsum hk expected he)]; rfl
  case h_2 => rfl

theorem isFine_of_served {op : Operation} {answer : Except StorageError Response} {s' : Store}
    (hop : s.Can op) (h : Store.Served op s.counted answer s') :
    (Outcome.ofAnswer op answer).IsFine := by
  cases hop with
  | @verify o ho =>
    obtain ⟨content, hcontent, hsum⟩ := ho
    cases h with
    | read _ hcontent' =>
      cases hcontent.symm.trans hcontent'
      refine .inl (ofAnswer_isSuccess rfl fun _ sum he => ?_)
      cases he
      exact congrArg some hsum
    | missing _ hnone => cases hcontent.symm.trans hnone
    | invalid _ hk => exact (hk rfl).elim
    | write hk | delete hk | deleteAbsent hk | copy hk | part hk => cases hk
  | delete target =>
    cases h with
    | delete | deleteAbsent => exact .inl (ofAnswer_isSuccess rfl nofun)
    | missing hk => rcases hk with hk | hk <;> cases hk
    | invalid _ _ hk => exact (hk rfl).elim
    | write hk | read hk | copy hk | part hk => cases hk
  | write hk hp =>
    cases h with
    | write => exact .inl (ofAnswer_isSuccess rfl fun hk' => nomatch hk.symm.trans hk')
    | invalid _ _ _ hnone => cases hp.symm.trans (hnone hk)
    | missing hk' => rcases hk' with hk' | hk' <;> cases hk.symm.trans hk'
    | read hk' | delete hk' | deleteAbsent hk' | copy hk' | part hk' => cases hk.symm.trans hk'

/-- The store does what it can unless it is down. -/
theorem isFine (hop : s.Can task.operation) (hc : s.HasCount) (hf : s.failNext = []) :
    (storage.act task s).1.IsFine := by
  obtain ⟨came, s', ha, happ⟩ : ∃ came s', s.apply task.operation = (came, s') ∧
      Store.Applied task.operation s came s' := ⟨_, _, rfl, Store.apply_applied _ _⟩
  simp only [storage, ha]
  cases happ with
  | exhausted hfull => exact (hfull hc).elim
  | @unavailable reason => exact .inr ⟨reason, rfl⟩
  | rejected _ _ hf' => cases hf.symm.trans hf'
  | served _ _ _ hserved => exact isFine_of_served hop hserved
  | crashed _ hk hp hb =>
    generalize task.operation = op at hop hk hp
    cases hop with
    | verify | delete => rcases hk with hk | hk <;> cases hk
    | write _ hp' hsize =>
      cases hp.symm.trans hp'
      rw [Payload.bytes, if_pos hsize] at hb
      cases hb

/-- What was written is there. -/
theorem holds_of_written {o : StoredObject} {r : OperationResult} {startedAt finishedAt : Duration}
    {phase : WindowPhase} (h : OperationResult.assemble task.id task.stream task.operation
      (storage.act task s).1 startedAt finishedAt phase = .ok r) (ho : r.written = some o) :
    (storage.act task s).2.Holds o := by
  obtain ⟨hk, hs, payload, hp, hsum, ht⟩ := OperationResult.of_written h ho
  rw [storage_store]
  exact .of_write (succeeds_of_isSuccess hs) hk ht hp hsum

end Handler

end FaultDrill
