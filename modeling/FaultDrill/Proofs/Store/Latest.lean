import FaultDrill.Proofs.Driver.Accounts
import FaultDrill.Proofs.Store.Failure
import FaultDrill.Proofs.Store.Serial

/-! # The latest write

Of the writes to one object the latest that succeeded is the one that the store holds. Reads leave
it at that, and a verifying read passes if and only if it expects this content.
-/

namespace FaultDrill

/-- The task wrote the object. -/
def Wrote (e : Task × Outcome) (o : StoredObject) : Prop :=
  ∃ r, OperationResult.ofDone e = .ok r ∧ r.written = some o

theorem Wrote.spec {e : Task × Outcome} {o : StoredObject} (h : Wrote e o) :
    e.1.operation.kind = .write ∧ e.2.isSuccess = true ∧ ∃ payload,
      e.1.operation.payload = some payload ∧ payload.checksum = .ok o.checksum ∧
        e.1.operation.target = o.target := by
  obtain ⟨r, hr, ho⟩ := h
  exact OperationResult.of_written hr ho

/-- The operation reads the object and expects a content with this checksum. -/
structure Operation.Verifies (op : Operation) (k : ObjectRef) (sum : String) : Prop where
  kind : op.kind = .read
  target : op.target = k
  expectedChecksum : op.expectedChecksum = some sum

namespace Store

variable {s₀ s s' : Store} {op : Operation} {o : StoredObject} {done : List (Task × Outcome)}
  {e : Task × Outcome} {task : Task}

theorem holds_congr (h : s.objects = s'.objects) : s.Holds o ↔ s'.Holds o := by
  unfold Holds
  rw [h]

/-! ## One request -/

theorem objects_of_read (hk : op.kind = .read) : (s.apply op).2.objects = s.objects := by
  have happ := apply_applied op s
  generalize (s.apply op).1 = came at happ
  generalize (s.apply op).2 = s' at happ
  cases happ with
  | exhausted | unavailable | rejected | crashed => rfl
  | served _ _ _ hserved =>
    cases hserved with
    | read | deleteAbsent | missing | invalid => rfl
    | write hk' | delete hk' | copy hk' | part hk' => cases hk.symm.trans hk'

theorem objects_of_not_succeeds (h : ¬ s.Succeeds op) : (s.apply op).2.objects = s.objects := by
  by_cases hc : s.HasCount
  · rw [(refused_of_not_succeeds hc h).same]
  · rw [apply_full hc]

theorem operationsTotal_le : s.operationsTotal.toNat ≤ (s.apply op).2.operationsTotal.toNat := by
  have hsize : s.operationsTotal.toNat < UInt64.size := s.operationsTotal.toNat_lt
  rw [apply_operationsTotal]
  omega

/-- A write that succeeds has its object to show for it, and the store holds it. -/
theorem wrote_of_succeeds (hs : s.Succeeds task.operation) (hk : task.operation.kind = .write) :
    ∃ o, Wrote (task, (Handler.storage.act task s).1) o ∧ o.target = task.operation.target ∧
      (s.apply task.operation).2.Holds o := by
  obtain ⟨payload, content, hp, hb⟩ := hs.bytes hk
  obtain ⟨sum, hsum⟩ : ∃ sum, payload.checksum = .ok sum :=
    ⟨checksum content, by simp only [Payload.checksum, hb, Except.map]⟩
  have hsuccess : (Handler.storage.act task s).1.isSuccess = true := by
    obtain ⟨response, happ, hsuccess⟩ := hs
    rw [Handler.storage_outcome, happ]
    refine Handler.ofAnswer_isSuccess hsuccess fun hread => ?_
    cases hk.symm.trans hread
  have hwritten : OperationResult.writtenBy task.operation (Handler.storage.act task s).1 =
      .ok (some ⟨task.operation.target, sum, payload.size⟩) := by
    simp only [OperationResult.writtenBy, hk, hp, hsuccess, hsum, Except.map]
  refine ⟨⟨task.operation.target, sum, payload.size⟩, ?_, rfl, .of_write hs hk rfl hp hsum⟩
  simp only [Wrote, OperationResult.ofDone, OperationResult.assemble, hwritten, Except.map]
  exact ⟨_, rfl, rfl⟩

/-- A verifying read of an object that is there passes if it finds the content it expects, and is
corrupted otherwise. -/
theorem storage_verify {k : ObjectRef} {content : ByteArray} {sum : String} (hup : s.IsUp)
    (hc : s.HasCount) (hop : task.operation.Verifies k sum)
    (hcontent : s.objects[k]? = some content) :
    (Handler.storage.act task s).1 =
      if checksum content = sum then .success (toString content.size ++ " bytes")
      else .failure .corruption ("checksum mismatch for " ++ k.text ++ ": expected " ++ sum
        ++ ", got " ++ checksum content) := by
  obtain ⟨hk, rfl, hsum⟩ := hop
  have hserve : s.counted.serve task.operation = .ok (.ok
      { Response.ok (toString content.size ++ " bytes") with checksum := some (checksum content) },
      s.counted) := by
    simp only [serve, hk, counted, hcontent]
  rw [Handler.storage_outcome, apply_of_serve hup hc hserve]
  simp only [Outcome.ofAnswer, Outcome.ofResponse, hk, hsum, Response.ok, if_true,
    Option.some.injEq, Option.getD_some]

/-- A verifying read of an object that is there passes or finds other content. -/
theorem verify_cases (hup : s.IsUp) (hc : s.HasCount) (hop : task.operation = .verify o)
    (hthere : (s.objects[o.target]?).isSome = true) :
    (s.Holds o ∧ (Handler.storage.act task s).1.isSuccess = true) ∨
      (¬ s.Holds o ∧ (Handler.storage.act task s).1.failureKind? = some .corruption) := by
  obtain ⟨content, hcontent⟩ := Option.isSome_iff_exists.1 hthere
  have hverifies : task.operation.Verifies o.target o.checksum := hop ▸ ⟨rfl, rfl, rfl⟩
  rw [storage_verify hup hc hverifies hcontent]
  by_cases hsame : checksum content = o.checksum
  · rw [if_pos hsame]
    exact .inl ⟨⟨content, hcontent, hsame⟩, rfl⟩
  · rw [if_neg hsame]
    refine .inr ⟨?_, rfl⟩
    rintro ⟨content', hcontent', hsame'⟩
    obtain rfl := Option.some.inj (hcontent.symm.trans hcontent')
    exact hsame hsame'

/-! ## Tasks one after another -/

/-- Each task was performed on a store that the tasks before it had led to. -/
theorem Serial.performed (h : s₀.Serial done s) (he : e ∈ done) :
    ∃ earlier before, s₀.Serial earlier before ∧ earlier ⊆ done ∧
      e.2 = (Handler.storage.act e.1 before).1 ∧
      before.operationsTotal.toNat ≤ s.operationsTotal.toNat := by
  induction h with
  | nil => cases he
  | @act done s task hserial ih =>
    rw [Handler.storage_store]
    rcases List.mem_append.1 he with he | he
    · obtain ⟨earlier, before, hbefore, hsub, houtcome, hle⟩ := ih he
      exact ⟨earlier, before, hbefore, fun _ hx => List.mem_append_left _ (hsub hx), houtcome,
        hle.trans operationsTotal_le⟩
    · obtain rfl := List.mem_singleton.1 he
      exact ⟨done, s, hserial, fun _ hx => List.mem_append_left _ hx, rfl, operationsTotal_le⟩
  | degrade _ _ ih => exact ih he

theorem Serial.objects_of_reads (h : s₀.Serial done s)
    (hreads : ∀ e ∈ done, e.1.operation.kind = .read) : s.objects = s₀.objects := by
  induction h with
  | nil => rfl
  | act task _ ih =>
    have hread := hreads _ (List.mem_append_right _ List.mem_cons_self)
    rw [Handler.storage_store, objects_of_read hread]
    exact ih fun e he => hreads e (List.mem_append_left _ he)
  | degrade _ _ ih => exact ih hreads

/-- Of what was written to a reference, the store holds what the latest of these tasks wrote. -/
theorem Serial.holds_latest (h : s₀.Serial done s)
    (hwrites : ∀ e ∈ done, e.1.operation.kind = .write) (he : e ∈ done) (ho : Wrote e o) :
    ∃ earlier e' later o', done = earlier ++ e' :: later ∧ Wrote e' o' ∧ o'.target = o.target ∧
      (∀ x ∈ later, ∀ o'', Wrote x o'' → o''.target ≠ o.target) ∧ s.Holds o' := by
  induction h generalizing e o with
  | nil => cases he
  | @act done s task hserial ih =>
    have hkind : task.operation.kind = .write :=
      hwrites _ (List.mem_append_right _ List.mem_cons_self)
    have succeeds {o : StoredObject} (ho : Wrote (task, (Handler.storage.act task s).1) o) :
        s.Succeeds task.operation ∧ task.operation.target = o.target := by
      obtain ⟨-, hsuccess, -, -, -, ht⟩ := ho.spec
      exact ⟨Handler.succeeds_of_isSuccess hsuccess, ht⟩
    rw [Handler.storage_store]
    by_cases hnew : s.Succeeds task.operation ∧ task.operation.target = o.target
    · obtain ⟨o', hwrote, htarget, hholds⟩ := wrote_of_succeeds hnew.1 hkind
      exact ⟨done, _, [], o', rfl, hwrote, htarget.trans hnew.2, List.forall_mem_nil _, hholds⟩
    · rcases List.mem_append.1 he with he | he
      · obtain ⟨earlier, e', later, o', rfl, hwrote, htarget, hlater, hholds⟩ :=
          ih (fun e he => hwrites e (List.mem_append_left _ he)) he ho
        refine ⟨earlier, e', later ++ [_], o', List.append_assoc .., hwrote, htarget,
          fun x hx o'' hwrote' heq => ?_, ?_⟩
        · rcases List.mem_append.1 hx with hx | hx
          · exact hlater x hx o'' hwrote' heq
          · obtain rfl := List.mem_singleton.1 hx
            obtain ⟨hs, ht⟩ := succeeds hwrote'
            exact hnew ⟨hs, ht.trans heq⟩
        · -- a write that fails, or one elsewhere, leaves the object alone
          by_cases hs : s.Succeeds task.operation
          · have hne : task.operation.target ≠ o'.target := fun heq => hnew ⟨hs, heq.trans htarget⟩
            exact hholds.apply ⟨by simp [hkind], by simp [hkind], fun _ heq => absurd heq hne⟩
          · exact (holds_congr (objects_of_not_succeeds hs)).2 hholds
      · obtain rfl := List.mem_singleton.1 he
        exact absurd (succeeds ho) hnew
  | degrade degraded _ ih => exact ih hwrites he ho

end Store

end FaultDrill
