import FaultDrill.Store

/-! # The steps of a store

What one request can do, as rules: the answer it gets and the store it leaves. A store that
does not crash over the request, is not disrupted and has nothing to reject serves it.
-/

namespace FaultDrill

instance : Std.TransOrd ObjectRef :=
  inferInstanceAs (Std.TransCmp (compareLex (compareOn ObjectRef.bucket)
    (compareOn ObjectRef.key)))

instance : Std.LawfulEqOrd ObjectRef where
  eq_of_compare {a b} h := by
    obtain ⟨hbucket, hkey⟩ : compare a.bucket b.bucket = .eq ∧ compare a.key b.key = .eq :=
      Ordering.then_eq_eq.1 h
    obtain ⟨bucket, key⟩ := a
    obtain ⟨bucket', key'⟩ := b
    rw [ObjectRef.mk.injEq]
    exact ⟨Std.LawfulEqCmp.eq_of_compare hbucket, Std.LawfulEqCmp.eq_of_compare hkey⟩

instance : Std.TransCmp PartKey.order :=
  inferInstanceAs (Std.TransCmp (compareLex (compareOn Prod.fst) (compareOn Prod.snd)))

instance : Std.LawfulEqCmp PartKey.order where
  eq_of_compare {a b} h := by
    obtain ⟨hobject, hpart⟩ : compare a.1 b.1 = .eq ∧ compare a.2 b.2 = .eq :=
      Ordering.then_eq_eq.1 h
    exact Prod.ext (Std.LawfulEqCmp.eq_of_compare hobject) (Std.LawfulEqCmp.eq_of_compare hpart)

namespace Store

def noSuchKey (target : ObjectRef) : Response := .rejected ("NoSuchKey: " ++ target.text)

/-- One more request can be counted. -/
def HasCount (s : Store) : Prop := s.operationsTotal.toNat + 1 < UInt64.size

instance (s : Store) : Decidable s.HasCount := inferInstanceAs (Decidable (_ < _))

/-- The store after one more request was counted. -/
def counted (s : Store) : Store := { s with operationsTotal := s.operationsTotal + 1 }

/-- The answer to a request that is served, and the store after it. -/
inductive Served (op : Operation) (s : Store) : Except StorageError Response → Store → Prop
  | write {payload content} : op.kind = .write → op.payload = some payload →
      payload.bytes = .ok content →
      Served op s (.ok (.ok ("etag=" ++ ((checksum content).take 16).toString)))
        { s with objects := s.objects.insert op.target content }
  | read {content} : op.kind = .read → s.objects[op.target]? = some content →
      Served op s (.ok { Response.ok (toString content.size ++ " bytes") with
        checksum := some (checksum content) }) s
  | delete : op.kind = .delete → s.objects.contains op.target = true →
      Served op s (.ok (.ok "deleted")) { s with objects := s.objects.erase op.target }
  | deleteAbsent : op.kind = .delete → s.objects[op.target]? = none →
      Served op s (.ok (.ok "absent")) s
  | copy {destination content} : op.kind = .copy → op.destination = some destination →
      s.objects[op.target]? = some content →
      Served op s (.ok (.ok ("copied to " ++ destination.text)))
        { s with objects := s.objects.insert destination content }
  | part {part payload content} : op.kind = .multipartPart → op.partNumber = some part →
      op.payload = some payload → payload.bytes = .ok content →
      Served op s (.ok (.ok ("part " ++ toString part.toNat)))
        { s with parts := s.parts.insert (op.target, part) content }
  | missing : op.kind = .read ∨ op.kind = .copy → s.objects[op.target]? = none →
      Served op s (.ok (noSuchKey op.target)) s
  | invalid (text : String) : op.kind ≠ .read → op.kind ≠ .delete →
      (op.kind = .write → op.payload = none) → Served op s (.error (.invalidRequest text)) s

/-- What a request comes to, and the store after it. -/
inductive Applied (op : Operation) (s : Store) :
    Except Crash (Except StorageError Response) → Store → Prop
  | exhausted : ¬ s.HasCount → Applied op s (.error .addOverflow) s
  | unavailable {reason} : s.HasCount → s.disrupted = some reason →
      Applied op s (.ok (.error (.service 503 ("service unavailable: " ++ reason)))) s.counted
  | rejected {detail rest} : s.HasCount → s.disrupted = none → s.failNext = detail :: rest →
      Applied op s (.ok (.ok (.rejected detail))) { s.counted with failNext := rest }
  | crashed {payload} : s.HasCount → op.kind = .write ∨ op.kind = .multipartPart →
      op.payload = some payload → payload.bytes = .error .capacityOverflow →
      Applied op s (.error .capacityOverflow) s.counted
  | served {answer s'} : s.HasCount → s.disrupted = none → s.failNext = [] →
      Served op s.counted answer s' → Applied op s (.ok answer) s'

variable {op : Operation} {s s' : Store} {crash : Crash}
  {answer : Except StorageError Response}
  {came : Except Crash (Except StorageError Response)}

theorem bytes_cases (payload : Payload) :
    (∃ content, payload.bytes = .ok content) ∨ payload.bytes = .error .capacityOverflow := by
  unfold Payload.bytes
  split
  case isTrue => exact .inl ⟨_, rfl⟩
  case isFalse => exact .inr rfl

theorem serve_cases (op : Operation) (s : Store) :
    (∃ answer s', s.serve op = .ok (answer, s') ∧ Served op s answer s') ∨
      s.serve op = .error .capacityOverflow ∧ (op.kind = .write ∨ op.kind = .multipartPart) ∧
        ∃ payload, op.payload = some payload ∧ payload.bytes = .error .capacityOverflow := by
  cases hk : op.kind with
  | write =>
    cases hp : op.payload with
    | none =>
      exact .inl ⟨_, _, by simp only [serve, hk, hp]; rfl,
        .invalid _ (by simp [hk]) (by simp [hk]) fun _ => hp⟩
    | some payload =>
      rcases bytes_cases payload with ⟨content, hc⟩ | hc
      · exact .inl ⟨_, _, by simp only [serve, hk, hp, hc, Except.map], .write hk hp hc⟩
      · exact .inr ⟨by simp only [serve, hk, hp, hc, Except.map], .inl rfl, payload, rfl, hc⟩
  | read =>
    cases ho : s.objects[op.target]? with
    | some content => exact .inl ⟨_, _, by simp only [serve, hk, ho], .read hk ho⟩
    | none => exact .inl ⟨_, _, by simp only [serve, hk, ho]; rfl, .missing (.inl hk) ho⟩
  | delete =>
    cases ho : s.objects.contains op.target with
    | true => exact .inl ⟨_, _, by simp [serve, hk, ho], .delete hk ho⟩
    | false =>
      have hnone : s.objects[op.target]? = none :=
        Std.TreeMap.getElem?_eq_none_of_contains_eq_false ho
      exact .inl ⟨_, _, by simp [serve, hk, ho], .deleteAbsent hk hnone⟩
  | copy =>
    cases hd : op.destination with
    | none =>
      exact .inl ⟨_, _, by simp only [serve, hk, hd]; rfl,
        .invalid _ (by simp [hk]) (by simp [hk]) (by simp [hk])⟩
    | some destination =>
      cases ho : s.objects[op.target]? with
      | some content => exact .inl ⟨_, _, by simp only [serve, hk, hd, ho], .copy hk hd ho⟩
      | none => exact .inl ⟨_, _, by simp only [serve, hk, hd, ho]; rfl, .missing (.inr hk) ho⟩
  | multipartPart =>
    cases hn : op.partNumber with
    | none =>
      exact .inl ⟨_, _, by simp only [serve, hk, hn]; rfl,
        .invalid _ (by simp [hk]) (by simp [hk]) (by simp [hk])⟩
    | some part =>
      cases hp : op.payload with
      | none =>
        exact .inl ⟨_, _, by simp only [serve, hk, hn, hp]; rfl,
          .invalid _ (by simp [hk]) (by simp [hk]) (by simp [hk])⟩
      | some payload =>
        rcases bytes_cases payload with ⟨content, hc⟩ | hc
        · exact .inl ⟨_, _, by simp only [serve, hk, hn, hp, hc, Except.map], .part hk hn hp hc⟩
        · exact .inr ⟨by simp only [serve, hk, hn, hp, hc, Except.map], .inr rfl, payload, rfl, hc⟩

theorem apply_applied (op : Operation) (s : Store) :
    Applied op s (s.apply op).1 (s.apply op).2 := by
  unfold apply
  split
  case isFalse hc => exact .exhausted hc
  case isTrue hc =>
    dsimp only
    split
    case h_1 reason _ hd => exact .unavailable hc hd
    case h_2 detail rest hd hf => exact .rejected hc hd hf
    case h_3 hd hf =>
      rcases serve_cases op s.counted with ⟨answer, s', hs, hserved⟩ | ⟨hs, hk, payload, hp, hb⟩
      · simp only [counted] at hs
        rw [hs]
        exact .served hc hd hf hserved
      · simp only [counted] at hs
        rw [hs]
        exact .crashed hc hk hp hb

end Store

end FaultDrill
