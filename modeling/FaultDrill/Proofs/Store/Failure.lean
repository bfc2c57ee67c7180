import FaultDrill.Proofs.Store.Place

/-! # Requests that fail

A request that fails is counted, and it uses up the rejection that waited for it; nothing else of
the store changes, so that later requests are answered as if it had not been made. A request that
succeeds changes one entry at most: the object or the part that it is about.
-/

namespace FaultDrill

/-- What a request can change in a store. -/
inductive Store.Entry
  | object (k : ObjectRef)
  | part (key : PartKey)
  deriving DecidableEq

open Store in
/-- The entry that the operation is meant to change. -/
def Operation.entry? (op : Operation) : Option Entry :=
  match op.kind with
  | .write | .delete => some (.object op.target)
  | .copy => op.destination.map .object
  | .multipartPart => op.partNumber.map fun part => .part (op.target, part)
  | .read => none

namespace Store

/-- What the requests among these deeds are answered, one after the other. -/
def answers (s : Store) (later : List Deed) : List (Except Crash (Except StorageError Response)) :=
  (s.met later).filterMap fun
    | (s, .request op) => some (s.apply op).1
    | _ => none

/-- The request was not done: it is counted, and a rejection that waited for it is its answer. -/
structure Refused (s : Store) (came : Except Crash (Except StorageError Response)) (s' : Store) :
    Prop where
  same : s' = { s with operationsTotal := s'.operationsTotal, failNext := s'.failNext }
  operationsTotal : s'.operationsTotal.toNat = s.operationsTotal.toNat + 1
  rejected : ∀ detail rest, s.disrupted = none → s.failNext = detail :: rest →
    came = .ok (.ok (.rejected detail)) ∧ s'.failNext = rest
  waiting : s.disrupted ≠ none ∨ s.failNext = [] → s'.failNext = s.failNext

/-- The request was done: it is counted, and no entry is changed but the one it is about. -/
structure Changed (s : Store) (op : Operation) (s' : Store) : Prop where
  same : s' = { s with
    operationsTotal := s'.operationsTotal, objects := s'.objects, parts := s'.parts }
  operationsTotal : s'.operationsTotal.toNat = s.operationsTotal.toNat + 1
  objects : ∀ k, op.entry? ≠ some (.object k) → s'.objects[k]? = s.objects[k]?
  parts : ∀ key, op.entry? ≠ some (.part key) → s'.parts[key]? = s.parts[key]?

/-- The store as it is with another count. -/
def recount (n : UInt64) (s : Store) : Store := { s with operationsTotal := n }

variable {s s' : Store} {op : Operation} {deed : Deed} {later : List Deed} {crash : Crash}
  {detail : String} {rest : List String} {reason : String}

/-! ## One request -/

theorem toNat_counted (hc : s.HasCount) :
    s.counted.operationsTotal.toNat = s.operationsTotal.toNat + 1 :=
  (UInt64.toNat_add _ _).trans (Nat.mod_eq_of_lt hc)

theorem apply_full (hc : ¬ s.HasCount) : s.apply op = (.error .addOverflow, s) := if_neg hc

theorem apply_down (hc : s.HasCount) (hd : s.disrupted = some reason) :
    s.apply op =
      (.ok (.error (.service 503 ("service unavailable: " ++ reason))), s.counted) := by
  unfold apply
  rw [if_pos (show s.operationsTotal.toNat + 1 < UInt64.size from hc)]
  simp only [hd, counted]

theorem apply_reject (hc : s.HasCount) (hd : s.disrupted = none)
    (hf : s.failNext = detail :: rest) :
    s.apply op = (.ok (.ok (.rejected detail)), { s.counted with failNext := rest }) := by
  unfold apply
  rw [if_pos (show s.operationsTotal.toNat + 1 < UInt64.size from hc)]
  simp only [hd, hf, counted]

/-- What is served and not done leaves the store as it was. -/
theorem Served.eq_of_fails {answer : Except StorageError Response} (h : Served op s answer s')
    (hfails : ∀ response, answer = .ok response → response.success = false) : s' = s := by
  cases h with
  | read | deleteAbsent | missing | invalid => rfl
  | write | delete | copy | part => cases hfails _ rfl

theorem refused_of_not_succeeds (hc : s.HasCount) (h : ¬ s.Succeeds op) :
    s.Refused (s.apply op).1 (s.apply op).2 := by
  have hcounted := toNat_counted hc
  cases hd : s.disrupted with
  | some reason =>
    rw [apply_down hc hd]
    refine ⟨rfl, hcounted, fun _ _ hup => ?_, fun _ => rfl⟩
    cases hd.symm.trans hup
  | none =>
    cases hf : s.failNext with
    | cons detail rest =>
      rw [apply_reject hc hd hf]
      refine ⟨rfl, hcounted, fun _ _ _ hf' => ?_, fun hidle => ?_⟩
      · cases hf.symm.trans hf'
        exact ⟨rfl, rfl⟩
      · rcases hidle with hdown | hnone
        · exact (hdown hd).elim
        · cases hf.symm.trans hnone
    | nil =>
      have hleft : (s.apply op).2 = s.counted := by
        obtain ⟨came, s', ha, happ⟩ : ∃ came s', s.apply op = (came, s') ∧ Applied op s came s' :=
          ⟨_, _, rfl, apply_applied op s⟩
        rw [ha]
        cases happ with
        | exhausted hfull => exact (hfull hc).elim
        | unavailable | crashed => rfl
        | rejected _ _ hf' => cases hf.symm.trans hf'
        | served _ _ _ hserved =>
          refine hserved.eq_of_fails fun response hanswer => ?_
          subst hanswer
          simpa [Succeeds, ha] using h
      rw [hleft]
      refine ⟨rfl, hcounted, fun _ _ _ hf' => ?_, fun _ => rfl⟩
      cases hf.symm.trans hf'

/-- A request that can be counted crashes over nothing but content that no allocation can hold. -/
theorem too_large_of_crash (hc : s.HasCount) (h : (s.apply op).1 = .error crash) :
    crash = .capacityOverflow ∧
      ∃ payload, op.payload = some payload ∧ Payload.sizeLimit ≤ payload.size.toNat := by
  have happ := apply_applied op s
  rw [h] at happ
  generalize (s.apply op).2 = s' at happ
  cases happ with
  | exhausted hfull => exact (hfull hc).elim
  | @crashed payload _ _ hp hb =>
    refine ⟨rfl, payload, hp, Nat.le_of_not_lt fun hlt => ?_⟩
    rw [Payload.bytes, if_pos hlt] at hb
    cases hb

theorem changed_of_succeeds (h : s.Succeeds op) : s.Changed op (s.apply op).2 := by
  obtain ⟨response, hanswer, hsuccess⟩ := h
  have happ := apply_applied op s
  rw [hanswer] at happ
  generalize (s.apply op).2 = s' at happ
  generalize hcame : Except.ok (Except.ok response) = came at happ
  cases happ with
  | exhausted | unavailable | crashed => cases hcame
  | rejected =>
    cases hcame
    cases hsuccess
  | served hc _ _ hserved =>
    have hcounted := toNat_counted hc
    cases hserved with
    | write hk =>
      refine ⟨rfl, hcounted, fun k hne => ?_, fun _ _ => rfl⟩
      have ht : op.target ≠ k := by simpa [Operation.entry?, hk] using hne
      exact getElem?_insert.trans (if_neg ht)
    | delete hk =>
      refine ⟨rfl, hcounted, fun k hne => ?_, fun _ _ => rfl⟩
      have ht : op.target ≠ k := by simpa [Operation.entry?, hk] using hne
      exact getElem?_erase.trans (if_neg ht)
    | @copy destination _ hk hd =>
      refine ⟨rfl, hcounted, fun k hne => ?_, fun _ _ => rfl⟩
      have ht : destination ≠ k := by simpa [Operation.entry?, hk, hd] using hne
      exact getElem?_insert.trans (if_neg ht)
    | @part part _ _ hk hn =>
      refine ⟨rfl, hcounted, fun _ _ => rfl, fun key hne => ?_⟩
      have ht : (op.target, part) ≠ key := by simpa [Operation.entry?, hk, hn] using hne
      simp [Std.TreeMap.getElem?_insert, Std.LawfulEqCmp.compare_eq_iff_eq, ht, counted]
    | read | deleteAbsent => exact ⟨rfl, hcounted, fun _ _ => rfl, fun _ _ => rfl⟩
    | missing =>
      cases hcame
      cases hsuccess
    | invalid => cases hcame

/-! ## Later requests -/

/-- What is served does not depend on what was counted. -/
theorem serve_recount (op : Operation) (s : Store) (n : UInt64) :
    (s.recount n).serve op = (s.serve op).map fun (answer, s') => (answer, s'.recount n) := by
  unfold recount
  cases hk : op.kind with
  | write =>
    cases hp : op.payload with
    | none => simp only [serve, hk, hp, Except.map]
    | some payload => cases hb : payload.bytes <;> simp only [serve, hk, hp, hb, Except.map]
  | read => cases ho : s.objects[op.target]? <;> simp only [serve, hk, ho, Except.map]
  | delete => cases ho : s.objects.contains op.target <;> simp [serve, hk, ho, Except.map]
  | copy =>
    cases hd : op.destination with
    | none => simp only [serve, hk, hd, Except.map]
    | some destination =>
      cases ho : s.objects[op.target]? <;> simp only [serve, hk, hd, ho, Except.map]
  | multipartPart =>
    cases hn : op.partNumber with
    | none => simp only [serve, hk, hn, Except.map]
    | some part =>
      cases hp : op.payload with
      | none => simp only [serve, hk, hn, hp, Except.map]
      | some payload => cases hb : payload.bytes <;> simp only [serve, hk, hn, hp, hb, Except.map]

/-- Nor does an answer, as long as there is room to count. -/
theorem apply_recount {n : UInt64} (op : Operation) (hc : s.HasCount)
    (hn : (s.recount n).HasCount) :
    ((s.recount n).apply op).1 = (s.apply op).1 ∧
      ((s.recount n).apply op).2 = (s.apply op).2.recount (n + 1) := by
  cases hd : s.disrupted with
  | some reason =>
    rw [apply_down hc hd, apply_down hn hd]
    exact ⟨rfl, rfl⟩
  | none =>
    cases hf : s.failNext with
    | cons detail rest =>
      rw [apply_reject hc hd hf, apply_reject hn hd hf]
      exact ⟨rfl, rfl⟩
    | nil =>
      have hup : s.IsUp := ⟨hd, hf⟩
      have hup' : (s.recount n).IsUp := ⟨hd, hf⟩
      have hserve := serve_recount op s.counted (n + 1)
      cases hs : s.counted.serve op with
      | ok served =>
        rw [hs] at hserve
        rw [apply_of_serve hup hc hs, apply_of_serve hup' hn hserve]
        exact ⟨rfl, rfl⟩
      | error crash =>
        rw [hs] at hserve
        rw [apply_of_crash hup hc hs, apply_of_crash hup' hn hserve]
        exact ⟨rfl, rfl⟩

theorem result_recount (hd : deed.isRequest = false) (n : UInt64) :
    deed.result (s.recount n) = (deed.result s).recount n := by
  cases deed with
  | request => cases hd
  | markDegraded component =>
    simp only [Deed.result, markDegraded]
    rw [apply_ite (recount n)]
    rfl
  | corrupt target =>
    simp only [Deed.result, corrupt, recount]
    split <;> rfl
  | disrupt | endDisruption | rejectNext | restoreComponent => rfl

theorem answers_request : s.answers (.request op :: later) =
    (s.apply op).1 :: (s.apply op).2.answers later := rfl

theorem answers_idle (hd : deed.isRequest = false) :
    s.answers (deed :: later) = (deed.result s).answers later := by
  cases deed with
  | request => cases hd
  | _ => rfl

/-- Stores that differ in their count alone answer everything alike, as long as there is room to
count. -/
theorem answers_recount {n : UInt64}
    (hs : s.operationsTotal.toNat + later.countP Deed.isRequest < UInt64.size)
    (hn : n.toNat + later.countP Deed.isRequest < UInt64.size) :
    (s.recount n).answers later = s.answers later := by
  induction later generalizing s n with
  | nil => rfl
  | cons deed later ih =>
    rw [List.countP_cons] at hs hn
    cases hd : deed.isRequest with
    | true =>
      cases deed with
      | request op =>
        rw [if_pos hd] at hs hn
        have hc : s.HasCount := show s.operationsTotal.toNat + 1 < UInt64.size by omega
        have hc' : (s.recount n).HasCount := show n.toNat + 1 < UInt64.size by omega
        obtain ⟨hanswer, hleft⟩ := apply_recount op hc hc'
        have hone : (n + 1).toNat = n.toNat + 1 :=
          (UInt64.toNat_add _ _).trans (Nat.mod_eq_of_lt hc')
        rw [answers_request, answers_request, hanswer, hleft, ih]
        · rw [apply_operationsTotal]
          omega
        · omega
      | _ => cases hd
    | false =>
      rw [hd, if_neg Bool.false_ne_true] at hs hn
      rw [answers_idle hd, answers_idle hd, result_recount hd, ih]
      · rw [(result_idle hd).2]
        omega
      · omega

/-- A request that finds no room to count crashes and leaves the store as it is. Any other request
that is not done is counted and uses up the rejection that waited for it; it leaves everything else
alone, so that the store goes on from there, also after a crash over content that is too large. A
request that is done changes the one entry that it is about. -/
theorem failure_law (s : Store) (op : Operation) :
    (¬ s.HasCount → s.apply op = (.error .addOverflow, s)) ∧
    (s.HasCount → ¬ s.Succeeds op → s.Refused (s.apply op).1 (s.apply op).2 ∧
      (∀ crash, (s.apply op).1 = .error crash → crash = .capacityOverflow ∧
        ∃ payload, op.payload = some payload ∧ Payload.sizeLimit ≤ payload.size.toNat) ∧
      ∀ later, s.operationsTotal.toNat + 1 + later.countP Deed.isRequest < UInt64.size →
        (s.apply op).2.answers later =
          { s with failNext := (s.apply op).2.failNext }.answers later) ∧
    (s.Succeeds op → s.Changed op (s.apply op).2) := by
  refine ⟨apply_full, fun hc hfails => ?_, changed_of_succeeds⟩
  have hrefused := refused_of_not_succeeds hc hfails
  refine ⟨hrefused, fun crash => too_large_of_crash hc, fun later hroom => ?_⟩
  have hcounted := hrefused.operationsTotal
  rw [hrefused.same]
  exact answers_recount (s := { s with failNext := (s.apply op).2.failNext })
    (show s.operationsTotal.toNat + _ < _ by omega) (by omega)

def trialLarge : Operation := .write trialOriginal ⟨9223372036854775808, 0⟩

theorem failure_law_trial :
    let s := (fresh 0).after [.request (.write trialOriginal ⟨4, 7⟩)]
    s.HasCount ∧ ¬ s.Succeeds trialLarge ∧
      s.Refused (.error .capacityOverflow) (s.apply trialLarge).2 ∧
      (s.apply trialLarge).2.answers [.request (.read trialOriginal none)] =
        s.answers [.request (.read trialOriginal none)] := by
  intro s
  have hcame : (s.apply trialLarge).1 = .error .capacityOverflow := rfl
  have hfails : ¬ s.Succeeds trialLarge := by simp [Succeeds, hcame]
  have hroom : s.HasCount := by unfold HasCount; decide
  obtain ⟨hrefused, -, hlater⟩ := (failure_law s trialLarge).2.1 hroom hfails
  rw [hcame] at hrefused
  exact ⟨hroom, hfails, hrefused, hlater _ (by decide)⟩

end Store

end FaultDrill
