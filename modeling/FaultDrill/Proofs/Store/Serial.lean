import FaultDrill.Proofs.Store.Place

/-! # Tasks performed one after another

What becomes of a store on which tasks are performed in some order, and of the tasks. If they touch
different places, each finds its own as it was at the beginning, so that the order does not matter.
-/

namespace FaultDrill

theorem Store.Succeeds.bytes {s : Store} {op : Operation} (h : s.Succeeds op)
    (hk : op.kind = .write) :
    ∃ payload content, op.payload = some payload ∧ payload.bytes = .ok content := by
  obtain ⟨response, hanswer, hsuccess⟩ := h
  have happ := apply_applied op s
  rw [hanswer] at happ
  generalize (s.apply op).2 = s' at happ
  generalize hcame : Except.ok (Except.ok response) = came at happ
  cases happ with
  | served _ _ _ hserved =>
    cases hserved with
    | write _ hp hb => exact ⟨_, _, hp, hb⟩
    | missing =>
      cases hcame
      cases hsuccess
    | read hk' | delete hk' | deleteAbsent hk' | copy hk' | part hk' => cases hk.symm.trans hk'
    | invalid => cases hcame
  | rejected =>
    cases hcame
    cases hsuccess
  | exhausted | unavailable | crashed => cases hcame

namespace Handler

variable {task : Task} {s s' : Store}

theorem act_eq_of_apply (h : (s.apply task.operation).1 = (s'.apply task.operation).1) :
    (storage.act task s).1 = (storage.act task s').1 := by
  rw [storage_outcome, storage_outcome, h]

/-- What was written could be held in memory, so that there is a result of it. -/
theorem assemble_ne_error {startedAt finishedAt : Duration} {phase : WindowPhase} {crash : Crash} :
    OperationResult.assemble task.id task.stream task.operation (storage.act task s).1 startedAt
      finishedAt phase ≠ .error crash := by
  unfold OperationResult.assemble OperationResult.writtenBy
  split
  case h_1 payload hk hp hsuccess =>
    obtain ⟨payload', content, hp', hb⟩ := (succeeds_of_isSuccess hsuccess).bytes hk
    obtain rfl := Option.some.inj (hp.symm.trans hp')
    simp [Payload.checksum, hb, Except.map]
  case h_2 => simp [Except.map]

end Handler

namespace Store

/-- The store after these tasks were performed on the first one, each with this outcome. -/
inductive Serial (s₀ : Store) : List (Task × Outcome) → Store → Prop
  | nil : Serial s₀ [] s₀
  | act {done s} (task : Task) : Serial s₀ done s →
      Serial s₀ (done ++ [(task, (Handler.storage.act task s).1)]) (Handler.storage.act task s).2
  | degrade {done s} (degraded : List String) : Serial s₀ done s →
      Serial s₀ done { s with degraded }

/-- Every task has met its places as they were and has left them as it would have then. -/
structure Spread (s₀ : Store) (done : List (Task × Outcome)) (s : Store) : Prop where
  total : s.operationsTotal.toNat = s₀.operationsTotal.toNat + done.length
  touched : ∀ e ∈ done, ∀ k ∈ e.1.operation.touched,
    s.place k = (s₀.apply e.1.operation).2.place k
  untouched : ∀ k, (∀ e ∈ done, k ∉ e.1.operation.touched) → s.place k = s₀.place k
  outcome : ∀ e ∈ done, e.2 = (Handler.storage.act e.1 s₀).1

variable {s₀ s s₀' s' : Store} {done done' : List (Task × Outcome)}

theorem Serial.isUp (h : s₀.Serial done s) (hup : s₀.IsUp) : s.IsUp := by
  induction h with
  | nil => exact hup
  | act task _ ih =>
    rw [Handler.storage_store]
    exact ih.apply _
  | degrade degraded _ ih => exact ⟨ih.disrupted, ih.failNext⟩

theorem Serial.spread (h : s₀.Serial done s) (hup : s₀.IsUp)
    (hroom : s₀.operationsTotal.toNat + done.length < UInt64.size)
    (hapart : (done.map (·.1.operation)).Pairwise Operation.Apart) : s₀.Spread done s := by
  induction h with
  | nil => exact ⟨rfl, List.forall_mem_nil _, fun _ _ => rfl, List.forall_mem_nil _⟩
  | degrade degraded _ ih =>
    obtain ⟨htotal, htouched, huntouched, houtcome⟩ := ih hroom hapart
    exact ⟨htotal, htouched, huntouched, houtcome⟩
  | @act done s task hserial ih =>
    rw [List.length_append, List.length_singleton] at hroom
    rw [List.map_append, List.pairwise_append] at hapart
    obtain ⟨hbefore, -, hlast⟩ := hapart
    have hs := ih (by omega) hbefore
    have hlast (e : Task × Outcome) (he : e ∈ done) : e.1.operation.Apart task.operation :=
      hlast _ (List.mem_map_of_mem he) _ List.mem_cons_self
    -- The task meets the places it touches as they were at the beginning.
    have hmeets : ∀ k ∈ task.operation.touched, s.place k = s₀.place k := fun k hk =>
      hs.untouched k fun e he hmem => hlast e he hmem hk
    obtain ⟨hanswer, hplaces⟩ := apply_alike (hserial.isUp hup) hup
      (show s.operationsTotal.toNat + 1 < UInt64.size by rw [hs.total]; omega)
      (show s₀.operationsTotal.toNat + 1 < UInt64.size by omega) hmeets
    rw [Handler.storage_store]
    refine ⟨?_, ?_, ?_, ?_⟩
    · rw [apply_operationsTotal, hs.total, List.length_append, List.length_singleton]
      omega
    · intro e he k hk
      rcases List.mem_append.1 he with he | he
      · rw [place_apply fun hmem => hlast e he hk hmem]
        exact hs.touched e he k hk
      · obtain rfl := List.mem_singleton.1 he
        exact hplaces k hk
    · intro k hk
      rw [place_apply (hk _ (List.mem_append_right _ List.mem_cons_self))]
      exact hs.untouched k fun e he => hk e (List.mem_append_left _ he)
    · intro e he
      rcases List.mem_append.1 he with he | he
      · exact hs.outcome e he
      · obtain rfl := List.mem_singleton.1 he
        exact Handler.act_eq_of_apply hanswer

/-- The order in which tasks are performed that touch different places makes no difference to the
store or to any of them. -/
theorem Serial.agree (h : s₀.Serial done s) (h' : s₀'.Serial done' s') (hup : s₀.IsUp)
    (hup' : s₀'.IsUp) (hroom : s₀.operationsTotal.toNat + done.length < UInt64.size)
    (hapart : (done.map (·.1.operation)).Pairwise Operation.Apart) (hsame : s₀.Matches s₀')
    (hperm : (done.map Prod.fst).Perm (done'.map Prod.fst)) :
    s.Matches s' ∧ ∀ e ∈ done, e ∈ done' := by
  obtain ⟨hplaces, hcounts⟩ := matches_iff.1 hsame
  have hlength : done'.length = done.length := by simpa using hperm.length_eq.symm
  have hapart' : (done'.map (·.1.operation)).Pairwise Operation.Apart := by
    have hops := hperm.map Task.operation
    rw [List.map_map, List.map_map] at hops
    exact (hops.pairwise_iff fun hab => hab.symm).1 hapart
  have hs := h.spread hup hroom hapart
  have hs' := h'.spread hup' (by rw [← hcounts, hlength]; exact hroom) hapart'
  have alike (e : Task × Outcome) (he : e ∈ done) :=
    have hpos := List.length_pos_of_mem he
    @apply_alike s₀ s₀' e.1.operation hup hup'
      (show s₀.operationsTotal.toNat + 1 < UInt64.size by omega)
      (show s₀'.operationsTotal.toNat + 1 < UInt64.size by rw [← hcounts]; omega)
      fun k _ => hplaces k
  have partner {e : Task × Outcome} (he : e ∈ done) : ∃ outcome, (e.1, outcome) ∈ done' := by
    obtain ⟨⟨task, outcome⟩, he', rfl⟩ :=
      List.mem_map.1 (hperm.mem_iff.1 (List.mem_map_of_mem he))
    exact ⟨outcome, he'⟩
  constructor
  · refine matches_iff.2 ⟨fun k => ?_, UInt64.toNat_inj.1 ?_⟩
    · by_cases htouched : ∃ e ∈ done, k ∈ e.1.operation.touched
      · obtain ⟨e, he, hk⟩ := htouched
        obtain ⟨outcome, he'⟩ := partner he
        rw [hs.touched e he k hk, (alike e he).2 k hk]
        exact (hs'.touched _ he' k hk).symm
      · have hk : ∀ e ∈ done, k ∉ e.1.operation.touched := fun e he hmem =>
          htouched ⟨e, he, hmem⟩
        have hk' : ∀ e ∈ done', k ∉ e.1.operation.touched := by
          intro e he
          obtain ⟨e', he', heq⟩ := List.mem_map.1 (hperm.mem_iff.2 (List.mem_map_of_mem he))
          exact heq ▸ hk e' he'
        rw [hs.untouched k hk, hs'.untouched k hk', hplaces k]
    · rw [hs.total, hs'.total, hcounts, hlength]
  · intro e he
    obtain ⟨outcome, he'⟩ := partner he
    have houtcome : e = (e.1, outcome) := by
      refine Prod.ext rfl ?_
      rw [hs.outcome e he, Handler.act_eq_of_apply (alike e he).1]
      exact (hs'.outcome _ he').symm
    rw [houtcome]
    exact he'

end Store

end FaultDrill
