import FaultDrill.Proofs.Driver.Run
import FaultDrill.Proofs.Pool.Accept
import FaultDrill.Proofs.Pool.Order
import FaultDrill.Proofs.Pool.Rank

/-! # Submissions under way

A call that submits a task has it until the task is accepted or the call is refused. So a pool that
nobody calls any more accepts only tasks whose submissions are under way.
-/

namespace FaultDrill

/-- The task that the call is about to submit. -/
def ClientStage.offers? : ClientStage → Option Task
  | arrived task | asking task | awaitingPermit task | permitted task | awaitingRead task
  | admitted task | counted task => some task
  | _ => none

namespace Pool

/-- The tasks that calls are about to submit. -/
def offered (p : Pool) : List Task := p.clients.filterMap ClientStage.offers?

variable {config : PoolConfig} {p p' q : Pool} {i : Nat} {s s' : ClientStage} {m : Move}
  {ms : List Move} {task : Task}

theorem hear_offers? (s : ClientStage) : s.hear.offers? = s.offers? := by cases s <;> rfl

theorem offered_congr (h : q.clients = p.clients ∨ q.clients = p.clients.map ClientStage.hear) :
    q.offered = p.offered := by
  rcases h with h | h
  · rw [offered, h, offered]
  · rw [offered, h, offered, List.filterMap_map]
    exact List.filterMap_congr fun s _ => hear_offers? s

theorem not_isWelcome_refusal : ¬(ClientStage.returned p.refusal).IsWelcome := by
  rintro ⟨⟩

/-- With its next step a call has its task accepted, keeps it, gives it up or is turned away. -/
theorem ClientStep.offers_cases (h : ClientStep p i s s' q) :
    (∃ task, s = .counted task ∧ s' = .returned (.ok ())) ∨
      (∀ task, s ≠ .counted task) ∧ s'.offers? = s.offers? ∨
      s'.offers? = none ∧ (s' = .dropped ∨ ¬s'.IsWelcome) := by
  cases h with
  | enqueue => exact .inl ⟨_, rfl, rfl⟩
  | late | findClosed | turnAway | findNobody =>
    exact .inr (.inr ⟨rfl, .inr not_isWelcome_refusal⟩)
  | refuse => exact .inr (.inr ⟨rfl, .inr id⟩)
  | abandonPermit | abandonRead => exact .inr (.inr ⟨rfl, .inl rfl⟩)
  | _ => exact .inr (.inl ⟨by rintro _ ⟨⟩, rfl⟩)

/-- What a call has is accepted, kept or lost. A call that is welcome loses nothing. -/
theorem ClientStep.offers (hs : p.clients[i]? = some s) (h : ClientStep p i s s' q)
    (hd : s' ≠ .dropped) :
    ∃ lost, s.offers?.toList =
        (p.accepts? (.client i) (q.setClient i s')).toList ++ s'.offers?.toList ++ lost ∧
      (s'.IsWelcome → lost = []) := by
  have hset := h.stage_eq hs
  rcases h.offers_cases with ⟨task, rfl, rfl⟩ | ⟨hnot, hsame⟩ | ⟨hgone, hrefused⟩
  · refine ⟨[], ?_, fun _ => rfl⟩
    simp only [accepts?, hs, reply?_eq_some_iff.2 hset]
    rfl
  · refine ⟨[], ?_, fun _ => rfl⟩
    rw [accepts?_eq_none hs hnot, hsame]
    exact (List.append_nil _).symm
  · have hrefused := hrefused.resolve_left hd
    have hnone : p.accepts? (.client i) (q.setClient i s') = none := by
      simp only [accepts?]
      split
      case h_1 hr =>
        rw [reply?_eq_some_iff, hset, Option.some.injEq] at hr
        exact absurd (hr ▸ rfl) hrefused
      case h_2 => rfl
    rw [hnone, hgone]
    exact ⟨_, rfl, fun h => (hrefused h).elim⟩

/-- What is offered is accepted, still offered or lost with a move of the pool. -/
theorem offered_step (hi : m.isInternal = true) (hm : p.move? m = some p') :
    ∃ lost, p.offered.Perm ((p.accepts? m p').toList ++ p'.offered ++ lost) ∧
      ((∀ s ∈ p'.clients, s.IsWelcome) → lost = []) := by
  cases step_of_move? hm with
  | @client i s s' q _ hcall hs hc =>
    rcases hcall with ⟨rfl, hd⟩ | rfl
    · obtain ⟨lost, htask, hlost⟩ := hc.offers hs hd
      have hmem : s' ∈ (q.setClient i s').clients := List.mem_of_getElem? (hc.stage_eq hs)
      refine ⟨lost, ?_, fun hall => hlost (hall s' hmem)⟩
      obtain ⟨s₁, hs₁, hsame⟩ : ∃ s₁, q.clients[i]? = some s₁ ∧ s₁.offers? = s.offers? := by
        rcases hc.clients_eq with hq | hq
        · exact ⟨s, hq ▸ hs, rfl⟩
        · exact ⟨s.hear, by rw [hq, List.getElem?_map, hs]; rfl, hear_offers? s⟩
      have hperm := filterMap_set_perm (f := ClientStage.offers?) (b := s') hs₁
      rw [hsame, htask] at hperm
      have hoffered : q.clients.filterMap ClientStage.offers? = p.offered :=
        offered_congr hc.clients_eq
      rw [hoffered] at hperm
      change (_ ++ (q.setClient i s').offered).Perm _ at hperm
      simp only [List.perm_iff_count, List.count_append] at hperm ⊢
      intro t
      have := hperm t
      omega
    · cases hi
  | @worker w v v' q _ hv hw =>
    have hnone : p.accepts? m (q.setWorker w v') = none := by cases hw <;> rfl
    have hoffered : (q.setWorker w v').offered = p.offered := offered_congr hw.clients_eq
    exact ⟨[], by rw [hnone, hoffered, List.append_nil]; exact .refl _, fun _ => rfl⟩
  | call | detach | deafen => cases hi

theorem offered_eq_nil_of_replies (h : ∀ i < p.clients.length, ∃ reply, p.reply? i = some reply) :
    p.offered = [] := by
  refine List.filterMap_eq_nil_iff.2 fun s hs => ?_
  obtain ⟨i, hi⟩ := List.mem_iff_getElem?.1 hs
  obtain ⟨reply, hr⟩ := h i (List.getElem?_eq_some_iff.1 hi).1
  rw [reply?_eq_some_iff, hi, Option.some.injEq] at hr
  rw [hr]
  rfl

theorem offered_call (request : Request) :
    (p.call request).offered = p.offered ++ request.stage.offers?.toList := by
  rw [offered, call, List.filterMap_append]
  cases h : request.stage.offers? <;> simp [h, offered]

theorem mem_offered : task ∈ p.offered ↔
    ∃ (i : Nat) (s : ClientStage), p.clients[i]? = some s ∧ s.offers? = some task := by
  rw [offered, List.mem_filterMap]
  constructor
  · rintro ⟨s, hs, htask⟩
    obtain ⟨i, hi⟩ := List.mem_iff_getElem?.1 hs
    exact ⟨i, s, hi, htask⟩
  · rintro ⟨i, s, hi, htask⟩
    exact ⟨s, List.mem_of_getElem? hi, htask⟩

/-! ## Where a submission has to wait -/

/-- Nobody waits for the latch and nobody holds it alone, unless somebody shuts the pool down. -/
theorem Run.unlocked (h : Run config ms p) (hno : .shutdown ∉ requests ms) :
    p.latch.waiting = [] ∧ p.latch.writing = false := by
  induction h with
  | start h =>
    rw [(start_eq h).2]
    exact ⟨rfl, rfl⟩
  | @move ms p m p' hr hm ih =>
    have hno' : .shutdown ∉ requests ms := fun hmem =>
      hno (requests_snoc ms m ▸ List.mem_append_left _ hmem)
    obtain ⟨hwaiting, hwriting⟩ := ih hno'
    have nobody {j : Nat} {s : ClientStage} (hs : p.clients[j]? = some s)
        (hserves : ∀ task, ¬s.Serves (.submit task)) : False :=
      hno' (List.mem_of_getElem? (hr.shutdown_of_client hs hserves))
    cases step_of_move? hm with
    | client _ hs hc =>
      cases hc with
      | takeRead hl =>
        unfold Latch.take? at hl
        split at hl
        · simp only [Latch.hold?, hwriting] at hl
          cases hl
          exact ⟨hwaiting, rfl⟩
        · cases hl
      | refuse | enqueue | findNobody =>
        change (p.latch.release .read).waiting = [] ∧ (p.latch.release .read).writing = false
        rw [Latch.release, hwaiting]
        exact ⟨rfl, hwriting⟩
      | abandonRead =>
        change (p.latch.leave _).waiting = [] ∧ (p.latch.leave _).writing = false
        unfold Latch.leave
        split
        · rw [Latch.release, Latch.notice, hwaiting]
          exact ⟨rfl, hwriting⟩
        · rw [hwaiting]
          exact ⟨rfl, hwriting⟩
      | takeWrite | waitWrite | noticeWrite | raise | findRaised =>
        exact (nobody hs fun _ => id).elim
      | waitRead hl => simp [Latch.take?, Latch.hold?, hwaiting, hwriting] at hl
      | _ => exact ⟨hwaiting, hwriting⟩
    | worker _ hw =>
      rw [setWorker, hw.latch_eq]
      exact ⟨hwaiting, hwriting⟩
    | call | detach | deafen => exact ⟨hwaiting, hwriting⟩

/-- Submissions wait for permits only. -/
theorem Run.not_awaitingRead (h : Run config ms p) (hno : .shutdown ∉ requests ms) (i : Nat)
    (task : Task) : p.clients[i]? ≠ some (.awaitingRead task) := by
  induction h with
  | start h =>
    rw [(start_eq h).2]
    rintro ⟨⟩
  | @move ms p m p' hr hm ih =>
    have hno' : .shutdown ∉ requests ms := fun hmem =>
      hno (requests_snoc ms m ▸ List.mem_append_left _ hmem)
    intro hi
    rcases (step_of_move? hm).client_cases hi with
      ⟨s, hs, hsame⟩ | ⟨s, q, -, hc, -⟩ | ⟨request, -, -, -, hstage⟩
    · rcases hsame with rfl | hsame
      · exact ih hno' hs
      · cases s <;> cases hsame
        exact ih hno' hs
    · cases hc with
      | waitRead hl =>
        obtain ⟨hwaiting, hwriting⟩ := hr.unlocked hno'
        simp [Latch.take?, Latch.hold?, hwaiting, hwriting] at hl
    · cases request <;> cases hstage

end Pool

end FaultDrill
