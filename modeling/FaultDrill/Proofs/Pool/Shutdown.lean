import FaultDrill.Proofs.Pool.Latch

/-! # Shutdown

One call raises the flag. It waits until nothing is outstanding and then for the workers to
exit, and once it has found the pool idle nothing becomes outstanding any more.
-/

namespace FaultDrill.ClientStage

/-- The call has raised the flag and is busy with the shutdown. -/
def leads : ClientStage → Option Unit
  | stopping _ _ | draining | listening _ | asleep _ | joining _ | closing => some ()
  | _ => none

/-- The workers, of so many, that the call has seen exit after it had found the pool idle. -/
def seen? (workers : Nat) : ClientStage → Option Nat
  | joining w => some w
  | closing | returned (.ok ()) => some workers
  | _ => none

end FaultDrill.ClientStage

namespace FaultDrill.Pool

variable {config : PoolConfig} {p p' q : Pool} {i w : Nat} {s s' : ClientStage}
  {v v' : WorkerStage} {m : Move} {ms : List Move}

theorem ClientStep.shutDown_mono (h : ClientStep p i s s' q) (hf : p.shutDown = true) :
    q.shutDown = true := by
  cases h with
  | raise | findRaised => rfl
  | _ => exact hf

theorem Step.shutDown_mono (h : Step p m p') (hf : p.shutDown = true) : p'.shutDown = true := by
  cases h with
  | client _ _ hc => exact hc.shutDown_mono hf
  | worker _ hw => exact hw.shutDown_eq.trans hf
  | _ => exact hf

/-! ## The one who shuts the pool down -/

theorem hear_leads (s : ClientStage) : s.hear.leads = s.leads := by cases s <;> rfl

theorem ClientStep.leads_cases (h : ClientStep p i s s' q) :
    s'.leads = s.leads ∨ s'.leads = none ∨ p.shutDown = false ∧ q.shutDown = true := by
  cases h with
  | raise hf => exact .inr (.inr ⟨hf, rfl⟩)
  | findLost | close => exact .inr (.inl rfl)
  | _ => exact .inl rfl

/-- At most one call is busy with the shutdown, and only once the flag is up. -/
theorem Run.leads (h : Run config ms p) (hi : p.role ClientStage.leads i = some ()) :
    p.shutDown = true ∧ ∀ j, p.role ClientStage.leads j = some () → j = i := by
  induction h generalizing i with
  | start h =>
    rw [(start_eq h).2] at hi
    simp [role] at hi
  | @move ms p m p' _ hm ih =>
    have hstep := step_of_move? hm
    cases hstep with
    | @call request =>
      have hr : (p.call request).role ClientStage.leads = p.role ClientStage.leads :=
        role_call (by cases request <;> rfl)
      rw [hr] at hi ⊢
      exact ih hi
    | @client k s s' q _ _ hs hc =>
      have hr := ClientStep.role_eq hs hc hear_leads
      rw [hr] at hi ⊢
      rcases hc.leads_cases with hsame | hnone | ⟨hf, hf'⟩
      · rw [hsame, ← role_eq (r := ClientStage.leads) hs, Function.update_eq_self] at hi ⊢
        exact ⟨hc.shutDown_mono (ih hi).1, (ih hi).2⟩
      · rw [hnone] at hi ⊢
        have old {j : Nat} (hj : Function.update (p.role ClientStage.leads) k none j = some ()) :
            p.role ClientStage.leads j = some () := by
          by_cases hjk : j = k
          · subst hjk; simp at hj
          · rwa [Function.update_of_ne hjk] at hj
        exact ⟨hc.shutDown_mono (ih (old hi)).1, fun j hj => (ih (old hi)).2 j (old hj)⟩
      · have new {j : Nat}
            (hj : Function.update (p.role ClientStage.leads) k s'.leads j = some ()) : j = k := by
          by_contra hjk
          rw [Function.update_of_ne hjk] at hj
          rw [(ih hj).1] at hf
          cases hf
        exact ⟨hf', fun j hj => (new hj).trans (new hi).symm⟩
    | worker hv hw =>
      rw [hw.role_eq hear_leads] at hi ⊢
      exact ⟨hw.shutDown_eq.trans (ih hi).1, (ih hi).2⟩
    | detach | deafen => exact ih hi

/-- The flag is up, nothing is outstanding and nobody is about to queue a sentinel. -/
structure Settled (p : Pool) : Prop where
  flag : p.shutDown = true
  idle : p.outstanding = 0
  queued : ∀ (i left : Nat) isCounted, p.clients[i]? ≠ some (.stopping left isCounted)

/-- A settled pool stays so. -/
theorem Step.settled (h : Step p m p') (hp : p.Settled) : p'.Settled := by
  refine ⟨h.shutDown_mono hp.flag, ?_, ?_⟩
  · cases h with
    | @client i s s' q _ _ hs hc =>
      change q.outstanding = 0
      have hidle := hp.idle
      cases hc with
      | count hf => rw [hp.flag] at hf; cases hf
      | countStop => exact absurd hs (hp.queued _ _ _)
      | findNobody | loseStop =>
        simp only [uncount, releaseLatch, giveBackPermit, hidle]
      | _ => exact hidle
    | @worker w v v' q _ hv hw =>
      change q.outstanding = 0
      have hidle := hp.idle
      cases hw with
      | acknowledge | acknowledgeStop => simp only [hidle]
      | _ => exact hidle
    | _ => exact hp.idle
  · intro i left isCounted hi
    rcases h.client_cases hi with ⟨s, hs, hs'⟩ | ⟨s, q, hs, hc, -⟩ | ⟨request, -, -, -, hs'⟩
    · rcases hs' with rfl | hs'
      · exact hp.queued _ _ _ hs
      · cases s <;> cases hs'
        exact hp.queued _ _ _ hs
    · cases hc with
      | raise hf => rw [hp.flag] at hf; cases hf
      | _ => exact hp.queued _ _ _ hs
    · cases request <;> cases hs'

theorem Run.settled_of_idle (h : Run config ms p) {heard : Bool}
    (hs : p.clients[i]? = some (.listening heard)) (ho : p.outstanding = 0) : p.Settled := by
  obtain ⟨hf, hj⟩ := h.leads (role_eq (r := ClientStage.leads) hs)
  refine ⟨hf, ho, ?_⟩
  intro j left isCounted hstop
  obtain rfl := hj j (role_eq (r := ClientStage.leads) hstop)
  rw [hs] at hstop
  cases hstop

theorem Run.queue_of_settled (h : Run config ms p) (hp : p.Settled) : p.queue = [] := by
  have htotal := h.outstanding_eq
  simp only [hp.idle, total, counting, List.map_const', List.sum_replicate_nat,
    Nat.mul_one] at htotal
  exact List.length_eq_zero_iff.1 (by omega)

/-- What a shutdown that waits for the workers has seen, and still sees. -/
theorem Run.seen (h : Run config ms p) (hi : (requests ms)[i]? = some .shutdown)
    (hs : p.clients[i]? = some s) {n : Nat} (hn : s.seen? p.workers.length = some n) :
    p.Settled ∧ ∀ w < n, p.workers[w]? = some (.exited false) := by
  induction h generalizing i s n with
  | start h => rw [(start_eq h).2] at hs; cases hs
  | @move ms p m p' hr hm ih =>
    have hstep := step_of_move? hm
    rw [hstep.workers_length] at hn
    rw [requests_snoc] at hi
    have left {s₀ : ClientStage} (hs₀ : p.clients[i]? = some s₀) :
        (requests ms)[i]? = some .shutdown := getElem?_requests_left hs₀ hr.serves.1 hi
    suffices h : p.Settled ∧ ∀ w < n, p.workers[w]? = some (.exited false) from
      ⟨hstep.settled h.1, fun w hw => hstep.exited (h.2 w hw)⟩
    rcases hstep.client_cases hs with ⟨s₀, hs₀, hs'⟩ | ⟨s₀, q, hs₀, hc, -⟩ | ⟨request, -, -, -, rfl⟩
    · refine ih (left hs₀) hs₀ ?_
      rcases hs' with rfl | rfl
      · exact hn
      · cases s₀ <;> exact hn
    · cases hc with
      | findIdle ho =>
        cases hn
        exact ⟨hr.settled_of_idle hs₀ ho, by simp⟩
      | @join w hw =>
        cases hn
        obtain ⟨hset, hex⟩ := ih (left hs₀) hs₀ rfl
        refine ⟨hset, ?_⟩
        intro u hu
        rcases Nat.lt_succ_iff_lt_or_eq.1 hu with hu | rfl
        · exact hex u hu
        · exact hw
      | joinAll hlen =>
        cases hn
        obtain ⟨hset, hex⟩ := ih (left hs₀) hs₀ rfl
        exact ⟨hset, fun u hu => hex u (Nat.lt_of_lt_of_le hu hlen)⟩
      | close =>
        cases hn
        exact ih (left hs₀) hs₀ rfl
      | enqueue => exact absurd (hr.serves.2 _ _ _ hs₀ (left hs₀)) id
      | _ => cases hn
    · cases request <;> cases hn

/-- Once a shutdown has succeeded, nothing is outstanding and every worker has exited. -/
theorem Run.settled_of_ok (h : Run config ms p) (hi : (requests ms)[i]? = some .shutdown)
    (hr : p.reply? i = some (.ok ())) :
    p.Settled ∧ ∀ w < p.workers.length, p.workers[w]? = some (.exited false) :=
  h.seen hi (reply?_eq_some_iff.1 hr) rfl

end FaultDrill.Pool
