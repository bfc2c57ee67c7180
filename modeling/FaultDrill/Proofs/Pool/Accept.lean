import FaultDrill.Proofs.Pool.Flag

/-! # Calls that succeed

As long as nobody shuts a pool down and no worker is lost, every task is accepted, and if only one
call shuts the pool down that call succeeds. So whoever is alone with a pool is never refused.
-/

namespace FaultDrill.Gate

variable {g g' : Gate} {i : Nat}

theorem closed_take? (h : g.take? = some g') : g'.closed = g.closed := by
  unfold take? at h
  split at h <;> cases h
  rfl

@[simp] theorem closed_giveBack : g.giveBack.closed = g.closed := by
  unfold giveBack
  split <;> rfl

@[simp] theorem closed_leave : (g.leave i).closed = g.closed := by
  unfold leave
  split
  · exact closed_giveBack
  · rfl

end FaultDrill.Gate

namespace FaultDrill.ClientStage

/-- The call was not refused and is not about to be. -/
def IsWelcome : ClientStage → Prop
  | refused => False
  | returned reply => reply = .ok ()
  | _ => True

/-- A shutdown that has not looked at the flag. -/
def IsEarly : ClientStage → Prop
  | leaving | awaitingWrite | exclusive => True
  | _ => False

theorem hear_isWelcome {s : ClientStage} (h : s.IsWelcome) : s.hear.IsWelcome := by
  cases s <;> exact h

end FaultDrill.ClientStage

namespace FaultDrill.Pool

variable {config : PoolConfig} {p p' q : Pool} {i w : Nat} {s s' : ClientStage}
  {v v' : WorkerStage} {m : Move} {ms : List Move} {reply : Except DrillError Unit}

/-- Permits are handed out, if there are any. -/
def IsAjar (p : Pool) : Prop := ∀ g, p.gate = some g → g.closed = false

theorem IsAjar.map {f : Gate → Gate} (hp : p.IsAjar) (hq : q.gate = p.gate.map f)
    (hf : ∀ g : Gate, (f g).closed = g.closed) : q.IsAjar := by
  intro g hg
  rw [hq, Option.map_eq_some_iff] at hg
  obtain ⟨g, hg, rfl⟩ := hg
  exact (hf g).trans (hp g hg)

theorem IsAjar.put {g : Gate} (hp : p.IsAjar) (hg : p.gate = some g) {g' : Gate}
    (hq : q.gate = some g') (hclosed : g'.closed = g.closed) : q.IsAjar := by
  intro _ hg'
  obtain rfl := Option.some.inj (hq.symm.trans hg')
  exact hclosed.trans (hp g hg)

theorem ClientStep.isAjar (h : ClientStep p i s s' q) (hs : s ≠ .closing) (hp : p.IsAjar) :
    q.IsAjar := by
  cases h with
  | takePermit hg ht => exact hp.put hg rfl (Gate.closed_take? ht)
  | waitPermit hg => exact hp.put hg rfl rfl
  | turnAway hg => exact hp.put hg rfl Gate.closed_leave
  | noticePermit hg => exact hp.put hg rfl rfl
  | findNobody | giveBack | abandonRead => exact hp.map rfl fun _ => Gate.closed_giveBack
  | abandonPermit => exact hp.map rfl fun _ => Gate.closed_leave
  | close => exact absurd rfl hs
  | _ => exact hp

theorem WorkerStep.isAjar (h : WorkerStep p w m v v' q) (hp : p.IsAjar) : q.IsAjar := by
  cases h with
  | crash | giveBack => exact hp.map rfl fun _ => Gate.closed_giveBack
  | _ => exact hp

/-- The flag is raised by a call that is alone inside, and that goes on by doing so. -/
theorem Step.shutDown_cases (h : Step p m p') : p'.shutDown = p.shutDown ∨
    ∃ i : Nat, p.clients[i]? = some .exclusive ∧ p'.clients[i]? ≠ some .exclusive := by
  cases h with
  | client _ hs hc =>
    have hmoved := hc.stage_eq hs
    cases hc with
    | raise | findRaised => exact .inr ⟨_, hs, by rw [hmoved]; exact nofun⟩
    | _ => exact .inl rfl
  | worker _ hw => exact .inl hw.shutDown_eq
  | _ => exact .inl rfl

theorem Run.shutdown_of_client (h : Run config ms p) (hs : p.clients[i]? = some s)
    (hno : ∀ task, ¬ s.Serves (.submit task)) : (requests ms)[i]? = some .shutdown := by
  obtain ⟨request, hr, hserves⟩ := h.request_of_client hs
  cases request with
  | submit task => exact (hno task hserves).elim
  | shutdown => exact hr

/-! ## Tasks -/

theorem Run.unshut (h : Run config ms p) (hno : .shutdown ∉ requests ms) :
    p.shutDown = false ∧ p.IsAjar := by
  induction h with
  | start h =>
    rw [(start_eq h).2]
    refine ⟨rfl, fun g hg => ?_⟩
    dsimp only at hg
    split at hg <;> cases hg
    rfl
  | @move ms p m p' hr hm ih =>
    have hno' : .shutdown ∉ requests ms := fun hmem =>
      hno (requests_snoc ms m ▸ List.mem_append_left _ hmem)
    have nobody {j : Nat} {s : ClientStage} (hs : p.clients[j]? = some s)
        (hserves : ∀ task, ¬ s.Serves (.submit task)) : False :=
      hno' (List.mem_of_getElem? (hr.shutdown_of_client hs hserves))
    obtain ⟨hf, hajar⟩ := ih hno'
    have hstep := step_of_move? hm
    refine ⟨?_, ?_⟩
    · rcases hstep.shutDown_cases with hsame | ⟨j, hj, -⟩
      · exact hsame.trans hf
      · exact (nobody hj fun _ => id).elim
    · cases hstep with
      | client _ hs hc =>
        refine hc.isAjar ?_ hajar
        rintro rfl
        exact nobody hs fun _ => id
      | worker _ hw => exact hw.isAjar hajar
      | _ => exact hajar

/-- While sentinels are out of question, workers stay. -/
theorem Run.someone_stays (h : Run config ms p) (hn : p.NoneLost) (hopen : p.isOpen = true)
    (hf : p.shutDown = false) : p.allExited = false := by
  by_contra hall
  have hsum := sum_stops_eq (by simpa using hall) hn
  have htotal := h.staffed hn (.inl hopen)
  obtain ⟨hlength, hpos⟩ := h.workers_length
  rw [hf, if_neg Bool.false_ne_true, total] at htotal
  have hworkers : (p.workers.map stops.worker).sum = p.workers.length := hsum
  omega

theorem Step.isOpen (h : Step p m p') (hopen : p'.isOpen = true) : p.isOpen = true := by
  cases h with
  | client _ _ hc => exact hc.isOpen_eq ▸ hopen
  | worker _ hw => exact hw.isOpen_eq ▸ hopen
  | detach => cases hopen
  | call | deafen => exact hopen

theorem Run.welcome (h : Run config ms p) (hn : p.NoneLost) (hopen : p.isOpen = true)
    (hno : .shutdown ∉ requests ms) (hs : p.clients[i]? = some s) : s.IsWelcome := by
  induction h generalizing s with
  | start h =>
    rw [(start_eq h).2] at hs
    cases hs
  | @move ms p m p' hr hm ih =>
    have hstep := step_of_move? hm
    have hno' : .shutdown ∉ requests ms := fun hmem =>
      hno (requests_snoc ms m ▸ List.mem_append_left _ hmem)
    have hn' := hstep.noneLost hn
    have hopen' := hstep.isOpen hopen
    obtain ⟨hf, hajar⟩ := hr.unshut hno'
    rcases hstep.client_cases hs with
      ⟨s₀, hs₀, rfl | rfl⟩ | ⟨s₀, q, hs₀, hc, -⟩ | ⟨request, -, -, -, rfl⟩
    · exact ih hn' hopen' hno' hs₀
    · exact ClientStage.hear_isWelcome (ih hn' hopen' hno' hs₀)
    · cases hc with
      | late hf' | refuse hf' | findRaised hf' => rw [hf] at hf'; cases hf'
      | findClosed hg hclosed | turnAway hg hclosed => rw [hajar _ hg] at hclosed; cases hclosed
      | findNobody hall => rw [hr.someone_stays hn' hopen' hf] at hall; cases hall
      | giveBack => exact (ih hn' hopen' hno' hs₀).elim
      | findLost hw => exact (hn' _ hw).elim
      | enqueue | close => exact rfl
      | _ => trivial
    · cases request <;> trivial

/-- A pool that nobody shuts down refuses no task. -/
theorem Run.accepts (h : Run config ms p) (hn : p.NoneLost) (hopen : p.isOpen = true)
    (hno : .shutdown ∉ requests ms) (hr : p.reply? i = some reply) : reply = .ok () :=
  h.welcome hn hopen hno (reply?_eq_some_iff.1 hr)

/-! ## The shutdown -/

/-- The only shutdown finds the flag down. -/
theorem Run.early_or_first (h : Run config ms p) (hn : p.NoneLost)
    (hi : (requests ms)[i]? = some .shutdown)
    (honly : ∀ j, (requests ms)[j]? = some .shutdown → j = i) (hs : p.clients[i]? = some s) :
    s.IsEarly ∧ p.shutDown = false ∨ s.IsFirst := by
  induction h generalizing s with
  | start h =>
    rw [(start_eq h).2] at hs
    cases hs
  | @move ms p m p' hr hm ih =>
    have hstep := step_of_move? hm
    have hn' := hstep.noneLost hn
    rw [requests_snoc] at hi
    have honly' (j : Nat) (hj : (requests ms)[j]? = some .shutdown) : j = i := by
      refine honly j ?_
      rw [requests_snoc, List.getElem?_append_left (List.getElem?_eq_some_iff.1 hj).1, hj]
    have left {s₀ : ClientStage} (hs₀ : p.clients[i]? = some s₀) :
        (requests ms)[i]? = some .shutdown := getElem?_requests_left hs₀ hr.serves.1 hi
    rcases hstep.client_cases hs with
      ⟨s₀, hs₀, hsame⟩ | ⟨s₀, q, hs₀, hc, rfl, -⟩ | ⟨request, rfl, -, rfl, rfl⟩
    · have hstage : s₀.IsEarly ∧ p'.shutDown = false ∨ s₀.IsFirst := by
        refine (ih hn' (left hs₀) honly' hs₀).imp_left fun ⟨hearly, hf⟩ => ⟨hearly, ?_⟩
        -- Whoever raises the flag is this call, and it has not moved.
        rcases hstep.shutDown_cases with hflag | ⟨j, hj, hmoved⟩
        · exact hflag.trans hf
        · obtain rfl := honly' j (hr.shutdown_of_client hj fun _ => id)
          obtain rfl := Option.some.inj (hj.symm.trans hs₀)
          rcases hsame with rfl | rfl <;> exact (hmoved hs).elim
      rcases hsame with rfl | rfl
      · exact hstage
      · cases s₀ <;> exact hstage
    · rcases ih hn' (left hs₀) honly' hs₀ with ⟨hearly, hf⟩ | hfirst
      · cases hc with
        | findRaised hf' => rw [hf] at hf'; cases hf'
        | raise => exact .inr trivial
        | takeWrite | waitWrite | noticeWrite => exact .inl ⟨trivial, hf⟩
        | _ => cases hearly
      · exact .inr ((hc.raises (hr.serves.2 _ _ _ hs₀ (left hs₀)) hn').1 hfirst)
    · rw [hr.serves.1, List.getElem?_append_right (Nat.le_refl _), Nat.sub_self] at hi
      obtain rfl : request = .shutdown := Option.some.inj hi
      have hno : .shutdown ∉ requests ms := by
        intro hmem
        obtain ⟨j, hj⟩ := List.mem_iff_getElem?.1 hmem
        have hlt := (List.getElem?_eq_some_iff.1 hj).1
        rw [honly' j hj, hr.serves.1] at hlt
        exact Nat.lt_irrefl _ hlt
      refine .inl ⟨trivial, ?_⟩
      rcases hstep.shutDown_cases with hflag | ⟨j, hj, -⟩
      · exact hflag.trans (hr.unshut hno).1
      · exact (hno (List.mem_of_getElem? (hr.shutdown_of_client hj fun _ => id))).elim

/-- The only shutdown of a pool succeeds. -/
theorem Run.shuts_down (h : Run config ms p) (hn : p.NoneLost)
    (hi : (requests ms)[i]? = some .shutdown)
    (honly : ∀ j, (requests ms)[j]? = some .shutdown → j = i) (hr : p.reply? i = some reply) :
    reply = .ok () := by
  rcases h.early_or_first hn hi honly (reply?_eq_some_iff.1 hr) with ⟨hearly, -⟩ | hfirst
  · cases hearly
  · exact hfirst

end FaultDrill.Pool
