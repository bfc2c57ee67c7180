import FaultDrill.Proofs.Pool.Rank

/-! # The flag

The flag orders the calls of a pool. One shutdown raises it and every other one finds it up, and a
submission is accepted while it is down or not at all. So no task comes behind a sentinel, and
there are as many sentinels as workers.
-/

namespace FaultDrill.ClientStage

/-- A shutdown that has raised the flag and has not failed. -/
def IsFirst : ClientStage → Prop
  | stopping _ _ | draining | listening _ | asleep _ | joining _ | closing => True
  | returned reply => reply = .ok ()
  | _ => False

/-- A shutdown that has not looked at the flag yet or has found it up. -/
def IsLate (name : String) : ClientStage → Prop
  | leaving | awaitingWrite | exclusive => True
  | returned reply => reply = .error (.poolAlreadyShutDown name)
  | _ => False

end FaultDrill.ClientStage

namespace FaultDrill.Pool

variable {config : PoolConfig} {name : String} {p p' p₀ q : Pool} {i j : Nat}
  {s s' : ClientStage} {m : Move} {ms later : List Move} {task : Task}
  {reply : Except DrillError Unit} {E : Pool → Move → Pool → Prop}

/-! ## What happens in a sequence of moves -/

/-- This happens in one of the moves. -/
def Happens (E : Pool → Move → Pool → Prop) : Pool → List Move → Prop
  | _, [] => False
  | p, m :: ms => ∃ p', p.move? m = some p' ∧ (E p m p' ∨ Happens E p' ms)

/-- Call `i` raises the flag. -/
def Raises (i : Nat) (p : Pool) (m : Move) (p' : Pool) : Prop :=
  m = .client i ∧ p.shutDown = false ∧ p'.shutDown = true

/-- Call `i` puts its task into the queue while the flag is down. -/
def Queues (i : Nat) (task : Task) (p : Pool) (m : Move) (p' : Pool) : Prop :=
  m = .client i ∧ p.shutDown = false ∧ p'.queue = p.queue ++ [.run task]

theorem happens_append (h : p.moves? ms = some q) :
    Happens E p (ms ++ later) ↔ Happens E p ms ∨ Happens E q later := by
  induction ms generalizing p with
  | nil =>
    cases h
    simp [Happens]
  | cons m ms ih =>
    obtain ⟨p', hm, h⟩ := moves?_cons.1 h
    simp [Happens, hm, ih h, or_assoc]

theorem happens_snoc (h : p.moves? ms = some q) (hm : q.move? m = some p') :
    Happens E p (ms ++ [m]) ↔ Happens E p ms ∨ E q m p' := by
  simp [happens_append h, Happens, hm]

/-- What happens only while the flag is down does not happen once it is up. -/
theorem not_happens (hE : ∀ q m q', E q m q' → q.shutDown = false) (hf : p.shutDown = true) :
    ¬Happens E p ms := by
  induction ms generalizing p with
  | nil => exact id
  | cons m ms ih =>
    rintro ⟨p', hm, hevent | hlater⟩
    · rw [hE _ _ _ hevent] at hf
      cases hf
    · exact ih ((step_of_move? hm).shutDown_mono hf) hlater

theorem shutDown_of_moves? (h : p.moves? ms = some p') (hf : p.shutDown = true) :
    p'.shutDown = true := by
  induction ms generalizing p with
  | nil =>
    cases h
    exact hf
  | cons m ms ih =>
    obtain ⟨q, hm, h⟩ := moves?_cons.1 h
    exact ih h ((step_of_move? hm).shutDown_mono hf)

theorem not_raises (hf : p.shutDown = true) : ¬Happens (Raises i) p ms :=
  not_happens (fun _ _ _ h => h.2.1) hf

theorem not_queues (hf : p.shutDown = true) : ¬Happens (Queues i task) p ms :=
  not_happens (fun _ _ _ h => h.2.1) hf

theorem shutDown_of_raises (h : p.moves? ms = some p') (hi : Happens (Raises i) p ms) :
    p'.shutDown = true := by
  induction ms generalizing p with
  | nil => cases hi
  | cons m ms ih =>
    obtain ⟨q, hm, h⟩ := moves?_cons.1 h
    obtain ⟨q', hm', hi⟩ := hi
    rw [hm] at hm'
    cases hm'
    rcases hi with ⟨-, -, hf⟩ | hi
    · exact shutDown_of_moves? h hf
    · exact ih h hi

/-- The flag is raised once. -/
theorem raises_unique (hi : Happens (Raises i) p ms) (hj : Happens (Raises j) p ms) : i = j := by
  induction ms generalizing p with
  | nil => cases hi
  | cons m ms ih =>
    obtain ⟨p', hm, hi⟩ := hi
    obtain ⟨p'', hm', hj⟩ := hj
    rw [hm] at hm'
    cases hm'
    rcases hi with ⟨rfl, -, hf⟩ | hi <;> rcases hj with ⟨hj, -, hf'⟩ | hj
    · cases hj
      rfl
    · exact absurd hj (not_raises hf)
    · exact absurd hi (not_raises hf')
    · exact ih hi hj

theorem lt_of_raises (h : p.moves? ms = some p') (hi : Happens (Raises i) p ms) :
    i < p'.clients.length := by
  induction ms using List.reverseRecOn generalizing p' with
  | nil => cases hi
  | append_singleton ms m ih =>
    obtain ⟨q, hq, hm⟩ := moves?_snoc.1 h
    rw [(step_of_move? hm).clients_length]
    refine Nat.lt_add_right _ ?_
    rcases (happens_snoc hq hm).1 hi with hi | ⟨rfl, -, -⟩
    · exact ih hq hi
    · obtain ⟨s, -, -, hs, -, -⟩ := clientStep_of_move? hm
      exact (List.getElem?_eq_some_iff.1 hs).1

/-! ## The calls -/

theorem Run.client_of_request {request : Request} (h : Run config ms p)
    (hi : (requests ms)[i]? = some request) : ∃ s, p.clients[i]? = some s :=
  ⟨_, List.getElem?_eq_getElem (h.serves.1 ▸ (List.getElem?_eq_some_iff.1 hi).1)⟩

theorem dropped_of_abandon (h : p.move? (.abandon i) = some p') :
    p'.clients[i]? = some .dropped := by
  simp only [move?, abandon?, Option.bind_eq_bind, Option.bind_eq_some_iff] at h
  obtain ⟨s, hs, h⟩ := h
  have hlt := (List.getElem?_eq_some_iff.1 hs).1
  split at h <;> cases h
  · exact List.getElem?_set_self hlt
  · exact List.getElem?_set_self hlt

/-- If the flag is up, a call has raised it. -/
theorem raised_of_shutDown (hstart : Pool.start name config = .ok p₀)
    (hrun : p₀.moves? ms = some p) (hf : p.shutDown = true) :
    ∃ i, Happens (Raises i) p₀ ms := by
  induction ms using List.reverseRecOn generalizing p with
  | nil =>
    cases hrun
    rw [(start_eq hstart).2] at hf
    cases hf
  | append_singleton ms m ih =>
    obtain ⟨q, hq, hm⟩ := moves?_snoc.1 hrun
    simp only [happens_snoc hq hm]
    cases hq' : q.shutDown with
    | true =>
      obtain ⟨i, hi⟩ := ih hq hq'
      exact ⟨i, .inl hi⟩
    | false =>
      cases step_of_move? hm with
      | @client i s s' q' _ hm' hs hc =>
        rcases hm' with ⟨rfl, -⟩ | rfl
        · exact ⟨i, .inr ⟨rfl, hq', hf⟩⟩
        · have hdropped := (hc.stage_eq hs).symm.trans (dropped_of_abandon hm)
          obtain rfl : s' = .dropped := Option.some.inj hdropped
          have hf : q'.shutDown = true := hf
          cases hc with
          | abandonPermit | abandonRead =>
            rw [show q.shutDown = true from hf] at hq'
            cases hq'
      | worker _ hw =>
        rw [← hw.shutDown_eq] at hq'
        exact absurd hf (by simpa [setWorker] using hq')
      | _ =>
        rw [show q.shutDown = true from hf] at hq'
        cases hq'

/-- A submission is accepted by queueing its task while the flag is down. -/
theorem submit_returned (hstart : Pool.start name config = .ok p₀) (hrun : p₀.moves? ms = some p)
    (hi : Submits ms i task) (hr : p.reply? i = some reply) :
    (reply = .ok () ∧ Happens (Queues i task) p₀ ms) ∨ reply = .error (.poolShutDown name) := by
  rw [reply?_eq_some_iff] at hr
  induction ms using List.reverseRecOn generalizing p with
  | nil =>
    cases hrun
    rw [(start_eq hstart).2] at hr
    cases hr
  | append_singleton ms m ih =>
    obtain ⟨q, hq, hm⟩ := moves?_snoc.1 hrun
    have h := Run.of_moves? hstart hq
    have hname : q.refusal = .error (.poolShutDown name) := by
      rw [refusal, name_eq_of_moves? hq, (start_eq hstart).2]
    rcases (step_of_move? hm).client_cases hr with
      ⟨s, hs, hs'⟩ | ⟨s, q', hs, hc, rfl, hm'⟩ | ⟨request, -, -, -, hs'⟩
    · have hs : q.clients[i]? = some (.returned reply) := by
        rcases hs' with rfl | hs'
        · exact hs
        · cases s <;> cases hs'
          exact hs
      refine (ih hq (h.submits_of_snoc hs hi) hs).imp_left fun ⟨hok, hqueues⟩ => ⟨hok, ?_⟩
      exact (happens_snoc hq hm).2 (.inl hqueues)
    · have hi := h.submits_of_snoc hs hi
      have hserves := h.serves.2 _ _ _ hs hi
      cases hc with
      | late | findClosed | turnAway | findNobody | giveBack => exact .inr hname
      | @enqueue task' =>
        obtain rfl : task' = task := hserves
        rcases hm' with ⟨rfl, -⟩ | rfl
        · have hf : q.shutDown = false := by
            by_contra hf
            exact h.not_counted (by simpa using hf) _ _ hs
          exact .inl ⟨rfl, (happens_snoc hq hm).2 (.inr ⟨rfl, hf, rfl⟩)⟩
        · rw [dropped_of_abandon hm] at hr
          cases hr
      | findRaised | findLost | close => cases hserves
    · cases request <;> cases hs'

/-- A submission that is not in the queue when the flag is up is refused, and has its answer in the
end unless somebody abandons it. -/
theorem submit_refused (hstart : Pool.start name config = .ok p₀)
    (hrun : p₀.moves? (ms ++ later) = some p) (hn : p.NoneLost) (hi : Submits (ms ++ later) i task)
    (hq : p₀.moves? ms = some q) (hf : q.shutDown = true) (hno : ¬Happens (Queues i task) p₀ ms) :
    (∀ reply, p.reply? i = some reply → reply = .error (.poolShutDown name)) ∧
      (p.Quiet → p.reply? i = some (.error (.poolShutDown name)) ∨ .abandon i ∈ ms ++ later) := by
  have h := Run.of_moves? hstart hrun
  have hnever : ¬Happens (Queues i task) p₀ (ms ++ later) := by
    rw [happens_append hq]
    exact not_or.2 ⟨hno, not_queues hf⟩
  have hrefused (reply : Except DrillError Unit) (hr : p.reply? i = some reply) :
      reply = .error (.poolShutDown name) :=
    (submit_returned hstart hrun hi hr).resolve_left fun hok => hnever hok.2
  refine ⟨hrefused, fun hquiet => ?_⟩
  obtain ⟨s, hs⟩ := h.client_of_request hi
  have hover := hquiet.isOver h hn hs
  cases s with
  | returned reply =>
    have hr := reply?_eq_some_iff.2 hs
    exact .inl (hrefused reply hr ▸ hr)
  | dropped => exact .inr (h.dropped hs)
  | _ => cases hover

/-- One step of a shutdown that has raised the flag or has not. -/
theorem ClientStep.raises (hc : ClientStep p i s s' q) (hs : s.Serves .shutdown)
    (hn : p.NoneLost) :
    (s.IsFirst → s'.IsFirst) ∧ (s.IsLate p.name →
      (p.shutDown = false ∧ q.shutDown = true) ∧ s'.IsFirst ∨
        q.shutDown = p.shutDown ∧ s'.IsLate p.name) := by
  cases hc with
  | findLost hw => exact absurd hw (hn _)
  | raise hf => exact ⟨False.elim, fun _ => .inl ⟨⟨hf, rfl⟩, trivial⟩⟩
  | findRaised hf => exact ⟨False.elim, fun _ => .inr ⟨hf.symm, rfl⟩⟩
  | takeWrite | waitWrite | noticeWrite => exact ⟨False.elim, fun _ => .inr ⟨rfl, trivial⟩⟩
  | close => exact ⟨fun _ => rfl, False.elim⟩
  | drain | countStop | enqueueStop | loseStop | listen | findIdle | sleep | wake | joinAll
  | join => exact ⟨fun _ => trivial, False.elim⟩
  | _ => cases hs

/-- A shutdown has raised the flag and succeeds, or it is late. -/
theorem shutdown_stage (hstart : Pool.start name config = .ok p₀) (hrun : p₀.moves? ms = some p)
    (hn : p.NoneLost) (hi : (requests ms)[i]? = some .shutdown) (hs : p.clients[i]? = some s) :
    Happens (Raises i) p₀ ms ∧ s.IsFirst ∨ ¬Happens (Raises i) p₀ ms ∧ s.IsLate name := by
  induction ms using List.reverseRecOn generalizing p s with
  | nil =>
    cases hrun
    rw [(start_eq hstart).2] at hs
    cases hs
  | append_singleton ms m ih =>
    obtain ⟨q, hq, hm⟩ := moves?_snoc.1 hrun
    have h := Run.of_moves? hstart hq
    have hstep := step_of_move? hm
    have hkept := hstep.noneLost hn
    have hname : q.name = name := by rw [name_eq_of_moves? hq, (start_eq hstart).2]
    rw [requests_snoc] at hi
    have left {s₀ : ClientStage} (hs₀ : q.clients[i]? = some s₀) :
        (requests ms)[i]? = some .shutdown := getElem?_requests_left hs₀ h.serves.1 hi
    rw [happens_snoc hq hm]
    -- Only a step of the call itself can raise the flag for it.
    by_cases hmi : m = .client i
    · subst hmi
      obtain ⟨s₀, s', q', hs₀, hc, rfl⟩ := clientStep_of_move? hm
      obtain rfl : s' = s := Option.some.inj ((hc.stage_eq hs₀).symm.trans hs)
      obtain ⟨hfirst, hlate⟩ := hc.raises (h.serves.2 _ _ _ hs₀ (left hs₀)) hkept
      rcases ih hq hkept (left hs₀) hs₀ with ⟨hr, hs₀⟩ | ⟨hr, hs₀⟩
      · exact .inl ⟨.inl hr, hfirst hs₀⟩
      · rw [hname] at hlate
        rcases hlate hs₀ with ⟨hflag, hs'⟩ | ⟨hflag, hs'⟩
        · exact .inl ⟨.inr ⟨rfl, hflag⟩, hs'⟩
        · refine .inr ⟨?_, hs'⟩
          rintro (hr' | ⟨-, hdown, hup⟩)
          · exact hr hr'
          · have hup : q'.shutDown = true := hup
            rw [hflag, hdown] at hup
            cases hup
    · have hno : ¬Raises i q m p := fun h => hmi h.1
      rw [or_iff_left hno]
      rcases hstep.client_cases hs with
        ⟨s₀, hs₀, hs'⟩ | ⟨s₀, q', hs₀, hc, -, hm'⟩ | ⟨request, rfl, -, rfl, rfl⟩
      · have hstage := ih hq hkept (left hs₀) hs₀
        rcases hs' with rfl | rfl
        · exact hstage
        · cases s₀ <;> exact hstage
      · rcases hm' with ⟨rfl, -⟩ | rfl
        · exact absurd rfl hmi
        · rw [dropped_of_abandon hm] at hs
          cases hs
          have hserves := h.serves.2 _ _ _ hs₀ (left hs₀)
          cases hc <;> cases hserves
      · rw [h.serves.1, List.getElem?_append_right (Nat.le_refl _), Nat.sub_self] at hi
        obtain rfl : request = .shutdown := Option.some.inj hi
        exact .inr ⟨fun hr => Nat.lt_irrefl _ (lt_of_raises hq hr), trivial⟩

/-- A late shutdown has its answer as soon as no call can go on, whatever the workers still have
to do. -/
theorem late_answered (hstart : Pool.start name config = .ok p₀) (hrun : p₀.moves? ms = some p)
    (hn : p.NoneLost) (hi : (requests ms)[i]? = some .shutdown)
    (hlate : ¬Happens (Raises i) p₀ ms) (hp : p.Paused) :
    p.reply? i = some (.error (.poolAlreadyShutDown name)) := by
  have h := Run.of_moves? hstart hrun
  obtain ⟨s, hs⟩ := h.client_of_request hi
  obtain ⟨hr, -⟩ | ⟨-, hstage⟩ := shutdown_stage hstart hrun hn hi hs
  · exact absurd hr hlate
  · have hwants := hp.wants h hs
    cases hp.halted hs with
    | @returned reply =>
      obtain rfl : reply = .error (.poolAlreadyShutDown name) := hstage
      exact reply?_eq_some_iff.2 hs
    | write => cases hwants
    | _ => cases hstage

/-- A submission that is refused has given back whatever it held. -/
theorem ClientStep.stock_of_error {e : DrillError} {g : Gate}
    (hc : ClientStep p i s (.returned (.error e)) q) (hg : p.gate = some g) :
    ∃ g', q.gate = some g' ∧ g'.stock = g.stock + s.permits := by
  obtain ⟨g', hg', hstock⟩ := hc.stock hg
  have hqueue : q.queue = p.queue := by
    generalize hs' : ClientStage.returned (.error e) = s' at hc
    cases hc with
    | enqueue | enqueueStop => cases hs'
    | _ => rfl
  rw [hqueue] at hstock
  exact ⟨g', hg', Nat.add_right_cancel hstock⟩

/-! ## The sentinels -/

/-- The sentinels that a move puts into the queue. -/
def stopQueued (p p' : Pool) : Nat := if p'.queue = p.queue ++ [.stop] then 1 else 0

/-- The sentinels that are put into the queue in a sequence of moves. -/
def stopsQueued : Pool → List Move → Nat
  | _, [] => 0
  | p, m :: ms => (p.move? m).elim 0 fun p' => stopQueued p p' + stopsQueued p' ms

theorem stopsQueued_snoc (h : p.moves? ms = some q) (hm : q.move? m = some p') :
    stopsQueued p (ms ++ [m]) = stopsQueued p ms + stopQueued q p' := by
  induction ms generalizing p with
  | nil =>
    cases h
    simp [stopsQueued, hm]
  | cons m₀ ms ih =>
    obtain ⟨p₁, hm₀, h⟩ := moves?_cons.1 h
    simp only [List.cons_append, stopsQueued, hm₀, Option.elim_some, ih h]
    omega

theorem stopQueued_same (h : p'.queue = p.queue) : stopQueued p p' = 0 := by simp [stopQueued, h]

theorem stopQueued_add (h : p'.queue = p.queue) (n : Nat) : stopQueued p p' + n = n := by
  rw [stopQueued_same h, Nat.zero_add]

theorem stopQueued_taken {item : QueueItem} (h : p.queue = item :: p'.queue) :
    stopQueued p p' = 0 := by
  refine if_neg fun heq => ?_
  have hlength := congrArg List.length heq
  simp [h] at hlength
  omega

/-- The sentinels that are due once the flag is up. -/
def due (p : Pool) : Nat := if p.shutDown then p.workers.length else 0

theorem due_eq (hf : p'.shutDown = p.shutDown) (hw : p'.workers.length = p.workers.length) :
    p'.due = p.due := by rw [due, due, hf, hw]

theorem hear_stops (s : ClientStage) : s.hear.stops = s.stops := by cases s <;> rfl

/-- Whoever raises the flag has a sentinel to queue for each worker, and queues them one by one;
none is lost unless no worker is left. -/
theorem ClientStep.stops_cases (hc : ClientStep p i s s' q) :
    (p.shutDown = false ∧ q.shutDown = true ∧ stopQueued p q = 0 ∧ s.stops = 0 ∧
        s'.stops = p.workers.length) ∨
      (q.shutDown = p.shutDown ∧ stopQueued p q + s'.stops = s.stops) ∨
        (p.allExited = true ∧ ∃ left, s = .stopping (left + 1) true) := by
  cases hc with
  | raise hf => exact .inl ⟨hf, rfl, stopQueued_same rfl, rfl, rfl⟩
  | findRaised hf => exact .inr (.inl ⟨hf.symm, stopQueued_same rfl⟩)
  | loseStop hall => exact .inr (.inr ⟨hall, _, rfl⟩)
  | @enqueueStop left =>
    refine .inr (.inl ⟨rfl, ?_⟩)
    simp [stopQueued, ClientStage.stops, Nat.add_comm]
  | enqueue => exact .inr (.inl ⟨rfl, if_neg (by simp [releaseLatch])⟩)
  | _ => exact .inr (.inl ⟨rfl, stopQueued_add rfl _⟩)

theorem Run.stopsQueued_step (h : Run config ms p) (hn : p.NoneLost) (hstep : Step p m p') :
    stopQueued p p' + (p'.clients.map ClientStage.stops).sum + p.due =
      (p.clients.map ClientStage.stops).sum + p'.due := by
  have hworkers := hstep.workers_length
  cases hstep with
  | @call request =>
    have hsum : ((p.call request).clients.map ClientStage.stops).sum =
        (p.clients.map ClientStage.stops).sum := by
      cases request <;> simp [Pool.call, Request.stage, ClientStage.stops]
    rw [hsum]
    exact congrArg (· + _) (stopQueued_add rfl _)
  | @client i s s' q _ hm hs hc =>
    have hsum := sum_set (getElem?_map_eq ClientStage.stops hs) s'.stops
    rw [← hc.map_role hear_stops] at hsum
    change stopQueued p q + _ + _ = _ + q.due
    rcases hc.stops_cases with
      ⟨hf, hf', hqueued, hstops, hstops'⟩ | ⟨hf, hqueued⟩ | ⟨hall, left, rfl⟩
    · have hdue : p.due = 0 := by simp [due, hf]
      have hdue' : q.due = p.workers.length := by simp [due, hf', hc.workers_eq]
      omega
    · have hdue : q.due = p.due := due_eq hf (congrArg List.length hc.workers_eq)
      omega
    · exact absurd hall (h.not_allExited hn hs)
  | @worker w v v' q _ hv hw =>
    have hqueued : stopQueued p (q.setWorker w v') = 0 := by
      cases hw with
      | takeTask _ hq | takeStop _ hq => exact stopQueued_taken hq
      | _ => exact stopQueued_same rfl
    have hdue : (q.setWorker w v').due = p.due := due_eq hw.shutDown_eq hworkers
    rw [hw.map_role hear_stops, hqueued, hdue, Nat.zero_add]
  | detach | deafen => exact congrArg (· + _) (stopQueued_add rfl _)

/-- The sentinels that were queued and those that are still to be queued are as many as the workers
once the flag is up. -/
theorem stopsQueued_eq (hstart : Pool.start name config = .ok p₀) (hrun : p₀.moves? ms = some p)
    (hn : p.NoneLost) : stopsQueued p₀ ms + (p.clients.map ClientStage.stops).sum = p.due := by
  induction ms using List.reverseRecOn generalizing p with
  | nil =>
    cases hrun
    simp [(start_eq hstart).2, stopsQueued, due]
  | append_singleton ms m ih =>
    obtain ⟨q, hq, hm⟩ := moves?_snoc.1 hrun
    have h := Run.of_moves? hstart hq
    have hstep := step_of_move? hm
    have hkept := hstep.noneLost hn
    have hbefore := ih hq hkept
    have hstops := h.stopsQueued_step hkept hstep
    rw [stopsQueued_snoc hq hm]
    omega

/-- The call that has raised the flag has queued all sentinels but those that are still ahead of
it. -/
theorem stopsQueued_raised (hstart : Pool.start name config = .ok p₀)
    (hrun : p₀.moves? ms = some p) (hn : p.NoneLost) (hi : Happens (Raises i) p₀ ms)
    (hs : p.clients[i]? = some s) : stopsQueued p₀ ms + s.stops = config.workers.toNat := by
  have h := Run.of_moves? hstart hrun
  have hqueued := stopsQueued_eq hstart hrun hn
  have hsum := sum_set (getElem?_map_eq ClientStage.stops hs) 0
  have hothers : ((p.clients.map ClientStage.stops).set i 0).sum = 0 := by
    -- Whoever else had sentinels to queue would have raised the flag as well.
    rw [show 0 = ClientStage.leaving.stops from rfl, ← List.map_set]
    apply sum_map_eq_zero
    intro j s' hj
    by_cases hij : i = j
    · subst hij
      rw [List.getElem?_set_self (List.getElem?_eq_some_iff.1 hs).1] at hj
      cases hj
      rfl
    · rw [List.getElem?_set_ne hij] at hj
      by_contra hne
      obtain ⟨request, hr, hserves⟩ := h.request_of_client hj
      have hfirst : ¬s'.IsLate name := by
        cases s' <;> first | exact id | exact absurd rfl hne
      cases request with
      | submit => cases s' <;> first | exact hserves | exact hne rfl
      | shutdown =>
        rcases shutdown_stage hstart hrun hn hr hj with ⟨hj, -⟩ | ⟨-, hlate⟩
        · exact hij (raises_unique hi hj)
        · exact hfirst hlate
  rw [due, if_pos (shutDown_of_raises hrun hi), h.workers_length.1] at hqueued
  omega

/-! ## Before and after the flag -/

/-- The calls by themselves take only so many steps, in whatever order, and then call `i` has this
answer. -/
def AnswersAlone (p : Pool) (i : Nat) (reply : Except DrillError Unit) : Prop :=
  ∀ (calls : List Nat) (q : Pool), p.moves? (calls.map .client) = some q →
    calls.length ≤ p.rank ∧ (q.Paused → q.reply? i = some reply)

/-- In the move in which call `i` fails, it gives the gate all permits back that it holds. -/
def GivesBack (p : Pool) (i : Nat) : Prop :=
  ∀ m p' s e g, p.move? m = some p' → p.clients[i]? = some s → s.isOver = false →
    p'.reply? i = some (.error e) → p.gate = some g →
      ∃ g', p'.gate = some g' ∧ g'.stock = g.stock + s.permits

theorem givesBack : p.GivesBack i := by
  intro m p' s e g hm hs hover hr hg
  rcases (step_of_move? hm).client_cases (reply?_eq_some_iff.1 hr) with
    ⟨s₀, hs₀, hs'⟩ | ⟨s₀, q, hs₀, hc, rfl, -⟩ | ⟨request, -, -, -, hs'⟩
  · rw [hs] at hs₀
    cases hs₀
    cases s <;> rcases hs' with hs' | hs' <;> cases hs'
    all_goals cases hover
  · rw [hs] at hs₀
    cases hs₀
    exact hc.stock_of_error hg
  · cases request <;> cases hs'

theorem requests_calls (calls : List Nat) : requests (ms ++ calls.map .client) = requests ms := by
  have hnone : (calls.map Move.client).filterMap Move.request? = [] := by
    simp [List.filterMap_eq_nil_iff, Move.request?]
  rw [requests, List.filterMap_append, hnone, List.append_nil]
  rfl

theorem answersAlone (hstart : Pool.start name config = .ok p₀) (hrun : p₀.moves? ms = some p)
    (fits : ∀ task, .submit task ∈ requests ms → task.operation.Fits)
    (hi : (requests ms)[i]? = some .shutdown) (hlate : ¬Happens (Raises i) p₀ ms)
    (hf : p.shutDown = true) :
    p.AnswersAlone i (.error (.poolAlreadyShutDown name)) := by
  intro calls q hcalls
  have h := Run.of_moves? hstart hrun
  refine ⟨?_, fun hp => ?_⟩
  · exact Nat.le_trans (Nat.le_add_right _ _) (h.calls_length_le (h.noneLost fits) hcalls)
  · have hrun' : p₀.moves? (ms ++ calls.map .client) = some q := (moves?_append hrun).trans hcalls
    have hn : q.NoneLost :=
      (Run.of_moves? hstart hrun').noneLost (by rwa [requests_calls])
    refine late_answered hstart hrun' hn (by rwa [requests_calls]) ?_ hp
    rw [happens_append hrun]
    exact not_or.2 ⟨hlate, not_raises hf⟩

/-- At most one shutdown raises the flag, and only this one succeeds; every other one fails, and no
worker has to do anything for that. A submission is accepted only while the flag is down; one that
is not in the queue by then is refused, and gives its permit back. Therefore the tasks in the queue
come before the sentinels, and the sentinels that were ever queued are none while the flag is down
and as many as the workers once they have all been queued. -/
theorem flag_orders (hstart : Pool.start name config = .ok p₀) (hrun : p₀.moves? ms = some p)
    (fits : ∀ task, .submit task ∈ requests ms → task.operation.Fits) :
    (∀ i j, Happens (Raises i) p₀ ms → Happens (Raises j) p₀ ms → i = j) ∧
    (∀ i, (requests ms)[i]? = some .shutdown →
      (Happens (Raises i) p₀ ms → ∀ reply, p.reply? i = some reply → reply = .ok ()) ∧
      (¬Happens (Raises i) p₀ ms →
        (∀ reply, p.reply? i = some reply → reply = .error (.poolAlreadyShutDown name)) ∧
        (p.shutDown = true → p.AnswersAlone i (.error (.poolAlreadyShutDown name))))) ∧
    (∀ i task, Submits ms i task →
      (p.reply? i = some (.ok ()) → Happens (Queues i task) p₀ ms) ∧
      (∀ before after q, ms = before ++ after → p₀.moves? before = some q → q.shutDown = true →
        ¬Happens (Queues i task) p₀ before →
          (∀ reply, p.reply? i = some reply → reply = .error (.poolShutDown name)) ∧
          (p.Quiet → p.reply? i = some (.error (.poolShutDown name)) ∨ .abandon i ∈ ms)) ∧
      p.GivesBack i) ∧
    (∃ (tasks : List Task) (n : Nat),
      p.queue = tasks.map QueueItem.run ++ List.replicate n QueueItem.stop) ∧
    (p.shutDown = false → stopsQueued p₀ ms = 0) ∧
    (p.shutDown = true → ∃ i s, Happens (Raises i) p₀ ms ∧ p.clients[i]? = some s ∧
      stopsQueued p₀ ms + s.stops = config.workers.toNat) := by
  have h := Run.of_moves? hstart hrun
  have hn := h.noneLost fits
  refine ⟨fun i j => raises_unique, fun i hi => ⟨fun hraises reply hr => ?_, fun hlate =>
    ⟨fun reply hr => ?_, ?_⟩⟩, fun i task hi => ⟨fun hr => ?_, ?_, givesBack⟩, ?_, fun hf => ?_,
    fun hf => ?_⟩
  · rcases shutdown_stage hstart hrun hn hi (reply?_eq_some_iff.1 hr) with ⟨-, hs⟩ | ⟨hno, -⟩
    · exact hs
    · exact absurd hraises hno
  · rcases shutdown_stage hstart hrun hn hi (reply?_eq_some_iff.1 hr) with ⟨hraises, -⟩ | ⟨-, hs⟩
    · exact absurd hraises hlate
    · exact hs
  · exact answersAlone hstart hrun fits hi hlate
  · rcases submit_returned hstart hrun hi hr with ⟨-, hqueues⟩ | herror
    · exact hqueues
    · cases herror
  · rintro before after q rfl hbefore hf hno
    exact submit_refused hstart hrun hn hi hbefore hf hno
  · obtain ⟨tasks, n, hqueue, -⟩ := h.sorted hn
    exact ⟨tasks, n, hqueue⟩
  · have hqueued := stopsQueued_eq hstart hrun hn
    rw [due, if_neg (by simp [hf])] at hqueued
    omega
  · obtain ⟨i, hi⟩ := raised_of_shutDown hstart hrun hf
    have hs := List.getElem?_eq_getElem (lt_of_raises hrun hi)
    exact ⟨i, _, hi, hs, stopsQueued_raised hstart hrun hn hi hs⟩

/-- After the first trial, a shutdown that finds the flag up and a submission that does. -/
def lateTrial : List Move :=
  trial ++ [.call .shutdown, .client 2, .client 2, .call (.submit trialTask), .client 3]

def lateTrialEnd : Pool := { trialEnd with
  clients := [.returned (.ok ()), .returned (.ok ()),
    .returned (.error (.poolAlreadyShutDown "trial")),
    .returned (.error (.poolShutDown "trial"))] }

theorem flag_orders_trial :
    Pool.start "trial" { workers := 1, queueCapacity := 1 } = .ok trialStart ∧
      trialStart.moves? lateTrial = some lateTrialEnd ∧
      (∀ task, .submit task ∈ requests lateTrial → task.operation.Fits) ∧
      Happens (Raises 1) trialStart lateTrial ∧ ¬Happens (Raises 2) trialStart lateTrial ∧
      Happens (Queues 0 trialTask) trialStart lateTrial ∧ stopsQueued trialStart lateTrial = 1 := by
  have hrun : trialStart.moves? lateTrial = some lateTrialEnd := moves?_append moves?_trial
  have hfits : ∀ task, .submit task ∈ requests lateTrial → task.operation.Fits := by
    intro task ht
    rw [show requests lateTrial =
      [.submit trialTask, .shutdown, .shutdown, .submit trialTask] from rfl] at ht
    simp only [List.mem_cons, Request.submit.injEq, reduceCtorEq, false_or, List.not_mem_nil,
      or_false, or_self] at ht
    subst ht
    exact nofun
  obtain ⟨hunique, hshutdowns, hsubmissions, -, -, hup⟩ := flag_orders start_trial hrun hfits
  have hfirst : Happens (Raises 1) trialStart lateTrial := by
    by_contra hno
    cases ((hshutdowns 1 rfl).2 hno).1 _ rfl
  have hsecond : ¬Happens (Raises 2) trialStart lateTrial := fun hraises =>
    absurd (hunique 1 2 hfirst hraises) (by decide)
  obtain ⟨i, s, hi, hs, hstops⟩ := hup rfl
  obtain rfl : 1 = i := hunique 1 i hfirst hi
  cases hs
  exact ⟨start_trial, hrun, hfits, hfirst, hsecond, (hsubmissions 0 trialTask rfl).1 rfl, hstops⟩

end FaultDrill.Pool
