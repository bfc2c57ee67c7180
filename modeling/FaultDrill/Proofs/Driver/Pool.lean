import FaultDrill.Proofs.Driver.Exact

/-! # A driver and its pool

A driver starts one pool and calls it, and lets go of it when it gives up. By then the pool
has answered all of its calls, so that each step of a driver is at most one move of its pool.
-/

namespace FaultDrill

namespace Pool

variable {p : Pool}

/-- A pool that has answered every call may be let go. -/
theorem move?_detach (h : ∀ i < p.clients.length, ∃ reply, p.reply? i = some reply) :
    p.move? .detach = some p.detach := by
  have hover : p.clients.all ClientStage.isOver = true := by
    rw [List.all_eq_true]
    intro s hs
    obtain ⟨i, hi⟩ := List.mem_iff_getElem?.1 hs
    obtain ⟨reply, hr⟩ := h i (List.getElem?_eq_some_iff.1 hi).1
    rw [reply?_eq_some_iff, hi, Option.some.injEq] at hr
    rw [hr]
    rfl
  exact if_pos hover

end Pool

namespace Driver

/-- What a step of a driver does to its pool. -/
inductive PoolStep (plan : DriverPlan) : Option Pool → Option Pool → Prop
  | keep {pool} : PoolStep plan pool pool
  | start {p} : Pool.start plan.stream plan.pool = .ok p → PoolStep plan none (some p)
  | call {p request p'} : p.move? (.call request) = some p' → PoolStep plan (some p) (some p')
  | letGo {p p'} : p.move? .detach = some p' → PoolStep plan (some p) (some p')

variable {plan : DriverPlan} {source : Source} {pulled : List (Option Operation)}
  {d d' : Driver} {p p' : Pool} {ms : List Pool.Move} {ops : List Operation} {op : Operation}
  {around : Surroundings} {emission : Emission}

theorem PoolStep.of_call (ho : p.isOpen = true) (request : Pool.Request) :
    PoolStep plan (some p) (some (p.call request)) := .call (if_pos ho)

theorem PoolStep.fail (hp : d.pool = some p)
    (h : ∀ i < p.clients.length, ∃ reply, p.reply? i = some reply) (failure : DriverFailure) :
    PoolStep plan d.pool (d.fail failure).pool := by
  rw [Driver.fail, hp]
  exact .letGo (Pool.move?_detach h)

/-- The calls so far are answered once the last of them is. -/
theorem replies_of_answered {n : Nat} {reply : Except DrillError Unit} (h : p.Answered n)
    (hlength : p.clients.length = n + 1) (hr : p.reply? n = some reply) :
    ∀ i < p.clients.length, ∃ reply, p.reply? i = some reply := by
  intro i hi
  rw [hlength] at hi
  rcases Nat.lt_succ_iff_lt_or_eq.1 hi with hi | rfl
  · exact ⟨_, h i hi⟩
  · exact ⟨reply, hr⟩

theorem Submitting.clients_length (hs : Submitting plan source pulled d p ms ops op) :
    p.clients.length = ops.length + 1 := by
  rw [hs.run.serves.1, hs.requests, length_submits, List.length_append, List.length_singleton]

theorem Stopping.clients_length (hs : Stopping plan source pulled d p ms ops) :
    p.clients.length = ops.length + 1 := by
  rw [hs.run.serves.1, hs.requests, List.length_append, length_submits, List.length_singleton]

theorem Between.poolStep (hb : Between plan source pulled d p ms ops)
    (hstage : d.stage.isBetween = true) (h : d.step? around = some (d', emission)) :
    PoolStep plan d.pool d'.pool := by
  cases hs : d.stage with
  | deciding =>
    simp only [step?, hs, hb.pool_eq, Option.map_some, Option.some.injEq, Prod.mk.injEq] at h
    obtain ⟨rfl, -⟩ := h
    unfold Driver.decide
    split
    · rw [hb.pool_eq]
      exact .of_call hb.isOpen _
    · split
      · refine .fail hb.pool_eq (fun i hi => ?_) _
        rw [hb.clients_length] at hi
        exact ⟨_, hb.answered i hi⟩
      · rw [hb.pool_eq]
        exact .of_call hb.isOpen _
      · rw [hb.pool_eq]
        exact .of_call hb.isOpen _
  | pausing wake =>
    simp only [step?, hs] at h
    split at h
    · cases h
      exact .keep
    · cases h
  | yielding =>
    simp only [step?, hs] at h
    cases h
    exact .keep
  | _ => rw [hs] at hstage; cases hstage

theorem Submitting.poolStep (hs : Submitting plan source pulled d p ms ops op)
    (hstage : d.stage = .submitting ops.length) (h : d.step? around = some (d', emission)) :
    PoolStep plan d.pool d'.pool := by
  simp only [step?, hstage, hs.pool_eq, Option.bind_eq_bind, Option.bind_some,
    Option.bind_eq_some_iff] at h
  obtain ⟨reply, hr, h⟩ := h
  have hreplies := replies_of_answered hs.answered hs.clients_length hr
  cases reply with
  | ok =>
    cases h
    unfold Driver.accepted
    dsimp only
    cases d.nextId.next with
    | error crash =>
      exact .fail (d := { d with submitted := d.submitted + 1 }) hs.pool_eq hreplies _
    | ok nextId => exact .keep
  | error e =>
    cases h
    exact .fail hs.pool_eq hreplies _

theorem Stopping.poolStep (hs : Stopping plan source pulled d p ms ops)
    (hstage : d.stage = .stopping ops.length) (h : d.step? around = some (d', emission)) :
    PoolStep plan d.pool d'.pool := by
  simp only [step?, hstage, hs.pool_eq, Option.bind_eq_bind, Option.bind_some,
    Option.bind_eq_some_iff] at h
  obtain ⟨reply, hr, h⟩ := h
  cases reply with
  | ok =>
    cases h
    rw [hs.pool_eq]
    exact .keep
  | error e =>
    cases h
    exact .fail hs.pool_eq (replies_of_answered hs.answered hs.clients_length hr) _

theorem poolStep_start (h : Driver.start { plan, source } = (d', emission)) :
    PoolStep plan none d'.pool := by
  unfold Driver.start at h
  dsimp only at h
  split at h
  case h_1 | h_2 => cases h; exact .keep
  case h_3 p hp => cases h; exact .start hp

/-- A driver that only has to tell how it ended leaves its pool alone. -/
theorem pool_eq_of_outcome? {outcome : Except DriverFailure DriverReport}
    (hstage : d.stage.outcome? = some outcome) (h : d.step? around = some (d', emission)) :
    d'.pool = d.pool := by
  cases hs : d.stage with
  | failing | sending =>
    simp only [step?, hs] at h
    cases h
    rfl
  | done => simp [step?, hs] at h
  | _ => rw [hs] at hstage; cases hstage

/-- A step of a driver starts its pool, makes one move of it, or leaves it alone. -/
theorem Run.poolStep (hr : Run plan source pulled d) (h : d.step? around = some (d', emission)) :
    PoolStep plan d.pool d'.pool := by
  cases hr.sound with
  | starting =>
    simp only [step?, Option.some.injEq] at h
    exact poolStep_start h
  | between hstage hb => exact hb.poolStep hstage h
  | submitting hstage hs => exact hs.poolStep hstage h
  | stopping hstage hs => exact hs.poolStep hstage h
  | collecting hstage hs _ =>
    simp only [step?, hstage, hs.pool_eq, Option.bind_eq_bind, Option.bind_some] at h
    split at h
    case isTrue =>
      cases h
      exact .keep
    case isFalse => cases h
  | reported hstage => rw [pool_eq_of_outcome? hstage h]; exact .keep
  | failed hstage => rw [pool_eq_of_outcome? hstage h]; exact .keep

end Driver

end FaultDrill
