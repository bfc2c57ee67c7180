import FaultDrill.Proofs.Driver.Supply
import FaultDrill.Proofs.Pool.Accept

/-! # Drivers that perform a list of operations

A driver that stops at the end of what its source gives, or after a number of tasks, submits the
same operations in every run. It does not give up: its pool refuses nothing, so that its run ends
with a report of all of them.
-/

namespace FaultDrill

namespace Source

/-- The source has run dry before the task with this number, counted from zero. -/
def DryAfter (source : Source) (n : Nat) : Prop := ∃ s, source.next (.ofIndex n) = .ok (none, s)

variable {source s s' : Source} {ops ops' : List Operation} {k : Nat}

/-- A source that has given the beginning of a list gives the rest of it. -/
theorem GivesFrom.drop (h : GivesFrom k source ops s) (h' : GivesFrom k source ops' s')
    (hle : ops'.length ≤ ops.length) :
    GivesFrom (k + ops'.length) s' (ops.drop ops'.length) s := by
  induction h' generalizing ops with
  | nil => exact h
  | @cons k source op s₁ rest s' hfirst _ ih =>
    cases h with
    | nil => cases hle
    | @cons _ _ op' s₁' ops _ hfirst' hrest =>
      cases hfirst.symm.trans hfirst'
      have hdrop := ih hrest (Nat.le_of_succ_le_succ hle)
      rwa [Nat.add_right_comm] at hdrop

theorem GivesFrom.prefix_of_le (h : GivesFrom k source ops s) (h' : GivesFrom k source ops' s')
    (hle : ops'.length ≤ ops.length) : ops' <+: ops := by
  induction h' generalizing ops with
  | nil => exact List.nil_prefix
  | cons hfirst _ ih =>
    cases h with
    | nil => cases hle
    | cons hfirst' hrest =>
      cases hfirst.symm.trans hfirst'
      exact List.cons_prefix_cons.2 ⟨rfl, ih hrest (Nat.le_of_succ_le_succ hle)⟩

theorem GivesFrom.next_of_lt (h : GivesFrom k source ops s) (h' : GivesFrom k source ops' s')
    (hlt : ops'.length < ops.length) :
    ∃ op s'', s'.next (.ofIndex (k + ops'.length)) = .ok (some op, s'') := by
  have hdrop := h.drop h' (Nat.le_of_lt hlt)
  rw [List.drop_eq_getElem_cons hlt] at hdrop
  cases hdrop with
  | cons hnext => exact ⟨_, _, hnext⟩

/-- A source that gives nothing after a list has not given more. -/
theorem GivesFrom.length_le_of_end (h : GivesFrom 0 source ops s) (h' : GivesFrom 0 source ops' s')
    (hend : ∀ op s'', s.next (.ofIndex ops.length) ≠ .ok (some op, s'')) :
    ops'.length ≤ ops.length := by
  by_contra hlt
  obtain ⟨op, s'', hnext⟩ := h'.next_of_lt h (Nat.lt_of_not_le hlt)
  rw [Nat.zero_add] at hnext
  exact hend op s'' hnext

theorem GivesFrom.length_le (h : GivesFrom 0 source ops s) (h' : GivesFrom 0 source ops' s')
    (hdry : s.DryAfter ops.length) : ops'.length ≤ ops.length := by
  obtain ⟨_, hdry⟩ := hdry
  refine h.length_le_of_end h' fun op s'' hnext => ?_
  cases hdry.symm.trans hnext

theorem GivesFrom.unique (h : GivesFrom 0 source ops s) (h' : GivesFrom 0 source ops' s')
    (hlength : ops'.length = ops.length) : s' = s := by
  have hdrop := h.drop h' (Nat.le_of_eq hlength)
  rw [hlength, List.drop_length] at hdrop
  cases hdrop
  rfl

end Source

open Source

/-- A driver with this plan performs these operations of the source and no others, whatever happens
around it. -/
inductive DriverPlan.Covers (plan : DriverPlan) (source : Source) (ops : List Operation) : Prop
  | counted {limit : UInt64} {s : Source} : plan.stop = .count limit →
      limit.toNat = ops.length → GivesFrom 0 source ops s → Covers plan source ops
  | dry {s : Source} : plan.stop = .exhausted ∨
        (∃ limit, plan.stop = .count limit ∧ ops.length ≤ limit.toNat) →
      GivesFrom 0 source ops s → s.DryAfter ops.length → Covers plan source ops

namespace Driver

/-- The driver has stopped: it has reached its stop condition or found its source dry. -/
structure Halted (plan : DriverPlan) (source : Source) (d : Driver) (ops : List Operation) : Prop
    where
  submitted : d.submitted.toNat = ops.length
  within : Within plan ops.length
  reason : ∃ s, GivesFrom 0 source ops s ∧
    ((∃ around, plan.stop.reached d.submitted around = true) ∨ s.DryAfter ops.length)

end Driver

/-- The driver submits nothing any more and has not given up. -/
def DriverStage.hasStopped : DriverStage → Bool
  | stopping _ | collecting | sending _ (.ok _) | done (.ok _) => true
  | _ => false

variable {plan : DriverPlan} {source s : Source} {ops done : List Operation}

/-! ## The operations -/

theorem DriverPlan.Covers.gives (h : plan.Covers source ops) : ∃ s, GivesFrom 0 source ops s := by
  cases h with
  | counted _ _ hgives => exact ⟨_, hgives⟩
  | dry _ hgives => exact ⟨_, hgives⟩

theorem DriverPlan.Covers.length_le (h : plan.Covers source ops) (hdone : GivesFrom 0 source done s)
    (hwithin : Driver.Within plan done.length) : done.length ≤ ops.length := by
  cases h with
  | counted hstop hlimit => exact hlimit ▸ hwithin _ hstop
  | dry _ hgives hdry => exact hgives.length_le hdone hdry

/-- A driver that has not reached its stop condition has an answer from its source. -/
theorem DriverPlan.Covers.next (h : plan.Covers source ops) (hdone : GivesFrom 0 source done s)
    {submitted : UInt64} {around : Surroundings} (hsubmitted : submitted.toNat = done.length)
    (hnot : ¬ plan.stop.reached submitted around = true) :
    ∃ answer, s.next (.ofIndex done.length) = .ok answer := by
  have given {rest : Source} (hgives : GivesFrom 0 source ops rest)
      (hlt : done.length < ops.length) : ∃ answer, s.next (.ofIndex done.length) = .ok answer := by
    obtain ⟨op, s', hnext⟩ := hgives.next_of_lt hdone hlt
    rw [Nat.zero_add] at hnext
    exact ⟨_, hnext⟩
  cases h with
  | counted hstop hlimit hgives =>
    refine given hgives ?_
    rw [hstop] at hnot
    have hlt : ¬ _ ≤ submitted := fun hle => hnot (decide_eq_true hle)
    rw [UInt64.le_iff_toNat_le] at hlt
    omega
  | dry _ hgives hdry =>
    rcases Nat.lt_or_eq_of_le (hgives.length_le hdone hdry) with hlt | heq
    · exact given hgives hlt
    · obtain ⟨s', hnext⟩ := hdry
      rw [← heq, ← hgives.unique hdone heq] at hnext
      exact ⟨_, hnext⟩

theorem DriverPlan.Covers.length_eq {d : Driver} (h : plan.Covers source ops)
    (hd : d.Halted plan source done) : done.length = ops.length := by
  obtain ⟨s, hdone, hreason⟩ := hd.reason
  refine Nat.le_antisymm (h.length_le hdone hd.within) ?_
  obtain ⟨rest, hgives⟩ := h.gives
  rcases hreason with ⟨around, hreached⟩ | hdry
  · cases h with
    | counted hstop hlimit =>
      rw [hstop] at hreached
      have hle := UInt64.le_iff_toNat_le.1 (of_decide_eq_true hreached)
      rwa [hd.submitted, hlimit] at hle
    | dry hstop =>
      rcases hstop with hstop | ⟨limit, hstop, hlimit⟩
      · rw [hstop] at hreached
        cases hreached
      · rw [hstop] at hreached
        have hle := UInt64.le_iff_toNat_le.1 (of_decide_eq_true hreached)
        rw [hd.submitted] at hle
        exact Nat.le_trans hlimit hle
  · exact hdone.length_le hgives hdry

namespace Driver

variable {pulled : List (Option Operation)} {d d' : Driver} {p p₀ : Pool}
  {ms : List Pool.Move} {m : Pool.Move} {op : Operation} {around : Surroundings}
  {emission : Emission}

/-! ## Why a driver stops -/

theorem hasStopped_fail (failure : DriverFailure) : (d.fail failure).stage.hasStopped = false := by
  unfold fail
  dsimp only
  split <;> rfl

theorem hasStopped_interlude (plan : DriverPlan) (timer : Nat) :
    (plan.interlude timer).hasStopped = false := by
  rcases interlude_cases plan timer with ⟨wake, h⟩ | h | h <;> rw [h] <;> rfl

/-- A driver that has stopped has performed what its source gave until then. -/
theorem Run.halted (h : Run plan source pulled d) (hs : d.stage.hasStopped = true) :
    ∃ done, Halted plan source d done := by
  induction h with
  | start => cases hs
  | pool m _ _ _ _ ih =>
    obtain ⟨done, hsubmitted, hwithin, hreason⟩ := ih hs
    exact ⟨done, hsubmitted, hwithin, hreason⟩
  | @own pulled d d' emission around hr hd ih =>
    have kept (hstopped : d.stage.hasStopped = true) (hsame : d'.submitted = d.submitted) :
        ∃ done, Halted plan source d' done := by
      obtain ⟨done, hsubmitted, hwithin, hreason⟩ := ih hstopped
      exact ⟨done, by rw [hsame, hsubmitted], hwithin, by rwa [hsame]⟩
    cases turn_of_step? hd with
    | halt hstage _ hreached =>
      obtain ⟨p, ms, ops, hb⟩ := hr.between (by rw [hstage]; rfl)
      rw [hb.plan_eq] at hreached
      exact ⟨ops, hb.submitted, hb.within, d.source, hb.gives, .inl ⟨around, hreached⟩⟩
    | runDry hstage _ _ hnext =>
      obtain ⟨p, ms, ops, hb⟩ := hr.between (by rw [hstage]; rfl)
      rw [hb.nextId] at hnext
      exact ⟨ops, hb.submitted, hb.within, d.source, hb.gives, .inr ⟨_, hnext⟩⟩
    | collect hstage | finish hstage => exact kept (by rw [hstage]; rfl) rfl
    | @send message outcome hstage =>
      cases outcome with
      | ok => exact kept (by rw [hstage]; rfl) rfl
      | error => cases hs
    | startNot | crash | exhaust | refuse => cases (hasStopped_fail _).symm.trans hs
    | accept => cases (hasStopped_interlude _ _).symm.trans hs
    | start | submit | goOn | announce => cases hs

/-! ## Why a driver does not give up -/

theorem Between.not_failed (hb : Between plan source pulled d p ms done)
    (hcovers : plan.Covers source ops) (hstage : d.stage.isBetween = true)
    (h : d.step? around = some (d', emission)) (failure : DriverFailure) :
    d'.stage.outcome? ≠ some (.error failure) := by
  cases hs : d.stage with
  | deciding =>
    simp only [step?, hs, hb.pool_eq, Option.map_some, Option.some.injEq, Prod.mk.injEq] at h
    obtain ⟨rfl, -⟩ := h
    unfold Driver.decide
    split
    case isTrue => rintro ⟨⟩
    case isFalse hreached =>
      rw [hb.plan_eq] at hreached
      obtain ⟨⟨answer, s⟩, hnext⟩ := hcovers.next hb.gives hb.submitted hreached
      rw [← hb.nextId] at hnext
      cases answer <;> simp only [hnext] <;> rintro ⟨⟩
  | pausing wake =>
    simp only [step?, hs] at h
    split at h <;> cases h
    rintro ⟨⟩
  | yielding =>
    simp only [step?, hs] at h
    cases h
    rintro ⟨⟩
  | _ => rw [hs] at hstage; cases hstage

theorem Submitting.unshut (hs : Submitting plan source pulled d p ms done op) :
    .shutdown ∉ Pool.requests ms := by
  rw [hs.requests]
  intro hmem
  obtain ⟨n, hn⟩ := List.mem_iff_getElem?.1 hmem
  rw [getElem?_submits, Option.map_eq_some_iff] at hn
  obtain ⟨_, -, hn⟩ := hn
  cases hn

theorem Submitting.not_failed (hs : Submitting plan source pulled d p ms done op)
    (hcovers : plan.Covers source ops) (hops : ops.length + 1 < UInt64.size)
    (hn : p.NoneLost) (hstage : d.stage = .submitting done.length)
    (h : d.step? around = some (d', emission)) (failure : DriverFailure) :
    d'.stage.outcome? ≠ some (.error failure) := by
  simp only [step?, hstage, hs.pool_eq, Option.bind_eq_bind, Option.bind_some,
    Option.bind_eq_some_iff] at h
  obtain ⟨reply, hr, h⟩ := h
  obtain rfl := hs.run.accepts hn hs.isOpen hs.unshut hr
  cases h
  have hlength : (done ++ [op]).length ≤ ops.length := by
    refine hcovers.length_le hs.gives ?_
    rw [List.length_append, List.length_singleton]
    exact hs.within
  rw [List.length_append, List.length_singleton] at hlength
  have hnext : d.nextId.next = .ok (.ofIndex (done.length + 1)) := by
    rw [hs.nextId]
    exact TaskId.next_ofIndex (by omega)
  simp only [Driver.accepted, hnext]
  split
  · rintro ⟨⟩
  · split <;> rintro ⟨⟩

theorem Stopping.not_failed (hs : Stopping plan source pulled d p ms done) (hn : p.NoneLost)
    (hstage : d.stage = .stopping done.length) (h : d.step? around = some (d', emission))
    (failure : DriverFailure) : d'.stage.outcome? ≠ some (.error failure) := by
  simp only [step?, hstage, hs.pool_eq, Option.bind_eq_bind, Option.bind_some,
    Option.bind_eq_some_iff] at h
  obtain ⟨reply, hr, h⟩ := h
  obtain rfl := hs.run.shuts_down hn (hs.shuts_iff.2 rfl) (fun j => hs.shuts_iff.1) hr
  cases h
  rintro ⟨⟩

/-- A driver that performs a list does not give up unless its pool does not start or loses a
worker. -/
theorem Run.not_failed (h : Run plan source pulled d) (hcovers : plan.Covers source ops)
    (hops : ops.length + 1 < UInt64.size) (hstart : Pool.start plan.stream plan.pool = .ok p₀)
    (hn : d.NoneLost) : ∀ failure, d.stage.outcome? ≠ some (.error failure) := by
  induction h with
  | start => rintro failure ⟨⟩
  | pool m _ hp _ hm ih =>
    refine ih fun q hq => ?_
    obtain rfl := Option.some.inj (hp.symm.trans hq)
    exact (Pool.step_of_move? hm).noneLost (hn _ rfl)
  | @own pulled d d' emission around hr hd ih =>
    have hbefore := (hr.poolStep hd).noneLost hn
    have hfailed := ih hbefore
    cases hr.sound with
    | starting =>
      simp only [step?, Option.some.injEq, Driver.start, hstart] at hd
      cases hd
      rintro failure ⟨⟩
    | between hstage hb => exact hb.not_failed hcovers hstage hd
    | submitting hstage hs =>
      exact hs.not_failed hcovers hops (hbefore _ hs.pool_eq) hstage hd
    | stopping hstage hs => exact hs.not_failed (hbefore _ hs.pool_eq) hstage hd
    | collecting hstage hs _ =>
      simp only [step?, hstage, hs.pool_eq, Option.bind_eq_bind, Option.bind_some] at hd
      split at hd <;> cases hd
      dsimp only
      split <;> rintro failure ⟨⟩
    | reported hstage =>
      intro failure
      rw [outcome?_step hstage hd]
      rintro ⟨⟩
    | failed hstage => exact (hfailed _ hstage).elim

/-- A driver that is done with a list has reported all of it. -/
theorem Run.reports (h : Run plan source pulled d) (hcovers : plan.Covers source ops)
    (hops : ops.length + 1 < UInt64.size) (hstart : Pool.start plan.stream plan.pool = .ok p₀)
    (hn : d.NoneLost) {outcome : Except DriverFailure DriverReport}
    (ho : d.outcome? = some outcome) :
    ∃ report, outcome = .ok report ∧ report.submitted.toNat = ops.length := by
  have hstage := outcome?_eq_some_iff.1 ho
  cases outcome with
  | error failure =>
    exact (h.not_failed hcovers hops hstart hn failure (by rw [hstage]; rfl)).elim
  | ok report =>
    obtain ⟨done, hdone⟩ := h.halted (by rw [hstage]; rfl)
    obtain ⟨p, -, -, rfl⟩ := h.reported (stage_outcome? ho)
    exact ⟨_, rfl, hdone.submitted.trans (hcovers.length_eq hdone)⟩

end Driver

end FaultDrill
