import FaultDrill.Proofs.Driver.Course
import FaultDrill.Proofs.Driver.Turn
import FaultDrill.Proofs.Pool.Drain
import FaultDrill.Proofs.Pool.Offer

/-! # What a driver takes in

A driver submits what its source gives, one task after the other, and while it submits nobody shuts
its pool down. So whatever the source has given was accepted, except for the task whose submission
is under way.
-/

namespace FaultDrill

open Source

namespace Driver

/-- The tasks whose submissions are under way. -/
def offered (d : Driver) : List Task := (d.pool.map Pool.offered).getD []

variable {P : Surroundings → Prop} {plan : DriverPlan} {source : Source}
  {pulled : List (Option Operation)} {told : List Incident} {d d' : Driver} {p p' : Pool}
  {m : Pool.Move} {around : Surroundings} {emission : Emission} {failure : DriverFailure}
  {client : Nat} {ops : List Operation} {op : Operation} {stream : String}

theorem tasks_snoc : tasks stream (ops ++ [op]) =
    tasks stream ops ++ [⟨.ofIndex ops.length, stream, op⟩] := by
  simp [tasks, List.mapIdx_append]

@[simp] theorem reduceOption_map_some : (ops.map some).reduceOption = ops := by
  simp [List.reduceOption]

theorem offered_of_pool (hp : d.pool = some p) : d.offered = p.offered := by
  rw [offered, hp]
  rfl

@[simp] theorem offered_fail (failure : DriverFailure) : (d.fail failure).offered = d.offered := by
  unfold offered fail
  cases d.pool <;> rfl

theorem offered_callPool (request : Pool.Request) (stage : Nat → DriverStage)
    (hp : d.pool = some p) :
    (d.callPool request stage p).offered = d.offered ++ request.stage.offers?.toList := by
  rw [offered_of_pool hp, offered_of_pool (p := p.call request) rfl, Pool.offered_call]

/-! ## Submissions under way -/

/-- With a step of the driver nothing changes about what is offered, unless it asks the source and
is given an operation. -/
theorem Run.offered_cases (hr : Run plan source pulled d)
    (hd : d.step? around = some (d', emission)) :
    d'.offered = d.offered ∧ (d.pull? around).toList.reduceOption = [] ∨
      ∃ client op, d.stage = .deciding ∧ d'.stage = .submitting client ∧
        d.pull? around = some (some op) ∧
        d'.offered = d.offered ++ [⟨d.nextId, d.plan.stream, op⟩] := by
  have unasked (hs : d.stage ≠ .deciding) : (d.pull? around).toList.reduceOption = [] := by
    rw [pull?_eq_none hs]
    rfl
  cases turn_of_step? hd with
  | @start p hs hstart =>
    refine .inl ⟨?_, unasked (by simp [hs])⟩
    have hclients : p.clients = [] := by rw [(Pool.start_eq hstart).2]
    rw [offered_of_pool (p := p) rfl, Pool.offered, hclients, offered, hr.pool_of_starting hs]
    rfl
  | startNot hs => exact .inl ⟨offered_fail _, unasked (by simp [hs])⟩
  | halt hs hp hreached =>
    exact .inl ⟨(offered_callPool _ _ hp).trans (List.append_nil _),
      by rw [pull?_of_reached hs hp hreached]; rfl⟩
  | crash hs hp hreached hnext =>
    exact .inl ⟨offered_fail _, by rw [pull?_of_next hs hp hreached hnext]; rfl⟩
  | @runDry p s hs hp hreached hnext =>
    exact .inl ⟨(offered_callPool (d := { d with source := s }) _ _ hp).trans (List.append_nil _),
      by rw [pull?_of_next hs hp hreached hnext]; rfl⟩
  | @submit p op s hs hp hreached hnext =>
    exact .inr ⟨_, op, hs, rfl, pull?_of_next hs hp hreached hnext,
      offered_callPool (d := { d with source := s }) _ _ hp⟩
  | accept hs | collect hs | announce hs | send hs | finish hs =>
    exact .inl ⟨rfl, unasked (by simp [hs])⟩
  | exhaust hs =>
    exact .inl ⟨offered_fail (d := { d with submitted := d.submitted + 1 }) _,
      unasked (by simp [hs])⟩
  | refuse hs =>
    exact .inl ⟨offered_fail _, unasked (by rcases hs with hs | hs <;> simp [hs])⟩
  | goOn hs => exact .inl ⟨rfl, unasked (by rcases hs with hs | ⟨_, -, hs⟩ <;> simp [hs])⟩

/-- A driver that goes on after a submission has its answer. -/
theorem Run.offered_of_step (h : Run plan source pulled d) (hs : d.stage = .submitting client)
    (hd : d.step? around = some (d', emission)) : d.offered = [] := by
  simp only [step?, hs, Option.bind_eq_bind, Option.bind_eq_some_iff] at hd
  obtain ⟨p, hp, reply, hr, -⟩ := hd
  obtain ⟨_, ms, ops, op, rfl, hsub⟩ := h.submitting hs
  obtain rfl := Option.some.inj (hp.symm.trans hsub.pool_eq)
  rw [offered_of_pool hp]
  exact Pool.offered_eq_nil_of_replies (replies_of_answered hsub.answered hsub.clients_length hr)

/-- A driver that does not wait for a submission has none under way. -/
theorem Run.offered_eq_nil (h : Run plan source pulled d)
    (hs : ∀ client, d.stage ≠ .submitting client) : d.offered = [] := by
  induction h with
  | start => rfl
  | pool m _ hp hi hm ih =>
    obtain ⟨lost, hperm, -⟩ := Pool.offered_step hi hm
    rw [← offered_of_pool hp, ih hs] at hperm
    have hnil := List.nil_perm.1 hperm
    simp only [List.append_eq_nil_iff] at hnil
    exact hnil.1.2
  | @own pulled d d' emission around hr hd ih =>
    rcases hr.offered_cases hd with ⟨hsame, -⟩ | ⟨client, op, -, hstage, -⟩
    · rw [hsame]
      by_cases hstage : ∃ client, d.stage = .submitting client
      · obtain ⟨client, hstage⟩ := hstage
        exact hr.offered_of_step hstage hd
      · exact ih fun client hclient => hstage ⟨client, hclient⟩
    · exact (hs client hstage).elim

/-- Tasks are submitted one at a time. -/
theorem Run.length_offered_le (h : Run plan source pulled d) : d.offered.length ≤ 1 := by
  induction h with
  | start => exact Nat.zero_le _
  | pool m _ hp hi hm ih =>
    obtain ⟨lost, hperm, -⟩ := Pool.offered_step hi hm
    have hlength := hperm.length_eq
    rw [← offered_of_pool hp] at hlength
    simp only [List.length_append] at hlength
    exact Nat.le_trans (by rw [hlength, offered_of_pool rfl]; omega) ih
  | own around hr hd ih =>
    rcases hr.offered_cases hd with ⟨hsame, -⟩ | ⟨client, op, hstage, -, -, hnew⟩
    · rwa [hsame]
    · rw [hnew, hr.offered_eq_nil (by simp [hstage])]
      exact Nat.le_refl 1

/-! ## What was accepted -/

/-- What the source gave was accepted or is on its way. -/
theorem Course.intake (h : Course P { plan, source } told d) (hn : d.NoneLost) :
    (Incident.tasks .accepted told ++ d.offered).Perm
      (tasks plan.stream (Incident.answers told).reduceOption) := by
  induction h with
  | refl => exact .refl _
  | @own told d d' emission around hcourse _ hd ih =>
    have hr := hcourse.run_of_start
    have hperm := ih ((hr.poolStep hd).noneLost hn)
    rw [Incident.tasks_append, tasks_incident?, List.append_nil, Incident.answers_append,
      answers_incident?, List.reduceOption_append]
    rcases hr.offered_cases hd with ⟨hsame, hnone⟩ | ⟨client, op, hstage, -, hpull, hnew⟩
    · rwa [hsame, hnone, List.append_nil]
    · obtain ⟨p, ms, ops, hb⟩ := hr.between (by rw [hstage]; rfl)
      rw [hnew, hpull, ← List.append_assoc, hb.nextId, hb.plan_eq]
      rw [hb.pulled_eq, reduceOption_map_some] at hperm ⊢
      exact (hperm.append_right _).trans (.of_eq tasks_snoc.symm)
  | @pool told d p p' m hcourse hp hi hm ih =>
    have hr := hcourse.run_of_start
    have hr' := hr.pool m hp hi hm
    have hn' := hn p' rfl
    have hperm := ih fun q hq => by
      obtain rfl := Option.some.inj (hp.symm.trans hq)
      exact (Pool.step_of_move? hm).noneLost hn'
    obtain ⟨lost, hoffered, hlost⟩ := Pool.offered_step hi hm
    have hnone : lost = [] := by
      by_cases hstage : ∃ client, d.stage = .submitting client
      · obtain ⟨client, hstage⟩ := hstage
        refine hlost fun s hs => ?_
        obtain ⟨i, hi⟩ := List.mem_iff_getElem?.1 hs
        obtain ⟨_, ms, ops, op, -, hsub⟩ := hr'.submitting hstage
        cases hsub.pool_eq
        exact hsub.run.welcome hn' hsub.isOpen hsub.unshut hi
      · have hnil := hr.offered_eq_nil fun client hclient => hstage ⟨client, hclient⟩
        rw [← offered_of_pool hp, hnil] at hoffered
        exact (List.append_eq_nil_iff.1 (List.nil_perm.1 hoffered)).2
    rw [hnone, List.append_nil, ← offered_of_pool hp] at hoffered
    rw [Incident.tasks_append, (Pool.tasks_incident? hi hm).1, Incident.answers_append,
      Pool.silent_incident?.1, List.append_nil, List.append_assoc, offered_of_pool rfl]
    exact (hoffered.symm.append_left _).trans hperm

/-- A driver whose stop condition is reached asks for nothing more. What is accepted from then on
was on its way. -/
theorem Course.stopped (h : Course P d told d') (hr : Run plan source pulled d)
    (hP : ∀ around, P around → ∀ n, plan.stop.reached n around = true) :
    (∀ answer, .ask answer ∉ told) ∧
      (Incident.tasks .accepted told ++ d'.offered).Subperm d.offered := by
  induction h with
  | refl => exact ⟨fun _ => List.not_mem_nil, .refl _⟩
  | @own told d' d'' emission around hcourse hp hd ih =>
    obtain ⟨hask, hsub⟩ := ih
    have hr' := hcourse.run hr
    have hreached : d'.plan.stop.reached d'.submitted around = true := by
      rw [hr'.plan_eq]
      exact hP around hp _
    have hquiet :
        d'.pull? around = none ∧ ∀ answer, d'.incident? around ≠ some (.ask answer) := by
      unfold pull? incident?
      cases d'.stage with
      | deciding => cases d'.pool <;> simp [hreached]
      | _ => simp
    rw [Incident.tasks_append, tasks_incident?, List.append_nil]
    refine ⟨fun answer hmem => ?_, ?_⟩
    · rcases List.mem_append.1 hmem with hmem | hmem
      · exact hask answer hmem
      · exact hquiet.2 answer (Option.mem_toList.1 hmem)
    · rcases hr'.offered_cases hd with ⟨hsame, -⟩ | ⟨_, _, -, -, hpull, -⟩
      · rwa [hsame]
      · rw [hquiet.1] at hpull
        cases hpull
  | @pool told d' p p' m hcourse hp hi hm ih =>
    obtain ⟨hask, hsub⟩ := ih
    obtain ⟨lost, hoffered, -⟩ := Pool.offered_step hi hm
    refine ⟨fun answer hmem => ?_, ?_⟩
    · rcases List.mem_append.1 hmem with hmem | hmem
      · exact hask answer hmem
      · cases Pool.isOfDriver_incident? (Option.mem_toList.1 hmem)
    · rw [Incident.tasks_append, (Pool.tasks_incident? hi hm).1, List.append_assoc,
        offered_of_pool rfl]
      refine List.Subperm.trans ((List.subperm_append_left _).2 ?_) hsub
      rw [offered_of_pool hp]
      exact (List.sublist_append_left _ lost).subperm.trans hoffered.symm.subperm

end Driver

end FaultDrill
