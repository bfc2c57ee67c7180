import FaultDrill.Proofs.Driver.Quit

/-! # Drivers whose source panics

A source that panics has given some operations before. The driver submits these and gives up, and
its pool performs each of them although nobody waits for it any more.
-/

namespace FaultDrill

namespace Source

variable {source s s' : Source} {ops ops' : List Operation} {crash : Crash}

/-- The source panics when it is asked for the task with this number, counted from zero. -/
def PanicsAfter (source : Source) (n : Nat) : Prop :=
  ∃ crash, source.next (.ofIndex n) = .error crash

theorem GivesFrom.prefix_of_panics (h : GivesFrom 0 source ops s) (hs : s.PanicsAfter ops.length)
    (h' : GivesFrom 0 source ops' s') : ops' <+: ops := by
  obtain ⟨crash, hs⟩ := hs
  have hle : ops'.length ≤ ops.length := by
    refine h.length_le_of_end h' fun op s'' hnext => ?_
    cases hs.symm.trans hnext
  exact h.prefix_of_le h' hle

/-- The source does not run dry before it panics, nor after. -/
theorem GivesFrom.not_dry (h : GivesFrom 0 source ops s) (hs : s.PanicsAfter ops.length)
    (h' : GivesFrom 0 source ops' s') : ¬s'.DryAfter ops'.length := by
  rintro ⟨s'', hdry⟩
  have hle := (h.prefix_of_panics hs h').length_le
  obtain ⟨crash, hs⟩ := hs
  rcases Nat.lt_or_eq_of_le hle with hlt | heq
  · obtain ⟨op, _, hnext⟩ := h.next_of_lt h' hlt
    rw [Nat.zero_add] at hnext
    cases hdry.symm.trans hnext
  · obtain rfl := h.unique h' heq
    rw [heq] at hdry
    cases hs.symm.trans hdry

/-- It panics only once it has given all of them. -/
theorem GivesFrom.eq_of_panics (h : GivesFrom 0 source ops s) (hs : s.PanicsAfter ops.length)
    (h' : GivesFrom 0 source ops' s') (hs' : s'.PanicsAfter ops'.length) : ops' = ops :=
  (h.prefix_of_panics hs h').eq_of_length
    (le_antisymm (h.prefix_of_panics hs h').length_le (h'.prefix_of_panics hs' h).length_le)

end Source

open Source

theorem Pool.workers_of_start_noWorkers {name : String} {config : PoolConfig}
    (h : Pool.start name config = .error .noWorkers) : config.workers = 0 := by
  unfold Pool.start at h
  split at h
  case isTrue hzero => exact hzero
  case isFalse =>
    split at h
    · cases h
    · split at h <;> cases h

namespace Driver

/-- Of these operations at most come the tasks that are accepted, and none of them is executed
twice. -/
structure AtMostOnce (stream : String) (ops : List Operation) (told : List Incident) : Prop where
  accepted : (Incident.tasks .accepted told).Subperm (tasks stream ops)
  begun : (Incident.tasks .begun told).Subperm (Incident.tasks .accepted told)
  performed : (Incident.tasks .performed told).Subperm (Incident.tasks .begun told)
  nodup : (Incident.tasks .begun told).Nodup

/-- A driver with this plan has given up after these operations, and its pool has performed every
one of them. -/
structure Abandoned (plan : DriverPlan) (ops : List Operation) (told : List Incident)
    (d : Driver) : Prop where
  gaveUp : ∃ crash, d.outcome? = some (.error (.crash crash))
  accepted : (∃ p, Pool.start plan.stream plan.pool = .ok p) →
    (Incident.tasks .accepted told).Perm (tasks plan.stream ops)
  begun : (Incident.tasks .begun told).Perm (Incident.tasks .accepted told)
  performed : (Incident.tasks .performed told).Perm (Incident.tasks .accepted told)
  exited : ∀ p, d.pool = some p → ∀ v ∈ p.workers, v = .exited false
  noSentinel : .takeStop ∉ told ∧ ∀ p, d.pool = some p → p.queue = []
  messages : Incident.messages told =
    if plan.inBackground then [.aborted plan.stream "driver panicked"] else []

variable {P : Surroundings → Prop} {plan : DriverPlan} {source s : Source}
  {pulled : List (Option Operation)} {told : List Incident} {d : Driver} {p : Pool}
  {around : Surroundings} {answer : Option Operation} {ops ops' : List Operation} {stream : String}

theorem tasks_prefix (h : ops' <+: ops) : tasks stream ops' <+: tasks stream ops := by
  obtain ⟨rest, rfl⟩ := h
  rw [tasks, tasks, List.mapIdx_append]
  exact List.prefix_append _ _

/-! ## What the source has answered -/

theorem pull?_eq_some (h : d.pull? around = some answer) :
    d.stage = .deciding ∧ ∃ s, d.source.next d.nextId = .ok (answer, s) := by
  unfold pull? at h
  split at h
  case h_1 hs hp =>
    split at h
    case isTrue => cases h
    case isFalse =>
      cases hnext : d.source.next d.nextId with
      | error crash => rw [hnext] at h; cases h
      | ok next =>
        obtain ⟨answer', s⟩ := next
        rw [hnext] at h
        cases h
        exact ⟨hs, s, rfl⟩
  case h_2 => cases h

/-- What the driver was given is what its source gives first. -/
theorem Run.gives (h : Run plan source pulled d) :
    ∃ s, GivesFrom 0 source pulled.reduceOption s := by
  induction h with
  | start => exact ⟨source, .nil⟩
  | pool _ _ _ _ _ ih => exact ih
  | own around hr hd ih =>
    rcases hr.offered_cases hd with ⟨-, hnone⟩ | ⟨client, op, -, hstage, -⟩
    · rwa [List.reduceOption_append, hnone, List.append_nil]
    · obtain ⟨_, ms, ops, op, -, hsub⟩ := (hr.own around hd).submitting hstage
      rw [hsub.pulled_eq, reduceOption_map_some]
      exact ⟨_, hsub.gives⟩

/-- The source is dry once it has said so. -/
theorem Run.dry (h : Run plan source pulled d) (hnone : none ∈ pulled) :
    ∃ ops s, GivesFrom 0 source ops s ∧ s.DryAfter ops.length := by
  induction h with
  | start => cases hnone
  | pool _ _ _ _ _ ih => exact ih hnone
  | own around hr hd ih =>
    rcases List.mem_append.1 hnone with hnone | hnone
    · exact ih hnone
    · obtain ⟨hstage, s, hnext⟩ := pull?_eq_some (Option.mem_toList.1 hnone)
      obtain ⟨_, ms, ops, hb⟩ := hr.between (by rw [hstage]; rfl)
      rw [hb.nextId] at hnext
      exact ⟨ops, _, hb.gives, s, hnext⟩

/-! ## The end -/

section

variable (h : Course P { plan, source } told d) (hn : d.NoneLost)
  (hgives : GivesFrom 0 source ops s) (hpanics : s.PanicsAfter ops.length)
include h hn hgives hpanics

theorem Course.accepted_of_panics :
    (Incident.tasks .accepted told).Subperm (tasks plan.stream ops) := by
  obtain ⟨s', hgives'⟩ := h.run_of_start.gives
  have hprefix : tasks plan.stream _ <+: tasks plan.stream ops :=
    tasks_prefix (hgives.prefix_of_panics hpanics hgives')
  have hsub : (Incident.tasks .accepted told).Subperm
      (Incident.tasks .accepted told ++ d.offered) := (List.sublist_append_left _ _).subperm
  exact hsub.trans ((h.intake hn).subperm.trans hprefix.sublist.subperm)

theorem Course.at_most_once (hops : ops.length < UInt64.size) :
    AtMostOnce plan.stream ops told := by
  obtain ⟨hbegun, hperformed⟩ := h.custody_of_start
  have haccepted := h.accepted_of_panics hn hgives hpanics
  have hsub : (Incident.tasks .begun told).Subperm (Incident.tasks .accepted told) :=
    (List.sublist_append_left _ _).subperm.trans hbegun.symm.subperm
  have hsub' : (Incident.tasks .performed told).Subperm (Incident.tasks .begun told) :=
    (List.sublist_append_left _ _).subperm.trans hperformed.symm.subperm
  obtain ⟨begun, hperm, hsublist⟩ := hsub.trans haccepted
  exact ⟨haccepted, hsub, hsub', hperm.nodup_iff.1 ((nodup_tasks hops).sublist hsublist)⟩

omit hn in
theorem Course.never_dry : none ∉ Incident.answers told := by
  intro hnone
  obtain ⟨ops', s', hgives', hdry⟩ := h.run_of_start.dry hnone
  exact hgives.not_dry hpanics hgives' hdry

/-- If the driver gives up, all of the operations were accepted, unless its pool did not start. -/
theorem Course.crashed_of_panics {failure : DriverFailure}
    (hf : d.stage.outcome? = some (.error failure)) (hworkers : plan.pool.workers ≠ 0)
    (hops : ops.length + 1 < UInt64.size) :
    (∃ crash, failure = .crash crash) ∧ ((∃ p, Pool.start plan.stream plan.pool = .ok p) →
      (Incident.tasks .accepted told).Perm (tasks plan.stream ops)) := by
  have hnone : d.offered = [] := h.run_of_start.offered_eq_nil fun client hclient => by
    rw [hclient] at hf
    cases hf
  have hintake := h.intake hn
  rw [hnone, List.append_nil] at hintake
  cases h.gave_up hn hf with
  | @startNot e hstart =>
    constructor
    · cases e with
      | noWorkers => exact absurd (Pool.workers_of_start_noWorkers hstart) hworkers
      | crash crash => exact ⟨crash, rfl⟩
    · rintro ⟨p, hp⟩
      cases hstart.symm.trans hp
  | panicked hgives' hnext hanswers =>
    rw [hanswers, reduceOption_map_some, hgives.eq_of_panics hpanics hgives' ⟨_, hnext⟩] at hintake
    exact ⟨⟨_, rfl⟩, fun _ => hintake⟩
  | exhausted hgives' _ hsize =>
    have hle := (hgives.prefix_of_panics hpanics hgives').length_le
    omega

/-- The run of the driver is abandoned, and what it has submitted is performed. -/
theorem Rests.abandoned (hrest : d.Rests) (hhalt : .halt ∉ told)
    (hworkers : plan.pool.workers ≠ 0) (hops : ops.length + 1 < UInt64.size) :
    Abandoned plan ops told d := by
  have hr := h.run_of_start
  have hdry := h.never_dry hgives hpanics
  obtain ⟨outcome, ho⟩ := hrest.outcome hr hn
  have hstage := outcome?_eq_some_iff.1 ho
  cases outcome with
  | ok report =>
    exfalso
    rcases h.reason_to_stop (by rw [hstage]; rfl) with hhalted | hnone
    · exact hhalt hhalted
    · exact hdry hnone
  | error failure =>
    have hf : d.stage.outcome? = some (.error failure) := by rw [hstage]; rfl
    obtain ⟨⟨crash, rfl⟩, haccepted⟩ := h.crashed_of_panics hn hgives hpanics hf hworkers hops
    obtain ⟨hwaiting, hexecuting, hpool⟩ := hrest.drained h hn hf hhalt hdry
    obtain ⟨hbegun, hperformed⟩ := h.custody_of_start
    rw [hwaiting, List.append_nil] at hbegun
    rw [hexecuting, List.append_nil] at hperformed
    exact {
      gaveUp := ⟨crash, ho⟩
      accepted := haccepted
      begun := hbegun.symm
      performed := (hbegun.trans hperformed).symm
      exited := fun p hp => (hpool p hp).2
      noSentinel := ⟨(h.unshut hhalt hdry).1, fun p hp => (hpool p hp).1⟩
      messages := by
        rw [h.messages_eq, sent, hstage, hr.plan_eq]
        rfl }

end

end Driver

end FaultDrill
