import FaultDrill.Proofs.Driver.Run
import FaultDrill.Proofs.Report

/-! # Exact reports

A driver that ends well reports every task that it submitted, each once. What it has done
so far decides at which stage it is: it counts its submissions, its pool was called for
each of them, and the source was asked once for each.
-/

namespace FaultDrill

open Driver Source

/-- Between two submissions. -/
def DriverStage.isBetween : DriverStage → Bool
  | deciding | pausing _ | yielding => true
  | _ => false

/-- How the run ended, though it may not be announced yet. -/
def DriverStage.outcome? : DriverStage → Option (Except DriverFailure DriverReport)
  | failing failure => some (.error failure)
  | sending _ outcome | done outcome => some outcome
  | _ => none

/-- What a report says of the run that ended with it. -/
structure DriverReport.Exact (plan : DriverPlan) (source : Source)
    (pulled : List (Option Operation)) (report : DriverReport) : Prop where
  stream : report.stream = plan.stream
  submitted : report.submitted.toNat = report.passed.length + report.failed.length
  ids : ((report.passed ++ report.failed).map fun r => r.taskId.seq.toNat).Perm
    (List.range' 1 report.submitted.toNat)
  passed_sorted : report.passed.Pairwise fun a b => a.taskId.seq < b.taskId.seq
  failed_sorted : report.failed.Pairwise fun a b => a.taskId.seq < b.taskId.seq
  passed : ∀ r ∈ report.passed, r.isSuccess = true
  failed : ∀ r ∈ report.failed, r.isSuccess = false
  /-- The source was asked once for each task, and possibly once more in vain. -/
  operations : ∃ ops : List Operation, ops.length = report.submitted.toNat ∧
    (pulled = ops.map some ∨ pulled = ops.map some ++ [none]) ∧
    ∀ r ∈ report.passed ++ report.failed, r.stream = plan.stream ∧
      ∃ op, ops[r.taskId.seq.toNat - 1]? = some op ∧ r.kind = op.kind ∧ r.target = op.target
  limit : ∀ limit, plan.stop = .count limit →
    (report.submitted.toNat : ℕ∞) = min (limit.toNat : ℕ∞) source.size

namespace Driver

/-- The pool of the driver, with the moves that it has made. -/
structure Underway (plan : DriverPlan) (d : Driver) (p : Pool) (ms : List Pool.Move) : Prop where
  plan_eq : d.plan = plan
  pool_eq : d.pool = some p
  run : Pool.Run plan.pool ms p
  isOpen : p.isOpen = true
  isHeard : p.isHeard = true

/-- So many submissions have been accepted. -/
structure Counted (d : Driver) (n : Nat) : Prop where
  submitted : d.submitted.toNat = n
  nextId : d.nextId = .ofIndex n
  bound : n + 1 < UInt64.size

/-- A limit on submissions has room for so many. -/
def Within (plan : DriverPlan) (n : Nat) : Prop :=
  ∀ limit, plan.stop = .count limit → n ≤ limit.toNat

structure Between (plan : DriverPlan) (source : Source) (pulled : List (Option Operation))
    (d : Driver) (p : Pool) (ms : List Pool.Move) (ops : List Operation) : Prop
    extends Underway plan d p ms, Counted d ops.length where
  pulled_eq : pulled = ops.map some
  gives : GivesFrom 0 source ops d.source
  requests : Pool.requests ms = submits plan.stream ops
  answered : p.Answered ops.length
  within : Within plan ops.length

structure Submitting (plan : DriverPlan) (source : Source) (pulled : List (Option Operation))
    (d : Driver) (p : Pool) (ms : List Pool.Move) (ops : List Operation) (op : Operation) : Prop
    extends Underway plan d p ms, Counted d ops.length where
  pulled_eq : pulled = (ops ++ [op]).map some
  gives : GivesFrom 0 source (ops ++ [op]) d.source
  requests : Pool.requests ms = submits plan.stream (ops ++ [op])
  answered : p.Answered ops.length
  within : Within plan (ops.length + 1)

/-- Why the driver stopped after these operations: a limit was reached, or something from outside
stopped it, or the source ran dry. -/
def Ended (plan : DriverPlan) (source : Source) (pulled : List (Option Operation))
    (ops : List Operation) : Prop :=
  ∃ s, GivesFrom 0 source ops s ∧
    ((pulled = ops.map some ∧ ∀ limit, plan.stop = .count limit → limit.toNat ≤ ops.length) ∨
      (pulled = ops.map some ++ [none] ∧
        ∃ s', s.next (.ofIndex ops.length) = .ok (none, s')))

structure Stopping (plan : DriverPlan) (source : Source) (pulled : List (Option Operation))
    (d : Driver) (p : Pool) (ms : List Pool.Move) (ops : List Operation) : Prop
    extends Underway plan d p ms, Counted d ops.length where
  ended : Ended plan source pulled ops
  requests : Pool.requests ms = submits plan.stream ops ++ [.shutdown]
  answered : p.Answered ops.length
  within : Within plan ops.length

/-- What holds of a driver at each stage. -/
inductive Sound (plan : DriverPlan) (source : Source) : List (Option Operation) → Driver → Prop
  | starting : Sound plan source [] { plan, source }
  | between {pulled d p ms ops} : d.stage.isBetween = true →
      Between plan source pulled d p ms ops → Sound plan source pulled d
  | submitting {pulled d p ms ops op} : d.stage = .submitting ops.length →
      Submitting plan source pulled d p ms ops op → Sound plan source pulled d
  | stopping {pulled d p ms ops} : d.stage = .stopping ops.length →
      Stopping plan source pulled d p ms ops → Sound plan source pulled d
  | collecting {pulled d p ms ops} : d.stage = .collecting →
      Stopping plan source pulled d p ms ops → p.reply? ops.length = some (.ok ()) →
      Sound plan source pulled d
  | reported {pulled d report} : d.stage.outcome? = some (.ok report) →
      report.Exact plan source pulled → Sound plan source pulled d
  | failed {pulled d failure} : d.stage.outcome? = some (.error failure) →
      Sound plan source pulled d

variable {plan : DriverPlan} {source : Source} {pulled : List (Option Operation)}
  {d d' : Driver} {p p' : Pool} {ms : List Pool.Move} {m : Pool.Move} {ops : List Operation}
  {op : Operation} {around : Surroundings} {emission : Emission}

/-! ## Moves of the pool -/

theorem Underway.move (h : Underway plan d p ms) (hm : m.isInternal = true)
    (hp : p.move? m = some p') : Underway plan { d with pool := some p' } p' (ms ++ [m]) := by
  obtain ⟨hopen, hheard, -⟩ := (Pool.step_of_move? hp).of_isInternal hm
  exact ⟨h.plan_eq, rfl, .move h.run hp, hopen.trans h.isOpen, hheard.trans h.isHeard⟩

theorem requests_internal (hm : m.isInternal = true) :
    Pool.requests (ms ++ [m]) = Pool.requests ms := by
  rw [Pool.requests_snoc]
  cases m <;> first | exact List.append_nil _ | cases hm

theorem Sound.pool (h : Sound plan source pulled d) (hd : d.pool = some p)
    (hm : m.isInternal = true) (hp : p.move? m = some p') :
    Sound plan source pulled { d with pool := some p' } := by
  have hstep := Pool.step_of_move? hp
  cases h with
  | starting => cases hd
  | between hstage hb =>
    obtain rfl := Option.some.inj (hd.symm.trans hb.pool_eq)
    exact .between hstage ⟨hb.toUnderway.move hm hp, ⟨hb.submitted, hb.nextId, hb.bound⟩,
      hb.pulled_eq, hb.gives, (requests_internal hm).trans hb.requests,
      hstep.answered hb.answered, hb.within⟩
  | submitting hstage hs =>
    obtain rfl := Option.some.inj (hd.symm.trans hs.pool_eq)
    exact .submitting hstage ⟨hs.toUnderway.move hm hp, ⟨hs.submitted, hs.nextId, hs.bound⟩,
      hs.pulled_eq, hs.gives, (requests_internal hm).trans hs.requests,
      hstep.answered hs.answered, hs.within⟩
  | stopping hstage hs =>
    obtain rfl := Option.some.inj (hd.symm.trans hs.pool_eq)
    exact .stopping hstage ⟨hs.toUnderway.move hm hp, ⟨hs.submitted, hs.nextId, hs.bound⟩,
      hs.ended, (requests_internal hm).trans hs.requests, hstep.answered hs.answered, hs.within⟩
  | collecting hstage hs hr =>
    obtain rfl := Option.some.inj (hd.symm.trans hs.pool_eq)
    exact .collecting hstage ⟨hs.toUnderway.move hm hp, ⟨hs.submitted, hs.nextId, hs.bound⟩,
      hs.ended, (requests_internal hm).trans hs.requests, hstep.answered hs.answered, hs.within⟩
      (hstep.reply?_eq hr)
  | reported hstage he => exact .reported hstage he
  | failed hstage => exact .failed hstage

/-! ## Steps of the driver -/

theorem outcome?_fail (failure : DriverFailure) :
    (d.fail failure).stage.outcome? = some (.error failure) := by
  unfold fail
  dsimp only
  split <;> rfl

theorem outcome?_finish : (d.finish p).1.stage.outcome? = some (.ok (d.report p)) := by
  unfold Driver.finish
  dsimp only
  split <;> rfl

theorem outcome?_interlude (plan : DriverPlan) (timer : Nat) :
    (plan.interlude timer).outcome? = none := by
  rcases interlude_cases plan timer with ⟨wake, h⟩ | h | h <;> rw [h] <;> rfl

theorem sound_fail (failure : DriverFailure) : Sound plan source pulled (d.fail failure) :=
  .failed (outcome?_fail failure)

theorem Underway.call (h : Underway plan d p ms) (request : Pool.Request)
    (stage : Nat → DriverStage) :
    Underway plan (d.callPool request stage p) (p.call request) (ms ++ [.call request]) :=
  ⟨h.plan_eq, rfl, .move h.run (if_pos h.isOpen), h.isOpen, h.isHeard⟩

theorem Underway.answered_call {n : Nat} (h : Underway plan d p ms) (hn : p.Answered n)
    (request : Pool.Request) : (p.call request).Answered n :=
  (Pool.Step.call h.isOpen).answered hn

theorem Between.clients_length (hb : Between plan source pulled d p ms ops) :
    p.clients.length = ops.length := by
  rw [hb.run.serves.1, hb.requests, length_submits]

/-- The driver stops, having asked the source in vain or not at all. -/
theorem Between.stop (hb : Between plan source pulled d p ms ops) (s : Source)
    {pulled' : List (Option Operation)} (hended : Ended plan source pulled' ops) :
    Sound plan source pulled' ({ d with source := s }.callPool .shutdown .stopping p) := by
  have hu : Underway plan { d with source := s } p ms :=
    ⟨hb.plan_eq, hb.pool_eq, hb.run, hb.isOpen, hb.isHeard⟩
  refine .stopping (congrArg DriverStage.stopping hb.clients_length)
    ⟨hu.call .shutdown .stopping, ⟨hb.submitted, hb.nextId, hb.bound⟩, hended, ?_,
      hb.answered_call hb.answered .shutdown, hb.within⟩
  rw [Pool.requests_snoc, hb.requests]
  rfl

theorem Between.decide (hb : Between plan source pulled d p ms ops) (hstage : d.stage = .deciding) :
    Sound plan source (pulled ++ (d.pull? around).toList) (d.decide around p) := by
  unfold Driver.decide pull?
  rw [hstage, hb.pool_eq]
  dsimp only
  split
  case isTrue hreached =>
    rw [Option.toList_none, List.append_nil]
    refine hb.stop d.source ⟨d.source, hb.gives, .inl ⟨hb.pulled_eq, fun limit hlimit => ?_⟩⟩
    rw [hb.plan_eq, hlimit] at hreached
    have := UInt64.le_iff_toNat_le.1 (of_decide_eq_true hreached)
    rwa [hb.submitted] at this
  case isFalse hreached =>
    cases hnext : d.source.next d.nextId with
    | error crash => exact sound_fail _
    | ok answer =>
      obtain ⟨answer, s⟩ := answer
      rw [hb.nextId] at hnext
      cases answer with
      | none =>
        refine hb.stop s ⟨d.source, hb.gives, .inr ⟨?_, s, hnext⟩⟩
        rw [hb.pulled_eq]
        rfl
      | some op =>
        have hu : Underway plan { d with source := s } p ms :=
          ⟨hb.plan_eq, hb.pool_eq, hb.run, hb.isOpen, hb.isHeard⟩
        refine .submitting (congrArg DriverStage.submitting hb.clients_length)
          (show Submitting _ _ _ _ _ _ ops op from
            ⟨hu.call _ .submitting, ⟨hb.submitted, hb.nextId, hb.bound⟩, ?_, ?_, ?_,
              hb.answered_call hb.answered _, fun limit hlimit => ?_⟩)
        · rw [hb.pulled_eq, List.map_append]
          rfl
        · exact hb.gives.snoc (by rwa [Nat.zero_add])
        · rw [Pool.requests_snoc, hb.requests, submits_snoc, hb.nextId, hb.plan_eq]
          rfl
        · by_contra hge
          rw [hb.plan_eq, hlimit] at hreached
          refine hreached (decide_eq_true (UInt64.le_iff_toNat_le.2 ?_))
          rw [hb.submitted]
          omega

theorem Between.own (hb : Between plan source pulled d p ms ops)
    (hstage : d.stage.isBetween = true) (h : d.step? around = some (d', emission)) :
    Sound plan source (pulled ++ (d.pull? around).toList) d' := by
  have wait (hpull : d.pull? around = none) (hd : d' = { d with stage := .deciding }) :
      Sound plan source (pulled ++ (d.pull? around).toList) d' := by
    subst hd
    rw [hpull, Option.toList_none, List.append_nil]
    exact .between rfl ⟨⟨hb.plan_eq, hb.pool_eq, hb.run, hb.isOpen, hb.isHeard⟩,
      ⟨hb.submitted, hb.nextId, hb.bound⟩, hb.pulled_eq, hb.gives, hb.requests, hb.answered,
      hb.within⟩
  cases hs : d.stage with
  | deciding =>
    simp only [step?, hs, hb.pool_eq, Option.map_some, Option.some.injEq, Prod.mk.injEq] at h
    obtain ⟨rfl, -⟩ := h
    exact hb.decide hs
  | pausing wake =>
    simp only [step?, hs] at h
    split at h
    · cases h
      exact wait (by simp [pull?, hs]) rfl
    · cases h
  | yielding =>
    simp only [step?, hs] at h
    cases h
    exact wait (by simp [pull?, hs]) rfl
  | _ => rw [hs] at hstage; cases hstage

/-- A submission has been accepted. -/
theorem Submitting.accepted (hs : Submitting plan source pulled d p ms ops op)
    (hr : p.reply? ops.length = some (.ok ())) (timer : Nat) :
    Sound plan source pulled (d.accepted timer) := by
  unfold Driver.accepted
  dsimp only
  cases hnext : d.nextId.next with
  | error crash => exact sound_fail _
  | ok nextId =>
    have hbound : ops.length + 2 < UInt64.size := by
      rw [hs.nextId] at hnext
      unfold TaskId.next at hnext
      rw [TaskId.toNat_ofIndex hs.bound] at hnext
      split at hnext
      · assumption
      · cases hnext
    have hid : nextId = .ofIndex (ops ++ [op]).length := by
      rw [hs.nextId, TaskId.next_ofIndex hbound] at hnext
      cases hnext
      rw [List.length_append, List.length_singleton]
    have hsubmitted : (d.submitted + 1).toNat = (ops ++ [op]).length := by
      rw [UInt64.toNat_add, hs.submitted, List.length_append, List.length_singleton]
      exact Nat.mod_eq_of_lt (Nat.lt_of_succ_lt hbound)
    refine .between ?_ (show Between _ _ _ _ p ms (ops ++ [op]) from
      ⟨⟨hs.plan_eq, hs.pool_eq, hs.run, hs.isOpen, hs.isHeard⟩, ⟨hsubmitted, hid, ?_⟩,
        hs.pulled_eq, hs.gives, hs.requests, ?_, ?_⟩)
    · dsimp only
      split
      · rfl
      · split <;> rfl
    · rw [List.length_append, List.length_singleton]
      exact hbound
    · rw [List.length_append, List.length_singleton]
      exact hs.answered.succ hr
    · rw [List.length_append, List.length_singleton]
      exact hs.within

/-! ## The report -/

/-- The result is about the task with this number, counted from zero. -/
def About (stream : String) (ops : List Operation) (i : Nat) (r : OperationResult) : Prop :=
  DriverReport.taskNumber r = i + 1 ∧ r.stream = stream ∧
    ∃ op, ops[i]? = some op ∧ r.kind = op.kind ∧ r.target = op.target

theorem Stopping.submits_iff (hs : Stopping plan source pulled d p ms ops) {i : Nat} {task : Task} :
    Pool.Submits ms i task ↔ ∃ op, ops[i]? = some op ∧ task = ⟨.ofIndex i, plan.stream, op⟩ := by
  unfold Pool.Submits
  rw [hs.requests]
  rcases Nat.lt_trichotomy i ops.length with hi | rfl | hi
  · rw [List.getElem?_append_left (by rwa [length_submits]), getElem?_submits,
      Option.map_eq_some_iff]
    simp only [Pool.Request.submit.injEq, eq_comm]
  · rw [List.getElem?_append_right (by rw [length_submits]), length_submits, Nat.sub_self]
    simp
  · rw [List.getElem?_eq_none (by simp [length_submits]; omega), List.getElem?_eq_none (by omega)]
    simp

theorem Stopping.shuts_iff (hs : Stopping plan source pulled d p ms ops) {i : Nat} :
    (Pool.requests ms)[i]? = some .shutdown ↔ i = ops.length := by
  rw [hs.requests]
  rcases Nat.lt_trichotomy i ops.length with hi | rfl | hi
  · rw [List.getElem?_append_left (by rwa [length_submits]), getElem?_submits]
    simp [Nat.ne_of_lt hi]
  · rw [List.getElem?_append_right (by rw [length_submits]), length_submits, Nat.sub_self]
    simp
  · rw [List.getElem?_eq_none (by simp [length_submits]; omega)]
    simp [Nat.ne_of_gt hi]

theorem Stopping.accepted (hs : Stopping plan source pulled d p ms ops) :
    (Pool.accepted ms p).Perm (List.range ops.length) := by
  apply (List.perm_ext_iff_of_nodup Pool.accepted_nodup List.nodup_range).2
  intro i
  rw [Pool.mem_accepted, Pool.accepts_iff, List.mem_range]
  constructor
  · rintro ⟨⟨task, hi⟩, -⟩
    obtain ⟨op, hop, -⟩ := hs.submits_iff.1 hi
    exact (List.getElem?_eq_some_iff.1 hop).1
  · intro hi
    exact ⟨⟨_, hs.submits_iff.2 ⟨_, List.getElem?_eq_getElem hi, rfl⟩⟩, hs.answered i hi⟩

theorem Stopping.about (hs : Stopping plan source pulled d p ms ops) {i : Nat}
    {r : OperationResult} (h : Pool.ResultOf ms i r) : About plan.stream ops i r := by
  obtain ⟨task, outcome, startedAt, finishedAt, phase, hi, hr⟩ := h
  obtain ⟨op, hop, rfl⟩ := hs.submits_iff.1 hi
  obtain ⟨written, rfl⟩ := OperationResult.assemble_eq_ok hr
  have hlt := (List.getElem?_eq_some_iff.1 hop).1
  have hbound := hs.bound
  exact ⟨TaskId.toNat_ofIndex (by omega), rfl, op, hop, rfl, rfl⟩

/-- Every task of a stopped driver has its result, and there are no other results. -/
theorem Stopping.results (hs : Stopping plan source pulled d p ms ops)
    (hr : p.reply? ops.length = some (.ok ())) :
    (p.results.map DriverReport.taskNumber).Perm (List.range' 1 ops.length) ∧
      ∀ r ∈ p.results, ∃ i, About plan.stream ops i r := by
  obtain ⟨reported, hresults, hperm⟩ :=
    hs.run.results_of_ok hs.isHeard (hs.shuts_iff.2 rfl) hr
  have habout := hresults.imp fun _ _ h => hs.about h
  constructor
  · have hmap : p.results.map DriverReport.taskNumber = reported.map (1 + ·) := by
      symm
      rw [← List.forall₂_eq_eq_eq, List.forall₂_map_left_iff, List.forall₂_map_right_iff]
      exact habout.imp fun i r h => (Nat.add_comm 1 i).trans h.1.symm
    rw [hmap, List.range'_eq_map_range]
    exact (hperm.trans hs.accepted).map _
  · intro r hr
    obtain ⟨n, hn⟩ := List.mem_iff_getElem?.1 hr
    obtain ⟨i, -, hi⟩ := forall₂_getElem? habout hn
    exact ⟨i, hi⟩

theorem Ended.size (h : Ended plan source pulled ops) (hbound : ops.length + 1 < UInt64.size)
    {limit : UInt64} (hlimit : plan.stop = .count limit) (hle : ops.length ≤ limit.toNat) :
    (ops.length : ℕ∞) = min (limit.toNat : ℕ∞) source.size := by
  obtain ⟨s, hgives, ⟨-, hreached⟩ | ⟨-, s', hdry⟩⟩ := h
  · have heq : limit.toNat = ops.length := le_antisymm (hreached limit hlimit) hle
    rw [heq, min_eq_left (hgives.length_le_size hbound)]
  · rw [hgives.size_eq hbound hdry, min_eq_right (Nat.cast_le.2 hle)]

theorem Stopping.exact (hs : Stopping plan source pulled d p ms ops)
    (hr : p.reply? ops.length = some (.ok ())) : (d.report p).Exact plan source pulled := by
  obtain ⟨hids, habout⟩ := hs.results hr
  have hperm : (d.report p).results.Perm p.results := DriverReport.ofResults_perm
  have hsubmitted : (d.report p).submitted.toNat = ops.length := hs.submitted
  have hnodup (f : OperationResult → Bool) :
      ((p.results.filter f).map DriverReport.taskNumber).Nodup :=
    (hids.nodup_iff.2 List.nodup_range').sublist (List.filter_sublist.map _)
  refine {
    stream := congrArg DriverPlan.stream hs.plan_eq
    submitted := ?_
    ids := ?_
    passed_sorted := DriverReport.sortedByTask_pairwise (hnodup _)
    failed_sorted := DriverReport.sortedByTask_pairwise (hnodup _)
    passed := fun r hr => DriverReport.isSuccess_of_mem_passed hr
    failed := fun r hr => DriverReport.isSuccess_of_mem_failed hr
    operations := ⟨ops, hsubmitted.symm, ?_, fun r hr => ?_⟩
    limit := fun limit hlimit => ?_ }
  · have hlength := (hids.length_eq.symm.trans (List.length_map _)).trans hperm.length_eq.symm
    rw [List.length_range'] at hlength
    rw [hsubmitted, hlength, DriverReport.results, List.length_append]
  · rw [hsubmitted]
    exact (hperm.map _).trans hids
  · obtain ⟨s, -, ⟨hpulled, -⟩ | ⟨hpulled, -⟩⟩ := hs.ended
    · exact .inl hpulled
    · exact .inr hpulled
  · obtain ⟨i, hnumber, hstream, op, hop, hkind, htarget⟩ := habout r (hperm.mem_iff.1 hr)
    refine ⟨hstream, op, ?_, hkind, htarget⟩
    rw [show r.taskId.seq.toNat = i + 1 from hnumber, Nat.add_sub_cancel]
    exact hop
  · rw [hsubmitted]
    exact hs.ended.size hs.bound hlimit (hs.within limit hlimit)

/-! ## Runs -/

theorem sound_start (h : Driver.start { plan, source } = (d', emission)) :
    Sound plan source [] d' := by
  unfold Driver.start at h
  dsimp only at h
  split at h
  case h_1 | h_2 =>
    cases h
    exact sound_fail _
  case h_3 p hp =>
    cases h
    have hstart := (Pool.start_eq hp).2
    exact .between rfl (show Between _ _ _ _ p [] [] from
      ⟨⟨rfl, rfl, .start hp, by rw [hstart], by rw [hstart]⟩, ⟨rfl, rfl, by decide⟩, rfl, .nil, rfl,
        fun i hi => absurd hi (Nat.not_lt_zero i), fun limit _ => Nat.zero_le _⟩)

theorem Submitting.own (hs : Submitting plan source pulled d p ms ops op)
    (hstage : d.stage = .submitting ops.length) (h : d.step? around = some (d', emission)) :
    Sound plan source pulled d' := by
  simp only [step?, hstage, hs.pool_eq, Option.bind_eq_bind, Option.bind_some,
    Option.bind_eq_some_iff] at h
  obtain ⟨reply, hr, h⟩ := h
  cases reply with
  | ok =>
    cases h
    exact hs.accepted hr _
  | error e =>
    cases h
    exact sound_fail _

theorem Stopping.own (hs : Stopping plan source pulled d p ms ops)
    (hstage : d.stage = .stopping ops.length) (h : d.step? around = some (d', emission)) :
    Sound plan source pulled d' := by
  simp only [step?, hstage, hs.pool_eq, Option.bind_eq_bind, Option.bind_some,
    Option.bind_eq_some_iff] at h
  obtain ⟨reply, hr, h⟩ := h
  cases reply with
  | ok =>
    cases h
    exact .collecting rfl ⟨⟨hs.plan_eq, rfl, hs.run, hs.isOpen, hs.isHeard⟩,
      ⟨hs.submitted, hs.nextId, hs.bound⟩, hs.ended, hs.requests, hs.answered, hs.within⟩ hr
  | error e =>
    cases h
    exact sound_fail _

theorem Stopping.collect (hs : Stopping plan source pulled d p ms ops)
    (hstage : d.stage = .collecting) (hr : p.reply? ops.length = some (.ok ()))
    (h : d.step? around = some (d', emission)) : Sound plan source pulled d' := by
  simp only [step?, hstage, hs.pool_eq, Option.bind_eq_bind, Option.bind_some] at h
  split at h
  case isTrue =>
    cases h
    exact .reported outcome?_finish (hs.exact hr)
  case isFalse => cases h

/-- A driver whose run has ended keeps to how it ended. -/
theorem outcome?_step {outcome : Except DriverFailure DriverReport}
    (hstage : d.stage.outcome? = some outcome) (h : d.step? around = some (d', emission)) :
    d'.stage.outcome? = some outcome := by
  cases turn_of_step? h with
  | announce hs | send hs =>
    rw [hs] at hstage
    exact hstage
  | goOn hs => rcases hs with hs | ⟨wake, -, hs⟩ <;> rw [hs] at hstage <;> cases hstage
  | refuse hs => rcases hs with hs | hs <;> rw [hs] at hstage <;> cases hstage
  | start hs | startNot hs | halt hs | crash hs | runDry hs | submit hs | accept hs | exhaust hs
  | collect hs | finish hs => rw [hs] at hstage; cases hstage

theorem Sound.own (h : Sound plan source pulled d) (hd : d.step? around = some (d', emission)) :
    Sound plan source (pulled ++ (d.pull? around).toList) d' := by
  have quiet (hne : d.stage ≠ .deciding) (h : Sound plan source pulled d') :
      Sound plan source (pulled ++ (d.pull? around).toList) d' := by
    rwa [pull?_eq_none hne, Option.toList_none, List.append_nil]
  cases h with
  | starting =>
    refine quiet (by simp) ?_
    simp only [step?, Option.some.injEq] at hd
    exact sound_start hd
  | between hstage hb => exact hb.own hstage hd
  | submitting hstage hs => exact quiet (by simp [hstage]) (hs.own hstage hd)
  | stopping hstage hs => exact quiet (by simp [hstage]) (hs.own hstage hd)
  | collecting hstage hs hr =>
    exact quiet (by simp [hstage]) (hs.collect hstage hr hd)
  | reported hstage he =>
    exact quiet (fun hne => by rw [hne] at hstage; cases hstage)
      (.reported (outcome?_step hstage hd) he)
  | failed hstage =>
    exact quiet (fun hne => by rw [hne] at hstage; cases hstage)
      (.failed (outcome?_step hstage hd))

theorem Run.sound (h : Run plan source pulled d) : Sound plan source pulled d := by
  induction h with
  | start => exact .starting
  | own around _ hd ih => exact ih.own hd
  | pool m _ hd hm hp ih => exact ih.pool hd hm hp

theorem Run.between (h : Run plan source pulled d) (hs : d.stage.isBetween = true) :
    ∃ p ms ops, Between plan source pulled d p ms ops := by
  cases h.sound with
  | between _ hb => exact ⟨_, _, _, hb⟩
  | starting => cases hs
  | submitting hstage | stopping hstage | collecting hstage => rw [hstage] at hs; cases hs
  | reported ho | failed ho =>
    cases hstage : d.stage <;> rw [hstage] at hs ho <;> cases hs <;> cases ho

theorem Run.submitting {client : Nat} (h : Run plan source pulled d)
    (hs : d.stage = .submitting client) :
    ∃ p ms ops op, client = ops.length ∧ Submitting plan source pulled d p ms ops op := by
  cases h.sound with
  | submitting hstage hsub =>
    exact ⟨_, _, _, _, DriverStage.submitting.inj (hs.symm.trans hstage), hsub⟩
  | starting => cases hs
  | between hstage => rw [hs] at hstage; cases hstage
  | stopping hstage | collecting hstage => cases hs.symm.trans hstage
  | reported ho | failed ho => rw [hs] at ho; cases ho

theorem Run.stopping {client : Nat} (h : Run plan source pulled d)
    (hs : d.stage = .stopping client) :
    ∃ p ms ops, client = ops.length ∧ Stopping plan source pulled d p ms ops := by
  cases h.sound with
  | stopping hstage hstop =>
    exact ⟨_, _, _, DriverStage.stopping.inj (hs.symm.trans hstage), hstop⟩
  | starting => cases hs
  | between hstage => rw [hs] at hstage; cases hstage
  | submitting hstage | collecting hstage => cases hs.symm.trans hstage
  | reported ho | failed ho => rw [hs] at ho; cases ho

/-- A report is exact from the moment at which it is made. -/
theorem Run.exact {report : DriverReport} (h : Run plan source pulled d)
    (hr : d.stage.outcome? = some (.ok report)) : report.Exact plan source pulled := by
  cases h.sound with
  | starting => cases hr
  | between hs => cases hstage : d.stage <;> rw [hstage] at hs hr <;> cases hs <;> cases hr
  | submitting hs | stopping hs | collecting hs => rw [hs] at hr; cases hr
  | reported hs he =>
    cases hs.symm.trans hr
    exact he
  | failed hs => cases hs.symm.trans hr

/-- A driver that ends well reports exactly what it submitted. -/
theorem Run.report_exact {report : DriverReport} (h : Run plan source pulled d)
    (hd : d.outcome? = some (.ok report)) : report.Exact plan source pulled := by
  unfold Driver.outcome? at hd
  split at hd
  case h_2 => cases hd
  case h_1 outcome hstage =>
    cases hd
    cases h.sound with
    | starting => cases hstage
    | between hs => rw [hstage] at hs; cases hs
    | submitting hs | stopping hs | collecting hs => rw [hstage] at hs; cases hs
    | reported hs he =>
      rw [hstage] at hs
      cases hs
      exact he
    | failed hs => rw [hstage] at hs; cases hs

/-! ## A trial -/

def trialPlan : DriverPlan :=
  { stream := "trial", stop := .count 5, pool := { workers := 1, queueCapacity := 1 },
    inBackground := false }

def trialSource : Source := .scripted [.read ⟨"bucket", "key"⟩ none]

/-- The driver submits the only operation there is, asks in vain for another, and shuts its pool
down, which moves as in its own trial. -/
def trialMoves : List (Surroundings ⊕ Pool.Move) :=
  let own := .inl { windowClosed := false, raised := [], timer := 0 }
  let pool := Pool.trial.filter Pool.Move.isInternal
  [own, own] ++ (pool.take 5).map .inr ++ [own, own] ++ (pool.drop 5).map .inr ++ [own, own]

def trialReport : DriverReport := .ofResults "trial" 1 Pool.trialEnd.results

theorem report_exact_trial : ∃ d,
    Run trialPlan trialSource [some (.read ⟨"bucket", "key"⟩ none), none] d ∧
      d.outcome? = some (.ok trialReport) ∧
      trialReport.Exact trialPlan trialSource [some (.read ⟨"bucket", "key"⟩ none), none] := by
  have h : Run trialPlan trialSource _ _ := Run.start.of_moves? (show
    moves? trialMoves { plan := trialPlan, source := trialSource } [] = some
      ({ plan := trialPlan, source := .scripted [], stage := .done (.ok trialReport),
         pool := some Pool.trialEnd, submitted := 1, nextId := ⟨2⟩ },
       [some (.read ⟨"bucket", "key"⟩ none), none]) from rfl)
  exact ⟨_, h, rfl, Run.report_exact h rfl⟩

end Driver

end FaultDrill
