import FaultDrill.Proofs.Driver.Message
import FaultDrill.Proofs.Driver.Pool
import FaultDrill.Proofs.Pool.Answers
import FaultDrill.Proofs.Timeline

/-! # What a source supplies

A driver calls its pool with nothing but what its source gave it. So each task that a worker
executes, and each result, is about an operation of the source, also when the driver has given
up and its pool goes on without it.
-/

namespace FaultDrill

/-- The source gives this operation to the task with this number, counted from zero. -/
def Source.Gives (source : Source) (n : Nat) (op : Operation) : Prop :=
  ∃ ops s, GivesFrom 0 source ops s ∧ ops[n]? = some op

namespace Driver

/-- The task is the one with this number, counted from zero, and the source gave its operation. -/
def Supplies (plan : DriverPlan) (source : Source) (n : Nat) (task : Task) : Prop :=
  n + 1 < UInt64.size ∧ ∃ op, source.Gives n op ∧ task = ⟨.ofIndex n, plan.stream, op⟩

/-- A pool that was called by a driver with this plan and this source. -/
structure Supplied (plan : DriverPlan) (source : Source) (ms : List Pool.Move) (p : Pool) :
    Prop where
  run : Pool.Run plan.pool ms p
  isHeard : p.isHeard = true
  supplies : ∀ n task, Pool.Submits ms n task → Supplies plan source n task

variable {plan : DriverPlan} {source : Source} {pulled : List (Option Operation)}
  {d d' : Driver} {p p' : Pool} {ms : List Pool.Move} {m : Pool.Move} {ops : List Operation}
  {around : Surroundings} {emission : Emission} {outcome : Except DriverFailure DriverReport}

theorem Supplied.move (h : Supplied plan source ms p) (hm : p.move? m = some p')
    (hrequest : m.request? = none) (hheard : p'.isHeard = p.isHeard) :
    Supplied plan source (ms ++ [m]) p' := by
  refine ⟨h.run.move hm, hheard.trans h.isHeard, fun n task hn => h.supplies n task ?_⟩
  rwa [Pool.Submits, Pool.requests_snoc, hrequest, Option.toList_none, List.append_nil] at hn

/-- The submissions of a driver are what its source gave, whatever it calls the pool for besides. -/
theorem supplies_of_submits {s : Source} {rest : List Pool.Request}
    (hrequests : Pool.requests ms = submits plan.stream ops ++ rest)
    (hrest : ∀ task, .submit task ∉ rest) (hgives : Source.GivesFrom 0 source ops s)
    (hbound : ops.length < UInt64.size) {n : Nat} {task : Task} (hn : Pool.Submits ms n task) :
    Supplies plan source n task := by
  rw [Pool.Submits, hrequests, List.getElem?_append] at hn
  split at hn
  case isTrue hlt =>
    rw [length_submits] at hlt
    rw [getElem?_submits, Option.map_eq_some_iff] at hn
    obtain ⟨op, hop, htask⟩ := hn
    cases htask
    exact ⟨by omega, op, ⟨ops, s, hgives, hop⟩, rfl⟩
  case isFalse => exact (hrest task (List.mem_of_getElem? hn)).elim

/-- A driver touches its pool no more when its run ends, except that it lets go of it. -/
theorem pool_of_outcome? (h : d.step? around = some (d', emission))
    (ho : d'.stage.outcome? = some outcome) :
    d'.pool = d.pool ∨ d'.pool = d.pool.map Pool.detach := by
  cases turn_of_step? h with
  | startNot | crash | exhaust | refuse => exact .inr rfl
  | accept | goOn | collect | finish | announce | send => exact .inl rfl
  | start | halt | runDry | submit => cases ho

/-- A step that only lets go of the pool is a move of the pool. -/
theorem Supplied.detach (h : Supplied plan source ms p)
    (hstep : PoolStep plan (some p) (some p.detach)) :
    ∃ ms, Supplied plan source ms p.detach := by
  generalize hq : p.detach = q at hstep
  cases hstep with
  | keep => exact ⟨ms, h⟩
  | letGo hm => exact ⟨_, h.move hm rfl (hq ▸ rfl)⟩
  | @call _ request _ hm =>
    simp only [Pool.move?] at hm
    split at hm <;> cases hm
    have hclients : p.clients = p.clients ++ [request.stage] := congrArg Pool.clients hq
    simp at hclients

/-- Whatever pool a driver has is one that it called with what its source gave. -/
theorem Run.supplied (h : Run plan source pulled d) (hp : d.pool = some p) :
    ∃ ms, Supplied plan source ms p := by
  induction h generalizing p with
  | start => cases hp
  | pool m _ hq hm hmove ih =>
    cases hp
    obtain ⟨ms, hms⟩ := ih hq
    obtain ⟨-, hheard, hrequest⟩ := (Pool.step_of_move? hmove).of_isInternal hm
    exact ⟨_, hms.move hmove hrequest hheard⟩
  | @own pulled d d' emission around hr hd ih =>
    have ended {outcome : Except DriverFailure DriverReport}
        (ho : d'.stage.outcome? = some outcome) : ∃ ms, Supplied plan source ms p := by
      rcases pool_of_outcome? hd ho with hsame | hgone
      · exact ih (hsame.symm.trans hp)
      · rw [hgone] at hp
        obtain ⟨q, hq, rfl⟩ := Option.map_eq_some_iff.1 hp
        obtain ⟨ms, hms⟩ := ih hq
        exact hms.detach (hgone.trans hp ▸ hq ▸ hr.poolStep hd)
    have hsound := (hr.own around hd).sound
    generalize pulled ++ (d.pull? around).toList = pulled' at hsound
    cases hsound with
    | starting => cases hp
    | between _ hb =>
      obtain rfl := Option.some.inj (hp.symm.trans hb.pool_eq)
      exact ⟨_, hb.run, hb.isHeard, fun n task hn => supplies_of_submits
        (hb.requests.trans (List.append_nil _).symm) (by simp) hb.gives
        (Nat.lt_of_succ_lt hb.bound) hn⟩
    | submitting _ hs =>
      obtain rfl := Option.some.inj (hp.symm.trans hs.pool_eq)
      refine ⟨_, hs.run, hs.isHeard, fun n task hn => supplies_of_submits
        (hs.requests.trans (List.append_nil _).symm) (by simp) hs.gives ?_ hn⟩
      rw [List.length_append, List.length_singleton]
      exact hs.bound
    | stopping _ hs | collecting _ hs =>
      obtain rfl := Option.some.inj (hp.symm.trans hs.pool_eq)
      obtain ⟨s, hgives, -⟩ := hs.ended
      exact ⟨_, hs.run, hs.isHeard, fun n task hn => supplies_of_submits
        hs.requests (by simp) hgives (Nat.lt_of_succ_lt hs.bound) hn⟩
    | reported ho => exact ended ho
    | failed ho => exact ended ho

/-! ## Tasks and results -/

section

variable {task : Task} {phase : WindowPhase} {t : Duration} {w wake : Nat} {r : OperationResult}

/-- What a source gives can be held in memory, so that no result of it is lost. -/
theorem Supplied.noneLost (h : Supplied plan source ms p)
    (hfits : ∀ n op, source.Gives n op → op.Fits) : p.NoneLost := by
  refine h.run.noneLost fun task htask => ?_
  obtain ⟨n, hn⟩ := List.mem_iff_getElem?.1 htask
  obtain ⟨-, op, hop, rfl⟩ := h.supplies n task hn
  exact hfits n op hop

theorem Supplied.running_of_noneLost (h : Supplied plan source ms p) (hn : p.NoneLost)
    (hw : p.workers[w]? = some (.running task phase t wake)) :
    ∃ n, Supplies plan source n task := by
  obtain ⟨L⟩ := h.run.ledger hn
  obtain ⟨held, -, hheld⟩ := forall₂_getElem? L.workers hw
  cases held with
  | none => cases hheld
  | some n => exact ⟨n, h.supplies n task hheld⟩

theorem Supplied.running (h : Supplied plan source ms p)
    (hfits : ∀ n op, source.Gives n op → op.Fits)
    (hw : p.workers[w]? = some (.running task phase t wake)) :
    ∃ n, Supplies plan source n task :=
  h.running_of_noneLost (h.noneLost hfits) hw

theorem Supplied.recorded (h : Supplied plan source ms p)
    (hfits : ∀ n op, source.Gives n op → op.Fits) (hr : p.Recorded r) :
    ∃ n task outcome startedAt finishedAt phase, Supplies plan source n task ∧
      OperationResult.assemble task.id task.stream task.operation outcome startedAt finishedAt phase
        = .ok r := by
  have hresult : ∃ n, Pool.ResultOf ms n r := by
    obtain ⟨L⟩ := h.run.ledger (h.noneLost hfits)
    rcases hr with hr | ⟨w, hw⟩
    · obtain ⟨i, hi⟩ := List.mem_iff_getElem?.1 hr
      obtain ⟨n, -, hn⟩ := forall₂_getElem? (L.results h.isHeard) hi
      exact ⟨n, hn⟩
    · obtain ⟨held, -, hheld⟩ := forall₂_getElem? L.workers hw
      cases held with
      | none => cases hheld
      | some n => exact ⟨n, hheld⟩
  obtain ⟨n, task, outcome, startedAt, finishedAt, phase, hn, hr⟩ := hresult
  exact ⟨n, task, outcome, startedAt, finishedAt, phase, h.supplies n task hn, hr⟩

end

/-! ## What the pool of a driver has answers for -/

/-- The results that the workers of the driver have assembled. -/
def answers (d : Driver) : Nat := (d.pool.map Pool.answers).getD 0

theorem answers_of_pool (hp : d.pool = some p) : d.answers = p.answers := by
  rw [answers, hp]
  rfl

/-- No worker of the driver's pool was torn down by a crash. -/
def NoneLost (d : Driver) : Prop := ∀ p, d.pool = some p → p.NoneLost

theorem Run.noneLost (h : Run plan source pulled d)
    (hfits : ∀ n op, source.Gives n op → op.Fits) : d.NoneLost := by
  intro p hp
  obtain ⟨ms, hs⟩ := h.supplied hp
  exact hs.noneLost hfits

theorem PoolStep.noneLost (h : PoolStep plan d.pool d'.pool) (hn : d'.NoneLost) : d.NoneLost := by
  intro p hp
  rw [hp] at h
  generalize hp' : d'.pool = pool' at h
  cases h with
  | keep => exact hn p hp'
  | call hm | letGo hm => exact (Pool.step_of_move? hm).noneLost (hn _ hp')

/-- A driver by itself neither adds to the answers nor drops any. -/
theorem Run.answers_of_noneLost (h : Run plan source pulled d)
    (hd : d.step? around = some (d', emission)) (hnone : d'.NoneLost) :
    d'.answers = d.answers := by
  have hheard (p : Pool) (hp : d.pool = some p) : p.isHeard = true := by
    obtain ⟨ms, hs⟩ := h.supplied hp
    exact hs.isHeard
  have hstep := h.poolStep hd
  unfold NoneLost at hnone
  unfold answers
  generalize d.pool = pool at hstep hheard ⊢
  generalize d'.pool = pool' at hstep hnone ⊢
  cases hstep with
  | keep => rfl
  | start hstart => exact Pool.answers_of_start hstart
  | call hm | letGo hm => exact (Pool.step_of_move? hm).answers (hheard _ rfl) (hnone _ rfl)

theorem Run.answers_own (h : Run plan source pulled d)
    (hfits : ∀ n op, source.Gives n op → op.Fits) (hd : d.step? around = some (d', emission)) :
    d'.answers = d.answers :=
  h.answers_of_noneLost hd ((h.own around hd).noneLost hfits)

theorem Run.answers_pool (h : Run plan source pulled d)
    (hfits : ∀ n op, source.Gives n op → op.Fits) (hp : d.pool = some p)
    (hi : m.isInternal = true) (hm : p.move? m = some p') :
    answers { d with pool := some p' } = d.answers + m.answers := by
  obtain ⟨ms, hs⟩ := h.supplied hp
  rw [answers_of_pool hp]
  exact (Pool.step_of_move? hm).answers hs.isHeard ((h.pool m hp hi hm).noneLost hfits p' rfl)

end Driver

end FaultDrill
