import FaultDrill.Proofs.Pool.Bench

/-! # Tasks in rounds

Tasks that are there from the start and take equally long are executed in rounds: every worker
executes one, and then all of them go on to the next. The `k`-th task begins when `k / workers`
rounds are over. It does not begin earlier, since at most `workers` handlers execute at once, and
not later, since no worker is idle while a task waits.
-/

namespace FaultDrill

namespace Bench

/-- The end of the round in which a task is executed that so many others precede. -/
def roundEnd (workers duration k : Nat) : Nat := (k / workers + 1) * duration

/-- The time by which so many tasks are executed that take equally long. -/
def span (workers duration n : Nat) : Nat := (n + workers - 1) / workers * duration

/-- Every task was accepted at the start, and takes this long. -/
def Alike (p₀ : Pool) (handler : Handler) (duration : Nat) (log : List (Nat × Pool.Move)) : Prop :=
  ∀ x ∈ p₀.observe Pool.accepts? log, x.1 = 0 ∧ ∀ store, handler.delay x.2 store = duration

/-- The handlers that have begun were set for the ends of their rounds, and while not all tasks have
begun, the round of the next one has not passed. -/
structure Paced (workers duration timer accepted : Nat) (begun : List Nat) : Prop where
  begun_eq : begun = (List.range begun.length).map (roundEnd workers duration)
  punctual : begun.length < accepted → timer ≤ begun.length / workers * duration

variable {config : PoolConfig} {name : String} {p₀ : Pool} {handler : Handler} {b b' : Bench}
  {part : Part} {m : Pool.Move} {log later : List (Nat × Pool.Move)} {store : Store} {pool : Pool}
  {workers duration timer accepted n k w : Nat} {begun : List Nat}

/-! ## Counting rounds -/

theorem countP_range_le {P : Nat → Bool} {i len : Nat}
    (h : ∀ k < n, P k = true → i ≤ k ∧ k < i + len) : (List.range n).countP P ≤ len := by
  have hsubset : (List.range n).filter P ⊆ List.range' i len := by
    intro k hk
    obtain ⟨hlt, hp⟩ := List.mem_filter.1 hk
    exact List.mem_range'_1.2 (h k (List.mem_range.1 hlt) hp)
  have hsubperm := ((List.nodup_range (n := n)).filter P).subperm hsubset
  rw [List.countP_eq_length_filter]
  exact hsubperm.length_le.trans_eq List.length_range'

theorem roundEnd_le_span (hw : 0 < workers) (h : k < n) :
    roundEnd workers duration k ≤ span workers duration n := by
  refine Nat.mul_le_mul_right _ ?_
  rw [← Nat.add_div_right _ hw]
  exact Nat.div_le_div_right (by omega)

theorem roundEnd_last (hw : 0 < workers) :
    roundEnd workers duration n = span workers duration (n + 1) := by
  rw [roundEnd, span, ← Nat.add_div_right _ hw]
  congr 2
  omega

/-- Before a round only the tasks of the rounds before the one that precedes it can be over. -/
theorem Paced.countP_le (h : Paced workers duration timer accepted begun) (hw : 0 < workers)
    {time : Nat} (hlt : time < begun.length / workers * duration) :
    begun.countP (· ≤ time) + workers ≤ begun.length := by
  have hround : 0 < begun.length / workers := Nat.pos_of_mul_pos_right (Nat.zero_lt_of_lt hlt)
  have hle : workers ≤ begun.length := (Nat.div_pos_iff.1 hround).2
  have hcount : (List.range begun.length).countP (roundEnd workers duration · ≤ time) ≤
      begun.length - workers := by
    refine countP_range_le (i := 0) fun k _ hk => ⟨Nat.zero_le _, ?_⟩
    have hearlier := (of_decide_eq_true hk).trans_lt hlt
    rw [roundEnd, ← Nat.add_div_right _ hw] at hearlier
    have hlast := Nat.lt_of_div_lt_div (Nat.lt_of_mul_lt_mul_right hearlier)
    omega
  rw [h.begun_eq, List.countP_map]
  simp only [List.length_map, List.length_range]
  exact Nat.add_le_of_le_sub hle hcount

/-- Of the tasks that have begun fewer than there are workers can be going on after the rounds that
are full. -/
theorem Paced.countP_lt (h : Paced workers duration timer accepted begun) (hw : 0 < workers)
    {time : Nat} (hlt : begun.length / workers * duration < time) :
    begun.countP (time ≤ ·) < workers := by
  have hcount : (List.range begun.length).countP (time ≤ roundEnd workers duration ·) ≤
      begun.length % workers := by
    refine countP_range_le (i := begun.length / workers * workers) fun k hk hp => ?_
    have hlater := hlt.trans_le (of_decide_eq_true hp)
    have hround := Nat.le_of_lt_succ (Nat.lt_of_mul_lt_mul_right hlater)
    exact ⟨(Nat.le_div_iff_mul_le hw).1 hround, by rwa [Nat.div_add_mod']⟩
  rw [h.begun_eq, List.countP_map]
  exact hcount.trans_lt (Nat.mod_lt _ hw)

/-! ## One step -/

theorem Paced.begin (h : Paced workers duration timer accepted begun)
    (htimer : timer = begun.length / workers * duration) :
    Paced workers duration timer accepted (begun ++ [timer + duration]) := by
  constructor
  · rw [List.length_append, List.length_singleton, List.range_succ, List.map_append,
      ← h.begun_eq, List.map_singleton, roundEnd, Nat.succ_mul, ← htimer]
  · intro _
    rw [List.length_append, htimer]
    exact Nat.mul_le_mul_right _ (Nat.div_le_div_right (Nat.le_add_right _ _))

theorem Alike.of_append (h : Alike p₀ handler duration (log ++ later))
    (hrun : p₀.moves? (log.map Prod.snd) = some pool) : Alike p₀ handler duration log := by
  intro x hx
  refine h x ?_
  rw [Pool.observe_append hrun]
  exact List.mem_append_left _ hx

theorem begins?_or_accepts? (p p' : Pool) (m : Pool.Move) :
    p.begins? m p' = none ∨ p.accepts? m p' = none := by
  cases m <;> first | exact .inl rfl | exact .inr rfl

/-- The handlers of the run are executed in rounds. -/
def InRounds (p₀ : Pool) (workers duration : Nat) (log : List (Nat × Pool.Move)) (b : Bench) :
    Prop :=
  Paced workers duration b.clock.timer (p₀.observe Pool.accepts? log).length (p₀.alarms log)

section

variable (hstart : Pool.start name config = .ok p₀) (h : Run p₀ handler log b)
include hstart h

theorem Run.delay_of_held (halike : Alike p₀ handler duration log) {task : Task}
    (htask : task ∈ b.pool.held) (store : Store) : handler.delay task store = duration := by
  have htaken := (Pool.taken_perm hstart h.moves?).symm.subset (List.mem_append_right _ htask)
  have haccepted := Pool.fifo hstart h.moves? ▸ List.mem_append_left _ htaken
  obtain ⟨x, hx, rfl⟩ := List.mem_map.1 haccepted
  exact (halike x hx).2 store

/-- The handlers that have ended were set for times that have come. -/
theorem Run.length_le_countP : (p₀.alarms log).length ≤
    (p₀.alarms log).countP (· ≤ b.clock.timer) + b.pool.runningCount := by
  have hperm := Pool.alarms_perm hstart h.moves?
  have hdue : ((p₀.observe Pool.due? log).map Prod.snd).countP (· ≤ b.clock.timer) =
      ((p₀.observe Pool.due? log).map Prod.snd).length := by
    refine List.countP_eq_length.2 fun wake hwake => ?_
    obtain ⟨x, hx, rfl⟩ := List.mem_map.1 hwake
    obtain ⟨y, hy, htime⟩ := Pool.time_of_observe hx
    rw [← h.due_eq hstart x hx, ← htime]
    exact decide_eq_true (h.time_le y hy)
  rw [hperm.countP_eq, hperm.length_eq, List.countP_append, hdue, List.length_append,
    Pool.length_wakes]
  omega

variable (hrounds : InRounds p₀ config.workers.toNat duration log b)
include hrounds

/-- A worker that is about to begin with a task does so when the round of the task begins. -/
theorem Run.timer_eq (hheld : b.pool.held ≠ []) :
    b.clock.timer = (p₀.alarms log).length / config.workers.toNat * duration := by
  have hpos := List.length_pos_iff.2 hheld
  have htaken := Pool.length_taken hstart h.moves?
  have haccepted := Pool.length_accepted hstart h.moves?
  refine Nat.le_antisymm (hrounds.punctual (by omega)) ?_
  by_contra hearly
  have hcount := hrounds.countP_le (Pool.start_eq hstart).1 (Nat.lt_of_not_le hearly)
  have hover := h.length_le_countP hstart
  have hrunning := Pool.runningCount_lt hheld
  rw [(h.pool_run hstart).workers_length.1] at hrunning
  omega

/-- While not all tasks have begun, time passes at most up to the round of the next one: nothing
else can happen only when every worker executes a task. -/
theorem Run.time_le_round (hn : b.pool.NoneLost) (hstill : b.Still) {time : Nat}
    (htime : ∀ wake ∈ b.pool.wakes, time ≤ wake)
    (hleft : (p₀.alarms log).length < (p₀.observe Pool.accepts? log).length) :
    time ≤ (p₀.alarms log).length / config.workers.toNat * duration := by
  have htaken := Pool.length_taken hstart h.moves?
  have haccepted := Pool.length_accepted hstart h.moves?
  rw [hstill.idle.held_eq_nil hn, List.length_nil] at htaken
  have hqueued : b.pool.queued ≠ [] := List.length_pos_iff.1 (by omega)
  have hrunning : b.pool.runningCount = b.pool.workers.length :=
    List.countP_eq_length.2 (hstill.idle.all_running (h.pool_run hstart) hn hqueued)
  rw [(h.pool_run hstart).workers_length.1] at hrunning
  by_contra hlate
  have hcount := hrounds.countP_lt (Pool.start_eq hstart).1 (Nat.lt_of_not_le hlate)
  have hwakes : b.pool.wakes.countP (time ≤ ·) = b.pool.wakes.length :=
    List.countP_eq_length.2 fun wake hwake => decide_eq_true (htime wake hwake)
  rw [(Pool.alarms_perm hstart h.moves?).countP_eq, List.countP_append, hwakes,
    Pool.length_wakes] at hcount
  omega

theorem Run.inRounds_move (hm : b.pool.move? m = some b'.pool)
    (htimer : b'.clock.timer = b.clock.timer)
    (halike : Alike p₀ handler duration (log ++ [(b.clock.timer, m)]))
    (hbegins : ∀ wake, b.pool.begins? m b'.pool = some wake →
      b.pool.held ≠ [] ∧ wake = b.clock.timer + duration) :
    InRounds p₀ config.workers.toNat duration (log ++ [(b.clock.timer, m)]) b' := by
  have haccepts : p₀.observe Pool.accepts? (log ++ [(b.clock.timer, m)]) = _ :=
    Pool.observe_snoc h.moves? hm
  rw [InRounds, htimer, haccepts, Pool.alarms, Pool.observe_snoc h.moves? hm, List.map_append,
    Pool.map_snd_toList]
  cases hbegin : b.pool.begins? m b'.pool with
  | some wake =>
    obtain ⟨hheld, rfl⟩ := hbegins wake hbegin
    have hnone : b.pool.accepts? m b'.pool = none :=
      (begins?_or_accepts? ..).resolve_left (by rw [hbegin]; exact Option.some_ne_none _)
    rw [hnone, Option.map_none, Option.toList_none, List.append_nil]
    exact hrounds.begin (h.timer_eq hstart hrounds hheld)
  | none =>
    rw [Option.toList_none, List.append_nil]
    cases haccept : b.pool.accepts? m b'.pool with
    | none =>
      rw [Option.map_none, Option.toList_none, List.append_nil]
      exact hrounds
    | some task =>
      -- It is accepted at the start, when no round can have passed.
      have hzero : b.clock.timer = 0 := by
        refine (halike (b.clock.timer, task) ?_).1
        rw [haccepts, haccept]
        exact List.mem_append_right _ List.mem_cons_self
      exact ⟨hrounds.begun_eq, fun _ => hzero ▸ Nat.zero_le _⟩

end

/-! ## Every run -/

section

variable (hstart : Pool.start name config = .ok p₀) (h : Run p₀ handler log b)
  (fits : ∀ task, .submit task ∈ Pool.requests (log.map Prod.snd) → task.operation.Fits)
  (halike : Alike p₀ handler duration log)
include hstart h fits halike

theorem Run.inRounds : InRounds p₀ config.workers.toNat duration log b := by
  have hbefore {log : List (Nat × Pool.Move)} {x : Nat × Pool.Move}
      (fits : ∀ task, .submit task ∈ Pool.requests ((log ++ [x]).map Prod.snd) →
        task.operation.Fits) :
      ∀ task, .submit task ∈ Pool.requests (log.map Prod.snd) → task.operation.Fits := by
    intro task htask
    refine fits task ?_
    rw [List.map_append]
    exact Pool.mem_requests_snoc htask _
  induction h with
  | start => exact ⟨rfl, fun h => absurd h (Nat.lt_irrefl _)⟩
  | step hr hs ih =>
    obtain ⟨hm, htimer, -⟩ := move?_turn hs
    have hpast := halike.of_append hr.moves?
    refine hr.inRounds_move hstart (ih (hbefore fits) hpast) hm htimer halike fun wake hwake => ?_
    obtain ⟨task, htask, rfl⟩ := turn_begins hwake
    rw [hr.handler_eq, hr.delay_of_held hstart hpast htask]
    exact ⟨List.ne_nil_of_mem htask, rfl⟩
  | outside hr hout hm ih =>
    refine hr.inRounds_move hstart (ih (hbefore fits) (halike.of_append hr.moves?)) hm rfl halike
      fun wake hwake => ?_
    rw [(outside_eq_none hout).1] at hwake
    cases hwake
  | arrange _ _ _ ih => exact ih fits halike
  | pass timer wall hr hstill hle ih =>
    have hrounds := ih fits halike
    have hn := (hr.pool_run hstart).noneLost fits
    exact ⟨hrounds.begun_eq, hr.time_le_round hstart hrounds hn hstill hle⟩

/-- Every handler was set for a time up to the end of the last round. -/
theorem Run.alarm_le {wake : Nat} (hwake : wake ∈ p₀.alarms log) :
    wake ≤ span config.workers.toNat duration (p₀.observe Pool.accepts? log).length := by
  have hrounds := h.inRounds hstart fits halike
  have htaken := Pool.length_taken hstart h.moves?
  have haccepted := Pool.length_accepted hstart h.moves?
  rw [hrounds.begun_eq] at hwake
  obtain ⟨k, hk, rfl⟩ := List.mem_map.1 hwake
  have hlt := List.mem_range.1 hk
  exact roundEnd_le_span (Pool.start_eq hstart).1 (by omega)

end

/-! ## The end of the last round -/

/-- The handler of every task that was accepted has ended. -/
def AllEnded (p₀ : Pool) (log : List (Nat × Pool.Move)) : Prop :=
  ((p₀.observe Pool.ends? log).map Prod.snd).Perm ((p₀.observe Pool.accepts? log).map Prod.snd)

/-- All tasks are over at this time, and the last of them is not over earlier. -/
structure OverAt (p₀ : Pool) (log : List (Nat × Pool.Move)) (b : Bench) (time : Nat) : Prop where
  ended_le : ∀ x ∈ p₀.observe Pool.ends? log, x.1 ≤ time
  last : AllEnded p₀ log → time ∈ (p₀.observe Pool.ends? log).map Prod.fst
  allEnded : time < b.clock.timer ∨ time ≤ b.clock.timer ∧ b.Still → AllEnded p₀ log

theorem Run.allEnded_iff (hstart : Pool.start name config = .ok p₀) (h : Run p₀ handler log b) :
    AllEnded p₀ log ↔ b.pool.unfinished = [] := by
  have hperm := Pool.accepted_perm_unfinished hstart h.moves?
  constructor
  · intro hall
    have hlength := (hall.trans hperm).length_eq
    rw [List.length_append] at hlength
    exact List.eq_nil_of_length_eq_zero (by omega)
  · intro hnone
    rw [hnone, List.append_nil] at hperm
    exact hperm.symm

theorem Run.allEnded_of_begun (hstart : Pool.start name config = .ok p₀)
    (h : Run p₀ handler log b) (hwakes : b.pool.wakes = [])
    (hbegun : (p₀.observe Pool.accepts? log).length ≤ (p₀.alarms log).length) :
    AllEnded p₀ log := by
  have htaken := Pool.length_taken hstart h.moves?
  have haccepted := Pool.length_accepted hstart h.moves?
  have hrunning := Pool.length_wakes b.pool
  rw [hwakes, ← Pool.length_executing] at hrunning
  refine (h.allEnded_iff hstart).2 (List.eq_nil_of_length_eq_zero ?_)
  rw [Pool.unfinished, List.length_append, List.length_append, ← hrunning, List.length_nil]
  omega

section

variable (hstart : Pool.start name config = .ok p₀) (h : Run p₀ handler log b)
  (fits : ∀ task, .submit task ∈ Pool.requests (log.map Prod.snd) → task.operation.Fits)
include hstart h fits

/-- The handler of the last task was set for the end of the last round. -/
theorem Run.span_mem_ended (halike : Alike p₀ handler duration log)
    (hn : (p₀.observe Pool.accepts? log).length = n) (hpos : 0 < n) (hall : AllEnded p₀ log) :
    span config.workers.toNat duration n ∈ (p₀.observe Pool.ends? log).map Prod.fst := by
  have hperm := Pool.alarms_perm hstart h.moves?
  have hends := hall.length_eq
  have halarms := Pool.length_alarms hstart h.moves?
  have htaken := Pool.length_taken hstart h.moves?
  have haccepted := Pool.length_accepted hstart h.moves?
  rw [List.length_map, List.length_map] at hends
  have hwakes : b.pool.wakes = [] :=
    List.eq_nil_of_length_eq_zero (by rw [Pool.length_wakes]; omega)
  rw [hwakes, List.append_nil, ← h.ended_eq hstart] at hperm
  refine hperm.subset ?_
  obtain ⟨k, rfl⟩ := Nat.exists_eq_succ_of_ne_zero (Nat.ne_of_gt hpos)
  rw [← roundEnd_last (Pool.start_eq hstart).1, (h.inRounds hstart fits halike).begun_eq]
  exact List.mem_map_of_mem (List.mem_range.2 (by omega))

/-- After the last round no handler executes, and no task is left to begin with. -/
theorem Run.allEnded_of_span (halike : Alike p₀ handler duration log)
    (hn : (p₀.observe Pool.accepts? log).length = n)
    (hlate : span config.workers.toNat duration n < b.clock.timer ∨
      span config.workers.toNat duration n ≤ b.clock.timer ∧ b.Still) : AllEnded p₀ log := by
  have hle {wake : Nat} (hwake : wake ∈ b.pool.wakes) :
      wake ≤ span config.workers.toNat duration n :=
    hn ▸ h.alarm_le hstart fits halike
      ((Pool.alarms_perm hstart h.moves?).symm.subset (List.mem_append_right _ hwake))
  rcases hlate with hlate | ⟨hlate, hstill⟩
  · have hwakes : b.pool.wakes = [] := List.eq_nil_iff_forall_not_mem.2 fun wake hmem =>
      Nat.not_lt_of_le ((h.timer_le hstart wake hmem).trans (hle hmem)) hlate
    refine h.allEnded_of_begun hstart hwakes (Nat.le_of_not_lt fun hleft => ?_)
    have hround := (h.inRounds hstart fits halike).punctual hleft
    have hspan : roundEnd _ duration _ ≤ span _ duration n :=
      roundEnd_le_span (Pool.start_eq hstart).1 (hn ▸ hleft)
    rw [roundEnd, Nat.succ_mul] at hspan
    omega
  · have hwakes : b.pool.wakes = [] := List.eq_nil_iff_forall_not_mem.2 fun wake hmem =>
      Nat.not_lt_of_le ((hle hmem).trans hlate) ((still_iff.1 hstill).2.2 wake hmem)
    have hworkers := (Pool.start_eq hstart).1
    have hrunning := hstill.idle.runningCount_eq (h.pool_run hstart)
      ((h.pool_run hstart).noneLost fits)
    rw [← Pool.length_wakes, hwakes, List.length_nil] at hrunning
    exact (h.allEnded_iff hstart).2 (List.eq_nil_of_length_eq_zero (by omega))

theorem Run.overAt (halike : Alike p₀ handler duration log)
    (hn : (p₀.observe Pool.accepts? log).length = n) (hpos : 0 < n) :
    OverAt p₀ log b (span config.workers.toNat duration n) where
  ended_le x hx := by
    refine hn ▸ h.alarm_le hstart fits halike
      ((Pool.alarms_perm hstart h.moves?).symm.subset (List.mem_append_left _ ?_))
    rw [← h.ended_eq hstart]
    exact List.mem_map_of_mem hx
  last hall := h.span_mem_ended hstart fits halike hn hpos hall
  allEnded hlate := h.allEnded_of_span hstart fits halike hn hlate

/-- With nobody held back at the gate, the calls that are at rest submit nothing more, and what was
submitted is executed. -/
theorem Run.goes_to_end (halike : Alike p₀ handler duration log)
    (hn : (p₀.observe Pool.accepts? log).length = n) (hpos : 0 < n)
    (hc : config.queueCapacity = 0) (hstill : b.Still) :
    ∃ later b', Run p₀ handler (log ++ later) b' ∧ (∀ x ∈ later, x.2.isInternal = true) ∧
      p₀.observe Pool.accepts? (log ++ later) = p₀.observe Pool.accepts? log ∧
      OverAt p₀ (log ++ later) b' (span config.workers.toNat duration n) ∧
      AllEnded p₀ (log ++ later) := by
  obtain ⟨later, b', hr, hinternal, hstill', htime⟩ :=
    h.lasts hstart fits (span config.workers.toNat duration n)
  have hrest : b.pool.moves? (later.map Prod.snd) = some b'.pool := by
    have hmoves := hr.moves?
    rwa [List.map_append, Pool.moves?_append h.moves?] at hmoves
  have hpool := h.pool_run hstart
  have hsated := Pool.Paused.sated (still_iff.1 hstill).1 hpool (hpool.gate_eq_none hc)
  have hsame : p₀.observe Pool.accepts? (log ++ later) = p₀.observe Pool.accepts? log := by
    rw [Pool.observe_append h.moves?, hsated.observe_accepts? hinternal hrest, List.append_nil]
  have hfits : ∀ task, .submit task ∈ Pool.requests ((log ++ later).map Prod.snd) →
      task.operation.Fits := by
    rwa [Pool.requests_append_internal hinternal]
  have halike' : Alike p₀ handler duration (log ++ later) := by
    rw [Alike, hsame]
    exact halike
  have hover := hr.overAt hstart hfits halike' (hsame ▸ hn) hpos
  exact ⟨later, b', hr, hinternal, hsame, hover, hover.allEnded (.inr ⟨htime, hstill'⟩)⟩

/-- Workers take tasks in the order in which they were accepted. Whenever nothing can happen unless
time passes, as many handlers execute as there are workers and unfinished tasks for them. So tasks
that are accepted at the start and take equally long are over when so many rounds are that each
worker had its share of them. -/
theorem Run.fifo_work_conserving :
    (p₀.observe Pool.takes? log).map Prod.snd ++ b.pool.queued =
        (p₀.observe Pool.accepts? log).map Prod.snd ∧
      ((p₀.observe Pool.accepts? log).map Prod.snd).Perm
        ((p₀.observe Pool.ends? log).map Prod.snd ++ b.pool.unfinished) ∧
      (b.Still → b.pool.runningCount = min config.workers.toNat b.pool.unfinished.length) ∧
      ∀ n duration, 0 < n → (p₀.observe Pool.accepts? log).length = n →
        Alike p₀ handler duration log →
        OverAt p₀ log b (span config.workers.toNat duration n) ∧
        (config.queueCapacity = 0 → b.Still → ∃ later b', Run p₀ handler (log ++ later) b' ∧
          (∀ x ∈ later, x.2.isInternal = true) ∧
          p₀.observe Pool.accepts? (log ++ later) = p₀.observe Pool.accepts? log ∧
          OverAt p₀ (log ++ later) b' (span config.workers.toNat duration n) ∧
          AllEnded p₀ (log ++ later)) := by
  have hrun := h.pool_run hstart
  refine ⟨Pool.fifo hstart h.moves?, Pool.accepted_perm_unfinished hstart h.moves?,
    fun hstill => hstill.idle.runningCount_eq hrun (hrun.noneLost fits), ?_⟩
  intro n duration hpos hn halike
  exact ⟨h.overAt hstart fits halike hn hpos,
    fun hc hstill => h.goes_to_end hstart fits halike hn hpos hc hstill⟩

end

/-- Two workers, and nobody is held back. -/
def pair : PoolConfig := { workers := 2, queueCapacity := 0 }

def pairStart : Pool := { name := "pair", workers := [.ready, .ready], gate := none }

def pairTask (id : UInt64) : Task := ⟨⟨id⟩, "pair", .read ⟨"bucket", "key"⟩ none⟩

/-- Every task takes five milliseconds. -/
def pairHandler : Handler := .scripted [] { delay := 5 }

/-- Three tasks are submitted, and the workers begin with two of them. -/
def pairPlay : List (Pool.Move ⊕ Part) :=
  ([0, 1, 2].flatMap fun i => .inl (.call (.submit (pairTask (.ofNat i)))) ::
      List.replicate 5 (.inr (.client i))) ++
    List.replicate 3 (.inr (.worker 0)) ++ List.replicate 3 (.inr (.worker 1))

def pairBench : Bench := { pool := pairStart, handler := pairHandler }

/-- The moves of the pool so far, and the bench after them. -/
def pairMiddle : List (Nat × Pool.Move) × Bench :=
  (play? pairPlay [] pairBench).getD ([], pairBench)

theorem start_pair : Pool.start "pair" pair = .ok pairStart := rfl

theorem play?_pair : play? pairPlay [] pairBench = some pairMiddle := by
  have hplays : (play? pairPlay [] pairBench).isSome = true := by decide +kernel
  obtain ⟨x, hx⟩ := Option.isSome_iff_exists.1 hplays
  rw [pairMiddle, hx, Option.getD_some]

theorem still_pairMiddle : pairMiddle.2.Still := by
  refine still_iff.2 ⟨fun i => ?_, ⟨fun w => ?_, fun w phase now wake => ?_⟩, ?_⟩
  · match i with
    | 0 | 1 | 2 | _ + 3 => rfl
  · match w with
    | 0 | 1 | _ + 2 => rfl
  · match w with
    | 0 | 1 | _ + 2 => rfl
  · rw [show pairMiddle.2.pool.wakes = [5, 5] from rfl]
    decide

theorem accepted_pairMiddle : pairStart.observe Pool.accepts? pairMiddle.1 =
    [(0, pairTask 0), (0, pairTask 1), (0, pairTask 2)] := rfl

theorem fifo_work_conserving_pair : Pool.start "pair" pair = .ok pairStart ∧
    Run pairStart pairHandler pairMiddle.1 pairMiddle.2 ∧ pairMiddle.2.Still ∧
    Alike pairStart pairHandler 5 pairMiddle.1 ∧
    (pairStart.observe Pool.takes? pairMiddle.1).map Prod.snd = [pairTask 0, pairTask 1] ∧
    pairMiddle.2.pool.queued = [pairTask 2] ∧ pairMiddle.2.pool.runningCount = 2 ∧
    ∃ later b, Run pairStart pairHandler (pairMiddle.1 ++ later) b ∧
      AllEnded pairStart (pairMiddle.1 ++ later) ∧
      10 ∈ (pairStart.observe Pool.ends? (pairMiddle.1 ++ later)).map Prod.fst := by
  have hrun : Run pairStart pairHandler pairMiddle.1 pairMiddle.2 :=
    (Run.start {} {}).of_play? play?_pair
  have halike : Alike pairStart pairHandler 5 pairMiddle.1 := by
    intro x hx
    rw [accepted_pairMiddle] at hx
    refine ⟨?_, fun _ => rfl⟩
    simp only [List.mem_cons, List.not_mem_nil, or_false] at hx
    rcases hx with rfl | rfl | rfl <;> rfl
  have hfits : ∀ task, .submit task ∈ Pool.requests (pairMiddle.1.map Prod.snd) →
      task.operation.Fits := by
    intro task htask
    rw [show Pool.requests (pairMiddle.1.map Prod.snd) =
      [.submit (pairTask 0), .submit (pairTask 1), .submit (pairTask 2)] from rfl] at htask
    simp only [List.mem_cons, List.not_mem_nil, Pool.Request.submit.injEq, or_false] at htask
    rcases htask with rfl | rfl | rfl <;> exact nofun
  obtain ⟨-, -, hbusy, hrounds⟩ :=
    Run.fifo_work_conserving start_pair hrun hfits
  obtain ⟨-, hend⟩ := hrounds 3 5 (by decide) (congrArg List.length accepted_pairMiddle) halike
  obtain ⟨later, b, hlater, -, -, hover, hall⟩ := hend rfl still_pairMiddle
  exact ⟨start_pair, hrun, still_pairMiddle, halike, rfl, rfl, hbusy still_pairMiddle, later, b,
    hlater, hall, hover.last hall⟩

end Bench

end FaultDrill
