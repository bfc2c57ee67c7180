import FaultDrill.Pool.Bench
import FaultDrill.Proofs.Pool.Order
import FaultDrill.Proofs.Pool.Settle
import FaultDrill.Proofs.World.Step

/-! # Runs of a bench

On a bench the calls and the workers take their steps in any order, and time passes only when none
of them can go on, up to the next time at which a handler is set to end. So handlers end at the
times for which they are set.
-/

namespace FaultDrill

namespace Pool

variable {config : PoolConfig} {p p' q : Pool} {handler : Handler} {phase : WindowPhase}
  {clock : Clock} {store store' : Store} {i w : Nat} {s s' : ClientStage} {m : Move}
  {ms : List Move} {log later : List (Nat × Move)}

/-! ## When a worker can go on -/

theorem wake?_eq : p.wake? w = p.workers[w]?.bind WorkerStage.wake? := by
  unfold wake?
  cases p.workers[w]? with
  | none => rfl
  | some v => cases v <;> rfl

theorem mem_wakes {wake : Nat} : wake ∈ p.wakes ↔ ∃ w, p.wake? w = some wake := by
  rw [wakes, List.mem_filterMap]
  simp only [wake?_eq, Option.bind_eq_some_iff]
  constructor
  · rintro ⟨v, hv, hwake⟩
    obtain ⟨w, hw⟩ := List.mem_iff_getElem?.1 hv
    exact ⟨w, v, hw, hwake⟩
  · rintro ⟨w, v, hw, hwake⟩
    exact ⟨v, List.mem_of_getElem? hw, hwake⟩

/-- A worker waits in the line, for the end of a handler, or for nothing any more. -/
theorem work?_eq_none_iff : p.work? handler phase clock store w = none ↔
    p.stepWorker? w = none ∧ (∀ phase now wake, p.begin? w phase now wake = none) ∧
      ∀ wake, p.wake? w = some wake → clock.timer < wake := by
  cases hv : p.workers[w]? with
  | none => simp [work?, stepWorker?, begin?, wake?, hv]
  | some v =>
    cases v with
    | holding task =>
      have hbegin (phase : WindowPhase) (now : Duration) (wake : Nat) :
          p.begin? w phase now wake ≠ none := by simp [begin?, hv]
      exact iff_of_false (by simp [work?, hv, hbegin]) fun h => hbegin .preFault .zero 0 (h.2.1 ..)
    | running task phase' startedAt wake =>
      have hfinish (outcome : Outcome) (now : Duration) : p.finish? w outcome now ≠ none := by
        simp only [finish?, hv, Option.bind_eq_bind, Option.bind_some]
        split <;> exact Option.some_ne_none _
      simp [work?, stepWorker?, begin?, wake?, hv, hfinish]
    | _ => simp [work?, begin?, wake?, hv]

/-! ## When nobody has anything to queue -/

/-- No call will put anything into the queue any more. -/
def Sated (p : Pool) : Prop := ∀ s ∈ p.clients, s.owes p.workers.length = 0

theorem ClientStep.owes_eq_zero (h : ClientStep p i s s' q) (hs : s.owes p.workers.length = 0) :
    s'.owes p.workers.length = 0 := by
  have howes := h.owes
  have hqueue : p.queue.length ≤ q.queue.length := by
    cases h <;> simp [releaseLatch, giveBackPermit, uncount]
  omega

theorem Sated.of_clients (h : p.Sated) (hworkers : q.workers.length = p.workers.length)
    (hclients : q.clients = p.clients ∨ q.clients = p.clients.map ClientStage.hear) : q.Sated := by
  intro s hs
  rw [hworkers]
  rcases hclients with hq | hq <;> rw [hq] at hs
  · exact h s hs
  · obtain ⟨s, hmem, rfl⟩ := List.mem_map.1 hs
    rw [ClientStage.hear_owes]
    exact h s hmem

theorem Sated.move (h : p.Sated) (hm : p.move? m = some p') (hi : m.isInternal = true) :
    p'.Sated := by
  cases step_of_move? hm with
  | @client i s s' q _ _ hs hc =>
    have hworkers : (q.setClient i s').workers.length = p.workers.length :=
      congrArg List.length hc.workers_eq
    intro t ht
    rcases List.mem_or_eq_of_mem_set ht with ht | rfl
    · exact hworkers ▸ h.of_clients (congrArg List.length hc.workers_eq) hc.clients_eq t ht
    · exact hworkers ▸ hc.owes_eq_zero (h s (List.mem_of_getElem? hs))
  | @worker w v v' q _ hv hw =>
    refine h.of_clients ?_ hw.clients_eq
    rw [setWorker, List.length_set, hw.workers_eq]
  | call | detach | deafen => cases hi

theorem Sated.accepts?_eq_none (h : p.Sated) (m : Move) (p' : Pool) : p.accepts? m p' = none := by
  cases m with
  | client i =>
    cases hs : p.clients[i]? with
    | none => simp [accepts?, hs]
    | some s =>
      have howes := h s (List.mem_of_getElem? hs)
      refine Pool.accepts?_eq_none hs fun task hcounted => ?_
      rw [hcounted] at howes
      cases howes
  | _ => rfl

theorem Sated.observe_accepts? (h : p.Sated) (hi : ∀ x ∈ later, x.2.isInternal = true)
    (hrun : p.moves? (later.map Prod.snd) = some q) : p.observe accepts? later = [] := by
  induction later generalizing p with
  | nil => rfl
  | cons x later ih =>
    obtain ⟨p₁, hm, hrest⟩ := moves?_cons.1 hrun
    have hrest := ih (h.move hm (hi x List.mem_cons_self))
      (fun x hx => hi x (List.mem_cons_of_mem _ hx)) hrest
    simp [observe, hm, h.accepts?_eq_none, hrest]

/-- Where nobody needs a permit, calls that cannot go on have queued what they had to. -/
theorem Paused.sated (hq : p.Paused) (h : Run config ms p) (hg : p.gate = none) : p.Sated := by
  intro s hs
  obtain ⟨i, hi⟩ := List.mem_iff_getElem?.1 hs
  have hwants := hq.wants h hi
  have hqueues := (role_eq (r := ClientStage.queues) hi).symm.trans (h.gateKept.unserved hg i)
  cases hq.halted hi with
  | permit => cases hqueues
  | read | write => cases hwants
  | _ => rfl

theorem Run.gate_eq_none (h : Run config ms p) (hc : config.queueCapacity = 0) :
    p.gate = none := by
  rcases h.balanced with ⟨-, hg⟩ | ⟨hpos, -⟩
  · exact hg
  · rw [hc] at hpos
    cases hpos

theorem requests_append_internal (h : ∀ x ∈ later, x.2.isInternal = true) :
    requests ((log ++ later).map Prod.snd) = requests (log.map Prod.snd) := by
  have hnone : requests (later.map Prod.snd) = [] := by
    refine List.filterMap_eq_nil_iff.2 fun m hm => ?_
    obtain ⟨x, hx, rfl⟩ := List.mem_map.1 hm
    have hinternal := h x hx
    cases hmove : x.2 <;> rw [hmove] at hinternal <;> first | rfl | cases hinternal
  rw [List.map_append, requests, List.filterMap_append]
  exact (congrArg _ hnone).trans (List.append_nil _)

end Pool

namespace Bench

/-- The move of the pool that the part makes when it has its turn. -/
def turn : Part → Bench → Pool.Move
  | .client i, _ => .client i
  | .worker w, b =>
    match b.pool.workers[w]? with
    | some (.holding task) =>
      .begin w b.window.phase b.clock.wall (b.clock.timer + b.handler.delay task b.store)
    | some (.running task _ _ _) => .finish w (b.handler.act task b.store).1 b.clock.wall
    | _ => .worker w

/-- Nothing can happen unless time passes or somebody comes from outside. -/
def Still (b : Bench) : Prop := ∀ part, b.step? part = none

/-- What a bench with this pool and this handler comes to: the moves of the pool, each with the time
on the timer at which it was made. -/
inductive Run (p₀ : Pool) (handler : Handler) : List (Nat × Pool.Move) → Bench → Prop
  | start (window : Window) (store : Store) :
      Run p₀ handler [] { pool := p₀, handler, window, store }
  | step {log b part b'} : Run p₀ handler log b → b.step? part = some b' →
      Run p₀ handler (log ++ [(b.clock.timer, b.turn part)]) b'
  /-- Somebody makes a call or gives one up, or leaves. -/
  | outside {log b m pool} : Run p₀ handler log b → m.isInternal = false →
      b.pool.move? m = some pool → Run p₀ handler (log ++ [(b.clock.timer, m)]) (b.withPool pool)
  /-- The window or the store changes. -/
  | arrange {log b} (window : Window) (store : Store) : Run p₀ handler log b →
      Run p₀ handler log { b with window, store }
  | pass {log b} (timer : Nat) (wall : Duration) : Run p₀ handler log b → b.Still →
      (∀ wake ∈ b.pool.wakes, b.clock.timer + timer ≤ wake) →
      Run p₀ handler log (b.pass timer wall)

variable {config : PoolConfig} {name : String} {p₀ : Pool} {handler : Handler} {b b' : Bench}
  {part : Part} {m : Pool.Move} {log later : List (Nat × Pool.Move)} {pool : Pool}

/-- What happens when somebody comes from outside or a part has its turn, one after the other. -/
def play? : List (Pool.Move ⊕ Part) → List (Nat × Pool.Move) → Bench →
    Option (List (Nat × Pool.Move) × Bench)
  | [], log, b => some (log, b)
  | .inl m :: rest, log, b =>
    if m.isInternal then none
    else do
      let pool ← b.pool.move? m
      play? rest (log ++ [(b.clock.timer, m)]) (b.withPool pool)
  | .inr part :: rest, log, b => do
    let b' ← b.step? part
    play? rest (log ++ [(b.clock.timer, b.turn part)]) b'

theorem Run.of_play? {happens : List (Pool.Move ⊕ Part)} (h : Run p₀ handler log b)
    (hplay : play? happens log b = some (later, b')) : Run p₀ handler later b' := by
  induction happens generalizing log b with
  | nil =>
    cases hplay
    exact h
  | cons next rest ih =>
    cases next with
    | inl m =>
      obtain ⟨hout, hplay⟩ := Option.ite_none_left_eq_some.1 hplay
      obtain ⟨pool, hm, hplay⟩ := Option.bind_eq_some_iff.1 hplay
      exact ih (h.outside (Bool.eq_false_iff.2 hout) hm) hplay
    | inr part =>
      obtain ⟨b₁, hs, hplay⟩ := Option.bind_eq_some_iff.1 hplay
      exact ih (h.step hs) hplay

theorem step?_worker {w : Nat} : b.step? (.worker w) = none ↔
    b.pool.work? b.handler b.window.phase b.clock b.store w = none := by
  simp [step?]

/-- Nothing can happen when the calls and the workers wait and no handler is due. -/
theorem still_iff : b.Still ↔
    b.pool.Paused ∧ b.pool.Idle ∧ ∀ wake ∈ b.pool.wakes, b.clock.timer < wake := by
  constructor
  · intro h
    have hworkers (w : Nat) := Pool.work?_eq_none_iff.1 (step?_worker.1 (h (.worker w)))
    refine ⟨fun i => by simpa [step?, Pool.move?] using h (.client i), ⟨fun w => (hworkers w).1,
      fun w => (hworkers w).2.1⟩, fun wake hwake => ?_⟩
    obtain ⟨w, hw⟩ := Pool.mem_wakes.1 hwake
    exact (hworkers w).2.2 wake hw
  · rintro ⟨hpaused, hidle, hlate⟩ (i | w)
    · have hclient : b.pool.stepClient? i = none := hpaused i
      simp [step?, hclient]
    · exact step?_worker.2 (Pool.work?_eq_none_iff.2 ⟨hidle.workers w, hidle.begins w,
        fun wake hwake => hlate wake (Pool.mem_wakes.2 ⟨w, hwake⟩)⟩)

theorem Still.idle (h : b.Still) : b.pool.Idle := (still_iff.1 h).2.1

/-! ## One step -/

theorem isInternal_turn (part : Part) (b : Bench) : (b.turn part).isInternal = true := by
  cases part with
  | client i => rfl
  | worker w =>
    rw [turn]
    split <;> rfl

theorem move?_turn (h : b.step? part = some b') :
    b.pool.move? (b.turn part) = some b'.pool ∧ b'.clock.timer = b.clock.timer ∧
      b'.handler = b.handler := by
  obtain ⟨⟨pool, store⟩, hnext, rfl⟩ := Option.map_eq_some_iff.1 h
  refine ⟨?_, rfl, rfl⟩
  change b.pool.move? (b.turn part) = some pool
  cases part with
  | client i =>
    obtain ⟨q, hm, heq⟩ := Option.map_eq_some_iff.1 hnext
    cases heq
    exact hm
  | worker w =>
    obtain ⟨v, hv, hnext⟩ := Option.bind_eq_some_iff.1 hnext
    simp only [turn, hv]
    cases v with
    | holding task =>
      obtain ⟨q, hm, heq⟩ := Option.map_eq_some_iff.1 hnext
      cases heq
      exact hm
    | running task phase startedAt wake =>
      obtain ⟨-, hnext⟩ := Option.ite_none_right_eq_some.1 hnext
      obtain ⟨q, hm, heq⟩ := Option.map_eq_some_iff.1 hnext
      cases heq
      exact hm
    | _ =>
      obtain ⟨q, hm, heq⟩ := Option.map_eq_some_iff.1 hnext
      cases heq
      exact hm

/-- A handler begins with the time that it takes. -/
theorem turn_begins {wake : Nat} (h : b.pool.begins? (b.turn part) pool = some wake) :
    ∃ task ∈ b.pool.held, wake = b.clock.timer + b.handler.delay task b.store := by
  cases part with
  | client i => cases h
  | worker w =>
    rw [turn] at h
    split at h
    case h_1 task hv =>
      cases h
      exact ⟨task, List.mem_filterMap.2 ⟨_, List.mem_of_getElem? hv, rfl⟩, rfl⟩
    case h_2 | h_3 => cases h

/-- A handler ends when the time is over for which it was set. -/
theorem turn_due {wake : Nat} (hs : b.step? part = some b')
    (h : b.pool.due? (b.turn part) pool = some wake) :
    wake ∈ b.pool.wakes ∧ wake ≤ b.clock.timer := by
  cases part with
  | client i => cases h
  | worker w =>
    rw [turn] at h
    split at h
    case h_2 task phase startedAt time hv =>
      rw [Pool.due?, hv] at h
      cases h
      obtain ⟨x, hnext, -⟩ := Option.map_eq_some_iff.1 hs
      obtain ⟨v, hv', hnext⟩ := Option.bind_eq_some_iff.1 hnext
      obtain rfl := Option.some.inj (hv.symm.trans hv')
      exact ⟨List.mem_filterMap.2 ⟨_, List.mem_of_getElem? hv, rfl⟩,
        (Option.ite_none_right_eq_some.1 hnext).1⟩
    case h_1 | h_3 => cases h

/-! ## What holds in every run -/

theorem Run.moves? (h : Run p₀ handler log b) : p₀.moves? (log.map Prod.snd) = some b.pool := by
  induction h with
  | start => rfl
  | step _ hs ih =>
    rw [List.map_append]
    exact Pool.moves?_snoc.2 ⟨_, ih, (move?_turn hs).1⟩
  | outside _ _ hm ih =>
    rw [List.map_append]
    exact Pool.moves?_snoc.2 ⟨_, ih, hm⟩
  | arrange _ _ _ ih | pass _ _ _ _ _ ih => exact ih

theorem Run.handler_eq (h : Run p₀ handler log b) : b.handler = handler := by
  induction h with
  | start => rfl
  | step _ hs ih => exact (move?_turn hs).2.2.trans ih
  | outside _ _ _ ih | arrange _ _ _ ih | pass _ _ _ _ _ ih => exact ih

theorem Run.time_le (h : Run p₀ handler log b) : ∀ x ∈ log, x.1 ≤ b.clock.timer := by
  induction h with
  | start => nofun
  | step _ hs ih =>
    rw [(move?_turn hs).2.1]
    exact List.forall_mem_append.2 ⟨ih, List.forall_mem_singleton.2 (Nat.le_refl _)⟩
  | outside _ _ _ ih =>
    exact List.forall_mem_append.2 ⟨ih, List.forall_mem_singleton.2 (Nat.le_refl _)⟩
  | arrange _ _ _ ih => exact ih
  | pass _ _ _ _ _ ih => exact fun x hx => (ih x hx).trans (Clock.timer_le_pass ..)

theorem outside_eq_none {p p' : Pool} (h : m.isInternal = false) :
    p.begins? m p' = none ∧ p.due? m p' = none := by
  cases m <;> first | exact ⟨rfl, rfl⟩ | cases h

section

variable (hstart : Pool.start name config = .ok p₀) (h : Run p₀ handler log b)
include hstart h

/-- No handler goes on for longer than it was set to. -/
theorem Run.timer_le : ∀ wake ∈ b.pool.wakes, b.clock.timer ≤ wake := by
  induction h with
  | start =>
    have hnone : p₀.wakes = [] := Pool.filterMap_workers_of_start hstart rfl
    intro wake hwake
    rw [hnone] at hwake
    cases hwake
  | step _ hs ih =>
    obtain ⟨hm, htimer, -⟩ := move?_turn hs
    intro wake hwake
    have hmem := (Pool.wakes_step hm).subset (List.mem_append_right _ hwake)
    rw [htimer]
    rcases List.mem_append.1 hmem with hbegin | hold
    · obtain ⟨task, -, rfl⟩ := turn_begins (Option.mem_toList.1 hbegin)
      exact Nat.le_add_right _ _
    · exact ih wake hold
  | outside _ hout hm ih =>
    intro wake hwake
    have hmem := (Pool.wakes_step hm).subset (List.mem_append_right _ hwake)
    rw [(outside_eq_none hout).1] at hmem
    exact ih wake hmem
  | arrange _ _ _ ih => exact ih
  | pass _ _ _ _ hle _ => exact hle

/-- A handler ends at the time for which it was set. -/
theorem Run.due_eq : ∀ x ∈ p₀.observe Pool.due? log, x.1 = x.2 := by
  induction h with
  | start => nofun
  | step hr hs ih =>
    rw [Pool.observe_snoc hr.moves? (move?_turn hs).1]
    refine List.forall_mem_append.2 ⟨ih, fun x hx => ?_⟩
    obtain ⟨wake, hdue, rfl⟩ := Option.map_eq_some_iff.1 (Option.mem_toList.1 hx)
    obtain ⟨hmem, hle⟩ := turn_due hs hdue
    exact Nat.le_antisymm (hr.timer_le hstart wake hmem) hle
  | outside hr hout hm ih =>
    rw [Pool.observe_snoc hr.moves? hm, (outside_eq_none hout).2]
    exact List.forall_mem_append.2 ⟨ih, nofun⟩
  | arrange _ _ _ ih | pass _ _ _ _ _ ih => exact ih

/-- The times at which handlers ended. -/
theorem Run.ended_eq : (p₀.observe Pool.ends? log).map Prod.fst =
    (p₀.observe Pool.due? log).map Prod.snd := by
  rw [Pool.map_fst_observe fun _ _ _ => Pool.ends?_isSome]
  exact List.map_congr_left (h.due_eq hstart)

theorem Run.pool_run : Pool.Run config (log.map Prod.snd) b.pool := .of_moves? hstart h.moves?

end

/-! ## Time goes on -/

section

variable (hstart : Pool.start name config = .ok p₀) (h : Run p₀ handler log b)
  (fits : ∀ task, .submit task ∈ Pool.requests (log.map Prod.snd) → task.operation.Fits)
include hstart h fits

/-- The calls and the workers come to a stop. -/
theorem Run.settles : ∃ later b', Run p₀ handler (log ++ later) b' ∧
    (∀ x ∈ later, x.2.isInternal = true) ∧ b'.Still ∧ b.clock.timer ≤ b'.clock.timer := by
  induction heffort : b.pool.effort using Nat.strong_induction_on generalizing log b with
  | _ effort ih =>
    by_cases hstill : b.Still
    · exact ⟨[], b, by rwa [List.append_nil], nofun, hstill, Nat.le_refl _⟩
    · obtain ⟨part, hpart⟩ := not_forall.1 hstill
      obtain ⟨b₁, hb₁⟩ := Option.ne_none_iff_exists'.1 hpart
      obtain ⟨hm, htimer, -⟩ := move?_turn hb₁
      have hinternal := isInternal_turn part b
      have hnext := h.step hb₁
      have hfits : ∀ task, .submit task ∈ Pool.requests
          ((log ++ [(b.clock.timer, b.turn part)]).map Prod.snd) → task.operation.Fits := by
        rwa [Pool.requests_append_internal (List.forall_mem_singleton.2 hinternal)]
      have hown : (b.turn part).IsOwn := by
        cases hturn : b.turn part <;> first | trivial | (rw [hturn] at hinternal; cases hinternal)
      have hlt := (h.pool_run hstart).effort_lt hm hown ((hnext.pool_run hstart).noneLost hfits)
      obtain ⟨later, b', hlater, hlaterInternal, hstill, hle⟩ :=
        ih _ (heffort ▸ hlt) hnext hfits rfl
      refine ⟨(b.clock.timer, b.turn part) :: later, b', ?_, ?_, hstill, htimer ▸ hle⟩
      · rwa [List.append_assoc] at hlater
      · exact List.forall_mem_cons.2 ⟨hinternal, hlaterInternal⟩

/-- Nothing keeps the timer from moving on. -/
theorem Run.lasts (time : Nat) : ∃ later b', Run p₀ handler (log ++ later) b' ∧
    (∀ x ∈ later, x.2.isInternal = true) ∧ b'.Still ∧ time ≤ b'.clock.timer := by
  induction hleft : time - b.clock.timer using Nat.strong_induction_on generalizing log b with
  | _ left ih =>
    obtain ⟨later, b₁, hr, hinternal, hstill, hle⟩ := h.settles hstart fits
    by_cases htime : time ≤ b₁.clock.timer
    · exact ⟨later, b₁, hr, hinternal, hstill, htime⟩
    · have hpass := hr.pass 1 Clock.instant hstill (still_iff.1 hstill).2.2
      have hfits : ∀ task, .submit task ∈ Pool.requests ((log ++ later).map Prod.snd) →
          task.operation.Fits := by
        rwa [Pool.requests_append_internal hinternal]
      have hlt : time - (b₁.pass 1 Clock.instant).clock.timer < left := by
        simp only [Bench.pass, Clock.pass]
        omega
      obtain ⟨more, b', hmore, hinternal', hstill', htime'⟩ := ih _ hlt hpass hfits rfl
      refine ⟨later ++ more, b', ?_, ?_, hstill', htime'⟩
      · rwa [← List.append_assoc]
      · exact List.forall_mem_append.2 ⟨hinternal, hinternal'⟩

end

end Bench

end FaultDrill
