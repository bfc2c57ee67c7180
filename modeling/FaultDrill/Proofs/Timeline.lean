import FaultDrill.Clock
import FaultDrill.Proofs.Lists
import FaultDrill.Proofs.Policy
import FaultDrill.Proofs.Pool.Run
import FaultDrill.Proofs.Result

/-! # One clock for the window and the results

A pool executes tasks while the window opens and closes, all on one clock that never goes
back. What a task saw of the window when it began agrees with the times that are kept.
-/

namespace FaultDrill

/-- The move as it is made when the window is in this phase and the clock shows this time. -/
def Pool.Move.reading (phase : WindowPhase) (now : Duration) : Pool.Move → Pool.Move
  | begin w _ _ wake => begin w phase now wake
  | finish w outcome _ => finish w outcome now
  | m => m

namespace Pool

variable {p p' : Pool} {m : Move} {w wake : Nat} {task : Task} {phase : WindowPhase}
  {t : Duration} {r : OperationResult}

/-- A worker has assembled the result, and it was sent or is about to be. -/
def Recorded (p : Pool) (r : OperationResult) : Prop :=
  r ∈ p.results ∨ ∃ w : Nat, p.workers[w]? = some (.finished r)

theorem not_recorded_of_start {name : String} {config : PoolConfig}
    (h : start name config = .ok p) : ¬ p.Recorded r := by
  rintro (hr | ⟨w, hw⟩)
  · rw [(start_eq h).2] at hr
    cases hr
  · cases ready_of_start h hw

theorem Step.running_cases (h : Step p m p')
    (hw : p'.workers[w]? = some (.running task phase t wake)) :
    p.workers[w]? = some (.running task phase t wake) ∨ m = .begin w phase t wake := by
  rcases h.worker_cases hw with hw | ⟨v, q, -, hs, -⟩
  · exact .inl hw
  · cases hs
    exact .inr rfl

/-- A result is recorded when a handler ends. -/
theorem Step.recorded_cases (h : Step p m p') (hr : p'.Recorded r) :
    p.Recorded r ∨ ∃ (w : Nat) (task : Task) (phase : WindowPhase) (t : Duration) (wake : Nat)
      (outcome : Outcome) (now : Duration),
      p.workers[w]? = some (.running task phase t wake) ∧ m = .finish w outcome now ∧
      OperationResult.assemble task.id task.stream task.operation outcome t now phase = .ok r := by
  rcases hr with hr | ⟨w, hw⟩
  · refine .inl ?_
    cases h with
    | client _ _ hc => exact .inl (hc.results_eq ▸ hr)
    | @worker w v v' q _ hv hw =>
      change r ∈ q.results at hr
      cases hw with
      | report =>
        dsimp only at hr
        split at hr
        case isTrue =>
          rcases List.mem_append.1 hr with hr | hr
          · exact .inl hr
          · rw [List.mem_singleton.1 hr]
            exact .inr ⟨w, hv⟩
        case isFalse => exact .inl hr
      | _ => exact .inl hr
    | _ => exact .inl hr
  · rcases h.worker_cases hw with hw | ⟨v, q, hv, hs, -⟩
    · exact .inl (.inr ⟨w, hw⟩)
    · cases hs with
      | @finish task phase t wake outcome now _ ha =>
        exact .inr ⟨w, task, phase, t, wake, outcome, now, hv, rfl, ha⟩

end Pool

structure Timeline where
  pool : Pool
  window : Window := {}
  now : Duration

namespace Timeline

inductive Move
  | pool (move : Pool.Move)
  | openWindow
  | closeWindow
  | pass (later : Duration)

/-- What one move leads to; none if it is not possible. A signal that the window refuses is not a
move. -/
def move? (s : Timeline) : Move → Option Timeline
  | .pool m => (s.pool.move? (m.reading s.window.phase s.now)).map ({ s with pool := · })
  | .openWindow => (s.window.signalOpen s.now).toOption.map ({ s with window := · })
  | .closeWindow => (s.window.signalClose s.now).toOption.map ({ s with window := · })
  | .pass later => if s.now ≤ later then some { s with now := later } else none

def moves? (s : Timeline) (ms : List Move) : Option Timeline := ms.foldlM move? s

variable {s s' : Timeline} {m : Move} {ms : List Move} {r : OperationResult} {now now' : Duration}
  {w w' : Window} {phase : WindowPhase} {t : Duration}

/-- What every move preserves holds after any number of moves. -/
theorem moves?_induction {P : Timeline → Prop}
    (hstep : ∀ s m s', P s → move? s m = some s' → P s') (hs : P s)
    (h : s.moves? ms = some s') : P s' := by
  induction ms generalizing s with
  | nil =>
    cases h
    exact hs
  | cons m ms ih =>
    simp only [moves?, List.foldlM_cons, Option.bind_eq_bind, Option.bind_eq_some_iff] at h
    obtain ⟨s₁, hm, h⟩ := h
    exact ih (hstep s m s₁ hs hm) h

/-! ## The window -/

/-- The edges of the window lie in the past, in order, and tell its phase. -/
def Dated (w : Window) (now : Duration) : Prop :=
  match w.phase with
  | .preFault => w.openedAt = none ∧ w.closedAt = none
  | .open => w.closedAt = none ∧ ∃ opened, w.openedAt = some opened ∧ opened ≤ now
  | .postFault => ∃ opened closed, w.openedAt = some opened ∧ w.closedAt = some closed ∧
      opened ≤ closed ∧ closed ≤ now

theorem Dated.ordered (h : Dated w now) : w.Ordered := by
  intro closed hc
  unfold Dated at h
  split at h
  · rw [h.2] at hc; cases hc
  · rw [h.1] at hc; cases hc
  · obtain ⟨opened, closed', ho, hc', hle, -⟩ := h
    rw [hc'] at hc
    cases hc
    exact ⟨opened, ho, hle⟩

theorem Dated.pass (h : Dated w now) (hle : now ≤ now') : Dated w now' := by
  unfold Dated at *
  split at h
  · exact h
  · obtain ⟨hc, opened, ho, hnow⟩ := h
    exact ⟨hc, opened, ho, Nat.le_trans hnow hle⟩
  · obtain ⟨opened, closed, ho, hc, hoc, hnow⟩ := h
    exact ⟨opened, closed, ho, hc, hoc, Nat.le_trans hnow hle⟩

theorem signalOpen_eq_ok (h : w.signalOpen now = .ok w') :
    w.phase = .preFault ∧ w' = { w with phase := .open, openedAt := some now } := by
  unfold Window.signalOpen at h
  split at h
  case h_1 hp => cases h; exact ⟨hp, rfl⟩
  case h_2 => cases h

theorem signalClose_eq_ok (h : w.signalClose now = .ok w') :
    w.phase = .open ∧ w' = { w with phase := .postFault, closedAt := some now } := by
  unfold Window.signalClose at h
  split at h
  case h_1 hp => cases h; exact ⟨hp, rfl⟩
  all_goals cases h

theorem Dated.open (h : Dated w now) (ho : w.signalOpen now = .ok w') : Dated w' now := by
  obtain ⟨hp, rfl⟩ := signalOpen_eq_ok ho
  rw [Dated, hp] at h
  exact ⟨h.2, now, rfl, Nat.le_refl _⟩

theorem Dated.close (h : Dated w now) (hc : w.signalClose now = .ok w') : Dated w' now := by
  obtain ⟨hp, rfl⟩ := signalClose_eq_ok hc
  rw [Dated, hp] at h
  obtain ⟨-, opened, ho, hle⟩ := h
  exact ⟨opened, now, ho, rfl, hle, Nat.le_refl _⟩

/-! ## What a task saw -/

/-- A task that began at this time lay in the window if it saw the window open. -/
structure Began (w : Window) (now : Duration) (phase : WindowPhase) (t : Duration) : Prop where
  past : t ≤ now
  inside : phase = .open → ∃ opened, w.openedAt = some opened ∧ opened ≤ t ∧
    ∀ closed, w.closedAt = some closed → t ≤ closed

theorem Began.of_dated (h : Dated w now) : Began w now w.phase now := by
  refine ⟨Nat.le_refl _, fun hp => ?_⟩
  rw [Dated, hp] at h
  obtain ⟨hc, opened, ho, hle⟩ := h
  exact ⟨opened, ho, hle, by simp [hc]⟩

theorem Began.pass (h : Began w now phase t) (hle : now ≤ now') : Began w now' phase t :=
  ⟨Nat.le_trans h.past hle, h.inside⟩

theorem Began.open (h : Began w now phase t) (hw : Dated w now)
    (ho : w.signalOpen now = .ok w') : Began w' now phase t := by
  obtain ⟨hp, rfl⟩ := signalOpen_eq_ok ho
  refine ⟨h.past, fun hphase => ?_⟩
  obtain ⟨opened, ho, -⟩ := h.inside hphase
  rw [Dated, hp] at hw
  rw [hw.1] at ho
  cases ho

theorem Began.close (h : Began w now phase t) (hc : w.signalClose now = .ok w') :
    Began w' now phase t := by
  obtain ⟨-, rfl⟩ := signalClose_eq_ok hc
  refine ⟨h.past, fun hphase => ?_⟩
  obtain ⟨opened, ho, hle, -⟩ := h.inside hphase
  refine ⟨opened, ho, hle, fun closed hc => ?_⟩
  cases hc
  exact h.past

/-- A result that agrees with the window and the clock. -/
structure Agrees (w : Window) (now : Duration) (r : OperationResult) : Prop where
  began : Began w now r.phaseAtStart r.startedAt
  lasted : r.startedAt ≤ r.finishedAt

/-- A task that saw the window open ran while it was, grace or no grace. -/
theorem Agrees.meets (h : Agrees w now r) (hp : r.phaseAtStart = .open) (grace : Duration) :
    r.Meets w grace := by
  obtain ⟨opened, ho, hle, hclosed⟩ := h.began.inside hp
  refine ⟨opened, ho, r.startedAt, Nat.le_refl _, h.lasted, ?_, fun closed hc => ?_⟩
  · have : opened.nanos ≤ r.startedAt.nanos := hle
    simp only [Duration.le_iff, Duration.sub]
    omega
  · exact Nat.le_trans (hclosed closed hc) (Nat.le_add_right _ _)

/-! ## Runs -/

/-- The window, the tasks that execute and the results agree on the clock. -/
structure Consistent (s : Timeline) : Prop where
  dated : Dated s.window s.now
  running : ∀ (w : Nat) task phase t wake,
    s.pool.workers[w]? = some (.running task phase t wake) → Began s.window s.now phase t
  recorded : ∀ r, s.pool.Recorded r → Agrees s.window s.now r

/-- A move is one of the pool, an edge of the window, or time that passes. -/
theorem move?_cases (h : s.move? m = some s') :
    (∃ (m : Pool.Move) (p : Pool),
      s.pool.move? (m.reading s.window.phase s.now) = some p ∧ s' = { s with pool := p }) ∨
      (∃ w, (s.window.signalOpen s.now = .ok w ∨ s.window.signalClose s.now = .ok w) ∧
        s' = { s with window := w }) ∨
      ∃ later, s.now ≤ later ∧ s' = { s with now := later } := by
  cases m with
  | pool m =>
    obtain ⟨p, hp, rfl⟩ := Option.map_eq_some_iff.1 h
    exact .inl ⟨m, p, hp, rfl⟩
  | openWindow =>
    obtain ⟨w, hw, rfl⟩ := Option.map_eq_some_iff.1 h
    exact .inr (.inl ⟨w, .inl (toOption_eq_some hw), rfl⟩)
  | closeWindow =>
    obtain ⟨w, hw, rfl⟩ := Option.map_eq_some_iff.1 h
    exact .inr (.inl ⟨w, .inr (toOption_eq_some hw), rfl⟩)
  | pass later =>
    simp only [move?] at h
    split at h
    case isTrue hle => cases h; exact .inr (.inr ⟨later, hle, rfl⟩)
    case isFalse => cases h

theorem Dated.move (hs : Dated s.window s.now) (hm : s.move? m = some s') :
    Dated s'.window s'.now := by
  rcases move?_cases hm with ⟨-, p, -, rfl⟩ | ⟨w, hw | hw, rfl⟩ | ⟨later, hle, rfl⟩
  · exact hs
  · exact hs.open hw
  · exact hs.close hw
  · exact hs.pass hle

theorem Began.move (h : Began s.window s.now phase t) (hs : Dated s.window s.now)
    (hm : s.move? m = some s') : Began s'.window s'.now phase t := by
  rcases move?_cases hm with ⟨-, p, -, rfl⟩ | ⟨w, hw | hw, rfl⟩ | ⟨later, hle, rfl⟩
  · exact h
  · exact h.open hs hw
  · exact h.close hw
  · exact h.pass hle

theorem Agrees.move (h : Agrees s.window s.now r) (hs : Dated s.window s.now)
    (hm : s.move? m = some s') : Agrees s'.window s'.now r :=
  ⟨h.began.move hs hm, h.lasted⟩

theorem Consistent.move (h : s.Consistent) (hm : s.move? m = some s') : s'.Consistent := by
  refine ⟨h.dated.move hm, ?_, ?_⟩
  · intro w task phase t wake hw
    rcases move?_cases hm with ⟨pm, p, hp, rfl⟩ | ⟨_, -, rfl⟩ | ⟨_, -, rfl⟩
    · rcases (Pool.step_of_move? hp).running_cases hw with hw | hbegin
      · exact h.running w task phase t wake hw
      · cases pm <;> cases hbegin
        exact .of_dated h.dated
    · exact (h.running w task phase t wake hw).move h.dated hm
    · exact (h.running w task phase t wake hw).move h.dated hm
  · intro r hr
    rcases move?_cases hm with ⟨pm, p, hp, rfl⟩ | ⟨_, -, rfl⟩ | ⟨_, -, rfl⟩
    · rcases (Pool.step_of_move? hp).recorded_cases hr with
        hr | ⟨w, task, phase, t, wake, outcome, now, hw, hfinish, hr⟩
      · exact h.recorded r hr
      · have hbegan := h.running w task phase t wake hw
        obtain ⟨written, rfl⟩ := OperationResult.assemble_eq_ok hr
        cases pm <;> cases hfinish
        exact ⟨hbegan, hbegan.past⟩
    · exact (h.recorded r hr).move h.dated hm
    · exact (h.recorded r hr).move h.dated hm

theorem Consistent.of_start {name : String} {config : PoolConfig} {p : Pool}
    (h : Pool.start name config = .ok p) (now : Duration) :
    Consistent { pool := p, now } where
  dated := ⟨rfl, rfl⟩
  running _ _ _ _ _ hw := nomatch Pool.ready_of_start h hw
  recorded _ hr := (Pool.not_recorded_of_start h hr).elim

/-- Whenever the edges are read after a result was recorded, it is excused as its times say. -/
theorem classify_recorded {name : String} {config : PoolConfig} {p : Pool} {now : Duration}
    {later : List Move} {policy : Policy} (hstart : Pool.start name config = .ok p)
    (hrun : moves? { pool := p, now } ms = some s) (hr : s.pool.Recorded r)
    (hlater : s.moves? later = some s') (hgrace : policy.Reaches s'.window) :
    (∃ c, policy.classify r s'.window.bounds = .ok c ∧
      (c = .expectedFailure ↔ policy.Excuses r s'.window)) ∧
    (r.phaseAtStart = .open → r.Meets s'.window .zero) ∧
    (Policy.strict.classify r s'.window.bounds = .ok .expectedFailure →
      r.Meets s'.window .zero) := by
  have hs : s.Consistent :=
    moves?_induction (fun _ _ _ h hm => h.move hm) (Consistent.of_start hstart now) hrun
  obtain ⟨hdated, hagrees⟩ : Dated s'.window s'.now ∧ Agrees s'.window s'.now r :=
    moves?_induction (P := fun s => Dated s.window s.now ∧ Agrees s.window s.now r)
      (fun _ _ _ h hm => ⟨h.1.move hm, h.2.move h.1 hm⟩) ⟨hs.dated, hs.recorded r hr⟩ hlater
  have hclassify (policy : Policy) (hgrace : policy.Reaches s'.window) :=
    policy.classify_iff hagrees.lasted hdated.ordered (hagrees.meets · policy.grace) hgrace
  refine ⟨hclassify policy hgrace, (hagrees.meets · .zero), fun hexpected => ?_⟩
  obtain ⟨c, hc, hiff⟩ := hclassify .strict fun closed _ => by
    simp [Policy.strict, Duration.add?, Duration.ofNanos?, Duration.zero, closed.bounded]
  rw [hexpected] at hc
  cases hc
  obtain ⟨-, -, hmeets | ⟨-, -, -, hkind⟩⟩ := hiff.1 rfl
  · exact hmeets
  · cases hkind

def trialPolicy : Policy := .withGrace Clock.instant .strict

/-- The window opens before the task of the pool's trial begins, and the task fails. -/
def trialMoves : List Move :=
  (Pool.trial.take 9).map .pool ++
    [.openWindow, .pass Clock.instant, .pool (.begin 0 .preFault .zero 0),
      .pool (.finish 0 (.failure .rejected "no") .zero)]

def trialResult : OperationResult where
  taskId := .first
  stream := "trial"
  kind := .read
  target := ⟨"bucket", "key"⟩
  written := none
  outcome := .failure .rejected "no"
  startedAt := Clock.instant
  finishedAt := Clock.instant
  phaseAtStart := .open

def trialMid : Timeline where
  pool := { Pool.trialStart with
    workers := [.finished trialResult]
    clients := [.returned (.ok ()), .leaving]
    gate := some { free := 0 }
    outstanding := 1 }
  window := { phase := .open, openedAt := some .zero }
  now := Clock.instant

def trialEnd : Timeline := { trialMid with
  window := { phase := .postFault, openedAt := some .zero, closedAt := some Clock.instant } }

theorem classify_recorded_trial :
    moves? { pool := Pool.trialStart, now := .zero } trialMoves = some trialMid ∧
      trialMid.pool.Recorded trialResult ∧
      trialMid.moves? [.closeWindow] = some trialEnd ∧ trialPolicy.Reaches trialEnd.window ∧
      ∃ c, trialPolicy.classify trialResult trialEnd.window.bounds = .ok c ∧
        (c = .expectedFailure ↔ trialPolicy.Excuses trialResult trialEnd.window) := by
  have hrun : moves? { pool := Pool.trialStart, now := .zero } trialMoves = some trialMid := rfl
  have hr : trialMid.pool.Recorded trialResult := .inr ⟨0, rfl⟩
  have hlater : trialMid.moves? [.closeWindow] = some trialEnd := rfl
  have hgrace : trialPolicy.Reaches trialEnd.window := by
    intro closed hc
    cases hc
    rfl
  exact ⟨hrun, hr, hlater, hgrace,
    (classify_recorded Pool.start_trial hrun hr hlater hgrace).1⟩

end Timeline

end FaultDrill
