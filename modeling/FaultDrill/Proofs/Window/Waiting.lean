import FaultDrill.Proofs.Timeline

/-! # Waiting for a phase

A change of the window is announced only to those who have registered, and the announcement leaves
nothing behind for those who come later. So whoever registers first and looks at the phase then
misses nothing: between the look and the sleep a change either is announced to the sleeper or still
has its announcement ahead. Each change wakes each sleeper once.
-/

namespace FaultDrill

namespace Waiter

/-- What a waiter does in one step, in this phase. -/
inductive Turn (phase : WindowPhase) (w : Waiter) : WaitStage → Prop
  | register : w.stage = .starting → Turn phase w (.registered false)
  | reach {heard : Bool} : w.stage = .registered heard → w.target ≤ phase → Turn phase w .returned
  | sleep {heard : Bool} : w.stage = .registered heard → ¬ w.target ≤ phase →
      Turn phase w (.asleep heard)
  | wake : w.stage = .asleep true → Turn phase w .starting

variable {phase : WindowPhase} {w w' : Waiter}

theorem turn_of_step? (h : w.step? phase = some w') :
    ∃ stage, w' = { w with stage } ∧ w.Turn phase stage := by
  unfold step? at h
  split at h
  case h_1 hs => cases h; exact ⟨_, rfl, .register hs⟩
  case h_2 heard hs =>
    cases h
    refine ⟨_, rfl, ?_⟩
    split
    case isTrue hp => exact .reach hs hp
    case isFalse hp => exact .sleep hs hp
  case h_3 hs => cases h; exact ⟨_, rfl, .wake hs⟩
  case h_4 | h_5 => cases h

theorem Turn.not_resting {stage : WaitStage} (h : w.Turn phase stage) :
    ¬ (w.stage = .asleep false ∨ w.stage = .returned) := by
  cases h with
  | register hs | reach hs | sleep hs | wake hs => simp [hs]

theorem step?_eq_none_iff (phase : WindowPhase) :
    w.step? phase = none ↔ w.stage = .asleep false ∨ w.stage = .returned := by
  unfold step?
  split <;> simp_all

@[simp] theorem target_hear : w.hear.target = w.target := by
  unfold hear
  split <;> rfl

theorem stage_hear : w.hear.stage = match w.stage with
    | .registered _ => .registered true
    | .asleep _ => .asleep true
    | stage => stage := by
  unfold hear
  split <;> simp_all

theorem hear_hear : w.hear.hear = w.hear := by
  obtain ⟨target, stage⟩ := w
  cases stage <;> rfl

end Waiter

namespace WatchedWindow

def moves? (s : WatchedWindow) (ms : List Move) : Option WatchedWindow := ms.foldlM move? s

/-- The move goes on with a call; the others begin one. -/
def Move.IsStep : Move → Prop
  | .announce | .step _ => True
  | .openAt _ | .closeAt _ | .wait _ => False

/-- No call can go on. -/
def Quiet (s : WatchedWindow) : Prop := ∀ m : Move, m.IsStep → s.move? m = none

/-- What one move makes of the window and those who wait. -/
inductive Moved (s : WatchedWindow) : Move → WatchedWindow → Prop
  | changes {m : Move} {window : Window} : (∀ i, m ≠ .step i) →
      window.phase.rank = s.window.phase.rank + 1 →
      Moved s m { s with window, unannounced := s.unannounced + 1 }
  | announces : 0 < s.unannounced → Moved s .announce
      { s with waiters := s.waiters.map Waiter.hear, unannounced := s.unannounced - 1 }
  | waits (target : WindowPhase) :
      Moved s (.wait target) { s with waiters := s.waiters ++ [{ target }] }
  | turns {i : Nat} {w : Waiter} {stage : WaitStage} : s.waiters[i]? = some w →
      w.Turn s.window.phase stage →
      Moved s (.step i) { s with waiters := s.waiters.set i { w with stage } }

variable {s s' : WatchedWindow} {m : Move} {ms later : List Move} {w w' : Waiter} {i : Nat}
  {φ ψ : WindowPhase} {todo : List WaitStage}

theorem moves?_cons_eq_some : s.moves? (m :: ms) = some s' ↔
    ∃ s₁, s.move? m = some s₁ ∧ s₁.moves? ms = some s' := by
  simp only [moves?, List.foldlM_cons, Option.bind_eq_bind, Option.bind_eq_some_iff]

theorem moved_of_move? (h : s.move? m = some s') : s.Moved m s' := by
  cases m with
  | openAt now =>
    obtain ⟨window, hw, rfl⟩ := Option.map_eq_some_iff.1 h
    obtain ⟨hp, rfl⟩ := Timeline.signalOpen_eq_ok (toOption_eq_some hw)
    exact .changes nofun (by rw [hp]; rfl)
  | closeAt now =>
    obtain ⟨window, hw, rfl⟩ := Option.map_eq_some_iff.1 h
    obtain ⟨hp, rfl⟩ := Timeline.signalClose_eq_ok (toOption_eq_some hw)
    exact .changes nofun (by rw [hp]; rfl)
  | announce =>
    simp only [move?] at h
    split at h
    case isTrue hu => cases h; exact .announces hu
    case isFalse => cases h
  | wait target => cases h; exact .waits target
  | step i =>
    simp only [move?, Option.bind_eq_bind, Option.bind_eq_some_iff] at h
    obtain ⟨w, hw, w', hstep, h⟩ := h
    cases h
    obtain ⟨stage, rfl, hturn⟩ := Waiter.turn_of_step? hstep
    exact .turns hw hturn

/-! ## Nothing is missed -/

/-- A waiter that sleeps and has heard nothing waits for a phase that was not reached, or the
announcement is still ahead; one that has heard did so of a change that was made. -/
def Serves (s : WatchedWindow) (w : Waiter) : Prop :=
  match w.stage with
  | .starting | .registered false => True
  | .registered true | .asleep true => s.unannounced < s.window.phase.rank
  | .asleep false => w.target ≤ s.window.phase → 0 < s.unannounced
  | .returned => w.target ≤ s.window.phase

structure Kept (s : WatchedWindow) : Prop where
  announced : s.unannounced ≤ s.window.phase.rank
  serves : ∀ w ∈ s.waiters, s.Serves w

theorem Serves.turn {stage : WaitStage} (h : s.Serves w) (ht : w.Turn s.window.phase stage) :
    s.Serves { w with stage } := by
  unfold Serves at h ⊢
  cases ht with
  | register | wake => trivial
  | reach _ hp => exact hp
  | @sleep heard hs hp =>
    rw [hs] at h
    cases heard with
    | false => exact fun hp' => (hp hp').elim
    | true => exact h

theorem Serves.hear (h : s.Serves w) (hu : 0 < s.unannounced)
    (hr : s.unannounced ≤ s.window.phase.rank) {waiters : List Waiter} :
    Serves { s with waiters, unannounced := s.unannounced - 1 } w.hear := by
  unfold Serves at h ⊢
  rw [Waiter.stage_hear, Waiter.target_hear]
  cases hs : w.stage with
  | starting => trivial
  | registered | asleep => dsimp only; omega
  | returned => rwa [hs] at h

theorem Serves.change {window : Window} (h : s.Serves w)
    (hr : window.phase.rank = s.window.phase.rank + 1) :
    Serves { s with window, unannounced := s.unannounced + 1 } w := by
  unfold Serves at h ⊢
  have hmono (hp : w.target ≤ s.window.phase) : w.target ≤ window.phase :=
    Nat.le_trans hp (by omega)
  split at h <;> simp_all

theorem kept_start : Kept {} where
  announced := Nat.le_refl _
  serves := List.forall_mem_nil _

theorem Kept.move (h : s.Kept) (hm : s.Moved m s') : s'.Kept := by
  cases hm with
  | changes _ hr =>
    constructor
    · simpa [hr] using h.announced
    · exact fun w hw => (h.serves w hw).change hr
  | announces hu =>
    constructor
    · exact Nat.le_trans (Nat.sub_le _ _) h.announced
    · intro w' hw'
      obtain ⟨w, hw, rfl⟩ := List.mem_map.1 hw'
      exact (h.serves w hw).hear hu h.announced
  | waits =>
    constructor
    · exact h.announced
    · intro w hw
      rcases List.mem_append.1 hw with hw | hw
      · exact h.serves w hw
      · rw [List.mem_singleton.1 hw]
        trivial
  | turns hw ht =>
    constructor
    · exact h.announced
    · intro w' hw'
      rcases List.mem_or_eq_of_mem_set hw' with hw' | rfl
      · exact h.serves w' hw'
      · exact (h.serves _ (List.mem_of_getElem? hw)).turn ht

theorem Kept.moves (h : s.Kept) (hms : s.moves? ms = some s') : s'.Kept := by
  induction ms generalizing s with
  | nil =>
    cases hms
    exact h
  | cons m ms ih =>
    obtain ⟨s₁, hm, hms⟩ := moves?_cons_eq_some.1 hms
    exact ih (h.move (moved_of_move? hm)) hms

/-- Where no call can go on, everything is announced, and who has not returned sleeps. -/
theorem quiet_iff : s.Quiet ↔ s.unannounced = 0 ∧
    ∀ w ∈ s.waiters, w.stage = .asleep false ∨ w.stage = .returned := by
  constructor
  · intro h
    constructor
    · have hannounce := h .announce trivial
      simpa [move?] using hannounce
    · intro w hw
      obtain ⟨i, hi⟩ := List.mem_iff_getElem?.1 hw
      have hstep := h (.step i) trivial
      rw [← Waiter.step?_eq_none_iff s.window.phase]
      cases hnext : w.step? s.window.phase with
      | none => rfl
      | some w' => simp [move?, hi, hnext] at hstep
  · rintro ⟨hu, hw⟩ m hm
    cases m with
    | announce => simp [move?, hu]
    | step i =>
      simp only [move?]
      cases hi : s.waiters[i]? with
      | none => rfl
      | some w =>
        have hnone := (Waiter.step?_eq_none_iff s.window.phase).2
          (hw w (List.mem_of_getElem? hi))
        simp [hnone]
    | openAt | closeAt | wait => exact hm.elim

theorem Kept.returned (h : s.Kept) (hq : s.Quiet) (hw : w ∈ s.waiters)
    (hp : w.target ≤ s.window.phase) : w.stage = .returned := by
  obtain ⟨hu, hasleep⟩ := quiet_iff.1 hq
  rcases hasleep w hw with hs | hs
  · have hserves := h.serves w hw
    rw [Serves, hs] at hserves
    have := hserves hp
    omega
  · exact hs

/-! ## Every change wakes every sleeper once -/

/-- The stage that the waiter comes to by this move, if it is a step of its own. -/
def ownStage? (i : Nat) (m : Move) (s' : WatchedWindow) : Option WaitStage :=
  match m with
  | .step j => if j = i then s'.waiters[i]?.map Waiter.stage else none
  | _ => none

/-- The stages that the waiter comes to by its own steps in a run. -/
def stages (i : Nat) (s : WatchedWindow) : List Move → List WaitStage
  | [] => []
  | m :: ms =>
    match s.move? m with
    | some s' => (ownStage? i m s').toList ++ s'.stages i ms
    | none => []

/-- Where somebody comes to who waits for phase `t`, has heard nothing and looks in phase `ψ`. -/
def look (t ψ : WindowPhase) : WaitStage := if t ≤ ψ then .returned else .asleep false

/-- The stages that lie ahead of a waiter for phase `t`. It was asleep in phase `φ`, and the window
goes on to phase `ψ` and stays there. -/
inductive Ahead (t φ ψ : WindowPhase) (s : WatchedWindow) : WaitStage → List WaitStage → Prop
  | before : s.window.phase = φ → s.unannounced = 0 →
      Ahead t φ ψ s (.asleep false) [.starting, .registered false, look t ψ]
  | changed : s.window.phase = ψ → s.unannounced = 1 →
      Ahead t φ ψ s (.asleep false) [.starting, .registered false, look t ψ]
  | heard : s.window.phase = ψ → s.unannounced = 0 →
      Ahead t φ ψ s (.asleep true) [.starting, .registered false, look t ψ]
  | woken : s.window.phase = ψ → s.unannounced = 0 →
      Ahead t φ ψ s .starting [.registered false, look t ψ]
  | registered : s.window.phase = ψ → s.unannounced = 0 →
      Ahead t φ ψ s (.registered false) [look t ψ]
  | settled : s.window.phase = ψ → s.unannounced = 0 → Ahead t φ ψ s (look t ψ) []

variable {t : WindowPhase} {stage : WaitStage}

theorem Ahead.of_same (h : Ahead t φ ψ s stage todo) (hw : s'.window = s.window)
    (hu : s'.unannounced = s.unannounced) : Ahead t φ ψ s' stage todo := by
  cases h with
  | before hp h0 => exact .before (hw ▸ hp) (hu.trans h0)
  | changed hp h1 => exact .changed (hw ▸ hp) (hu.trans h1)
  | heard hp h0 => exact .heard (hw ▸ hp) (hu.trans h0)
  | woken hp h0 => exact .woken (hw ▸ hp) (hu.trans h0)
  | registered hp h0 => exact .registered (hw ▸ hp) (hu.trans h0)
  | settled hp h0 => exact .settled (hw ▸ hp) (hu.trans h0)

theorem rank_inj {a b : WindowPhase} (h : a.rank = b.rank) : a = b := by
  cases a <;> cases b <;> first | rfl | cases h

/-- The window goes on from phase `φ`, and no further than to phase `ψ`. -/
theorem Ahead.change {window : Window} (h : Ahead t φ ψ s stage todo) (hφ : ψ.rank = φ.rank + 1)
    (hr : window.phase.rank = s.window.phase.rank + 1) (hle : window.phase.rank ≤ ψ.rank) :
    Ahead t φ ψ { s with window, unannounced := s.unannounced + 1 } stage todo := by
  cases h with
  | before hp hu =>
    refine .changed (rank_inj ?_) (by rw [hu])
    rw [hr, hp, hφ]
  | changed hp | heard hp | woken hp | registered hp | settled hp =>
    rw [hr, hp] at hle
    omega

theorem Ahead.announce {waiters : List Waiter} (h : Ahead t φ ψ s stage todo)
    (hu : 0 < s.unannounced) :
    Ahead t φ ψ { s with waiters, unannounced := s.unannounced - 1 }
      (Waiter.hear ⟨t, stage⟩).stage todo := by
  cases h with
  | changed hp h1 => exact .heard hp (by rw [h1])
  | before _ h0 | heard _ h0 | woken _ h0 | registered _ h0 | settled _ h0 => omega

theorem Ahead.turn {waiters : List Waiter} {next : WaitStage} (h : Ahead t φ ψ s stage todo)
    (ht : Waiter.Turn s.window.phase ⟨t, stage⟩ next) :
    ∃ rest, todo = next :: rest ∧ Ahead t φ ψ { s with waiters } next rest := by
  cases h with
  | before | changed => exact (ht.not_resting (.inl rfl)).elim
  | heard hp hu =>
    cases ht with
    | wake => exact ⟨_, rfl, .woken hp hu⟩
    | register hs | reach hs | sleep hs => cases hs
  | woken hp hu =>
    cases ht with
    | register => exact ⟨_, rfl, .registered hp hu⟩
    | wake hs | reach hs | sleep hs => cases hs
  | registered hp hu =>
    cases ht with
    | reach hs ht =>
      have hlook : look t ψ = .returned := if_pos (hp ▸ ht)
      exact ⟨[], by rw [hlook], hlook ▸ .settled hp hu⟩
    | sleep hs ht =>
      cases hs
      have hlook : look t ψ = .asleep false := if_neg (hp ▸ ht)
      exact ⟨[], by rw [hlook], hlook ▸ .settled hp hu⟩
    | wake hs | register hs => cases hs
  | settled hp hu =>
    refine (ht.not_resting ?_).elim
    unfold look
    split
    case isTrue => exact .inr rfl
    case isFalse => exact .inl rfl

/-- A waiter that has to wait in phase `ψ` has nothing ahead. -/
theorem Ahead.quiet (h : Ahead t φ ψ s stage todo) (hne : φ ≠ ψ) (hp : s.window.phase = ψ)
    (hq : s.Quiet) (hw : s.waiters[i]? = some ⟨t, stage⟩) : todo = [] ∧ stage = look t ψ := by
  obtain ⟨hu, hstage⟩ := quiet_iff.1 hq
  have hstage := hstage _ (List.mem_of_getElem? hw)
  cases h with
  | before hp' => exact (hne (hp'.symm.trans hp)).elim
  | changed _ h1 => omega
  | heard | woken | registered => simp at hstage
  | settled => exact ⟨rfl, rfl⟩

theorem Ahead.move (h : Ahead t φ ψ s stage todo) (hw : s.waiters[i]? = some ⟨t, stage⟩)
    (hφ : ψ.rank = φ.rank + 1) (hm : s.Moved m s') (hle : s'.window.phase.rank ≤ ψ.rank) :
    ∃ stage' rest, s'.waiters[i]? = some ⟨t, stage'⟩ ∧ Ahead t φ ψ s' stage' rest ∧
      todo = (ownStage? i m s').toList ++ rest := by
  cases hm with
  | changes hm hr =>
    refine ⟨stage, todo, hw, h.change hφ hr hle, ?_⟩
    unfold ownStage?
    split
    case h_1 j => exact (hm j rfl).elim
    case h_2 => rfl
  | announces hu =>
    refine ⟨_, todo, ?_, h.announce hu, rfl⟩
    have hhear : Waiter.hear ⟨t, stage⟩ = ⟨t, (Waiter.hear ⟨t, stage⟩).stage⟩ := by
      cases stage <;> rfl
    rw [List.getElem?_map, hw, Option.map_some, ← hhear]
  | waits =>
    have hlt : i < s.waiters.length := (List.getElem?_eq_some_iff.1 hw).1
    exact ⟨stage, todo, (List.getElem?_append_left hlt).trans hw, h.of_same rfl rfl, rfl⟩
  | @turns j w next hj ht =>
    by_cases hji : j = i
    · subst hji
      obtain rfl := Option.some.inj (hw.symm.trans hj)
      have hlt : j < s.waiters.length := (List.getElem?_eq_some_iff.1 hw).1
      obtain ⟨rest, rfl, hrest⟩ := h.turn ht
      refine ⟨next, rest, List.getElem?_set_self hlt, hrest, ?_⟩
      simp [ownStage?, List.getElem?_set_self hlt]
    · refine ⟨stage, todo, (List.getElem?_set_ne hji).trans hw, h.of_same rfl rfl, ?_⟩
      simp [ownStage?, hji]

theorem rank_le_move (hm : s.Moved m s') : s.window.phase.rank ≤ s'.window.phase.rank := by
  cases hm with
  | changes _ hr =>
    dsimp only
    omega
  | announces | waits | turns => exact Nat.le_refl _

theorem rank_le_moves (hms : s.moves? ms = some s') :
    s.window.phase.rank ≤ s'.window.phase.rank := by
  induction ms generalizing s with
  | nil =>
    cases hms
    exact Nat.le_refl _
  | cons m ms ih =>
    obtain ⟨s₁, hm, hms⟩ := moves?_cons_eq_some.1 hms
    exact Nat.le_trans (rank_le_move (moved_of_move? hm)) (ih hms)

/-- The steps of a waiter in a run are those that lay ahead of it. -/
theorem Ahead.moves (h : Ahead t φ ψ s stage todo) (hw : s.waiters[i]? = some ⟨t, stage⟩)
    (hφ : ψ.rank = φ.rank + 1) (hms : s.moves? ms = some s') (hp : s'.window.phase = ψ)
    (hq : s'.Quiet) : s.stages i ms = todo ∧ s'.waiters[i]? = some ⟨t, look t ψ⟩ := by
  induction ms generalizing s stage todo with
  | nil =>
    cases hms
    have hne : φ ≠ ψ := by
      rintro rfl
      omega
    obtain ⟨rfl, rfl⟩ := h.quiet hne hp hq hw
    exact ⟨rfl, hw⟩
  | cons m ms ih =>
    obtain ⟨s₁, hm, hms⟩ := moves?_cons_eq_some.1 hms
    have hle : s₁.window.phase.rank ≤ ψ.rank := hp ▸ rank_le_moves hms
    obtain ⟨stage', rest, hw', h', rfl⟩ := h.move hw hφ (moved_of_move? hm) hle
    obtain ⟨hstages, hend⟩ := ih h' hw' hms
    exact ⟨by rw [stages, hm, ← hstages], hend⟩

/-! ## Coming to rest -/

theorem moves?_append {s'' : WatchedWindow} (h : s.moves? ms = some s')
    (h' : s'.moves? later = some s'') : s.moves? (ms ++ later) = some s'' := by
  unfold moves? at *
  rw [List.foldlM_append, h]
  exact h'

/-- However many changes are unannounced, those who wait hear of them. -/
theorem moves?_announce (s : WatchedWindow) :
    s.moves? (List.replicate s.unannounced .announce) = some { s with
      waiters := if 0 < s.unannounced then s.waiters.map Waiter.hear else s.waiters
      unannounced := 0 } := by
  obtain ⟨window, waiters, u⟩ := s
  induction u generalizing waiters with
  | zero => rfl
  | succ u ih =>
    have hfirst : move? ⟨window, waiters, u + 1⟩ .announce =
        some ⟨window, waiters.map Waiter.hear, u⟩ := rfl
    rw [List.replicate_succ, moves?, List.foldlM_cons, hfirst]
    refine (ih (waiters.map Waiter.hear)).trans ?_
    have hhear : Waiter.hear ∘ Waiter.hear = Waiter.hear := funext fun _ => Waiter.hear_hear
    simp [hhear]

theorem moves?_settleWaiter (n : Nat) (hw : s.waiters[i]? = some w) :
    ∃ k, s.moves? (List.replicate k (.step i)) =
      some { s with waiters := s.waiters.set i (settleWaiter s.window.phase n w) } := by
  have hlt : i < s.waiters.length := (List.getElem?_eq_some_iff.1 hw).1
  have hself : s.waiters.set i w = s.waiters := by
    rw [(List.getElem?_eq_some_iff.1 hw).2.symm, List.set_getElem_self]
  induction n generalizing s w with
  | zero => exact ⟨0, by rw [settleWaiter, hself]; rfl⟩
  | succ n ih =>
    unfold settleWaiter
    split
    case h_1 => exact ⟨0, by rw [hself]; rfl⟩
    case h_2 w' hstep =>
      have hfirst : s.move? (.step i) = some { s with waiters := s.waiters.set i w' } := by
        simp [move?, hw, hstep]
      have hlt' : i < (s.waiters.set i w').length := by simpa using hlt
      obtain ⟨k, hk⟩ := ih (s := { s with waiters := s.waiters.set i w' })
        (List.getElem?_set_self hlt) hlt' (by simp)
      refine ⟨k + 1, ?_⟩
      rw [List.replicate_succ, moves?, List.foldlM_cons, hfirst]
      exact hk.trans (by simp)

theorem moves?_settleWaiters (window : Window) (u n : Nat) (first rest : List Waiter) :
    ∃ later : List Move, (∀ m ∈ later, m.IsStep) ∧ moves? ⟨window, first ++ rest, u⟩ later =
      some ⟨window, first ++ rest.map (settleWaiter window.phase n), u⟩ := by
  induction rest generalizing first with
  | nil => exact ⟨[], List.forall_mem_nil _, rfl⟩
  | cons w rest ih =>
    have hw : (first ++ w :: rest)[first.length]? = some w := by simp
    obtain ⟨k, hk⟩ := moves?_settleWaiter (s := ⟨window, first ++ w :: rest, u⟩) n hw
    obtain ⟨later, hsteps, hlater⟩ := ih (first ++ [settleWaiter window.phase n w])
    refine ⟨List.replicate k (.step first.length) ++ later, ?_, moves?_append hk ?_⟩
    · intro m hm
      rcases List.mem_append.1 hm with hm | hm
      · rw [List.eq_of_mem_replicate hm]
        trivial
      · exact hsteps m hm
    · simpa using hlater

theorem settleWaiter_rests (phase : WindowPhase) (w : Waiter) :
    (settleWaiter phase 5 w).stage = .asleep false ∨ (settleWaiter phase 5 w).stage = .returned := by
  obtain ⟨target, stage⟩ := w
  by_cases hp : target ≤ phase
  · cases stage with
    | starting | returned => simp [settleWaiter, Waiter.step?, hp]
    | registered heard | asleep heard => cases heard <;> simp [settleWaiter, Waiter.step?, hp]
  · cases stage with
    | starting | returned => simp [settleWaiter, Waiter.step?, hp]
    | registered heard | asleep heard => cases heard <;> simp [settleWaiter, Waiter.step?, hp]

/-- The calls that were made go on until none of them can. -/
theorem moves?_settle (s : WatchedWindow) : ∃ later : List Move, (∀ m ∈ later, m.IsStep) ∧
    s.moves? later = some s.settle ∧ s.settle.Quiet := by
  obtain ⟨later, hsteps, hlater⟩ := moves?_settleWaiters s.window 0 5 []
    (if 0 < s.unannounced then s.waiters.map Waiter.hear else s.waiters)
  refine ⟨List.replicate s.unannounced .announce ++ later, ?_,
    moves?_append s.moves?_announce hlater, ?_⟩
  · intro m hm
    rcases List.mem_append.1 hm with hm | hm
    · rw [List.eq_of_mem_replicate hm]
      trivial
    · exact hsteps m hm
  · rw [quiet_iff]
    constructor
    · rfl
    · intro w hw
      obtain ⟨w, -, rfl⟩ := List.mem_map.1 hw
      exact settleWaiter_rests _ w

/-! ## Waiting -/

/-- What holds of the window and of those who wait. -/
structure Attentive (s : WatchedWindow) : Prop where
  /-- Nobody returns before the phase is reached. -/
  returns : ∀ i s' w, s.move? (.step i) = some s' → s'.waiters[i]? = some w →
    w.stage = .returned → w.target ≤ s.window.phase
  returned : ∀ w ∈ s.waiters, w.stage = .returned → w.target ≤ s.window.phase
  /-- Nobody is left behind where no call can go on, and there the calls come to. -/
  quiet_returned : s.Quiet → ∀ w ∈ s.waiters, w.target ≤ s.window.phase → w.stage = .returned
  settles : ∃ later : List Move, (∀ m ∈ later, m.IsStep) ∧ s.moves? later = some s.settle ∧
    s.settle.Quiet
  /-- Who sleeps is woken once by the next change, registers, looks, and returns or sleeps. -/
  woken : s.Quiet → ∀ i w, s.waiters[i]? = some w → ¬ w.target ≤ s.window.phase →
    w.stage = .asleep false ∧ ∀ later s', s.moves? later = some s' → s'.Quiet →
      s'.window.phase.rank = s.window.phase.rank + 1 →
      s.stages i later = [.starting, .registered false, look w.target s'.window.phase]
  /-- Whom the opening wakes and who waits for the close goes back to sleep, and the close wakes
  it again. -/
  goes_back : ∀ i later s', s.waiters[i]? = some ⟨.postFault, .asleep true⟩ →
    s.window.phase = .open → s.moves? later = some s' → s'.Quiet → s'.window.phase = .open →
    s.stages i later = [.starting, .registered false, .asleep false] ∧
      ∀ more s'', s'.moves? more = some s'' → s''.Quiet → s''.window.phase = .postFault →
        s'.stages i more = [.starting, .registered false, .returned]

theorem Kept.woken (h : s.Kept) (hq : s.Quiet) (hw : s.waiters[i]? = some w)
    (hp : ¬ w.target ≤ s.window.phase) : w.stage = .asleep false ∧
    ∀ later s', s.moves? later = some s' → s'.Quiet →
      s'.window.phase.rank = s.window.phase.rank + 1 →
      s.stages i later = [.starting, .registered false, look w.target s'.window.phase] := by
  obtain ⟨hu, hasleep⟩ := quiet_iff.1 hq
  have hmem := List.mem_of_getElem? hw
  have hstage : w.stage = .asleep false := by
    refine (hasleep w hmem).resolve_right fun hs => hp ?_
    have hserves := h.serves w hmem
    rwa [Serves, hs] at hserves
  obtain ⟨t, stage⟩ := w
  obtain rfl : stage = .asleep false := hstage
  refine ⟨rfl, fun later s' hlater hq' hr => ?_⟩
  have hahead : Ahead t s.window.phase s'.window.phase s (.asleep false) _ := .before rfl hu
  exact (hahead.moves hw hr hlater rfl hq').1

/-- Whatever is done to a window and in whatever order its calls go on, those who wait for a phase
return once it is reached, and not before. -/
theorem attentive (hms : moves? {} ms = some s) : s.Attentive := by
  have h : s.Kept := kept_start.moves hms
  constructor
  case returned =>
    intro w hw hs
    have hserves := h.serves w hw
    rwa [Serves, hs] at hserves
  case returns =>
    intro i s' w' hm hw' hs
    have hmoved := moved_of_move? hm
    have hserves := (h.move hmoved).serves w' (List.mem_of_getElem? hw')
    rw [Serves, hs] at hserves
    cases hmoved with
    | changes hno => exact (hno i rfl).elim
    | turns => exact hserves
  case quiet_returned => exact fun hq w hw hp => h.returned hq hw hp
  case settles => exact s.moves?_settle
  case woken => exact fun hq i w hw hp => h.woken hq hw hp
  case goes_back =>
    intro i later s' hw hopen hlater hq hopen'
    have hu : s.unannounced = 0 := by
      have hheard : s.unannounced < s.window.phase.rank := h.serves _ (List.mem_of_getElem? hw)
      rw [hopen] at hheard
      exact Nat.lt_one_iff.1 hheard
    have hahead : Ahead .postFault .preFault .open s (.asleep true) _ := .heard hopen hu
    obtain ⟨hstages, hend⟩ := hahead.moves hw rfl hlater hopen' hq
    refine ⟨hstages, fun more s'' hmore hq' hpost => ?_⟩
    have hunmet : ¬ WindowPhase.postFault ≤ s'.window.phase := by
      rw [hopen']
      decide
    have hwoken := ((h.moves hlater).woken hq hend hunmet).2 more s'' hmore hq'
      (by rw [hpost, hopen']; rfl)
    rwa [hpost] at hwoken

/-- Somebody waits for the close, and the window opens before they have looked. -/
def trialMoves : List Move :=
  [.wait .postFault, .step 0, .openAt .zero, .step 0, .announce]

def trialWindow (stage : WaitStage) : WatchedWindow :=
  { window := { phase := .open, openedAt := some .zero }, waiters := [⟨.postFault, stage⟩] }

theorem attentive_trial : moves? {} trialMoves = some (trialWindow (.asleep true)) ∧
    (trialWindow (.asleep true)).moves? [.step 0, .step 0, .step 0] =
      some (trialWindow (.asleep false)) ∧ (trialWindow (.asleep false)).Quiet ∧
    (trialWindow (.asleep true)).stages 0 [.step 0, .step 0, .step 0] =
      [.starting, .registered false, .asleep false] := by
  have hms : moves? {} trialMoves = some (trialWindow (.asleep true)) := rfl
  have hlater : (trialWindow (.asleep true)).moves? [.step 0, .step 0, .step 0] =
      some (trialWindow (.asleep false)) := rfl
  have hquiet : (trialWindow (.asleep false)).Quiet :=
    quiet_iff.2 ⟨rfl, fun w hw => .inl (by rw [List.mem_singleton.1 hw])⟩
  exact ⟨hms, hlater, hquiet, ((attentive hms).goes_back 0 _ _ rfl rfl hlater hquiet rfl).1⟩

end WatchedWindow

end FaultDrill
