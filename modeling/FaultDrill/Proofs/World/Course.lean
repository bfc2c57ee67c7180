import FaultDrill.Proofs.Driver.Quit
import FaultDrill.Proofs.World.Alone

/-! # What happens to one driver of a world

The moves of a world that are steps of one driver, of calls to its pool or of its workers are a
course of that driver, whatever else happens in between.
-/

namespace FaultDrill

open Driver

/-- The driver that takes the step or whose pool it happens in. -/
def Process.driver? : Process → Option Nat
  | driver k | client k _ | worker k _ => some k
  | fault _ | collection => none

namespace World

/-- What happens in the pool of driver `i` with a move of the pool. -/
def poolIncident? (i : Nat) (w : World) (m : Pool.Move) (w' : World) : Option Incident := do
  (← (← w.drivers[i]?).pool).incident? m (← (← w'.drivers[i]?).pool)

/-- What happens to driver `i` or in its pool with a move. -/
def incident? (i : Nat) (w : World) (m : Move) (w' : World) : Option Incident :=
  match m with
  | .step (.driver k) => if k = i then w.drivers[i]?.bind (·.incident? w.surroundings) else none
  | .step (.client k j) => if k = i then w.poolIncident? i (.client j) w' else none
  | .step (.worker k j) => if k = i then w.poolIncident? i (.worker j) w' else none
  | _ => none

/-- What happens to driver `i` and in its pool with some moves. -/
def incidents (i : Nat) : World → List Move → List Incident
  | _, [] => []
  | w, m :: ms =>
    (w.move? m).elim [] fun w' => (w.incident? i m w').toList ++ w'.incidents i ms

variable {P : Surroundings → Prop} {w w' : World} {process : Process} {m : Move}
  {ms : List Move} {i : Nat} {d d' d₀ : Driver} {told : List Incident}

/-! ## The course of a driver -/

theorem poolIncident?_eq {p p' : Pool} (hd : w.drivers[i]? = some d) (hp : d.pool = some p)
    (hd' : w'.drivers[i]? = some d') (hp' : d'.pool = some p') (m : Pool.Move) :
    w.poolIncident? i m w' = p.incident? m p' := by
  simp [poolIncident?, hd, hp, hd', hp']

/-- What comes of driver `i` by a step of its own or of somebody in its pool. -/
theorem step?_driver (hprocess : process.driver? = some i) (h : w.step? process = some w')
    (hd : w.drivers[i]? = some d) :
    (∃ d' emission, w'.drivers[i]? = some d' ∧ d.step? w.surroundings = some (d', emission) ∧
        w.incident? i (.step process) w' = d.incident? w.surroundings) ∨
      ∃ p m p', d.pool = some p ∧ m.isInternal = true ∧ p.move? m = some p' ∧
        w'.drivers[i]? = some { d with pool := some p' } ∧
        w.incident? i (.step process) w' = p.incident? m p' := by
  have hlt : i < w.drivers.length := (List.getElem?_eq_some_iff.1 hd).1
  cases process with
  | driver k =>
    obtain rfl := Option.some.inj hprocess
    simp only [step?, stepDriver?, Option.bind_eq_bind, Option.bind_eq_some_iff] at h
    obtain ⟨e, he, ⟨next, emission⟩, hstep, h⟩ := h
    cases h
    obtain rfl := Option.some.inj (he.symm.trans hd)
    refine .inl ⟨next, emission, List.getElem?_set_self hlt, hstep, ?_⟩
    rw [incident?, if_pos rfl, hd, Option.bind_some]
  | client k j =>
    obtain rfl := Option.some.inj hprocess
    simp only [step?, stepClient?, Option.bind_eq_bind, Option.bind_eq_some_iff] at h
    obtain ⟨e, he, p, hp, p', hm, h⟩ := h
    cases h
    obtain rfl := Option.some.inj (he.symm.trans hd)
    have hset := List.getElem?_set_self (a := { e with pool := some p' }) hlt
    refine .inr ⟨p, .client j, p', hp, rfl, hm, hset, ?_⟩
    rw [incident?, if_pos rfl, poolIncident?_eq hd hp hset rfl]
  | worker k j =>
    obtain rfl := Option.some.inj hprocess
    simp only [step?, stepWorker?, Option.bind_eq_bind, Option.bind_eq_some_iff] at h
    obtain ⟨e, he, p, hp, ⟨p', store⟩, hwork, h⟩ := h
    cases h
    obtain rfl := Option.some.inj (he.symm.trans hd)
    have hset := List.getElem?_set_self (a := { e with pool := some p' }) hlt
    obtain ⟨m, hwork, hm⟩ := Pool.work_of_work? hwork
    refine .inr ⟨p, m, p', hp, hwork.isInternal, hm, hset, ?_⟩
    rw [incident?, if_pos rfl, poolIncident?_eq hd hp hset rfl]
    cases hwork <;> rfl
  | fault | collection => cases hprocess

/-- A step of anybody else leaves the driver as it is. -/
theorem step?_other (hprocess : process.driver? ≠ some i) (h : w.step? process = some w') :
    w'.drivers[i]? = w.drivers[i]? ∧ w.incident? i (.step process) w' = none := by
  have hne {k : Nat} (hk : process.driver? = some k) : k ≠ i := by
    rintro rfl
    exact hprocess hk
  cases process with
  | driver k =>
    simp only [step?, stepDriver?, Option.bind_eq_bind, Option.bind_eq_some_iff] at h
    obtain ⟨d, -, ⟨next, emission⟩, -, h⟩ := h
    cases h
    exact ⟨List.getElem?_set_ne (hne rfl), if_neg (hne rfl)⟩
  | client k j =>
    simp only [step?, stepClient?, Option.bind_eq_bind, Option.bind_eq_some_iff] at h
    obtain ⟨d, -, p, -, p', -, h⟩ := h
    cases h
    exact ⟨List.getElem?_set_ne (hne rfl), if_neg (hne rfl)⟩
  | worker k j =>
    simp only [step?, stepWorker?, Option.bind_eq_bind, Option.bind_eq_some_iff] at h
    obtain ⟨d, -, p, -, ⟨p', store⟩, -, h⟩ := h
    cases h
    exact ⟨List.getElem?_set_ne (hne rfl), if_neg (hne rfl)⟩
  | fault k =>
    simp only [step?, stepFault?, Option.bind_eq_bind, Option.bind_eq_some_iff] at h
    obtain ⟨f, -, ⟨f', scene, event⟩, -, h⟩ := h
    cases h
    exact ⟨rfl, rfl⟩
  | collection =>
    simp only [step?, stepCollection?, Option.bind_eq_bind, Option.bind_eq_some_iff] at h
    obtain ⟨c, -, ⟨c', mailbox, event⟩, -, h⟩ := h
    cases h
    exact ⟨rfl, rfl⟩

theorem move?_course (hm : w.move? m = some w') (hd : w.drivers[i]? = some d)
    (h : Course P d₀ told d) (hP : P w.surroundings) :
    ∃ d', w'.drivers[i]? = some d' ∧ Course P d₀ (told ++ (w.incident? i m w').toList) d' := by
  have others (hsame : w'.drivers[i]? = w.drivers[i]?) (hnone : w.incident? i m w' = none) :
      ∃ d', w'.drivers[i]? = some d' ∧
        Course P d₀ (told ++ (w.incident? i m w').toList) d' := by
    refine ⟨d, hsame.trans hd, ?_⟩
    rwa [hnone, Option.toList_none, List.append_nil]
  cases m with
  | step process =>
    by_cases hprocess : process.driver? = some i
    · rcases step?_driver hprocess hm hd with
        ⟨d', emission, hd', hstep, htold⟩ | ⟨p, m, p', hp, hi, hmove, hd', htold⟩
      · exact ⟨d', hd', htold ▸ h.own w.surroundings hP hstep⟩
      · exact ⟨_, hd', htold ▸ h.pool m hp hi hmove⟩
    · obtain ⟨hsame, hnone⟩ := step?_other hprocess hm
      exact others hsame hnone
  | pass timer wall =>
    cases hm
    exact others rfl rfl
  | control c =>
    cases hm
    refine others ?_ rfl
    rcases w.control_drivers c with hsame | ⟨plan, source, -, hlaunch⟩
    · rw [hsame]
    · rw [hlaunch, List.getElem?_append_left (List.getElem?_eq_some_iff.1 hd).1]

/-- What a driver comes to in a world is a course of it, in surroundings that stay of a kind. -/
theorem moves?_course
    (hstable : ∀ {w w' : World} {m}, w.move? m = some w' → P w.surroundings → P w'.surroundings)
    (hms : w.moves? ms = some w') (hd : w.drivers[i]? = some d) (h : Course P d₀ told d)
    (hP : P w.surroundings) :
    ∃ d', w'.drivers[i]? = some d' ∧ Course P d₀ (told ++ w.incidents i ms) d' := by
  induction ms generalizing w told d with
  | nil =>
    cases hms
    exact ⟨d, hd, by rwa [incidents, List.append_nil]⟩
  | cons m ms ih =>
    obtain ⟨w₁, hm, hms⟩ := moves?_cons_eq_some.1 hms
    obtain ⟨d₁, hd₁, hcourse⟩ := move?_course hm hd h hP
    obtain ⟨d', hd', h'⟩ := ih hms hd₁ hcourse (hstable hm hP)
    refine ⟨d', hd', ?_⟩
    rwa [incidents, hm, Option.elim_some, ← List.append_assoc]

/-- From its start a driver goes some course or other. -/
theorem exists_course (hms : w.moves? ms = some w') (hd : w.drivers[i]? = some d) :
    ∃ d', w'.drivers[i]? = some d' ∧ Course (fun _ => True) d (w.incidents i ms) d' :=
  moves?_course (fun _ _ => trivial) hms hd .refl trivial

/-! ## Signals and the window -/

/-- A window that has closed stays closed. -/
theorem isSome_closedAt {window window' : Window} (now : Duration)
    (h : window' = window ∨ window.signalOpen now = .ok window' ∨
      window.signalClose now = .ok window') (hclosed : window.closedAt.isSome = true) :
    window'.closedAt.isSome = true := by
  rcases h with rfl | hopen | hclose
  · exact hclosed
  · obtain ⟨-, rfl⟩ := Timeline.signalOpen_eq_ok hopen
    exact hclosed
  · obtain ⟨-, rfl⟩ := Timeline.signalClose_eq_ok hclose
    rfl

theorem signals_signal (change : Window → Except DrillError Window) :
    (w.signal change).signals = w.signals := by
  unfold signal
  split <;> rfl

/-- Signals stay raised, and the window stays closed. -/
theorem surroundings_move? (h : w.move? m = some w') : w.signals ⊆ w'.signals ∧
    (w.window.closedAt.isSome = true → w'.window.closedAt.isSome = true) := by
  cases m with
  | step process =>
    cases step_of_step? h with
    | driver | client | worker | collection => exact ⟨List.Subset.refl _, id⟩
    | fault _ hstep =>
      exact ⟨List.Subset.refl _, isSome_closedAt _ (FaultRun.turn_of_step? hstep).window⟩
  | pass timer wall =>
    cases h
    exact ⟨List.Subset.refl _, id⟩
  | control c =>
    cases h
    cases c with
    | openWindow =>
      have hw := (w.signal_cases (Window.signalOpen w.clock.wall)).2.2
      exact ⟨(signals_signal _).symm ▸ List.Subset.refl _,
        isSome_closedAt w.clock.wall (hw.imp_right .inl)⟩
    | closeWindow =>
      have hw := (w.signal_cases (Window.signalClose w.clock.wall)).2.2
      exact ⟨(signals_signal _).symm ▸ List.Subset.refl _,
        isSome_closedAt w.clock.wall (hw.imp_right .inr)⟩
    | raise => exact ⟨List.subset_append_left _ _, id⟩
    | _ => exact ⟨List.Subset.refl _, id⟩

end World

/-- It depends on what happens outside the driver whether the condition is reached. -/
def StopCondition.isExternal : StopCondition → Bool
  | signal _ | windowClosed => true
  | _ => false

namespace StopCondition

variable {stop : StopCondition} {n : UInt64}

theorem reached_congr (hstop : stop.isExternal = true) (n n' : UInt64) (around : Surroundings) :
    stop.reached n around = stop.reached n' around := by
  cases stop with
  | signal | windowClosed => rfl
  | count | exhausted => cases hstop

/-- A condition of this kind is reached for good. -/
theorem reached_move? {w w' : World} {m : World.Move} (hstop : stop.isExternal = true)
    (h : w.move? m = some w') (hreached : stop.reached n w.surroundings = true) :
    stop.reached n w'.surroundings = true := by
  obtain ⟨hsignals, hwindow⟩ := World.surroundings_move? h
  cases stop with
  | signal name =>
    rw [reached, List.contains_iff_mem] at hreached ⊢
    exact hsignals hreached
  | windowClosed => exact hwindow hreached
  | count | exhausted => cases hstop

theorem reached_moves? {w w' : World} {ms : List World.Move} (hstop : stop.isExternal = true)
    (h : w.moves? ms = some w') (hreached : stop.reached n w.surroundings = true) :
    stop.reached n w'.surroundings = true := by
  induction ms generalizing w with
  | nil =>
    cases h
    exact hreached
  | cons m ms ih =>
    obtain ⟨w₁, hm, hms⟩ := World.moves?_cons_eq_some.1 h
    exact ih hms (reached_move? hstop hm hreached)

end StopCondition

end FaultDrill
