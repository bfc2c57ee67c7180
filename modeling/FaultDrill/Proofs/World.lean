import FaultDrill.Proofs.Driver.Pool
import FaultDrill.Proofs.FaultRun
import FaultDrill.Proofs.Timeline
import FaultDrill.World

/-! # Drivers and pools in the world

Whatever else happens in a drill, each of its drivers takes the steps of a driver, and its pool
moves on the timeline that the window and the clock of the drill give. So what holds of every
run of a driver and on every timeline holds in every drill.
-/

namespace FaultDrill

namespace Pool

variable {p p' : Pool} {handler : Handler} {phase : WindowPhase} {clock : Clock}
  {store store' : Store} {w : Nat}

/-- A worker at work makes one move of its pool, at the phase and the time that it reads. -/
theorem work?_cases (h : p.work? handler phase clock store w = some (p', store')) :
    ∃ m : Move, m.isInternal = true ∧ m.reading phase clock.wall = m ∧ p.move? m = some p' := by
  simp only [work?, Option.bind_eq_bind, Option.bind_eq_some_iff] at h
  obtain ⟨v, -, h⟩ := h
  split at h
  case h_1 task =>
    obtain ⟨q, hq, h⟩ := Option.map_eq_some_iff.1 h
    cases h
    exact ⟨.begin w phase clock.wall _, rfl, rfl, hq⟩
  case h_2 task t startedAt wake =>
    split at h
    case isTrue =>
      obtain ⟨q, hq, h⟩ := Option.map_eq_some_iff.1 h
      cases h
      exact ⟨.finish w _ clock.wall, rfl, rfl, hq⟩
    case isFalse => cases h
  case h_3 =>
    obtain ⟨q, hq, h⟩ := Option.map_eq_some_iff.1 h
    cases h
    exact ⟨.worker w, rfl, rfl, hq⟩

end Pool

namespace Timeline

theorem moves?_append {s s' s'' : Timeline} {ms later : List Move} (h : s.moves? ms = some s')
    (h' : s'.moves? later = some s'') : s.moves? (ms ++ later) = some s'' := by
  unfold moves? at *
  rw [List.foldlM_append, h]
  exact h'

end Timeline

namespace World

/-- How a driver comes to be in the world after a move. -/
inductive DriverStep (w : World) : Driver → Prop
  | keep {d} : d ∈ w.drivers → DriverStep w d
  | launch (plan : DriverPlan) (source : Source) : DriverStep w { plan, source }
  | own {d d' emission} : d ∈ w.drivers → d.step? w.surroundings = some (d', emission) →
      DriverStep w d'
  | pool {d p m p'} : d ∈ w.drivers → d.pool = some p → Pool.Move.isInternal m = true →
      m.reading w.window.phase w.clock.wall = m → p.move? m = some p' →
      DriverStep w { d with pool := some p' }

/-- A pool as it stands in the world. -/
def timeline (w : World) (p : Pool) : Timeline :=
  { pool := p, window := w.window, now := w.clock.wall }

/-- A pool that rests is taken from one world to the other by moves of the window and the clock. -/
def Elapses (w w' : World) : Prop :=
  ∃ ms, ∀ p, (w.timeline p).moves? ms = some (w'.timeline p)

/-- A pool that is started for this plan in one world can stand like this in the other. -/
def Leads (w₀ w : World) (plan : DriverPlan) (p : Pool) : Prop :=
  ∃ p₀ ms, Pool.start plan.stream plan.pool = .ok p₀ ∧
    (w₀.timeline p₀).moves? ms = some (w.timeline p)

variable {w w' w₀ : World} {plan : DriverPlan} {m : Move} {d d' : Driver} {p p' : Pool}

/-! ## Time and the window -/

theorem Elapses.pass (timer : Nat) (wall : Duration) : w.Elapses (w.pass timer wall) := by
  refine ⟨[.pass (w.clock.pass timer wall).wall], fun p => ?_⟩
  have hle : w.clock.wall ≤ (w.clock.pass timer wall).wall := w.clock.wall_le_pass timer wall
  simp [Timeline.moves?, Timeline.move?, timeline, hle, World.pass]

theorem Elapses.of_window (hc : w'.clock = w.clock)
    (h : w'.window = w.window ∨ w.window.signalOpen w.clock.wall = .ok w'.window ∨
      w.window.signalClose w.clock.wall = .ok w'.window) : w.Elapses w' := by
  rcases h with h | h | h
  · exact ⟨[], fun p => by simp [Timeline.moves?, timeline, h, hc]⟩
  · refine ⟨[.openWindow], fun p => ?_⟩
    simp [Timeline.moves?, Timeline.move?, timeline, h, hc, Except.toOption]
  · refine ⟨[.closeWindow], fun p => ?_⟩
    simp [Timeline.moves?, Timeline.move?, timeline, h, hc, Except.toOption]

theorem Elapses.trans {w₁ w₂ w₃ : World} (h₁₂ : w₁.Elapses w₂) (h₂₃ : w₂.Elapses w₃) :
    w₁.Elapses w₃ := by
  obtain ⟨ms, hms⟩ := h₁₂
  obtain ⟨later, hlater⟩ := h₂₃
  exact ⟨ms ++ later, fun p => Timeline.moves?_append (hms p) (hlater p)⟩

theorem Elapses.rest (hw : w'.window = w.window) (hc : w'.clock = w.clock) : w.Elapses w' :=
  .of_window hc (.inl hw)

theorem Leads.start (he : w₀.Elapses w) (h : Pool.start plan.stream plan.pool = .ok p) :
    w₀.Leads w plan p := by
  obtain ⟨ms, hms⟩ := he
  exact ⟨p, ms, h, hms p⟩

theorem Leads.elapse (h : w₀.Leads w plan p) (he : w.Elapses w') : w₀.Leads w' plan p := by
  obtain ⟨p₀, ms, hstart, hms⟩ := h
  obtain ⟨later, hlater⟩ := he
  exact ⟨p₀, ms ++ later, hstart, Timeline.moves?_append hms (hlater p)⟩

theorem Leads.move {m : Pool.Move} (h : w₀.Leads w plan p)
    (hreads : m.reading w.window.phase w.clock.wall = m) (hm : p.move? m = some p') :
    w₀.Leads w plan p' := by
  obtain ⟨p₀, ms, hstart, hms⟩ := h
  have hone : (w.timeline p).moves? [.pool m] = some (w.timeline p') := by
    simp [Timeline.moves?, Timeline.move?, timeline, hreads, hm]
  exact ⟨p₀, ms ++ [.pool m], hstart, Timeline.moves?_append hms hone⟩

/-! ## Moves of the world -/

theorem DriverStep.of_set {i : Nat} {e : Driver} (he : w.DriverStep e)
    (hd : d ∈ w.drivers.set i e) : w.DriverStep d := by
  rcases List.mem_or_eq_of_mem_set hd with hd | rfl
  · exact .keep hd
  · exact he

theorem step?_cases {process : Process} (h : w.step? process = some w') :
    (∀ d ∈ w'.drivers, w.DriverStep d) ∧ w.Elapses w' := by
  have kept (hd : w'.drivers = w.drivers) : ∀ d ∈ w'.drivers, w.DriverStep d := by
    intro d hmem
    rw [hd] at hmem
    exact .keep hmem
  cases process with
  | driver i =>
    simp only [step?, stepDriver?, Option.bind_eq_bind, Option.bind_eq_some_iff] at h
    obtain ⟨d, hd, ⟨next, emission⟩, hstep, h⟩ := h
    cases h
    exact ⟨fun e he => .of_set (.own (List.mem_of_getElem? hd) hstep) he, .rest rfl rfl⟩
  | client i j =>
    simp only [step?, stepClient?, Option.bind_eq_bind, Option.bind_eq_some_iff] at h
    obtain ⟨d, hd, p, hp, p', hm, h⟩ := h
    cases h
    have hmove : p.move? (.client j) = some p' := hm
    exact ⟨fun e he => .of_set (.pool (List.mem_of_getElem? hd) hp rfl rfl hmove) he,
      .rest rfl rfl⟩
  | worker i j =>
    simp only [step?, stepWorker?, Option.bind_eq_bind, Option.bind_eq_some_iff] at h
    obtain ⟨d, hd, p, hp, ⟨p', store⟩, hwork, h⟩ := h
    cases h
    obtain ⟨m, hm, hreads, hmove⟩ := Pool.work?_cases hwork
    exact ⟨fun e he => .of_set (.pool (List.mem_of_getElem? hd) hp hm hreads hmove) he,
      .rest rfl rfl⟩
  | fault i =>
    simp only [step?, stepFault?, Option.bind_eq_bind, Option.bind_eq_some_iff] at h
    obtain ⟨f, -, ⟨f', scene, event⟩, hstep, h⟩ := h
    cases h
    exact ⟨kept rfl, .of_window rfl (FaultRun.turn_of_step? hstep).window⟩
  | collection =>
    simp only [step?, stepCollection?, Option.bind_eq_bind, Option.bind_eq_some_iff] at h
    obtain ⟨c, -, ⟨c', mailbox, event⟩, -, h⟩ := h
    cases h
    exact ⟨kept rfl, .rest rfl rfl⟩

theorem signal_cases (change : Window → Except DrillError Window) :
    (w.signal change).drivers = w.drivers ∧ (w.signal change).clock = w.clock ∧
      ((w.signal change).window = w.window ∨ change w.window = .ok (w.signal change).window) := by
  unfold signal
  split
  case h_1 window hw => exact ⟨rfl, rfl, .inr hw⟩
  case h_2 => exact ⟨rfl, rfl, .inl rfl⟩

/-- A move of the world is a step of one driver or a move of its pool, or it launches a driver, or
it only moves the window, the clock or what no pool sees. -/
theorem move?_cases (h : w.move? m = some w') :
    (∀ d ∈ w'.drivers, w.DriverStep d) ∧ w.Elapses w' := by
  cases m with
  | step process => exact step?_cases h
  | pass timer wall =>
    cases h
    exact ⟨fun d hd => .keep hd, .pass timer wall⟩
  | control c =>
    cases h
    cases c with
    | openWindow =>
      obtain ⟨hd, hc, hw⟩ := w.signal_cases (Window.signalOpen w.clock.wall)
      exact ⟨fun d h => .keep (hd ▸ h), .of_window hc (hw.imp_right .inl)⟩
    | closeWindow =>
      obtain ⟨hd, hc, hw⟩ := w.signal_cases (Window.signalClose w.clock.wall)
      exact ⟨fun d h => .keep (hd ▸ h), .of_window hc (hw.imp_right .inr)⟩
    | launch plan source =>
      refine ⟨?_, .rest rfl rfl⟩
      intro d hd
      rcases List.mem_append.1 hd with hd | hd
      · exact .keep hd
      · rw [List.mem_singleton.1 hd]
        exact .launch plan source
    | _ => exact ⟨fun d hd => .keep hd, .rest rfl rfl⟩

/-! ## Everything that is reached -/

/-- Every driver in a drill is in a run of its own. -/
theorem Reachable.driver_run (h : Reachable w₀ w) (h₀ : w₀.drivers = []) :
    ∀ d ∈ w.drivers, ∃ source pulled, Driver.Run d.plan source pulled d := by
  induction h with
  | refl => rw [h₀]; exact fun d hd => nomatch hd
  | move m _ hm ih =>
    intro d hd
    cases (move?_cases hm).1 d hd with
    | keep hmem => exact ih d hmem
    | launch plan source => exact ⟨source, [], .start⟩
    | own hmem hstep =>
      obtain ⟨source, pulled, hr⟩ := ih _ hmem
      have hr' := hr.own _ hstep
      exact ⟨source, _, hr'.plan_eq.symm ▸ hr'⟩
    | pool hmem hp hi _ hmove =>
      obtain ⟨source, pulled, hr⟩ := ih _ hmem
      exact ⟨source, pulled, hr.pool _ hp hi hmove⟩

/-- A pool that rested all the time is on the timeline of the drill. -/
theorem Reachable.elapses (h : Reachable w₀ w) : w₀.Elapses w := by
  induction h with
  | refl => exact .rest rfl rfl
  | move m _ hm ih => exact ih.trans (move?_cases hm).2

/-- Every pool in a drill moves on the timeline that the window and the clock of the drill give. -/
theorem Reachable.pool_moves (h : Reachable w₀ w) (h₀ : w₀.drivers = []) :
    ∀ d ∈ w.drivers, ∀ p, d.pool = some p → w₀.Leads w d.plan p := by
  induction h with
  | refl => rw [h₀]; exact fun d hd => nomatch hd
  | move m hw hm ih =>
    obtain ⟨hsteps, he⟩ := move?_cases hm
    intro d hd p hp
    refine Leads.elapse ?_ he
    cases hsteps d hd with
    | keep hmem => exact ih d hmem p hp
    | launch => cases hp
    | @own e _ emission hmem hstep =>
      obtain ⟨source, pulled, hr⟩ := hw.driver_run h₀ e hmem
      have hpool := hr.poolStep hstep
      rw [Driver.plan_step hstep]
      rw [hp] at hpool
      generalize hq : e.pool = pool at hpool
      cases hpool with
      | keep => exact ih e hmem p hq
      | start hstart => exact .start hw.elapses hstart
      | call hmove | letGo hmove => exact (ih e hmem _ hq).move rfl hmove
    | pool hmem hq _ hreads hmove =>
      cases hp
      exact (ih _ hmem _ hq).move hreads hmove

end World

end FaultDrill
