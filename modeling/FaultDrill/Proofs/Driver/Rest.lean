import FaultDrill.Proofs.Driver.Supply
import FaultDrill.Proofs.Pool.Progress

/-! # Drivers that cannot go on

A driver waits for its pool and for time, and its pool for nothing but time. So if neither of them
can take a step, however much time passes, the run of the driver has ended.
-/

namespace FaultDrill

namespace Pool

variable {p p' : Pool} {m : Move} {handler : Handler} {phase : WindowPhase} {store : Store}

/-- Nobody gives up a call unless it is told to. -/
theorem Step.not_dropped (h : Step p m p') (hm : ∀ i, m ≠ .abandon i)
    (hp : ∀ i : Nat, p.clients[i]? ≠ some .dropped) (i : Nat) : p'.clients[i]? ≠ some .dropped := by
  intro hi
  rcases h.client_cases hi with
    ⟨s, hs, rfl | hsame⟩ | ⟨s, q, -, -, -, hmove⟩ | ⟨request, -, -, -, hstage⟩
  · exact hp i hs
  · cases s with
    | dropped => exact hp i hs
    | _ => cases hsame
  · rcases hmove with ⟨-, hne⟩ | rfl
    · exact hne rfl
    · exact hm i rfl
  · cases request <;> cases hstage

/-- A pool is quiet if its calls cannot go on and none of its workers can, however late it is. -/
theorem quiet_of_idle (hclients : ∀ i, p.move? (.client i) = none)
    (hworkers : ∀ w n, ∃ clock : Clock, n ≤ clock.timer ∧
      p.work? handler phase clock store w = none) : p.Quiet where
  clients := hclients
  workers w := by
    obtain ⟨clock, -, hidle⟩ := hworkers w 0
    cases hv : p.workers[w]? with
    | none => simp [move?, stepWorker?, hv]
    | some v =>
      cases v with
      | holding | running => simp [move?, stepWorker?, hv]
      | _ => simpa [work?, hv, move?] using hidle
  begins w phase now wake := by
    cases hv : p.workers[w]? with
    | none => simp [move?, begin?, hv]
    | some v =>
      cases v with
      | holding task =>
        obtain ⟨clock, -, hidle⟩ := hworkers w 0
        simp [work?, begin?, hv] at hidle
      | _ => simp [move?, begin?, hv]
  running := by
    refine List.countP_eq_zero.2 fun v hv hrunning => ?_
    obtain ⟨w, hw⟩ := List.mem_iff_getElem?.1 hv
    cases v with
    | running task phase t wake =>
      obtain ⟨clock, hle, hidle⟩ := hworkers w wake
      simp only [work?, hw, Option.bind_eq_bind, Option.bind_some, if_pos hle,
        Option.map_eq_none_iff, finish?] at hidle
      split at hidle <;> cases hidle
    | _ => cases hrunning

end Pool

namespace Driver

/-- However late it is, neither the driver nor anybody in its pool can go on. -/
structure Rests (d : Driver) : Prop where
  own : ∀ n, ∃ around : Surroundings, n ≤ around.timer ∧ d.step? around = none
  pool : ∀ p, d.pool = some p → p.Quiet

variable {plan : DriverPlan} {source : Source} {pulled : List (Option Operation)} {d : Driver}
  {p : Pool} {i : Nat}

theorem Run.not_dropped (h : Run plan source pulled d) (hp : d.pool = some p) (i : Nat) :
    p.clients[i]? ≠ some .dropped := by
  induction h generalizing p i with
  | start => cases hp
  | pool m _ hq hm hmove ih =>
    cases hp
    refine (Pool.step_of_move? hmove).not_dropped ?_ (ih hq) i
    rintro j rfl
    cases hm
  | @own _ d _ _ _ hr hd ih =>
    have hstep := hr.poolStep hd
    rw [hp] at hstep
    generalize hq : d.pool = pool at hstep
    cases hstep with
    | keep => exact ih hq i
    | start hstart =>
      rw [(Pool.start_eq hstart).2]
      exact nofun
    | call hm | letGo hm => exact (Pool.step_of_move? hm).not_dropped nofun (ih hq) i

/-- A quiet pool of a driver has answered all of its calls. -/
theorem Run.replied (h : Run plan source pulled d) (hn : d.NoneLost) (hp : d.pool = some p)
    (hq : p.Quiet) (hi : i < p.clients.length) : ∃ reply, p.reply? i = some reply := by
  obtain ⟨ms, hs⟩ := h.supplied hp
  obtain ⟨s, hclient⟩ : ∃ s, p.clients[i]? = some s := ⟨_, List.getElem?_eq_getElem hi⟩
  have hover := hq.isOver hs.run (hn p hp) hclient
  cases s with
  | returned reply => exact ⟨reply, Pool.reply?_eq_some_iff.2 hclient⟩
  | dropped => exact absurd hclient (h.not_dropped hp i)
  | _ => cases hover

/-- A driver that rests has ended its run. -/
theorem Rests.outcome (hrest : d.Rests) (h : Run plan source pulled d) (hn : d.NoneLost) :
    ∃ outcome, d.outcome? = some outcome := by
  obtain ⟨around, -, hidle⟩ := hrest.own 0
  have ended {outcome : Except DriverFailure DriverReport}
      (ho : d.stage.outcome? = some outcome) : ∃ outcome, d.outcome? = some outcome := by
    cases hstage : d.stage with
    | done outcome => exact ⟨outcome, outcome?_eq_some_iff.2 hstage⟩
    | failing | sending => simp [step?, hstage] at hidle
    | _ => rw [hstage] at ho; cases ho
  cases h.sound with
  | starting => simp [step?] at hidle
  | between hbetween hb =>
    cases hstage : d.stage with
    | deciding => simp [step?, hstage, hb.pool_eq] at hidle
    | pausing wake =>
      obtain ⟨around, hle, hidle⟩ := hrest.own wake
      simp [step?, hstage, hle] at hidle
    | yielding => simp [step?, hstage] at hidle
    | _ => rw [hstage] at hbetween; cases hbetween
  | submitting hstage hs =>
    obtain ⟨reply, hr⟩ := h.replied hn hs.pool_eq (hrest.pool _ hs.pool_eq)
      (Nat.lt_of_lt_of_eq (Nat.lt_succ_self _) hs.clients_length.symm)
    cases reply <;> simp [step?, hstage, hs.pool_eq, hr] at hidle
  | stopping hstage hs =>
    obtain ⟨reply, hr⟩ := h.replied hn hs.pool_eq (hrest.pool _ hs.pool_eq)
      (Nat.lt_of_lt_of_eq (Nat.lt_succ_self _) hs.clients_length.symm)
    cases reply <;> simp [step?, hstage, hs.pool_eq, hr] at hidle
  | @collecting _ _ p _ _ hstage hs hr =>
    have hexited : p.allExited = true := by
      rw [Pool.allExited, List.all_eq_true]
      intro v hv
      obtain ⟨w, hw⟩ := List.mem_iff_getElem?.1 hv
      have hlt := (List.getElem?_eq_some_iff.1 hw).1
      rw [(hs.run.settled_of_ok (hs.shuts_iff.2 rfl) hr).2 w hlt] at hw
      cases hw
      rfl
    simp [step?, hstage, hs.pool_eq, hexited] at hidle
  | reported ho => exact ended ho
  | failed ho => exact ended ho

end Driver

end FaultDrill
