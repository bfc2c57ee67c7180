import FaultDrill.Proofs.World

/-! # The steps of a world

What the next step of a process can be, as rules: which driver, pool or fault acts, and what
becomes of the rest of the world. A result that was not there before comes from a handler that
acted on the store.
-/

namespace FaultDrill

namespace Pool

/-- Worker `w` makes this move of its pool, and the store is this one after it. -/
inductive Work (p : Pool) (handler : Handler) (phase : WindowPhase) (clock : Clock)
    (store : Store) (w : Nat) : Move → Store → Prop
  | begin {task} : p.workers[w]? = some (.holding task) →
      Work p handler phase clock store w
        (.begin w phase clock.wall (clock.timer + handler.delay task store)) store
  | act {task phase' startedAt wake} :
      p.workers[w]? = some (.running task phase' startedAt wake) → wake ≤ clock.timer →
      Work p handler phase clock store w (.finish w (handler.act task store).1 clock.wall)
        (handler.act task store).2
  | goOn : Work p handler phase clock store w (.worker w) store

variable {p p' : Pool} {handler : Handler} {phase : WindowPhase} {clock : Clock}
  {store store' : Store} {w : Nat} {m : Move}

theorem work_of_work? (h : p.work? handler phase clock store w = some (p', store')) :
    ∃ m, p.Work handler phase clock store w m store' ∧ p.move? m = some p' := by
  simp only [work?, Option.bind_eq_bind, Option.bind_eq_some_iff] at h
  obtain ⟨v, hv, h⟩ := h
  split at h
  case h_1 task =>
    obtain ⟨q, hq, h⟩ := Option.map_eq_some_iff.1 h
    cases h
    exact ⟨_, .begin hv, hq⟩
  case h_2 task t startedAt wake =>
    split at h
    case isTrue hwake =>
      obtain ⟨q, hq, h⟩ := Option.map_eq_some_iff.1 h
      cases h
      exact ⟨_, .act hv hwake, hq⟩
    case isFalse => cases h
  case h_3 =>
    obtain ⟨q, hq, h⟩ := Option.map_eq_some_iff.1 h
    cases h
    exact ⟨_, .goOn, hq⟩

theorem Work.isInternal (h : p.Work handler phase clock store w m store') :
    m.isInternal = true := by
  cases h <;> rfl

/-- A move other than the end of a handler records nothing. -/
theorem recorded_of_move {r : OperationResult} (h : p.move? m = some p') (hr : p'.Recorded r)
    (hm : ∀ w outcome now, m ≠ .finish w outcome now) : p.Recorded r := by
  rcases (step_of_move? h).recorded_cases hr with hr | ⟨w, -, -, -, -, outcome, now, -, hfinish, -⟩
  · exact hr
  · exact (hm w outcome now hfinish).elim

end Pool

/-- A worker of the driver's pool has recorded the result. -/
def Driver.Recorded (d : Driver) (r : OperationResult) : Prop :=
  ∃ p, d.pool = some p ∧ p.Recorded r

theorem Driver.PoolStep.recorded {d d' : Driver} {r : OperationResult}
    (h : PoolStep d.plan d.pool d'.pool) (hr : d'.Recorded r) : d.Recorded r := by
  obtain ⟨p', hp', hr⟩ := hr
  rw [hp'] at h
  generalize hp : d.pool = pool at h
  cases h with
  | keep => exact ⟨p', hp, hr⟩
  | start hstart => exact (Pool.not_recorded_of_start hstart hr).elim
  | call hm | letGo hm => exact ⟨_, hp, Pool.recorded_of_move hm hr nofun⟩

namespace World

/-- What the world comes to by one step of a process. -/
inductive Step (w : World) : World → Prop
  | driver {i : Nat} {d d' : Driver} {emission : Emission} : w.drivers[i]? = some d →
      d.step? w.surroundings = some (d', emission) →
      Step w (((w.setDriver i d').emit (if d.plan.isLogged then emission.event else none)).post
        emission.message)
  | client {i j : Nat} {d : Driver} {p p' : Pool} : w.drivers[i]? = some d → d.pool = some p →
      p.move? (.client j) = some p' → Step w (w.setDriver i { d with pool := some p' })
  | worker {i j : Nat} {d : Driver} {p p' : Pool} {m : Pool.Move} {store : Store} :
      w.drivers[i]? = some d → d.pool = some p →
      p.Work d.plan.handler w.window.phase w.clock w.store j m store → p.move? m = some p' →
      Step w ({ w with store }.setDriver i { d with pool := some p' })
  | fault {i : Nat} {f f' : FaultRun} {scene : FaultRun.Scene} {event : Option Event} :
      w.faults[i]? = some f →
      f.step? w.clock.timer w.clock.wall ⟨w.window, w.store⟩ = some (f', scene, event) →
      Step w ({ w with
        window := scene.window, store := scene.store, faults := w.faults.set i f' }.emit event)
  | collection {c c' : Collection} {mailbox : Mailbox} {event : Option Event} :
      w.collection = some c →
      c.step? w.policy w.window.bounds w.clock.timer w.mailbox = some (c', mailbox, event) →
      Step w ({ w with collection := some c', mailbox }.emit event)

variable {w w' : World} {process : Process} {i : Nat} {d d' : Driver} {p p' : Pool}
  {r : OperationResult}

theorem step_of_step? (h : w.step? process = some w') : w.Step w' := by
  cases process with
  | driver i =>
    simp only [step?, stepDriver?, Option.bind_eq_bind, Option.bind_eq_some_iff] at h
    obtain ⟨d, hd, ⟨next, emission⟩, hstep, h⟩ := h
    cases h
    exact .driver hd hstep
  | client i j =>
    simp only [step?, stepClient?, Option.bind_eq_bind, Option.bind_eq_some_iff] at h
    obtain ⟨d, hd, p, hp, p', hm, h⟩ := h
    cases h
    exact .client hd hp hm
  | worker i j =>
    simp only [step?, stepWorker?, Option.bind_eq_bind, Option.bind_eq_some_iff] at h
    obtain ⟨d, hd, p, hp, ⟨p', store⟩, hwork, h⟩ := h
    cases h
    obtain ⟨m, hm, hmove⟩ := Pool.work_of_work? hwork
    exact .worker hd hp hm hmove
  | fault i =>
    simp only [step?, stepFault?, Option.bind_eq_bind, Option.bind_eq_some_iff] at h
    obtain ⟨f, hf, ⟨f', scene, event⟩, hstep, h⟩ := h
    cases h
    exact .fault hf hstep
  | collection =>
    simp only [step?, stepCollection?, Option.bind_eq_bind, Option.bind_eq_some_iff] at h
    obtain ⟨c, hc, ⟨c', mailbox, event⟩, hstep, h⟩ := h
    cases h
    exact .collection hc hstep

/-- A step adds to the log and leaves what is in it. -/
theorem Step.log_extends (h : w.Step w') : w.log <+: w'.log := by
  cases h with
  | driver | fault | collection => exact List.prefix_append ..
  | client | worker => exact List.prefix_rfl

theorem log_extends_control (w : World) (c : Control) : w.log <+: (w.control c).log := by
  cases c with
  | log => exact List.prefix_append ..
  | openWindow | closeWindow =>
    unfold control signal
    dsimp only
    split <;> exact List.prefix_rfl
  | _ => exact List.prefix_rfl

/-- What a driver's own steps and its pool keep stays true of it. -/
theorem Step.keeps {P : Driver → Prop} (hs : w.Step w') (hd : w.drivers[i]? = some d) (h : P d)
    (hown : ∀ d around d' emission, d.step? around = some (d', emission) → P d → P d')
    (hpool : ∀ d pool, P d → P { d with pool }) : ∃ d', w'.drivers[i]? = some d' ∧ P d' := by
  have hset {k : Nat} {e e' : Driver} (he : w.drivers[k]? = some e) (hkeep : P e → P e') :
      ∃ d', (w.drivers.set k e')[i]? = some d' ∧ P d' := by
    by_cases hki : k = i
    · subst hki
      obtain rfl := Option.some.inj (he.symm.trans hd)
      have hlt : k < w.drivers.length := (List.getElem?_eq_some_iff.1 hd).1
      exact ⟨e', List.getElem?_set_self hlt, hkeep h⟩
    · exact ⟨d, (List.getElem?_set_ne hki).trans hd, h⟩
  cases hs with
  | driver he hstep => exact hset he (hown _ _ _ _ hstep)
  | client he | worker he => exact hset he (hpool _ _)
  | fault | collection => exact ⟨d, hd, h⟩

/-- A worker of the driver is about to record this result of what its handler does now, and the
handler leaves the store like this. -/
def Yields (w : World) (d : Driver) (r : OperationResult) (store : Store) : Prop :=
  ∃ (p : Pool) (j : Nat) (task : Task) (phase : WindowPhase) (startedAt : Duration) (wake : Nat),
    d.pool = some p ∧ p.workers[j]? = some (.running task phase startedAt wake) ∧
      OperationResult.assemble task.id task.stream task.operation
        (d.plan.handler.act task w.store).1 startedAt w.clock.wall phase = .ok r ∧
      store = (d.plan.handler.act task w.store).2

/-- A result was there before, or a handler acts for it now. -/
theorem Step.recorded_cases (h : w.Step w')
    (hrun : ∀ d ∈ w.drivers, ∃ source pulled, Driver.Run d.plan source pulled d)
    (hd' : w'.drivers[i]? = some d') (hr : d'.Recorded r) :
    ∃ d, w.drivers[i]? = some d ∧ d'.plan = d.plan ∧
      (d.Recorded r ∨ w.Yields d r w'.store ∧ w'.clock = w.clock ∧ w'.window = w.window) := by
  cases h with
  | @driver k d next emission hd hstep =>
    change (w.drivers.set k next)[i]? = some d' at hd'
    rcases getElem?_set_cases hd' with ⟨rfl, rfl⟩ | hd'
    · obtain ⟨source, pulled, hdriver⟩ := hrun d (List.mem_of_getElem? hd)
      exact ⟨d, hd, Driver.plan_step hstep, .inl ((hdriver.poolStep hstep).recorded hr)⟩
    · exact ⟨d', hd', rfl, .inl hr⟩
  | @client k j d p p' hd hp hm =>
    rcases getElem?_set_cases hd' with ⟨rfl, rfl⟩ | hd'
    · obtain ⟨_, hq, hr⟩ := hr
      cases hq
      exact ⟨d, hd, rfl, .inl ⟨p, hp, Pool.recorded_of_move hm hr nofun⟩⟩
    · exact ⟨d', hd', rfl, .inl hr⟩
  | @worker k j d p p' m store hd hp hwork hm =>
    rcases getElem?_set_cases hd' with ⟨rfl, rfl⟩ | hd'
    · obtain ⟨_, hq, hr⟩ := hr
      cases hq
      refine ⟨d, hd, rfl, ?_⟩
      rcases (Pool.step_of_move? hm).recorded_cases hr with
        hr | ⟨v, task, phase, t, wake, outcome, now, hv, hfinish, ha⟩
      · exact .inl ⟨p, hp, hr⟩
      · cases hwork with
        | act hv' =>
          cases hfinish
          obtain ⟨rfl, -⟩ := WorkerStage.running.inj (Option.some.inj (hv'.symm.trans hv))
          exact .inr ⟨⟨p, _, _, phase, t, wake, hp, hv, ha, rfl⟩, rfl, rfl⟩
        | begin | goOn => cases hfinish
    · exact ⟨d', hd', rfl, .inl hr⟩
  | fault | collection => exact ⟨d', hd', rfl, .inl hr⟩

/-- From outside drivers are launched and nothing else is done to them. -/
theorem control_drivers (w : World) (c : Control) : (w.control c).drivers = w.drivers ∨
    ∃ plan source, c = .launch plan source ∧
      (w.control c).drivers = w.drivers ++ [({ plan, source } : Driver)] := by
  cases c with
  | openWindow => exact .inl (w.signal_cases _).1
  | closeWindow => exact .inl (w.signal_cases _).1
  | launch plan source => exact .inr ⟨plan, source, rfl, rfl⟩
  | _ => exact .inl rfl

theorem move?_recorded {m : Move} (h : w.move? m = some w')
    (hrun : ∀ d ∈ w.drivers, ∃ source pulled, Driver.Run d.plan source pulled d)
    (hd' : w'.drivers[i]? = some d') (hr : d'.Recorded r) :
    ∃ d, w.drivers[i]? = some d ∧ d'.plan = d.plan ∧
      (d.Recorded r ∨ w.Yields d r w'.store ∧ w'.clock = w.clock ∧ w'.window = w.window) := by
  cases m with
  | step process => exact (step_of_step? h).recorded_cases hrun hd' hr
  | pass timer wall =>
    cases h
    exact ⟨d', hd', rfl, .inl hr⟩
  | control c =>
    cases h
    rcases w.control_drivers c with hsame | ⟨plan, source, -, hlaunch⟩
    · exact ⟨d', hsame ▸ hd', rfl, .inl hr⟩
    · rw [hlaunch, List.getElem?_append] at hd'
      split at hd'
      case isTrue => exact ⟨d', hd', rfl, .inl hr⟩
      case isFalse =>
        obtain ⟨p, hp, -⟩ := hr
        rw [List.mem_singleton.1 (List.mem_of_getElem? hd')] at hp
        cases hp

end World

end FaultDrill
