import FaultDrill.Driver

/-! # The steps of a driver

What the next step of a driver can be, as rules: at which stage it is, what it finds there, and
what it comes to.
-/

namespace FaultDrill

namespace DriverPlan

/-- Why a driver gives up whose pool does not start. -/
def startFailure (plan : DriverPlan) : StartError → DriverFailure
  | .noWorkers => .error (.invalidWorkerCount plan.pool.workers)
  | .crash crash => .crash crash

/-- What the driver does between two submissions. -/
def interlude (plan : DriverPlan) (timer : Nat) : DriverStage :=
  match plan.pace with
  | some pace => .pausing (timer + pace.ceilMillis)
  | none => if plan.stop.isContinuous then .yielding else .deciding

end DriverPlan

namespace Driver

/-- What one step leads to, in these surroundings, and what it lets others see. -/
inductive Turn (around : Surroundings) (d : Driver) : Driver → Emission → Prop
  | start {p} : d.stage = .starting → Pool.start d.plan.stream d.plan.pool = .ok p →
      Turn around d { d with pool := some p, stage := .deciding }
        { event := some (.driverStarted d.plan.stream) }
  | startNot {e} : d.stage = .starting → Pool.start d.plan.stream d.plan.pool = .error e →
      Turn around d (d.fail (d.plan.startFailure e)) {}
  | halt {p} : d.stage = .deciding → d.pool = some p →
      d.plan.stop.reached d.submitted around = true →
      Turn around d (d.callPool .shutdown .stopping p) {}
  | crash {p crash} : d.stage = .deciding → d.pool = some p →
      d.plan.stop.reached d.submitted around = false → d.source.next d.nextId = .error crash →
      Turn around d (d.fail (.crash crash)) {}
  | runDry {p source} : d.stage = .deciding → d.pool = some p →
      d.plan.stop.reached d.submitted around = false →
      d.source.next d.nextId = .ok (none, source) →
      Turn around d ({ d with source }.callPool .shutdown .stopping p) {}
  | submit {p op source} : d.stage = .deciding → d.pool = some p →
      d.plan.stop.reached d.submitted around = false →
      d.source.next d.nextId = .ok (some op, source) →
      Turn around d
        ({ d with source }.callPool (.submit ⟨d.nextId, d.plan.stream, op⟩) .submitting p) {}
  | accept {client p nextId} : d.stage = .submitting client → d.pool = some p →
      p.reply? client = some (.ok ()) → d.nextId.next = .ok nextId →
      Turn around d { d with
        submitted := d.submitted + 1, nextId, stage := d.plan.interlude around.timer } {}
  /-- There is no number for another task. -/
  | exhaust {client p crash} : d.stage = .submitting client → d.pool = some p →
      p.reply? client = some (.ok ()) → d.nextId.next = .error crash →
      Turn around d ({ d with submitted := d.submitted + 1 }.fail (.crash crash)) {}
  | refuse {client p e} : d.stage = .submitting client ∨ d.stage = .stopping client →
      d.pool = some p → p.reply? client = some (.error e) →
      Turn around d (d.fail (.error e)) {}
  | goOn : d.stage = .yielding ∨ (∃ wake ≤ around.timer, d.stage = .pausing wake) →
      Turn around d { d with stage := .deciding } {}
  | collect {client p} : d.stage = .stopping client → d.pool = some p →
      p.reply? client = some (.ok ()) → Turn around d { d with stage := .collecting } {}
  | finish {p} : d.stage = .collecting → d.pool = some p → p.allExited = true →
      Turn around d (d.finish p).1 (d.finish p).2
  | announce {failure} : d.stage = .failing failure →
      Turn around d
        { d with stage := .sending (.aborted d.plan.stream failure.reason) (.error failure) }
        { event := some (.driverAborted d.plan.stream failure.reason) }
  | send {message outcome} : d.stage = .sending message outcome →
      Turn around d { d with stage := .done outcome } { message := some message }

variable {around : Surroundings} {d d' : Driver} {emission : Emission} {p : Pool}

theorem turn_start (hs : d.stage = .starting) : Turn around d d.start.1 d.start.2 := by
  unfold Driver.start
  split
  case h_1 hstart | h_2 hstart => exact .startNot hs hstart
  case h_3 hstart => exact .start hs hstart

theorem turn_decide (hs : d.stage = .deciding) (hp : d.pool = some p) :
    Turn around d (d.decide around p) {} := by
  unfold Driver.decide
  split
  case isTrue hreached => exact .halt hs hp hreached
  case isFalse hreached =>
    have hreached := Bool.eq_false_iff.2 hreached
    split
    case h_1 hnext => exact .crash hs hp hreached hnext
    case h_2 hnext => exact .runDry hs hp hreached hnext
    case h_3 hnext => exact .submit hs hp hreached hnext

theorem turn_accepted {client : Nat} (hs : d.stage = .submitting client) (hp : d.pool = some p)
    (hr : p.reply? client = some (.ok ())) : Turn around d (d.accepted around.timer) {} := by
  unfold Driver.accepted
  dsimp only
  split
  case h_1 hnext => exact .exhaust hs hp hr hnext
  case h_2 hnext => exact .accept hs hp hr hnext

/-- Whatever a step leads to, a rule leads to. -/
theorem turn_of_step? (h : d.step? around = some (d', emission)) : Turn around d d' emission := by
  cases hs : d.stage with
  | starting =>
    simp only [step?, hs, Option.some.injEq] at h
    have hturn : Turn around d d.start.1 d.start.2 := turn_start hs
    rwa [h] at hturn
  | deciding =>
    simp only [step?, hs, Option.map_eq_some_iff, Prod.mk.injEq] at h
    obtain ⟨p, hp, rfl, rfl⟩ := h
    exact turn_decide hs hp
  | submitting client =>
    simp only [step?, hs, Option.bind_eq_bind, Option.bind_eq_some_iff] at h
    obtain ⟨p, hp, reply, hr, h⟩ := h
    cases reply with
    | ok => cases h; exact turn_accepted hs hp hr
    | error => cases h; exact .refuse (.inl hs) hp hr
  | pausing wake =>
    simp only [step?, hs] at h
    split at h
    case isTrue hwake => cases h; exact .goOn (.inr ⟨wake, hwake, hs⟩)
    case isFalse => cases h
  | yielding =>
    simp only [step?, hs] at h
    cases h
    exact .goOn (.inl hs)
  | stopping client =>
    simp only [step?, hs, Option.bind_eq_bind, Option.bind_eq_some_iff] at h
    obtain ⟨p, hp, reply, hr, h⟩ := h
    cases reply with
    | ok => cases h; exact .collect hs hp hr
    | error => cases h; exact .refuse (.inr hs) hp hr
  | collecting =>
    simp only [step?, hs, Option.bind_eq_bind, Option.bind_eq_some_iff] at h
    obtain ⟨p, hp, h⟩ := h
    split at h
    case isTrue hexited => cases h; exact .finish hs hp hexited
    case isFalse => cases h
  | failing =>
    simp only [step?, hs] at h
    cases h
    exact .announce hs
  | sending =>
    simp only [step?, hs] at h
    cases h
    exact .send hs
  | done => simp [step?, hs] at h

theorem interlude_cases (plan : DriverPlan) (timer : Nat) :
    (∃ wake, plan.interlude timer = .pausing wake) ∨ plan.interlude timer = .yielding ∨
      plan.interlude timer = .deciding := by
  unfold DriverPlan.interlude
  split
  · exact .inl ⟨_, rfl⟩
  · split
    · exact .inr (.inl rfl)
    · exact .inr (.inr rfl)

end Driver

end FaultDrill
