import FaultDrill.Proofs.Driver.Exact

/-! # How a driver tells its end

A driver in the background tells how its run ended once, in an event for the log and in a
message for the collector. Both agree with each other and with what joining it gives.
-/

namespace FaultDrill

/-- Tells that a driver has ended. -/
def Event.isEnding : Event → Bool
  | driverFinished _ _ _ _ | driverAborted _ _ => true
  | _ => false

/-- The run has ended, and everybody but the collector was told. -/
def DriverStage.hasEnded : DriverStage → Bool
  | sending _ _ | done _ => true
  | _ => false

namespace Driver

/-- What a driver with this plan and this source comes to, and what its steps let others see. -/
inductive Told (plan : DriverPlan) (source : Source) : List Emission → Driver → Prop
  | start : Told plan source [] { plan, source }
  | own {told d d' emission} (around : Surroundings) : Told plan source told d →
      d.step? around = some (d', emission) → Told plan source (told ++ [emission]) d'
  | pool {told d p p'} (m : Pool.Move) : Told plan source told d → d.pool = some p →
      m.isInternal = true → p.move? m = some p' → Told plan source told { d with pool := some p' }

/-- The messages sent, in order. -/
def messages (told : List Emission) : List Message := told.filterMap Emission.message

/-- The events that tell of an end, in order. -/
def endings (told : List Emission) : List Event :=
  (told.filterMap Emission.event).filter Event.isEnding

/-- The event about an end. -/
def endingEvent (stream : String) : Except DriverFailure DriverReport → Event
  | .ok report => .driverFinished report.stream report.submitted (.ofNat report.passed.length)
      (.ofNat report.failed.length)
  | .error failure => .driverAborted stream failure.reason

/-- The message about an end. -/
def endingMessage (stream : String) : Except DriverFailure DriverReport → Message
  | .ok report => .final report
  | .error failure => .aborted stream failure.reason

variable {plan : DriverPlan} {source : Source} {pulled : List (Option Operation)}
  {told : List Emission} {d d' : Driver} {p p' : Pool} {m : Pool.Move} {around : Surroundings}
  {emission : Emission} {stream : String} {s : DriverStage}

theorem Told.run (h : Told plan source told d) : ∃ pulled, Run plan source pulled d := by
  induction h with
  | start => exact ⟨[], .start⟩
  | own around _ hd ih =>
    obtain ⟨pulled, hr⟩ := ih
    exact ⟨_, hr.own around hd⟩
  | pool m _ hd hm hp ih =>
    obtain ⟨pulled, hr⟩ := ih
    exact ⟨pulled, hr.pool m hd hm hp⟩

theorem Run.exists_told (h : Run plan source pulled d) : ∃ told, Told plan source told d := by
  induction h with
  | start => exact ⟨[], .start⟩
  | own around _ hd ih =>
    obtain ⟨told, ht⟩ := ih
    exact ⟨_, ht.own around hd⟩
  | pool m _ hd hm hp ih =>
    obtain ⟨told, ht⟩ := ih
    exact ⟨told, ht.pool m hd hm hp⟩

theorem messages_snoc :
    messages (told ++ [emission]) = messages told ++ emission.message.toList := by
  unfold messages
  cases h : emission.message <;> simp [h]

theorem endings_snoc :
    endings (told ++ [emission]) = endings told ++ emission.event.toList.filter Event.isEnding := by
  unfold endings
  rw [List.filterMap_append, List.filter_append]
  cases h : emission.event <;> simp [h]

/-! ## Towards the end -/

/-- A step of a driver by what it does about the end of the run. -/
inductive Advance (d : Driver) : Driver → Emission → Prop
  | goOn {d' : Driver} {emission : Emission} : d.stage.hasEnded = false →
      d'.stage.hasEnded = false → emission.message = none →
      emission.event.all (!·.isEnding) = true → (∀ failure, d'.stage ≠ .failing failure) →
      Advance d d' emission
  | giveUp {d' : Driver} {failure : DriverFailure} : d.stage.hasEnded = false →
      d'.stage = (if d.plan.inBackground then .failing failure else .done (.error failure)) →
      Advance d d' {}
  | finish {p : Pool} : d.stage.hasEnded = false → d.pool = some p → p.allExited = true →
      Advance d { d with
        stage := if d.plan.inBackground then .sending (.final (d.report p)) (.ok (d.report p))
          else .done (.ok (d.report p)) }
        { event := some (endingEvent d.plan.stream (.ok (d.report p))) }
  | announce {failure} : d.stage = .failing failure →
      Advance d { d with
        stage := .sending (endingMessage d.plan.stream (.error failure)) (.error failure) }
        { event := some (endingEvent d.plan.stream (.error failure)) }
  | send {message outcome} : d.stage = .sending message outcome →
      Advance d { d with stage := .done outcome } { message := some message }

theorem advance_step (h : d.step? around = some (d', emission)) : Advance d d' emission := by
  cases turn_of_step? h with
  | start hs | halt hs | runDry hs | submit hs | collect hs =>
    exact .goOn (by rw [hs]; rfl) rfl rfl rfl (by rintro failure ⟨⟩)
  | goOn hs =>
    have hnot : d.stage.hasEnded = false := by rcases hs with hs | ⟨wake, -, hs⟩ <;> rw [hs] <;> rfl
    exact .goOn hnot rfl rfl rfl (by rintro failure ⟨⟩)
  | accept hs =>
    have hnot : d.stage.hasEnded = false := by rw [hs]; rfl
    rcases interlude_cases d.plan around.timer with ⟨wake, hrest⟩ | hrest | hrest <;>
      exact .goOn hnot (by rw [hrest]; rfl) rfl rfl (by rw [hrest]; rintro failure ⟨⟩)
  | startNot hs | crash hs | exhaust hs => exact .giveUp (by rw [hs]; rfl) rfl
  | refuse hs => exact .giveUp (by rcases hs with hs | hs <;> rw [hs] <;> rfl) rfl
  | finish hs hp hexited => exact .finish (by rw [hs]; rfl) hp hexited
  | announce hs => exact .announce hs
  | send hs => exact .send hs

/-! ## What was told -/

/-- What a driver in the background has told at each stage. -/
inductive HasTold (stream : String) (told : List Emission) : DriverStage → Prop
  | nothing {s : DriverStage} : s.hasEnded = false → messages told = [] → endings told = [] →
      HasTold stream told s
  | logged {outcome} : messages told = [] → endings told = [endingEvent stream outcome] →
      HasTold stream told (.sending (endingMessage stream outcome) outcome)
  | sent {outcome} : messages told = [endingMessage stream outcome] →
      endings told = [endingEvent stream outcome] → HasTold stream told (.done outcome)

theorem HasTold.length_messages (h : HasTold stream told s) : (messages told).length ≤ 1 := by
  cases h with
  | nothing _ hm => simp [hm]
  | logged hm => simp [hm]
  | sent hm => simp [hm]

/-- Nothing about the end is told before it. -/
theorem HasTold.of_hasEnded (h : HasTold stream told s) (hs : s.hasEnded = false) :
    messages told = [] ∧ endings told = [] := by
  cases h with
  | nothing _ hm he => exact ⟨hm, he⟩
  | logged | sent => cases hs

theorem HasTold.log (h : HasTold stream told s) (outcome : Except DriverFailure DriverReport)
    (hs : s.hasEnded = false) :
    HasTold stream (told ++ [{ event := some (endingEvent stream outcome) }])
      (.sending (endingMessage stream outcome) outcome) := by
  obtain ⟨hm, he⟩ := h.of_hasEnded hs
  refine .logged ?_ ?_
  · rw [messages_snoc, hm]
    rfl
  · rw [endings_snoc, he]
    cases outcome <;> rfl

theorem HasTold.step (hb : d.plan.inBackground = true) (h : HasTold d.plan.stream told d.stage)
    (ha : Advance d d' emission) : HasTold d.plan.stream (told ++ [emission]) d'.stage := by
  cases ha with
  | goOn hs hs' hmessage hevent =>
    obtain ⟨hm, he⟩ := h.of_hasEnded hs
    refine .nothing hs' ?_ ?_
    · rw [messages_snoc, hm, hmessage]
      rfl
    · rw [endings_snoc, he]
      cases hemitted : emission.event with
      | none => rfl
      | some event =>
        rw [hemitted] at hevent
        have hquiet : event.isEnding = false := by simpa using hevent
        simp [hquiet]
  | giveUp hs hs' =>
    obtain ⟨hm, he⟩ := h.of_hasEnded hs
    rw [if_pos hb] at hs'
    rw [hs']
    refine .nothing rfl ?_ ?_
    · rw [messages_snoc, hm]
      rfl
    · rw [endings_snoc, he]
      rfl
  | finish hs =>
    dsimp only
    rw [if_pos hb]
    exact h.log _ hs
  | announce hs => exact h.log _ (by rw [hs]; rfl)
  | send hs =>
    rw [hs] at h
    cases h with
    | nothing hs => cases hs
    | logged hm he =>
      refine .sent ?_ ?_
      · rw [messages_snoc, hm]
        rfl
      · rw [endings_snoc, he]
        rfl

theorem Told.hasTold (h : Told plan source told d) (hb : plan.inBackground = true) :
    HasTold plan.stream told d.stage := by
  induction h with
  | start => exact .nothing rfl rfl rfl
  | own around ht hd ih =>
    obtain ⟨pulled, hr⟩ := ht.run
    have hplan := hr.plan_eq
    rw [← hplan] at ih hb ⊢
    exact ih.step hb (advance_step hd)
  | pool m _ _ _ _ ih => exact ih

/-! ## The report -/

/-- Nothing is added to the results of a pool whose workers have all exited. -/
theorem results_of_allExited (h : Pool.Step p m p') (hm : m.isInternal = true)
    (hp : p.allExited = true) : p'.allExited = true ∧ p'.results = p.results := by
  cases h with
  | client _ _ hc =>
    refine ⟨?_, hc.results_eq⟩
    unfold Pool.allExited
    rw [Pool.setClient, hc.workers_eq]
    exact hp
  | worker hv hw =>
    have hexited := List.all_eq_true.1 hp _ (List.mem_of_getElem? hv)
    cases hw <;> cases hexited
  | _ => cases hm

theorem outcome?_of_hasEnded (hs : s.hasEnded = false) (report : DriverReport) :
    s.outcome? ≠ some (.ok report) := by
  cases s with
  | sending | done => cases hs
  | _ => nofun

/-- A driver that has its report has it from its pool, whose workers have all exited. -/
theorem Run.reported (h : Run plan source pulled d) {report : DriverReport}
    (hr : d.stage.outcome? = some (.ok report)) :
    ∃ p, d.pool = some p ∧ p.allExited = true ∧ report = d.report p := by
  induction h with
  | start => cases hr
  | own around _ hd ih =>
    cases advance_step hd with
    | goOn _ hs' => exact absurd hr (outcome?_of_hasEnded hs' report)
    | giveUp _ hs' =>
      rw [hs'] at hr
      split at hr <;> cases hr
    | finish _ hp hexited =>
      refine ⟨_, hp, hexited, ?_⟩
      dsimp only at hr
      split at hr <;> cases hr <;> rfl
    | announce => cases hr
    | send hs =>
      rw [hs] at ih
      exact ih hr
  | @pool pulled d p p' m _ hp hm hmove ih =>
    obtain ⟨q, hq, hexited, rfl⟩ := ih hr
    obtain rfl := Option.some.inj (hq.symm.trans hp)
    obtain ⟨hexited', hresults⟩ := results_of_allExited (Pool.step_of_move? hmove) hm hexited
    refine ⟨p', rfl, hexited', ?_⟩
    unfold Driver.report
    rw [hresults]

/-- The report that a driver is about to send is the one that it ends with. -/
theorem Run.sending (h : Run plan source pulled d) {report : DriverReport}
    {outcome : Except DriverFailure DriverReport}
    (hs : d.stage = .sending (.final report) outcome) : outcome = .ok report := by
  induction h with
  | start => cases hs
  | own around _ hd ih =>
    cases advance_step hd with
    | goOn _ hs' => rw [hs] at hs'; cases hs'
    | giveUp _ hs' =>
      rw [hs] at hs'
      split at hs' <;> cases hs'
    | finish =>
      dsimp only at hs
      split at hs <;> cases hs
      rfl
    | announce | send => cases hs
  | pool m _ _ _ _ ih => exact ih hs

theorem outcome?_eq_some_iff {outcome : Except DriverFailure DriverReport} :
    d.outcome? = some outcome ↔ d.stage = .done outcome := by
  unfold outcome?
  split
  case h_1 hs => rw [hs, Option.some.injEq, DriverStage.done.injEq]
  case h_2 hs => exact iff_of_false nofun (hs outcome)

theorem stage_outcome? {outcome : Except DriverFailure DriverReport}
    (h : d.outcome? = some outcome) : d.stage.outcome? = some outcome := by
  rw [outcome?_eq_some_iff.1 h]
  rfl

/-- A driver in the background sends one message and no more, and has sent it once it is done:
the report that its run produced, or the reason why there is none. The log and joining the driver
tell the same. -/
theorem Told.one_message (h : Told plan source told d) (hb : plan.inBackground = true) :
    (messages told).length ≤ 1 ∧ ∀ outcome, d.outcome? = some outcome →
      (∃ report p, outcome = .ok report ∧ d.pool = some p ∧
        report = .ofResults plan.stream d.submitted p.results ∧ d.joined? = some (.ok ()) ∧
        messages told = [.final report] ∧
        endings told = [.driverFinished plan.stream report.submitted
          (.ofNat report.passed.length) (.ofNat report.failed.length)]) ∨
      ∃ failure, outcome = .error failure ∧
        d.joined? = some (.error (.driverAborted plan.stream failure.reason)) ∧
        messages told = [.aborted plan.stream failure.reason] ∧
        endings told = [.driverAborted plan.stream failure.reason] := by
  obtain ⟨pulled, hrun⟩ := h.run
  have htold := h.hasTold hb
  refine ⟨htold.length_messages, fun outcome ho => ?_⟩
  have hstage := outcome?_eq_some_iff.1 ho
  rw [hstage] at htold
  cases htold with
  | nothing hs => cases hs
  | sent hm he =>
    cases outcome with
    | ok report =>
      have hreported : d.stage.outcome? = some (.ok report) := by rw [hstage]; rfl
      obtain ⟨p, hp, -, hreport⟩ := hrun.reported hreported
      rw [Driver.report, hrun.plan_eq] at hreport
      have hjoined : d.joined? = some (.ok ()) := by rw [joined?, ho]; rfl
      refine .inl ⟨report, p, rfl, hp, hreport, hjoined, hm, ?_⟩
      rw [he, endingEvent, hreport]
      rfl
    | error failure =>
      have hjoined :
          d.joined? = some (.error (.driverAborted plan.stream failure.reason)) := by
        rw [joined?, ho, hrun.plan_eq]
        rfl
      exact .inr ⟨failure, rfl, hjoined, hm, he⟩

/-- The trial of a report, in the background: one more step sends the message. -/
theorem one_message_trial : ∃ told d,
    Told { trialPlan with inBackground := true } trialSource told d ∧
      d.outcome? = some (.ok trialReport) ∧ messages told = [.final trialReport] := by
  have h : Run { trialPlan with inBackground := true } trialSource _ _ := Run.start.of_moves? (show
    moves? (trialMoves ++ [.inl { windowClosed := false, raised := [], timer := 0 }])
      { plan := { trialPlan with inBackground := true }, source := trialSource } [] = some
      ({ plan := { trialPlan with inBackground := true }, source := .scripted [],
         stage := .done (.ok trialReport), pool := some Pool.trialEnd, submitted := 1,
         nextId := ⟨2⟩ },
       [some (.read ⟨"bucket", "key"⟩ none), none]) from rfl)
  obtain ⟨told, ht⟩ := h.exists_told
  obtain ⟨report, p, hr, -, -, -, hm, -⟩ | ⟨failure, hr, -⟩ := (Told.one_message ht rfl).2 _ rfl
  · cases hr
    exact ⟨told, _, ht, rfl, hm⟩
  · cases hr

end Driver

end FaultDrill
