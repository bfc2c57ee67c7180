import FaultDrill.Proofs.Driver.Message

/-! # What a driver tells

A driver writes into the log when it starts and when it ends, and sends a message about its end.
What it has told so far depends on how far it has come.
-/

namespace FaultDrill

namespace Event

/-- The stream whose driver writes the event. -/
def stream? : Event → Option String
  | driverStarted stream | driverFinished stream _ _ _ | driverAborted stream _ => some stream
  | _ => none

/-- A fault writes the event. -/
def isOfFault : Event → Bool
  | windowOpened _ | faultInjected _ | faultFailed _ _ | windowClosed _ => true
  | _ => false

theorem isOfFault_of_stream? {e : Event} {stream : String} (h : e.stream? = some stream) :
    e.isOfFault = false := by
  cases e <;> first | rfl | cases h

theorem stream?_of_isOfFault {e : Event} (h : e.isOfFault = true) : e.stream? = none := by
  cases e <;> first | rfl | cases h

end Event

/-- What a driver that has ended well has written: that it started, and what it came to. -/
def DriverReport.account (report : DriverReport) : List Event :=
  [.driverStarted report.stream,
    .driverFinished report.stream report.submitted (.ofNat report.passed.length)
      (.ofNat report.failed.length)]

namespace Driver

/-- What a driver has written about its end at each stage. -/
def ending (plan : DriverPlan) : DriverStage → List Event
  | .sending _ outcome | .done outcome =>
    if plan.inBackground ∨ outcome.isOk then [endingEvent plan.stream outcome] else []
  | _ => []

/-- What a driver has sent about its end at each stage. -/
def mail (plan : DriverPlan) : DriverStage → List Message
  | .done outcome => if plan.inBackground then [endingMessage plan.stream outcome] else []
  | _ => []

/-- What a driver has written into the log. -/
def tale (d : Driver) : List Event :=
  (if d.pool.isSome then [.driverStarted d.plan.stream] else []) ++ ending d.plan d.stage

/-- What a driver has sent to the mailbox. -/
def sent (d : Driver) : List Message := mail d.plan d.stage

variable {plan : DriverPlan} {source : Source} {pulled : List (Option Operation)} {d d' : Driver}
  {p : Pool} {around : Surroundings} {emission : Emission} {message : Message}
  {outcome : Except DriverFailure DriverReport} {failure : DriverFailure} {report : DriverReport}

/-- A driver gets its pool when it announces that it starts, and keeps it. -/
theorem isSome_pool_step (h : d.step? around = some (d', emission)) :
    d.stage = .starting ∧ d'.pool.isSome = true ∧
        emission.event = some (.driverStarted d.plan.stream) ∨
      d'.pool.isSome = d.pool.isSome ∧ ∀ e ∈ emission.event, e.isEnding = true := by
  have silent {e : Event} (h : e ∈ (none : Option Event)) : e.isEnding = true := by cases h
  cases turn_of_step? h with
  | start hs => exact .inl ⟨hs, rfl, rfl⟩
  | startNot | crash | exhaust | refuse => exact .inr ⟨Option.isSome_map .., fun _ => silent⟩
  | halt _ hp | runDry _ hp | submit _ hp => exact .inr ⟨hp ▸ rfl, fun _ => silent⟩
  | accept | goOn | collect | send => exact .inr ⟨rfl, fun _ => silent⟩
  | finish | announce => exact .inr ⟨rfl, by rintro _ ⟨⟩; rfl⟩

theorem Run.pool_of_starting (h : Run plan source pulled d) (hs : d.stage = .starting) :
    d.pool = none := by
  cases h.sound with
  | starting => rfl
  | between hstage => rw [hs] at hstage; cases hstage
  | submitting hstage | stopping hstage | collecting hstage => cases hs.symm.trans hstage
  | reported hstage | failed hstage => rw [hs] at hstage; cases hstage

/-- Only a driver in the background announces that it failed. -/
theorem Run.failing (h : Run plan source pulled d) (hs : d.stage = .failing failure) :
    plan.inBackground = true := by
  induction h with
  | start => cases hs
  | own around hrun hd ih =>
    have hplan := hrun.plan_eq
    cases advance_step hd with
    | goOn _ _ _ _ hnot => exact (hnot failure hs).elim
    | giveUp _ hs' =>
      rw [hs', hplan] at hs
      split at hs
      case isTrue hb => exact hb
      case isFalse => cases hs
    | finish =>
      dsimp only at hs
      split at hs <;> cases hs
    | announce | send => cases hs
  | pool m _ _ _ _ ih => exact ih hs

/-- Only a driver in the background sends a message, which agrees with how it ended. -/
theorem Run.sends (h : Run plan source pulled d) (hs : d.stage = .sending message outcome) :
    plan.inBackground = true ∧ message = endingMessage plan.stream outcome := by
  induction h with
  | start => cases hs
  | own around hrun hd ih =>
    have hplan := hrun.plan_eq
    cases advance_step hd with
    | goOn _ hs' => rw [hs] at hs'; cases hs'
    | giveUp _ hs' =>
      rw [hs'] at hs
      split at hs <;> cases hs
    | finish =>
      dsimp only at hs
      rw [hplan] at hs
      split at hs
      case isTrue hb => cases hs; exact ⟨hb, rfl⟩
      case isFalse => cases hs
    | announce hfailing =>
      cases hs
      rw [hplan]
      exact ⟨hrun.failing hfailing, rfl⟩
    | send => cases hs
  | pool m _ _ _ _ ih => exact ih hs

theorem ending_of_hasEnded {s : DriverStage} (hs : s.hasEnded = false) : ending plan s = [] := by
  cases s with
  | sending | done => cases hs
  | _ => rfl

theorem mail_of_hasEnded {s : DriverStage} (hs : s.hasEnded = false) : mail plan s = [] := by
  cases s with
  | sending | done => cases hs
  | _ => rfl

/-- A step adds to the tale of the driver what it lets the log see. -/
theorem Run.tale_step (h : Run plan source pulled d) (hd : d.step? around = some (d', emission)) :
    d'.tale = d.tale ++ emission.event.toList := by
  have hplan' := plan_step hd
  rcases isSome_pool_step hd with ⟨hstarting, hpool', hevent⟩ | ⟨hpool, hending⟩
  · have hpool := h.pool_of_starting hstarting
    have hs : d.stage.hasEnded = false := by rw [hstarting]; rfl
    have hs' : d'.stage.hasEnded = false := by
      cases advance_step hd with
      | goOn _ hs' => exact hs'
      | giveUp | finish | announce | send => cases hevent
    rw [tale, tale, hpool', hpool, ending_of_hasEnded hs, ending_of_hasEnded hs', hplan', hevent]
    rfl
  · rw [tale, tale, hpool, hplan', List.append_assoc]
    refine congrArg _ ?_
    cases advance_step hd with
    | goOn hs hs' _ hquiet =>
      have hnone : emission.event = none := by
        refine Option.eq_none_iff_forall_not_mem.2 fun e he => ?_
        have hnot := hquiet
        rw [Option.mem_def.1 he] at hnot
        simp [hending e he] at hnot
      rw [ending_of_hasEnded hs, ending_of_hasEnded hs', hnone]
      rfl
    | giveUp hs hs' =>
      rw [ending_of_hasEnded hs, hs']
      split
      case isTrue => rfl
      case isFalse hb => simp [ending, hb, Except.isOk, Except.toBool]
    | finish hs =>
      rw [ending_of_hasEnded hs]
      dsimp only
      split <;> simp [ending, Except.isOk, Except.toBool]
    | announce hfailing =>
      have hb : d.plan.inBackground = true := h.plan_eq.symm ▸ h.failing hfailing
      rw [hfailing]
      simp [ending, hb]
    | send hs =>
      rw [hs]
      exact (List.append_nil _).symm

/-- A step adds to what the driver has sent the message that it sends. -/
theorem Run.sent_step (h : Run plan source pulled d) (hd : d.step? around = some (d', emission)) :
    d'.sent = d.sent ++ emission.message.toList := by
  rw [sent, sent, plan_step hd]
  cases advance_step hd with
  | goOn hs hs' hnone =>
    rw [mail_of_hasEnded hs, mail_of_hasEnded hs', hnone]
    rfl
  | giveUp hs hs' =>
    rw [mail_of_hasEnded hs, hs']
    split
    case isTrue => rfl
    case isFalse hb => simp [mail, hb]
  | finish hs =>
    rw [mail_of_hasEnded hs]
    dsimp only
    split
    case isTrue => rfl
    case isFalse hb => simp [mail, hb]
  | announce hfailing =>
    rw [hfailing]
    rfl
  | send hs =>
    obtain ⟨hb, rfl⟩ := h.sends hs
    rw [hs]
    simp [mail, h.plan_eq, hb]

theorem Run.tale_of_done (h : Run plan source pulled d) (hd : d.outcome? = some (.ok report)) :
    d.tale = report.account := by
  have hs := outcome?_eq_some_iff.1 hd
  have houtcome : d.stage.outcome? = some (.ok report) := by rw [hs]; rfl
  obtain ⟨p, hp, -⟩ := h.reported houtcome
  have hstream := (h.exact houtcome).stream
  simp [tale, hp, hs, ending, endingEvent, h.plan_eq, DriverReport.account, hstream, Except.isOk,
    Except.toBool]

theorem Run.sent_of_done (h : Run plan source pulled d) (hd : d.outcome? = some (.ok report)) :
    d.sent = if plan.inBackground then [.final report] else [] := by
  simp [sent, mail, outcome?_eq_some_iff.1 hd, endingMessage, h.plan_eq]

/-- All that a driver writes is about its own stream. -/
theorem Run.stream?_of_mem_tale {e : Event} (h : Run plan source pulled d) (he : e ∈ d.tale) :
    e.stream? = some plan.stream := by
  have hending {outcome : Except DriverFailure DriverReport}
      (ho : d.stage.outcome? = some outcome) :
      (endingEvent plan.stream outcome).stream? = some plan.stream := by
    cases outcome with
    | ok report => exact congrArg some (h.exact ho).stream
    | error failure => rfl
  rw [tale, h.plan_eq] at he
  rcases List.mem_append.1 he with he | he
  · split at he
    · cases List.mem_singleton.1 he; rfl
    · cases he
  · unfold ending at he
    split at he
    · next hs =>
      split at he
      · cases List.mem_singleton.1 he; exact hending (by rw [hs]; rfl)
      · cases he
    · next hs =>
      split at he
      · cases List.mem_singleton.1 he; exact hending (by rw [hs]; rfl)
      · cases he
    · cases he

end Driver

end FaultDrill
