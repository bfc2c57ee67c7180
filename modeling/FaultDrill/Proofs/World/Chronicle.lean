import FaultDrill.Proofs.Collection
import FaultDrill.Proofs.Driver.Tale
import FaultDrill.Proofs.World.Stock

/-! # Who wrote what into the log

Drivers, faults and the collection write into one log, in any order. What it holds of each of them
depends on how far that one has come, and so does what the drivers have sent to the mailbox.
-/

namespace FaultDrill

/-! ## Faults -/

/-- What a fault that was injected has written between the edges of its window. -/
def FaultRecord.account (record : FaultRecord) (opened closed : UInt64) : List Event :=
  [.windowOpened opened, .faultInjected record.component, .windowClosed closed]

namespace FaultRun

/-- What a fault inside its window has written at each stage; nothing is said of one that the
window refused. -/
inductive Tale : FaultStage → List Event → Prop
  | starting : Tale .starting []
  | opened : Tale .opened []
  | injecting (opened : UInt64) : Tale .injecting [.windowOpened opened]
  | transitioning (wake : Nat) (opened : UInt64) :
      Tale (.transitioning wake) [.windowOpened opened]
  | closing {result : Except FaultError FaultRecord} {event : Event} (opened : UInt64) :
      (∀ record, result = .ok record → event = .faultInjected record.component) →
      Tale (.closing result) [.windowOpened opened, event]
  | closed {result : Except FaultError FaultRecord} {event : Event} (opened : UInt64) :
      (∀ record, result = .ok record → event = .faultInjected record.component) →
      Tale (.closed result) [.windowOpened opened, event]
  | done {result : Except FaultError FaultRecord} {event : Event} (opened closed : UInt64) :
      (∀ record, result = .ok record → event = .faultInjected record.component) →
      Tale (.done (asResult result)) [.windowOpened opened, event, .windowClosed closed]
  | refused {e : DrillError} (log : List Event) : Tale (.done (.error e)) log

variable {f f' : FaultRun} {timer : Nat} {now : Duration} {scene scene' : Scene}
  {event : Option Event} {log : List Event} {record : FaultRecord}

theorem Tale.injected (hb : f.isBracketed = true) (result : Except FaultError FaultRecord)
    (opened : UInt64) :
    Tale (f.injected result).1.stage ([.windowOpened opened] ++ (f.injected result).2.toList) := by
  rw [injected_of_bracketed hb]
  exact .closing opened fun record h => by rw [h]; rfl

theorem Tale.turn (h : Tale f.stage log) (hb : f.isBracketed = true)
    (hturn : f.Turn timer now scene f' scene' event) : Tale f'.stage (log ++ event.toList) := by
  cases hturn with
  | opens hs =>
    rw [hs] at h
    cases h
    exact .opened
  | refused | late => exact .refused _
  | starts _ hunbracketed => cases hb.symm.trans hunbracketed
  | tells hs =>
    rw [hs] at h
    cases h
    exact .injecting _
  | begins hs =>
    rw [hs] at h
    cases h with
    | injecting opened => exact .transitioning _ opened
  | fails hs =>
    rw [hs] at h
    cases h with
    | injecting opened => exact .injected hb _ opened
  | ends hs =>
    rw [hs] at h
    cases h with
    | transitioning _ opened => exact .injected hb _ opened
  | closes hs =>
    rw [hs] at h
    cases h with
    | closing opened hevent =>
      rw [Option.toList_none, List.append_nil]
      exact .closed opened hevent
  | returns hs =>
    rw [hs] at h
    cases h with
    | closed opened hevent => exact .done opened _ hevent

theorem Tale.of_done (h : Tale (.done (.ok record)) log) :
    ∃ opened closed, log = record.account opened closed := by
  generalize hs : FaultStage.done (.ok record) = stage at h
  cases h with
  | @done result event opened closed hevent =>
    cases result with
    | ok r => cases hs; exact ⟨opened, closed, by rw [hevent record rfl]; rfl⟩
    | error => cases hs
  | refused => cases hs
  | _ => cases hs

theorem Turn.isOfFault (h : f.Turn timer now scene f' scene' event) :
    ∀ e ∈ event, e.isOfFault = true := by
  have hinjected (result : Except FaultError FaultRecord) :
      ∀ e ∈ (f.injected result).2, e.isOfFault = true := by
    unfold FaultRun.injected
    split
    case isTrue => rintro _ ⟨⟩; cases result <;> rfl
    case isFalse => exact nofun
  cases h with
  | fails | ends => exact hinjected _
  | tells | returns => rintro _ ⟨⟩; rfl
  | opens | refused | starts | begins | closes | late => exact nofun

end FaultRun

/-! ## The log -/

/-- The collection has taken reports in the order of their arrival, and made of them what it
announced. -/
structure Collection.Took (c : Collection) (mailbox : Mailbox) : Prop where
  received : c.received.map .final <+: mailbox.arrived
  taken : c.ended = none → mailbox.taken = c.received.length
  ended : ∀ report, c.ended = some (.report report) → c.expected.toNat ≤ c.received.length ∧
    ∃ bounds policy, AggregateReport.classify c.received bounds policy = .ok report

namespace Collection

variable {c c' : Collection} {mailbox mailbox' : Mailbox} {policy : Policy}
  {bounds : Option WindowBounds} {timer : Nat} {event : Option Event}

theorem Took.append (h : c.Took mailbox) (messages : List Message) :
    c.Took { mailbox with arrived := mailbox.arrived ++ messages } :=
  ⟨h.received.trans (List.prefix_append _ _), h.taken, h.ended⟩

theorem took_start (timer : Nat) (expected : UInt64) (timeout : Duration)
    (h : mailbox.taken = 0) : (start timer expected timeout).Took mailbox := by
  refine ⟨List.nil_prefix, fun _ => h, fun report hended => ?_⟩
  unfold start at hended
  dsimp only at hended
  split at hended <;> cases hended

theorem Took.turn (h : c.Took mailbox) (hgoes : c.ended = none)
    (hturn : c.Turn policy bounds timer mailbox c' mailbox' event) : c'.Took mailbox' := by
  have htaken := h.taken hgoes
  cases hturn with
  | @receive report _ hnext =>
    refine ⟨?_, ?_, ?_⟩
    · obtain ⟨rest, hrest⟩ := h.received
      rw [htaken, ← hrest, List.getElem?_append_right (by simp), List.length_map, Nat.sub_self]
        at hnext
      obtain ⟨later, rfl⟩ : ∃ later, rest = .final report :: later := by
        cases rest with
        | nil => cases hnext
        | cons message later => cases hnext; exact ⟨later, rfl⟩
      exact ⟨later, by simp [← hrest]⟩
    · intro _
      simp [htaken]
    · intro report hended
      cases hgoes.symm.trans hended
  | conclude hall hclassify =>
    refine ⟨h.received, nofun, ?_⟩
    rintro _ ⟨⟩
    exact ⟨hall, bounds, policy, hclassify⟩
  | abort | crash | giveUp => exact ⟨h.received, nofun, nofun⟩

end Collection

namespace World

/-- The drivers play these roles, and the log and the mailbox hold of each process what it has
come to tell. -/
structure Chronicle (roles : List Role) (w : World) : Prop where
  plays : List.Forall₂ Role.Plays roles w.drivers
  names : (roles.map fun role => role.plan.stream).Nodup
  logged : ∀ role ∈ roles, role.plan.isLogged = true
  streams : ∀ (i : Nat) (d : Driver), w.drivers[i]? = some d →
    w.log.filter (fun e => e.stream? = some d.plan.stream) = d.tale
  /-- No driver but these has written anything. -/
  known : ∀ e ∈ w.log, ∀ s, e.stream? = some s → s ∈ roles.map fun role => role.plan.stream
  fault : w.faults = [] ∧ w.log.filter Event.isOfFault = [] ∨
    ∃ f, w.faults = [f] ∧ f.isBracketed = true ∧
      FaultRun.Tale f.stage (w.log.filter Event.isOfFault)
  isOpen : w.mailbox.isOpen = true
  arrived : w.mailbox.arrived.Perm (w.drivers.flatMap Driver.sent)
  untaken : w.collection = none → w.mailbox.taken = 0
  collects : ∀ c, w.collection = some c → c.Took w.mailbox

variable {roles : List Role} {role : Role} {w w' : World} {d d' : Driver} {i j : Nat}
  {c c' : Collection} {e : Event} {emission : Emission} {record : FaultRecord}

theorem chronicle_blank (hdrivers : w.drivers = []) (hfaults : w.faults = [])
    (hcollection : w.collection = none) (hmail : w.mailbox = {}) (hlog : w.log = []) :
    w.Chronicle [] where
  plays := hdrivers ▸ .nil
  names := .nil
  logged := nofun
  streams := by simp [hdrivers]
  known := by simp [hlog]
  fault := .inl ⟨hfaults, by rw [hlog]; rfl⟩
  isOpen := hmail ▸ rfl
  arrived := by simp [hdrivers, hmail]
  untaken _ := hmail ▸ rfl
  collects := by simp [hcollection]

theorem Chronicle.run (h : w.Chronicle roles) (hd : w.drivers[i]? = some d) :
    ∃ role pulled, roles[i]? = some role ∧ Driver.Run role.plan role.source pulled d := by
  obtain ⟨role, hrole, pulled, hrun⟩ := forall₂_getElem? h.plays hd
  exact ⟨role, pulled, hrole, hrun⟩

/-- Two drivers have different streams. -/
theorem Chronicle.index_eq (h : w.Chronicle roles) (hd : w.drivers[i]? = some d)
    (hd' : w.drivers[j]? = some d') (hname : d.plan.stream = d'.plan.stream) : i = j := by
  obtain ⟨role, pulled, hrole, hrun⟩ := h.run hd
  obtain ⟨role', pulled', hrole', hrun'⟩ := h.run hd'
  rw [hrun.plan_eq, hrun'.plan_eq] at hname
  have hi : (roles.map fun role => role.plan.stream)[i]? = some role.plan.stream := by
    rw [List.getElem?_map, hrole]
    rfl
  have hj : (roles.map fun role => role.plan.stream)[j]? = some role.plan.stream := by
    rw [List.getElem?_map, hrole', hname]
    rfl
  exact (List.getElem?_inj (List.getElem?_eq_some_iff.1 hi).1 h.names).1 (hi.trans hj.symm)

/-- Events that no driver writes change no driver's part of the log. -/
theorem Chronicle.streams_append {es : List Event} (h : w.Chronicle roles)
    (hd : w.drivers[i]? = some d) (hes : ∀ e ∈ es, e.stream? ≠ some d.plan.stream) :
    (w.log ++ es).filter (fun e => e.stream? = some d.plan.stream) = d.tale := by
  rw [List.filter_append, h.streams i d hd, List.filter_eq_nil_iff.2, List.append_nil]
  exact fun e he => by simpa using hes e he

theorem post_of_isOpen (message : Option Message) (h : w.mailbox.isOpen = true) :
    (w.post message).mailbox =
      { w.mailbox with arrived := w.mailbox.arrived ++ message.toList } := by
  cases message with
  | none => simp [post]
  | some m => simp [post, Mailbox.send, h]

/-! ## One step -/

/-- One driver goes on and tells the log and the mailbox what its tale grows by. -/
theorem Chronicle.set (es : List Event) (messages : List Message) (h : w.Chronicle roles)
    (hd : w.drivers[i]? = some d) (hplays : List.Forall₂ Role.Plays roles w'.drivers)
    (hdrivers : w'.drivers = w.drivers.set i d') (hplan : d'.plan = d.plan)
    (htale : d'.tale = d.tale ++ es) (hes : ∀ e ∈ es, e.stream? = some d.plan.stream)
    (hsent : d'.sent = d.sent ++ messages) (hlog : w'.log = w.log ++ es)
    (hmail : w'.mailbox = { w.mailbox with arrived := w.mailbox.arrived ++ messages })
    (hfaults : w'.faults = w.faults) (hcollection : w'.collection = w.collection) :
    w'.Chronicle roles := by
  have hlt : i < w.drivers.length := (List.getElem?_eq_some_iff.1 hd).1
  have hother : es.filter Event.isOfFault = [] := by
    refine List.filter_eq_nil_iff.2 fun e he => ?_
    rw [Event.isOfFault_of_stream? (hes e he)]
    exact Bool.false_ne_true
  refine ⟨hplays, h.names, h.logged, ?_, ?_, ?_, ?_, ?_, ?_, ?_⟩
  · intro k e hk
    rw [hdrivers] at hk
    rw [hlog]
    by_cases hki : k = i
    · subst hki
      rw [List.getElem?_set_self hlt] at hk
      cases hk
      have hown : es.filter (fun e => e.stream? = some d.plan.stream) = es :=
        List.filter_eq_self.2 fun e he => by simpa using hes e he
      rw [List.filter_append, hplan, h.streams k d hd, hown, htale]
    · rw [List.getElem?_set_ne (Ne.symm hki)] at hk
      refine h.streams_append hk fun ev hev heq => hki ?_
      exact h.index_eq hk hd (Option.some.inj (heq.symm.trans (hes ev hev)))
  · intro e he s hs
    rw [hlog] at he
    rcases List.mem_append.1 he with he | he
    · exact h.known e he s hs
    · obtain ⟨role, pulled, hrole, hrun⟩ := h.run hd
      rw [hes e he, hrun.plan_eq] at hs
      cases hs
      exact List.mem_map.2 ⟨role, List.mem_of_getElem? hrole, rfl⟩
  · rw [hfaults, hlog, List.filter_append, hother, List.append_nil]
    exact h.fault
  · rw [hmail]
    exact h.isOpen
  · rw [hmail, hdrivers]
    exact (h.arrived.append_right _).trans (flatMap_set_perm hd hsent).symm
  · rw [hcollection, hmail]
    exact h.untaken
  · rw [hcollection]
    rw [hmail]
    exact fun c hc => (h.collects c hc).append messages

/-- Somebody tells the log about no stream while the drivers rest. -/
theorem Chronicle.tell {es : List Event} (h : w.Chronicle roles)
    (hdrivers : w'.drivers = w.drivers) (hlog : w'.log = w.log ++ es)
    (hes : ∀ e ∈ es, e.stream? = none)
    (hfault : w'.faults = [] ∧ w'.log.filter Event.isOfFault = [] ∨ ∃ f, w'.faults = [f] ∧
      f.isBracketed = true ∧ FaultRun.Tale f.stage (w'.log.filter Event.isOfFault))
    (harrived : w'.mailbox.arrived = w.mailbox.arrived)
    (hopen : w'.mailbox.isOpen = w.mailbox.isOpen)
    (huntaken : w'.collection = none → w'.mailbox.taken = 0)
    (hcollects : ∀ c, w'.collection = some c → c.Took w'.mailbox) : w'.Chronicle roles := by
  refine ⟨hdrivers ▸ h.plays, h.names, h.logged, ?_, ?_, hfault, hopen.trans h.isOpen, ?_,
    huntaken, hcollects⟩
  · intro k d hk
    rw [hdrivers] at hk
    rw [hlog]
    exact h.streams_append hk fun e he heq => by rw [hes e he] at heq; cases heq
  · intro e he s hs
    rw [hlog] at he
    rcases List.mem_append.1 he with he | he
    · exact h.known e he s hs
    · rw [hes e he] at hs
      cases hs
  · rw [harrived, hdrivers]
    exact h.arrived

/-- What a driver lets the log see is about its own stream. -/
theorem Chronicle.driver_event (h : w.Chronicle roles) (hd : w.drivers[i]? = some d)
    (hstep : d.step? w.surroundings = some (d', emission)) :
    ∀ e ∈ emission.event, e.stream? = some d.plan.stream := by
  intro e he
  obtain ⟨role, pulled, -, hrun⟩ := h.run hd
  have htale := hrun.tale_step hstep
  rw [hrun.plan_eq]
  refine (hrun.own _ hstep).stream?_of_mem_tale ?_
  rw [htale]
  exact List.mem_append_right _ (Option.mem_toList.2 he)

theorem Chronicle.step (h : w.Chronicle roles) (hs : w.Step w') : w'.Chronicle roles := by
  have hplays := hs.plays h.plays
  cases hs with
  | @driver i d d' emission hd hstep =>
    obtain ⟨role, pulled, hrole, hrun⟩ := h.run hd
    have hlogged : d.plan.isLogged = true :=
      hrun.plan_eq.symm ▸ h.logged role (List.mem_of_getElem? hrole)
    have hes : ∀ e ∈ emission.event.toList, e.stream? = some d.plan.stream :=
      fun e he => h.driver_event hd hstep e (Option.mem_toList.1 he)
    rw [if_pos hlogged] at hplays ⊢
    exact Chronicle.set _ _ h hd hplays rfl (Driver.plan_step hstep) (hrun.tale_step hstep) hes
      (hrun.sent_step hstep) rfl (post_of_isOpen _ h.isOpen) rfl rfl
  | @client i j d p p' hd hp hm =>
    exact Chronicle.set [] [] h hd hplays rfl rfl
      (by simp [Driver.tale, hp]) (List.forall_mem_nil _) (by simp [Driver.sent])
      (by simp [setDriver]) (by simp [setDriver]) rfl rfl
  | @worker i j d p p' m store hd hp hwork hm =>
    exact Chronicle.set [] [] h hd hplays rfl rfl
      (by simp [Driver.tale, hp]) (List.forall_mem_nil _) (by simp [Driver.sent])
      (by simp [setDriver]) (by simp [setDriver]) rfl rfl
  | @fault i f f' scene event hf hstep =>
    rcases h.fault with ⟨hnone, -⟩ | ⟨g, hg, hb, htale⟩
    · rw [hnone] at hf
      cases hf
    · obtain ⟨rfl, rfl⟩ : i = 0 ∧ f = g := by
        rw [hg] at hf
        cases i with
        | zero => exact ⟨rfl, (Option.some.inj hf).symm⟩
        | succ i => cases hf
      have hturn := FaultRun.turn_of_step? hstep
      have hes := hturn.isOfFault
      have hall : event.toList.filter Event.isOfFault = event.toList :=
        List.filter_eq_self.2 fun e he => hes e (Option.mem_toList.1 he)
      refine h.tell rfl rfl ?_ (.inr ⟨f', ?_, hturn.isBracketed_eq.trans hb, ?_⟩) rfl rfl
        h.untaken ?_
      · exact fun e he => Event.stream?_of_isOfFault (hes e (Option.mem_toList.1 he))
      · simp [emit, hg]
      · rw [emit, List.filter_append, hall]
        exact htale.turn hb hturn
      · exact h.collects
  | @collection c c' mailbox event hc hstep =>
    obtain ⟨hgoes, hturn⟩ := Collection.turn_of_step? hstep
    have hes : ∀ e ∈ event.toList, e.stream? = none ∧ e.isOfFault = false := by
      intro e he
      cases hturn <;> simp at he
      rw [he]
      exact ⟨rfl, rfl⟩
    have hother : event.toList.filter Event.isOfFault = [] :=
      List.filter_eq_nil_iff.2 fun e he => by simp [(hes e he).2]
    have hopen : mailbox.isOpen = w.mailbox.isOpen := by cases hturn <;> rfl
    refine h.tell rfl rfl (fun e he => (hes e he).1) ?_ hturn.arrived_eq hopen
      (by rintro ⟨⟩) ?_
    · rw [emit, List.filter_append, hother, List.append_nil]
      exact h.fault
    · rintro _ ⟨⟩
      exact (h.collects c hc).turn hgoes hturn

/-! ## From outside -/

theorem Chronicle.pass (h : w.Chronicle roles) (timer : Nat) (wall : Duration) :
    (w.pass timer wall).Chronicle roles :=
  ⟨h.plays, h.names, h.logged, h.streams, h.known, h.fault, h.isOpen, h.arrived, h.untaken,
    h.collects⟩

theorem Chronicle.restoreFault (h : w.Chronicle roles) (injector : Injector)
    (record : FaultRecord) : (w.control (.restoreFault injector record)).Chronicle roles :=
  ⟨h.plays, h.names, h.logged, h.streams, h.known, h.fault, h.isOpen, h.arrived, h.untaken,
    h.collects⟩

theorem Chronicle.log (h : w.Chronicle roles) (hstream : e.stream? = none)
    (hfault : e.isOfFault = false) : (w.control (.log e)).Chronicle roles := by
  refine h.tell rfl rfl (by simpa using hstream) ?_ rfl rfl h.untaken h.collects
  have hother : [e].filter Event.isOfFault = [] := by simp [hfault]
  rw [control, List.filter_append, hother, List.append_nil]
  exact h.fault

theorem Chronicle.startFault (h : w.Chronicle roles) (hnone : w.faults = []) (injector : Injector) :
    (w.control (.startFault injector true)).Chronicle roles := by
  refine h.tell rfl (List.append_nil _).symm nofun (.inr ?_) rfl rfl h.untaken h.collects
  rcases h.fault with ⟨-, hlog⟩ | ⟨f, hf, -⟩
  · refine ⟨{ injector, isBracketed := true }, ?_, rfl, ?_⟩
    · simp [control, hnone]
    · rw [control, hlog]
      exact .starting
  · rw [hnone] at hf
    cases hf

theorem Chronicle.collect (h : w.Chronicle roles) (hnone : w.collection = none)
    (expected : UInt64) (timeout : Duration) :
    (w.control (.collect expected timeout)).Chronicle roles := by
  refine ⟨h.plays, h.names, h.logged, h.streams, h.known, h.fault, h.isOpen, h.arrived, nofun, ?_⟩
  rintro _ ⟨⟩
  exact Collection.took_start _ expected timeout (h.untaken hnone)

/-- A new driver, whose stream no other has, has told nothing. -/
theorem Chronicle.launch (h : w.Chronicle roles) (plan : DriverPlan) (source : Source)
    (hname : plan.stream ∉ roles.map fun role => role.plan.stream)
    (hlogged : plan.isLogged = true) :
    (w.control (.launch plan source)).Chronicle (roles ++ [⟨plan, source⟩]) where
  plays := List.rel_append h.plays (.cons ⟨[], .start⟩ .nil)
  names := by
    rw [List.map_append, List.nodup_append]
    refine ⟨h.names, List.nodup_singleton _, fun s hs s' hs' heq => hname ?_⟩
    rwa [heq, List.mem_singleton.1 hs'] at hs
  logged := by
    intro role' hrole'
    rcases List.mem_append.1 hrole' with hrole' | hrole'
    · exact h.logged role' hrole'
    · rw [List.mem_singleton.1 hrole']
      exact hlogged
  streams := by
    intro i d hd
    rw [control, List.getElem?_append] at hd
    split at hd
    · exact h.streams i d hd
    · rw [List.mem_singleton.1 (List.mem_of_getElem? hd)]
      refine List.filter_eq_nil_iff.2 fun e he hs => hname ?_
      exact h.known e he _ (of_decide_eq_true hs)
  known := by
    intro e he s hs
    rw [List.map_append]
    exact List.mem_append_left _ (h.known e he s hs)
  fault := h.fault
  isOpen := h.isOpen
  arrived := by
    have hsent : w.drivers.flatMap Driver.sent ++
        [{ plan, source : Driver }].flatMap Driver.sent =
          w.drivers.flatMap Driver.sent := by simp [Driver.sent, Driver.mail]
    rw [control, List.flatMap_append, hsent]
    exact h.arrived
  untaken := h.untaken
  collects := h.collects

/-! ## Who still writes -/

/-- Until the collection starts, all that is written is about a stream or the fault. -/
theorem Chronicle.step_log (h : w.Chronicle roles) (hs : w.Step w') (hnone : w.collection = none) :
    w'.collection = none ∧ (w.faults = [] → w'.faults = []) ∧ ∃ es, w'.log = w.log ++ es ∧
      ∀ e ∈ es, e.stream?.isSome = true ∨ w.faults ≠ [] ∧ e.isOfFault = true := by
  cases hs with
  | @driver i d d' emission hd hstep =>
    refine ⟨hnone, id, _, rfl, fun e he => .inl ?_⟩
    split at he
    · rw [h.driver_event hd hstep e (Option.mem_toList.1 he)]
      rfl
    · cases he
  | client | worker => exact ⟨hnone, id, [], (List.append_nil _).symm, nofun⟩
  | @fault i f f' scene event hf hstep =>
    have hsome : w.faults ≠ [] := List.ne_nil_of_mem (List.mem_of_getElem? hf)
    refine ⟨hnone, fun hnil => (hsome hnil).elim, _, rfl, fun e he => .inr ⟨hsome, ?_⟩⟩
    exact (FaultRun.turn_of_step? hstep).isOfFault e (Option.mem_toList.1 he)
  | collection hc => cases hnone.symm.trans hc

/-- Drivers and faults are done. -/
structure Ended (w : World) : Prop where
  drivers : ∀ d ∈ w.drivers, ∃ report, d.outcome? = some (.ok report)
  faults : ∀ f ∈ w.faults, ∃ result, f.result? = some result

/-- What a collection that has come this far has written. -/
def announced : Option CollectionEnd → List Event
  | some (.report report) => [Collection.readyEvent report]
  | _ => []

/-- Once drivers and faults are done, only the collection writes. -/
theorem Ended.step (h : w.Ended) (hs : w.Step w') (hc : w.collection = some c) :
    w'.Ended ∧ w'.faults = w.faults ∧ ∃ c', w'.collection = some c' ∧
      c'.expected = c.expected ∧ (∀ ended, c.ended = some ended → c'.ended = some ended) ∧
      ∃ es, w'.log = w.log ++ es ∧ announced c'.ended = announced c.ended ++ es := by
  have hkeep {i : Nat} {d : Driver} (p : Pool) (store : Store) (hd : w.drivers[i]? = some d) :
      Ended ({ w with store }.setDriver i { d with pool := some p }) := by
    refine ⟨fun e he => ?_, h.faults⟩
    rcases List.mem_or_eq_of_mem_set he with he | rfl
    · exact h.drivers e he
    · exact h.drivers d (List.mem_of_getElem? hd)
  cases hs with
  | driver hd hstep =>
    obtain ⟨report, ho⟩ := h.drivers _ (List.mem_of_getElem? hd)
    simp [Driver.step?, Driver.outcome?_eq_some_iff.1 ho] at hstep
  | client hd =>
    exact ⟨hkeep _ w.store hd, rfl, c, hc, rfl, fun _ => id, [], by simp [setDriver], by simp⟩
  | worker hd =>
    exact ⟨hkeep _ _ hd, rfl, c, hc, rfl, fun _ => id, [], by simp [setDriver], by simp⟩
  | fault hf hstep =>
    obtain ⟨result, hresult⟩ := h.faults _ (List.mem_of_getElem? hf)
    simp [FaultRun.step?, FaultRun.result?_eq_some_iff.1 hresult] at hstep
  | @collection _ c' mailbox event hc' hstep =>
    cases hc.symm.trans hc'
    obtain ⟨hgoes, hturn⟩ := Collection.turn_of_step? hstep
    refine ⟨⟨h.drivers, h.faults⟩, rfl, c', rfl, ?_, fun ended he => ?_, _, rfl, ?_⟩
    · cases hturn <;> rfl
    · cases hgoes.symm.trans he
    · cases hturn <;> simp [announced, hgoes]

end World

end FaultDrill
