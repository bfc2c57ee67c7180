import FaultDrill.Proofs.Aggregate
import FaultDrill.Proofs.Rehearsal
import FaultDrill.Proofs.World.Chronicle

/-! # The story of a rehearsal

The streams and the fault write into one log in any order, between what the log says before the
streams start and what it says once all of them have ended. Its events agree with each other and
with the report, although they come from different parts.
-/

namespace FaultDrill

namespace Rehearsal

/-- The streams in the order in which they are launched. -/
def streamNames : List String := ["preload", "reads", "writes", "deletes"]

/-- What the log says before the streams start. -/
def prologue (name : String) (preload : DriverReport) : List Event :=
  .scenarioStarted name :: preload.account

/-- What the log says once the streams have ended. -/
def epilogue (passed expected unexpected : UInt64) (component : String) : List Event :=
  [.reportReady passed expected unexpected, .faultRestored component]

variable {r r' : Rehearsal} {roles : List Role} {between last : List Event} {world : World}
  {process : Process} {d : Driver} {report : DriverReport}

/-- The streams have been launched. The log opens with the preload and then has what the streams
and the fault have written. -/
structure Staged (r : Rehearsal) (roles : List Role) (between last : List Event) : Prop where
  chronicle : r.world.Chronicle roles
  names : roles.map (fun role => role.plan.stream) = streamNames
  background : roles.map (fun role => role.plan.inBackground) = [false, true, true, true]
  preloaded : ∃ d preload, r.world.drivers[0]? = some d ∧ d.outcome? = some (.ok preload) ∧
    r.world.log = prologue r.options.name preload ++ between ++ last
  between : ∀ e ∈ between, e.stream?.isSome = true ∨ e.isOfFault = true

/-- The fault has come to this. -/
def Faulted (faults : List FaultRun) (fault : Except DrillError FaultRecord) : Prop :=
  ∃ f, faults = [f] ∧ f.result? = some fault

/-- What the conductor has seen end while the streams run. -/
inductive Awaits (drivers : List Driver) (faults : List FaultRun) : RehearsalStage → Prop
  | resting (wake : Nat) : faults = [] → Awaits drivers faults (.resting wake)
  | faulting : Awaits drivers faults .faulting
  | joining {stream : Nat} {fault : Except DrillError FaultRecord} : Faulted faults fault →
      (∀ i, 0 < i → i < stream →
        ∃ d report, drivers[i]? = some d ∧ d.outcome? = some (.ok report)) →
      Awaits drivers faults (.joining stream fault)

/-- What the log says last at each stage after the streams have ended. -/
inductive Concludes (c : Collection) (fault : Except DrillError FaultRecord) :
    RehearsalStage → List Event → Prop
  | gathering : Concludes c fault (.gathering fault) (World.announced c.ended)
  | restoring {report : AggregateReport} {record : FaultRecord} :
      c.ended = some (.report report) → fault = .ok record →
      Concludes c fault (.restoring report record) [Collection.readyEvent report]
  | restored {report : AggregateReport} {record : FaultRecord} :
      c.ended = some (.report report) → fault = .ok record →
      Concludes c fault (.restored report record) [Collection.readyEvent report]
  | done {report : AggregateReport} {record : FaultRecord} (policy : Policy) :
      c.ended = some (.report report) → fault = .ok record →
      Concludes c fault (.done (.ok ⟨report, report.verdict policy⟩))
        [Collection.readyEvent report, .faultRestored record.component]

/-- How much of the story the log tells. -/
inductive Story (r : Rehearsal) : Prop
  | starting : r.stage = .starting → r.world.Chronicle [] → r.world.faults = [] →
      r.world.collection = none → r.world.log = [] → Story r
  | preloading {source : Source} {tail : List Event} : r.stage = .preloading →
      r.world.Chronicle [⟨r.preloadPlan, source⟩] → r.world.faults = [] →
      r.world.collection = none → r.world.log = .scenarioStarted r.options.name :: tail →
      (∀ e ∈ tail, e.stream?.isSome = true) → Story r
  | streaming {roles : List Role} {between : List Event} : r.Staged roles between [] →
      r.world.collection = none → Awaits r.world.drivers r.world.faults r.stage → Story r
  | settled {roles : List Role} {between last : List Event} {c : Collection}
      {fault : Except DrillError FaultRecord} : r.Staged roles between last → r.world.Ended →
      Faulted r.world.faults fault → r.world.collection = some c → c.expected = .ofNat streamCount →
      Concludes c fault r.stage last → Story r
  | failed {failure : RehearsalFailure} : r.stage = .done (.error failure) → Story r

/-! ## Steps of the processes -/

theorem Faulted.step {w w' : World} {fault : Except DrillError FaultRecord}
    (h : Faulted w.faults fault) (hs : w.Step w') : Faulted w'.faults fault := by
  obtain ⟨f, hf, hresult⟩ := h
  cases hs with
  | @fault i g g' scene event hg hstep =>
    have hmem := List.mem_of_getElem? hg
    rw [hf] at hmem
    cases List.mem_singleton.1 hmem
    simp [FaultRun.step?, FaultRun.result?_eq_some_iff.1 hresult] at hstep
  | driver | client | worker | collection => exact ⟨f, hf, hresult⟩

theorem Awaits.step {w w' : World} {stage : RehearsalStage} (h : Awaits w.drivers w.faults stage)
    (hs : w.Step w') (hfaults : w.faults = [] → w'.faults = []) :
    Awaits w'.drivers w'.faults stage := by
  cases h with
  | resting wake hnone => exact .resting wake (hfaults hnone)
  | faulting => exact .faulting
  | joining hfaulted hjoined =>
    refine .joining (hfaulted.step hs) fun i hpos hlt => ?_
    obtain ⟨d, report, hd, ho⟩ := hjoined i hpos hlt
    obtain ⟨d', hd', -, ho'⟩ := hs.done hd ho
    exact ⟨d', report, hd', ho'⟩

theorem Concludes.step {c c' : Collection} {fault : Except DrillError FaultRecord}
    {stage : RehearsalStage} {es : List Event} (h : Concludes c fault stage last)
    (hended : ∀ ended, c.ended = some ended → c'.ended = some ended)
    (hes : World.announced c'.ended = World.announced c.ended ++ es) :
    Concludes c' fault stage (last ++ es) := by
  have hquiet {report : AggregateReport} (hc : c.ended = some (.report report)) : es = [] := by
    rw [hended _ hc, hc] at hes
    exact List.self_eq_append_right.1 hes
  cases h with
  | gathering => exact hes ▸ .gathering
  | restoring hc hfault =>
    rw [hquiet hc, List.append_nil]
    exact .restoring (hended _ hc) hfault
  | restored hc hfault =>
    rw [hquiet hc, List.append_nil]
    exact .restored (hended _ hc) hfault
  | done policy hc hfault =>
    rw [hquiet hc, List.append_nil]
    exact .done policy (hended _ hc) hfault

/-- What a step writes while the streams run comes after all that the streams wrote before. -/
theorem Staged.extend {es : List Event} (h : r.Staged roles between []) (hs : r.world.Step world)
    (hlog : world.log = r.world.log ++ es)
    (hes : ∀ e ∈ es, e.stream?.isSome = true ∨ e.isOfFault = true) :
    Staged { r with world } roles (between ++ es) [] := by
  obtain ⟨d, preload, hd, ho, hopening⟩ := h.preloaded
  obtain ⟨d', hd', -, ho'⟩ := hs.done hd ho
  refine ⟨h.chronicle.step hs, h.names, h.background, ⟨d', preload, hd', ho', ?_⟩, ?_⟩
  · simp [hlog, hopening]
  · intro e he
    rcases List.mem_append.1 he with he | he
    · exact h.between e he
    · exact hes e he

theorem Staged.conclude {es : List Event} (h : r.Staged roles between last)
    (hs : r.world.Step world) (hlog : world.log = r.world.log ++ es) :
    Staged { r with world } roles between (last ++ es) := by
  obtain ⟨d, preload, hd, ho, hopening⟩ := h.preloaded
  obtain ⟨d', hd', -, ho'⟩ := hs.done hd ho
  refine ⟨h.chronicle.step hs, h.names, h.background, ⟨d', preload, hd', ho', ?_⟩, h.between⟩
  rw [hlog, hopening]
  exact List.append_assoc ..

theorem Staged.keep (h : r.Staged roles between last) (hchronicle : r'.world.Chronicle roles)
    (hdrivers : r'.world.drivers = r.world.drivers) (hoptions : r'.options = r.options)
    (hlog : r'.world.log = r.world.log) : r'.Staged roles between last := by
  obtain ⟨d, preload, hd, ho, hopening⟩ := h.preloaded
  refine ⟨hchronicle, h.names, h.background, ⟨d, preload, hdrivers ▸ hd, ho, ?_⟩, h.between⟩
  rw [hlog, hopening, hoptions]

theorem Story.step (h : r.Story) (hm : r.world.step? process = some world) :
    Story { r with world } := by
  have hs := World.step_of_step? hm
  cases h with
  | starting hstage hchronicle hfaults hnone hlog =>
    have hnobody : r.world.drivers = [] := by
      have hplays := hchronicle.plays
      generalize r.world.drivers = ds at hplays
      cases hplays
      rfl
    cases hs with
    | driver hd | client hd | worker hd => rw [hnobody] at hd; cases hd
    | fault hf => rw [hfaults] at hf; cases hf
    | collection hc => cases hnone.symm.trans hc
  | preloading hstage hchronicle hfaults hnone hlog htail =>
    obtain ⟨hnone', hfaults', es, hlog', hes⟩ := hchronicle.step_log hs hnone
    refine .preloading hstage (hchronicle.step hs) (hfaults' hfaults) hnone'
      (hlog'.trans (congrArg (· ++ es) hlog)) fun e he => ?_
    rcases List.mem_append.1 he with he | he
    · exact htail e he
    · exact (hes e he).resolve_right fun hfault => hfault.1 hfaults
  | streaming hstaged hnone hawaits =>
    obtain ⟨hnone', hfaults', es, hlog', hes⟩ := hstaged.chronicle.step_log hs hnone
    exact .streaming (hstaged.extend hs hlog' fun e he => (hes e he).imp_right And.right) hnone'
      (hawaits.step hs hfaults')
  | settled hstaged hended hfaulted hc hexpected hconcludes =>
    obtain ⟨hended', -, c', hc', hexpected', hkeeps, es, hlog', hes⟩ := hended.step hs hc
    exact .settled (hstaged.conclude hs hlog') hended' (hfaulted.step hs) hc'
      (hexpected'.trans hexpected) (hconcludes.step hkeeps hes)
  | failed hstage => exact .failed hstage

theorem Story.pass (h : r.Story) (timer : Nat) (wall : Duration) :
    Story { r with world := r.world.pass timer wall } := by
  cases h with
  | starting hstage hchronicle hfaults hnone hlog =>
    exact .starting hstage (hchronicle.pass timer wall) hfaults hnone hlog
  | preloading hstage hchronicle hfaults hnone hlog htail =>
    exact .preloading hstage (hchronicle.pass timer wall) hfaults hnone hlog htail
  | streaming hstaged hnone hawaits =>
    exact .streaming (hstaged.keep (hstaged.chronicle.pass timer wall) rfl rfl rfl) hnone hawaits
  | settled hstaged hended hfaulted hc hexpected hconcludes =>
    exact .settled (hstaged.keep (hstaged.chronicle.pass timer wall) rfl rfl rfl)
      ⟨hended.drivers, hended.faults⟩ hfaulted hc hexpected hconcludes
  | failed hstage => exact .failed hstage

/-! ## Steps of the conductor -/

/-- The preload has written all that the log has of any stream. -/
theorem Story.launch {source : Source} {tail : List Event} {streams : List (String × Source)}
    (hchronicle : r.world.Chronicle [⟨r.preloadPlan, source⟩]) (hfaults : r.world.faults = [])
    (hnone : r.world.collection = none)
    (hlog : r.world.log = .scenarioStarted r.options.name :: tail)
    (htail : ∀ e ∈ tail, e.stream?.isSome = true) (hd : r.world.drivers[0]? = some d)
    (ho : d.outcome? = some (.ok report))
    (hstreams : r.streams report.writtenObjects = .ok streams) :
    Story (r.launch streams) := by
  obtain ⟨role, pulled, hrole, hrun⟩ := hchronicle.run hd
  cases hrole
  have hstream (e : Event) (he : e ∈ tail) : e.stream? = some d.plan.stream := by
    obtain ⟨s, hs⟩ := Option.isSome_iff_exists.1 (htail e he)
    have hknown := hchronicle.known e (hlog ▸ List.mem_cons_of_mem _ he) s hs
    rw [hs, List.mem_singleton.1 hknown, hrun.plan_eq]
  have hown : tail = report.account := by
    have hall : tail.filter (fun e => e.stream? = some d.plan.stream) = tail :=
      List.filter_eq_self.2 fun e he => decide_eq_true (hstream e he)
    rw [← hrun.tale_of_done ho, ← hchronicle.streams 0 d hd, hlog,
      List.filter_cons_of_neg (by simp [Event.stream?]), hall]
  simp only [Rehearsal.streams] at hstreams
  cases hwrites : r.writes 2 "bg" with
  | error crash => rw [hwrites] at hstreams; cases hstreams
  | ok writes =>
    rw [hwrites] at hstreams
    cases hstreams
    have hreads : "reads" ∉ ["preload"] := by decide
    have hwrites : "writes" ∉ ["preload", "reads"] := by decide
    have hdeletes : "deletes" ∉ ["preload", "reads", "writes"] := by decide
    have hlaunched := ((hchronicle.launch (r.streamPlan "reads")
      (.read (report.writtenObjects.take (report.writtenObjects.length / 2)) 0) hreads rfl).launch
      (r.streamPlan "writes") writes hwrites rfl).launch (r.streamPlan "deletes")
      (.delete ((report.writtenObjects.drop (report.writtenObjects.length / 2)).map
        StoredObject.target)) hdeletes rfl
    have hlt := (List.getElem?_eq_some_iff.1 hd).1
    have hopening : r.world.log = prologue r.options.name report ++ [] ++ [] := by
      rw [List.append_nil, List.append_nil, hlog, hown]
      rfl
    refine .streaming ⟨hlaunched, rfl, rfl, ⟨d, report, ?_, ho, hopening⟩, List.forall_mem_nil _⟩
      hnone (.resting _ hfaults)
    exact ((List.getElem?_append_left (by simp)).trans
      ((List.getElem?_append_left (by simp)).trans (List.getElem?_append_left hlt))).trans hd

theorem joined?_eq_ok (h : d.joined? = some (.ok ())) :
    ∃ report, d.outcome? = some (.ok report) := by
  obtain ⟨outcome, ho, h⟩ := Option.map_eq_some_iff.1 h
  cases outcome with
  | ok report => exact ⟨report, ho⟩
  | error => cases h

theorem announced_start (timer : Nat) (expected : UInt64) (timeout : Duration) :
    World.announced (Collection.start timer expected timeout).ended = [] := by
  unfold Collection.start
  dsimp only
  split <;> rfl

theorem Staged.length_drivers (h : r.Staged roles between last) :
    r.world.drivers.length = streamCount + 1 := by
  have hroles := congrArg List.length h.names
  rw [List.length_map] at hroles
  exact h.chronicle.plays.length_eq.symm.trans hroles

/-- All streams have ended once the conductor has seen the last one end. -/
theorem Staged.ended {stream : Nat} {fault : Except DrillError FaultRecord}
    (h : r.Staged roles between last) (hstage : r.stage = .joining stream fault)
    (hawaits : Awaits r.world.drivers r.world.faults r.stage)
    (hd : r.world.drivers[stream]? = some d) (hjoined : d.joined? = some (.ok ()))
    (hlast : streamCount ≤ stream) : r.world.Ended ∧ Faulted r.world.faults fault := by
  rw [hstage] at hawaits
  cases hawaits with
  | joining hfaulted hbefore =>
    refine ⟨⟨fun e he => ?_, fun f hf => ?_⟩, hfaulted⟩
    · obtain ⟨i, hi⟩ := List.mem_iff_getElem?.1 he
      have hle : i ≤ streamCount := by
        have hlt := (List.getElem?_eq_some_iff.1 hi).1
        rw [h.length_drivers] at hlt
        exact Nat.lt_succ_iff.1 hlt
      rcases Nat.eq_zero_or_pos i with rfl | hpos
      · obtain ⟨d₀, preload, hd₀, ho, -⟩ := h.preloaded
        cases hd₀.symm.trans hi
        exact ⟨preload, ho⟩
      · rcases Nat.lt_or_ge i stream with hlt | hge
        · obtain ⟨e', report, he', ho⟩ := hbefore i hpos hlt
          cases he'.symm.trans hi
          exact ⟨report, ho⟩
        · obtain rfl : i = stream := Nat.le_antisymm (Nat.le_trans hle hlast) hge
          cases hd.symm.trans hi
          exact joined?_eq_ok hjoined
    · obtain ⟨g, hg, hresult⟩ := hfaulted
      rw [hg] at hf
      exact ⟨fault, List.mem_singleton.1 hf ▸ hresult⟩

/-- A step of the conductor while the streams run. -/
theorem Story.goOn (hstaged : r.Staged roles between []) (hnone : r.world.collection = none)
    (hawaits : Awaits r.world.drivers r.world.faults r.stage) (hm : r.Conducts r') : r'.Story := by
  have hchronicle := hstaged.chronicle
  cases hm with
  | begin hs | launch hs | judge hs | restore hs | finish hs => rw [hs] at hawaits; cases hawaits
  | strike hs =>
    rw [hs] at hawaits
    cases hawaits with
    | resting wake hfaults =>
      exact .streaming (hstaged.keep (hchronicle.startFault hfaults r.injector) rfl rfl rfl) hnone
        .faulting
  | @struck f fault hs hf hresult =>
    have hfaulted : Faulted r.world.faults fault := by
      rcases hchronicle.fault with ⟨hnil, -⟩ | ⟨g, hg, -⟩
      · rw [hnil] at hf
        cases hf
      · rw [hg] at hf
        cases hf
        exact ⟨f, hg, hresult⟩
    refine .streaming (hstaged.keep hchronicle rfl rfl rfl) hnone (.joining hfaulted ?_)
    intro i hpos hlt
    exact (Nat.not_lt.2 hpos hlt).elim
  | @join stream fault d hs hd hjoined =>
    rw [hs] at hawaits
    cases hawaits with
    | joining hfaulted hbefore =>
      refine .streaming (hstaged.keep hchronicle rfl rfl rfl) hnone (.joining hfaulted ?_)
      intro i hpos hlt
      rcases Nat.lt_succ_iff_lt_or_eq.1 hlt with hlt | rfl
      · exact hbefore i hpos hlt
      · obtain ⟨report, ho⟩ := joined?_eq_ok hjoined
        exact ⟨d, report, hd, ho⟩
  | @gather stream fault d hs hd hjoined hlast =>
    obtain ⟨hended, hfaulted⟩ := hstaged.ended hs hawaits hd hjoined hlast
    refine .settled (hstaged.keep (hchronicle.collect hnone _ _) rfl rfl rfl) ⟨hended.drivers,
      hended.faults⟩ hfaulted rfl rfl ?_
    rw [← announced_start]
    exact .gathering
  | fail | failToBegin => exact .failed rfl

/-- A step of the conductor once the streams have ended. -/
theorem Story.wrapUp {c : Collection} {fault : Except DrillError FaultRecord}
    (hstaged : r.Staged roles between last) (hended : r.world.Ended)
    (hfaulted : Faulted r.world.faults fault) (hc : r.world.collection = some c)
    (hexpected : c.expected = .ofNat streamCount) (hconcludes : Concludes c fault r.stage last)
    (hm : r.Conducts r') : r'.Story := by
  have hchronicle := hstaged.chronicle
  cases hm with
  | begin hs | launch hs | strike hs | struck _ hs | join hs | gather hs =>
    rw [hs] at hconcludes
    cases hconcludes
  | judge hs hc' hend =>
    rw [hs] at hconcludes
    cases hc.symm.trans hc'
    cases hconcludes with
    | gathering =>
      rw [hend] at hstaged
      exact .settled (hstaged.keep hchronicle rfl rfl rfl) ⟨hended.drivers, hended.faults⟩ hfaulted
        hc hexpected (.restoring hend rfl)
  | restore hs =>
    rw [hs] at hconcludes
    cases hconcludes with
    | restoring hend hfault =>
      exact .settled (hstaged.keep (hchronicle.restoreFault _ _) rfl rfl rfl)
        ⟨hended.drivers, hended.faults⟩ hfaulted hc hexpected (.restored hend hfault)
  | finish hs =>
    rw [hs] at hconcludes
    cases hconcludes with
    | restored hend hfault =>
      obtain ⟨d, preload, hd, ho, hopening⟩ := hstaged.preloaded
      refine .settled ⟨hchronicle.log rfl rfl, hstaged.names, hstaged.background,
        ⟨d, preload, hd, ho, ?_⟩, hstaged.between⟩ ⟨hended.drivers, hended.faults⟩ hfaulted hc
        hexpected (.done _ hend hfault)
      exact (congrArg (· ++ [_]) hopening).trans (List.append_assoc ..)
  | fail | failToBegin => exact .failed rfl

theorem Story.conduct (h : r.Story) (hm : r.Conducts r') : r'.Story := by
  cases h with
  | starting hstage hchronicle hfaults hnone hlog =>
    cases hm with
    | @begin source =>
      have hopening : r.world.log ++ [.scenarioStarted r.options.name] =
          [.scenarioStarted r.options.name] := by rw [hlog, List.nil_append]
      exact .preloading rfl ((hchronicle.log rfl rfl).launch r.preloadPlan source nofun rfl) hfaults
        hnone hopening nofun
    | fail | failToBegin => exact .failed rfl
    | launch hs | strike hs | struck _ hs | join hs | gather hs | judge hs | restore hs
    | finish hs => cases hstage.symm.trans hs
  | preloading hstage hchronicle hfaults hnone hlog htail =>
    cases hm with
    | launch _ hd ho _ hstreams =>
      exact .launch hchronicle hfaults hnone hlog htail hd ho hstreams
    | fail | failToBegin => exact .failed rfl
    | begin hs | strike hs | struck _ hs | join hs | gather hs | judge hs | restore hs
    | finish hs => cases hstage.symm.trans hs
  | streaming hstaged hnone hawaits => exact .goOn hstaged hnone hawaits hm
  | settled hstaged hended hfaulted hc hexpected hconcludes =>
    exact .wrapUp hstaged hended hfaulted hc hexpected hconcludes hm
  | failed hstage =>
    cases hm with
    | fail | failToBegin => exact .failed rfl
    | begin hs | launch hs | strike hs | struck _ hs | join hs | gather hs | judge hs | restore hs
    | finish hs => cases hstage.symm.trans hs

theorem Story.move {m : Move} (h : r.Story) (hm : r.move? m = some r') : r'.Story := by
  cases m with
  | conduct => exact h.conduct (conducts_of_conduct? hm)
  | step process =>
    obtain ⟨world, hstep, rfl⟩ := Option.map_eq_some_iff.1 hm
    exact h.step hstep
  | pass timer wall =>
    cases hm
    exact h.pass timer wall

/-! ## The whole story -/

variable {config : Config} {options : RehearsalOptions} {summary : RehearsalSummary}

theorem story_start (config : Config) (options : RehearsalOptions) :
    (start config options).Story :=
  .starting rfl (World.chronicle_blank rfl rfl rfl rfl rfl) rfl rfl rfl

theorem Reachable.story (h : Reachable (start config options) r) : r.Story := by
  induction h with
  | refl => exact story_start config options
  | move m _ hm ih => exact ih.move hm

/-- The events are those that the streams and a fault have written, each of them in its order. -/
structure Interleaves (reports : List DriverReport) (fault : List Event) (events : List Event) :
    Prop where
  streams : ∀ report ∈ reports,
    events.filter (fun e => e.stream? = some report.stream) = report.account
  fault : events.filter Event.isOfFault = fault
  known : ∀ e ∈ events, e.isOfFault = true ∨ ∃ report ∈ reports, e.stream? = some report.stream

/-- The driver of a stream has ended with this report. -/
structure Reported (r : Rehearsal) (name : String) (report : DriverReport) : Prop where
  stream : report.stream = name
  counted : report.submitted.toNat = report.results.length
  logged : r.world.log.filter (fun e => e.stream? = some name) = report.account

/-- All drivers have ended with these reports, and the streams have sent theirs. -/
structure AllReported (r : Rehearsal) (preload reads writes deletes : DriverReport) : Prop where
  sent : r.world.drivers.flatMap Driver.sent = [.final reads, .final writes, .final deletes]
  preload : r.Reported "preload" preload
  reads : r.Reported "reads" reads
  writes : r.Reported "writes" writes
  deletes : r.Reported "deletes" deletes

theorem Staged.reported {i : Nat} {name : String} {inBackground : Bool}
    (h : r.Staged roles between last) (hname : streamNames[i]? = some name)
    (hback : [false, true, true, true][i]? = some inBackground) (hd : r.world.drivers[i]? = some d)
    (ho : d.outcome? = some (.ok report)) :
    r.Reported name report ∧ d.sent = if inBackground then [.final report] else [] := by
  obtain ⟨role, pulled, hrole, hrun⟩ := h.chronicle.run hd
  rw [← h.names, List.getElem?_map, hrole] at hname
  rw [← h.background, List.getElem?_map, hrole] at hback
  cases hname
  cases hback
  have houtcome := Driver.stage_outcome? ho
  have hexact := hrun.exact houtcome
  have hlogged := h.chronicle.streams i d hd
  rw [hrun.plan_eq, hrun.tale_of_done ho] at hlogged
  have hbalanced : report.IsBalanced := hexact.submitted
  exact ⟨⟨hexact.stream, DriverReport.isBalanced_iff_length.1 hbalanced, hlogged⟩,
    hrun.sent_of_done ho⟩

theorem Staged.exists_reports (h : r.Staged roles between last) (hended : r.world.Ended) :
    ∃ preload reads writes deletes, r.AllReported preload reads writes deletes ∧
      r.world.log = prologue r.options.name preload ++ between ++ last := by
  obtain ⟨d₀, d₁, d₂, d₃, hds⟩ := List.length_eq_four.1 h.length_drivers
  obtain ⟨d, preload, hd, hpreload, hlog⟩ := h.preloaded
  have hmem (i : Nat) (d : Driver) (hd : [d₀, d₁, d₂, d₃][i]? = some d) : d ∈ r.world.drivers :=
    hds ▸ List.mem_of_getElem? hd
  obtain ⟨reads, hreads⟩ := hended.drivers d₁ (hmem 1 d₁ rfl)
  obtain ⟨writes, hwrites⟩ := hended.drivers d₂ (hmem 2 d₂ rfl)
  obtain ⟨deletes, hdeletes⟩ := hended.drivers d₃ (hmem 3 d₃ rfl)
  obtain ⟨hreported₀, hsent₀⟩ := h.reported (i := 0) rfl rfl hd hpreload
  obtain ⟨hreported₁, hsent₁⟩ := h.reported (i := 1) rfl rfl (hds ▸ rfl) hreads
  obtain ⟨hreported₂, hsent₂⟩ := h.reported (i := 2) rfl rfl (hds ▸ rfl) hwrites
  obtain ⟨hreported₃, hsent₃⟩ := h.reported (i := 3) rfl rfl (hds ▸ rfl) hdeletes
  rw [hds] at hd
  cases hd
  refine ⟨preload, reads, writes, deletes, ⟨?_, hreported₀, hreported₁, hreported₂, hreported₃⟩,
    hlog⟩
  simp [hds, hsent₀, hsent₁, hsent₂, hsent₃]

variable {preload reads writes deletes : DriverReport} {record : FaultRecord}

/-- The streams and the fault have written all that is between the beginning and the end. -/
theorem Staged.interleaves (h : r.Staged roles between last)
    (hall : r.AllReported preload reads writes deletes)
    (hlog : r.world.log = prologue r.options.name preload ++ between ++ last)
    (hlast : ∀ e ∈ last, e.stream? = none ∧ e.isOfFault = false)
    (hfaulted : Faulted r.world.faults (.ok record)) :
    ∃ opened closed,
      Interleaves [reads, writes, deletes] (record.account opened closed) between := by
  have hstream (stream : String) :
      r.world.log.filter (fun e => e.stream? = some stream) =
        (if "preload" = stream then preload.account else []) ++
          between.filter (fun e => e.stream? = some stream) := by
    have hend : last.filter (fun e => e.stream? = some stream) = [] :=
      List.filter_eq_nil_iff.2 fun e he => by simp [(hlast e he).1]
    rw [hlog, List.filter_append, List.filter_append, hend, List.append_nil]
    refine congrArg (· ++ _) ?_
    split <;> simp_all [prologue, DriverReport.account, Event.stream?, hall.preload.stream]
  have hown {name : String} {report : DriverReport} (hreported : r.Reported name report)
      (hne : "preload" ≠ name) :
      between.filter (fun e => e.stream? = some report.stream) = report.account := by
    have hlogged := hstream name
    rw [if_neg hne, hreported.logged, List.nil_append] at hlogged
    rw [hreported.stream, hlogged]
  have hfault : r.world.log.filter Event.isOfFault = between.filter Event.isOfFault := by
    have hend : last.filter Event.isOfFault = [] :=
      List.filter_eq_nil_iff.2 fun e he => by simp [(hlast e he).2]
    rw [hlog, List.filter_append, List.filter_append, hend, List.append_nil]
    rfl
  obtain ⟨opened, closed, htale⟩ : ∃ opened closed,
      r.world.log.filter Event.isOfFault = record.account opened closed := by
    obtain ⟨f, hf, hresult⟩ := hfaulted
    rcases h.chronicle.fault with ⟨hnil, -⟩ | ⟨g, hg, -, htale⟩
    · rw [hnil] at hf
      cases hf
    · cases hf.symm.trans hg
      rw [FaultRun.result?_eq_some_iff.1 hresult] at htale
      exact htale.of_done
  refine ⟨opened, closed, ?_, hfault ▸ htale, fun e he => ?_⟩
  · simp only [List.forall_mem_cons]
    exact ⟨hown hall.reads (by decide), hown hall.writes (by decide),
      hown hall.deletes (by decide), List.forall_mem_nil _⟩
  · rcases h.between e he with hs | hf
    · obtain ⟨s, hs⟩ := Option.isSome_iff_exists.1 hs
      have hknown := h.chronicle.known e (by simp [hlog, he]) s hs
      rw [h.names] at hknown
      have hnot : s ≠ "preload" := by
        rintro rfl
        have hlogged := hstream "preload"
        rw [if_pos rfl, hall.preload.logged, List.self_eq_append_right] at hlogged
        exact List.filter_eq_nil_iff.1 hlogged e he (decide_eq_true hs)
      refine .inr ?_
      simp only [streamNames, List.mem_cons, List.not_mem_nil, or_false] at hknown
      rcases hknown with rfl | rfl | rfl | rfl
      · exact (hnot rfl).elim
      · exact ⟨reads, by simp, by rw [hs, hall.reads.stream]⟩
      · exact ⟨writes, by simp, by rw [hs, hall.writes.stream]⟩
      · exact ⟨deletes, by simp, by rw [hs, hall.deletes.stream]⟩
    · exact .inl hf

/-- The collector has the reports of the streams, in the order of their arrival. -/
theorem Staged.received {c : Collection} {aggregate : AggregateReport}
    (h : r.Staged roles between last) (hall : r.AllReported preload reads writes deletes)
    (hc : r.world.collection = some c) (hexpected : c.expected = .ofNat streamCount)
    (hended : c.ended = some (.report aggregate)) :
    c.received.Perm [reads, writes, deletes] ∧ ∃ bounds policy,
      AggregateReport.classify c.received bounds policy = .ok aggregate := by
  have htook := h.chronicle.collects c hc
  obtain ⟨henough, hclassify⟩ := htook.ended aggregate hended
  refine ⟨?_, hclassify⟩
  have harrived := h.chronicle.arrived
  rw [hall.sent] at harrived
  have hthree : r.world.mailbox.arrived.length = streamCount := harrived.length_eq
  have hreceived : c.received.map .final = r.world.mailbox.arrived := by
    refine htook.received.eq_of_length_le ?_
    rw [List.length_map, hthree]
    rwa [hexpected] at henough
  rw [← hreceived] at harrived
  exact (List.map_perm_map_iff fun _ _ => Message.final.inj).1 harrived

theorem toNat_ofNat_of_le {n : Nat} {bound : UInt64} (h : n ≤ bound.toNat) :
    (UInt64.ofNat n).toNat = n :=
  UInt64.toNat_ofNat_of_lt' (Nat.lt_of_le_of_lt h bound.toNat_lt)

/-- What the report counts is what the streams have submitted. -/
theorem AllReported.totals {reports : List DriverReport} {aggregate : AggregateReport}
    {bounds : Option WindowBounds} {policy : Policy}
    (hall : r.AllReported preload reads writes deletes)
    (hreports : reports.Perm [reads, writes, deletes])
    (hclassify : AggregateReport.classify reports bounds policy = .ok aggregate) :
    aggregate.totalSubmitted.toNat =
        reads.submitted.toNat + writes.submitted.toNat + deletes.submitted.toNat ∧
      aggregate.passCount + aggregate.expectedFailureCount + aggregate.unexpectedFailureCount =
        aggregate.totalSubmitted.toNat := by
  have hcovers := AggregateReport.covers_of_classify hclassify
  have hcounted (report : DriverReport) (hmem : report ∈ reports) : report.IsBalanced := by
    rw [DriverReport.isBalanced_iff_length]
    have hstream := hreports.mem_iff.1 hmem
    simp only [List.mem_cons, List.not_mem_nil, or_false] at hstream
    rcases hstream with rfl | rfl | rfl
    · exact hall.reads.counted
    · exact hall.writes.counted
    · exact hall.deletes.counted
  constructor
  · rw [hcovers.submitted, DriverReport.submissions,
      (hreports.map fun report => report.submitted.toNat).sum_nat]
    simp [Nat.add_assoc]
  · rw [Nat.add_assoc, ← AggregateReport.failCount, hcovers.count,
      DriverReport.length_delivered hcounted, hcovers.submitted]

/-- Of a rehearsal that has ended well, the log tells how it started, how the preload went, what
the streams and the fault did, in some order, and after all of that what was reported and that the
component is back. What its events count agrees with the report. -/
theorem Reachable.log_eq (h : Reachable (start config options) r)
    (hresult : r.result? = some (.ok summary)) :
    ∃ (preload reads writes deletes : DriverReport) (fault : FaultRecord)
      (opened closed passed expected unexpected : UInt64) (between : List Event),
      [preload, reads, writes, deletes].map DriverReport.stream = streamNames ∧
      r.world.log = prologue options.name preload ++ between ++
        epilogue passed expected unexpected fault.component ∧
      Interleaves [reads, writes, deletes] (fault.account opened closed) between ∧
      passed.toNat = summary.report.passCount ∧
      expected.toNat = summary.report.expectedFailureCount ∧
      unexpected.toNat = summary.report.unexpectedFailureCount ∧
      passed.toNat + expected.toNat + unexpected.toNat = summary.report.totalSubmitted.toNat ∧
      summary.report.totalSubmitted.toNat =
        reads.submitted.toNat + writes.submitted.toNat + deletes.submitted.toNat := by
  have htold := h.told
  have hstage : r.stage = .done (.ok summary) := by
    unfold result? at hresult
    split at hresult
    case h_1 result hs =>
      cases hresult
      exact hs
    case h_2 => cases hresult
  cases h.story with
  | starting hs | preloading hs | failed hs => cases hstage.symm.trans hs
  | streaming _ _ hawaits =>
    rw [hstage] at hawaits
    cases hawaits
  | @settled roles between last c fault hstaged hended hfaulted hc hexpected hconcludes =>
    rw [hstage] at hconcludes
    cases hconcludes with
    | @done aggregate fault policy hend hfault =>
      subst hfault
      obtain ⟨preload, reads, writes, deletes, hall, hlog⟩ := hstaged.exists_reports hended
      have hlast : ∀ e ∈ [Collection.readyEvent aggregate, .faultRestored fault.component],
          e.stream? = none ∧ e.isOfFault = false := by
        simp [Collection.readyEvent, Event.stream?, Event.isOfFault]
      obtain ⟨opened, closed, hinterleaves⟩ := hstaged.interleaves hall hlog hlast hfaulted
      obtain ⟨hreceived, bounds, policy', hclassify⟩ := hstaged.received hall hc hexpected hend
      obtain ⟨hsubmitted, htotal⟩ := hall.totals hreceived hclassify
      have hfits {n : Nat} (hn : n ≤ aggregate.passCount + aggregate.expectedFailureCount +
          aggregate.unexpectedFailureCount) : (UInt64.ofNat n).toNat = n :=
        toNat_ofNat_of_le (Nat.le_trans hn (Nat.le_of_eq htotal))
      have hpassed := hfits (n := aggregate.passCount) (by omega)
      have hexpected := hfits (n := aggregate.expectedFailureCount) (by omega)
      have hunexpected := hfits (n := aggregate.unexpectedFailureCount) (by omega)
      refine ⟨preload, reads, writes, deletes, fault, opened, closed, .ofNat aggregate.passCount,
        .ofNat aggregate.expectedFailureCount, .ofNat aggregate.unexpectedFailureCount, between, ?_,
        ?_, hinterleaves, hpassed, hexpected, hunexpected, ?_, hsubmitted⟩
      · simp [streamNames, hall.preload.stream, hall.reads.stream, hall.writes.stream,
          hall.deletes.stream]
      · rw [hlog, htold.options]
        rfl
      · rw [hpassed, hexpected, hunexpected]
        exact htotal

end Rehearsal

end FaultDrill
