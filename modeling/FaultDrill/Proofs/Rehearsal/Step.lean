import FaultDrill.Rehearsal
import FaultDrill.Proofs.World.Step

/-! # The steps of a conductor

What the conductor of a rehearsal does next, as rules: what it has to see before, what it does to
the world, and the stage after it. What the rehearsal was told stays as it is.
-/

namespace FaultDrill

namespace Rehearsal

/-- What the conductor comes to by one step. -/
inductive Conducts (r : Rehearsal) : Rehearsal → Prop
  | begin {source : Source} : r.stage = .starting → r.writes 1 "pre" = .ok source →
      Conducts r (((r.control (.log (.scenarioStarted r.options.name))).control
        (.launch r.preloadPlan source)).atStage .preloading)
  | launch {d : Driver} {report : DriverReport} {streams : List (String × Source)} :
      r.stage = .preloading → r.world.drivers[0]? = some d → d.outcome? = some (.ok report) →
      report.failed = [] → r.streams report.writtenObjects = .ok streams →
      Conducts r (r.launch streams)
  | strike {wake : Nat} : r.stage = .resting wake →
      Conducts r ((r.control (.startFault r.injector true)).atStage .faulting)
  | struck {f : FaultRun} (fault : Except DrillError FaultRecord) : r.stage = .faulting →
      r.world.faults[0]? = some f → f.result? = some fault →
      Conducts r (r.atStage (.joining 1 fault))
  | join {stream : Nat} {fault : Except DrillError FaultRecord} {d : Driver} :
      r.stage = .joining stream fault → r.world.drivers[stream]? = some d →
      d.joined? = some (.ok ()) → stream < streamCount →
      Conducts r (r.atStage (.joining (stream + 1) fault))
  | gather {stream : Nat} {fault : Except DrillError FaultRecord} {d : Driver} :
      r.stage = .joining stream fault → r.world.drivers[stream]? = some d →
      d.joined? = some (.ok ()) → streamCount ≤ stream →
      Conducts r ((r.control (.collect (.ofNat streamCount) r.config.report.timeout)).atStage
        (.gathering fault))
  | judge {c : Collection} {report : AggregateReport} {record : FaultRecord} :
      r.stage = .gathering (.ok record) → r.world.collection = some c →
      c.ended = some (.report report) → Conducts r (r.atStage (.restoring report record))
  | restore {report : AggregateReport} {record : FaultRecord} :
      r.stage = .restoring report record →
      Conducts r ((r.control (.restoreFault r.injector record)).atStage (.restored report record))
  | finish {report : AggregateReport} {record : FaultRecord} : r.stage = .restored report record →
      Conducts r ((r.control (.log (.faultRestored record.component))).atStage
        (.done (.ok ⟨report, report.verdict r.world.policy⟩)))
  | fail (failure : RehearsalFailure) : Conducts r (r.fail failure)
  | failToBegin (crash : Crash) :
      Conducts r ((r.control (.log (.scenarioStarted r.options.name))).fail (.crash crash))

variable {r r' start : Rehearsal}

theorem conducts_begin (hs : r.stage = .starting) : r.Conducts r.begin := by
  unfold Rehearsal.begin
  dsimp only
  split
  case h_1 => exact .failToBegin _
  case h_2 hwrites => exact .begin hs hwrites

theorem conducts_preloaded {d : Driver} {outcome : Except DriverFailure DriverReport}
    (hs : r.stage = .preloading) (hd : r.world.drivers[0]? = some d)
    (ho : d.outcome? = some outcome) : r.Conducts (r.preloaded outcome) := by
  unfold Rehearsal.preloaded
  split
  case h_1 | h_2 => exact .fail _
  case h_3 report =>
    split
    case isTrue hempty =>
      split
      case h_1 => exact .fail _
      case h_2 hstreams => exact .launch hs hd ho (List.isEmpty_iff.1 hempty) hstreams
    case isFalse => exact .fail _

theorem conducts_joined {stream : Nat} {fault : Except DrillError FaultRecord} {name : String}
    {d : Driver} {outcome : Except DrillError Unit} (hs : r.stage = .joining stream fault)
    (hd : r.world.drivers[stream]? = some d) (ho : d.joined? = some outcome) :
    r.Conducts (r.joined stream fault name outcome) := by
  unfold joined
  split
  case h_1 => exact .fail _
  case h_2 =>
    split
    case isTrue hmore => exact .join hs hd ho hmore
    case isFalse hlast => exact .gather hs hd ho (Nat.le_of_not_lt hlast)

theorem conducts_gathered {fault : Except DrillError FaultRecord} {c : Collection}
    {ended : CollectionEnd} (hs : r.stage = .gathering fault) (hc : r.world.collection = some c)
    (hended : c.ended = some ended) : r.Conducts (r.gathered fault ended) := by
  unfold gathered
  split
  case h_1 | h_2 => exact .fail _
  case h_3 report =>
    split
    case h_1 => exact .fail _
    case h_2 record => exact .judge hs hc hended

theorem conducts_of_conduct? (h : r.conduct? = some r') : r.Conducts r' := by
  cases hs : r.stage with
  | starting =>
    simp only [conduct?, hs, Option.some.injEq] at h
    exact h ▸ conducts_begin hs
  | preloading =>
    simp only [conduct?, hs, Option.bind_eq_bind, Option.bind_eq_some_iff] at h
    obtain ⟨d, hd, outcome, ho, h⟩ := h
    cases h
    exact conducts_preloaded hs hd ho
  | resting wake =>
    simp only [conduct?, hs] at h
    split at h
    case isTrue => cases h; exact .strike hs
    case isFalse => cases h
  | faulting =>
    simp only [conduct?, hs, Option.bind_eq_bind, Option.bind_eq_some_iff] at h
    obtain ⟨f, hf, fault, hresult, h⟩ := h
    cases h
    exact .struck fault hs hf hresult
  | joining stream fault =>
    simp only [conduct?, hs, Option.bind_eq_bind, Option.bind_eq_some_iff] at h
    obtain ⟨d, hd, outcome, ho, h⟩ := h
    cases h
    exact conducts_joined hs hd ho
  | gathering fault =>
    simp only [conduct?, hs, Option.bind_eq_bind, Option.bind_eq_some_iff] at h
    obtain ⟨c, hc, ended, hended, h⟩ := h
    cases h
    exact conducts_gathered hs hc hended
  | restoring report record =>
    simp only [conduct?, hs, Option.some.injEq] at h
    subst h
    unfold Rehearsal.restore
    split
    case h_1 => exact .restore hs
    case h_2 => exact .fail _
  | restored report record =>
    simp only [conduct?, hs, Option.some.injEq] at h
    exact h ▸ .finish hs
  | done => simp [conduct?, hs] at h

/-! ## What the log has -/

theorem log_extends_control (r : Rehearsal) (c : World.Control) :
    r.world.log <+: (r.control c).world.log := r.world.log_extends_control c

theorem log_extends_launch (r : Rehearsal) (streams : List (String × Source)) :
    r.world.log <+: (r.launch streams).world.log :=
  List.foldlRecOn streams _ (motive := fun s : Rehearsal => r.world.log <+: s.world.log)
    List.prefix_rfl fun s hs _ _ => hs.trans (s.log_extends_control _)

theorem Conducts.log_extends (h : r.Conducts r') : r.world.log <+: r'.world.log := by
  cases h with
  | begin => exact (r.log_extends_control _).trans (Rehearsal.log_extends_control _ _)
  | launch => exact r.log_extends_launch _
  | struck | join | judge | fail => exact List.prefix_rfl
  | strike | gather | restore | finish | failToBegin => exact r.log_extends_control _

/-- A move adds to the log and leaves what is in it. -/
theorem log_extends_of_move? {m : Move} (h : r.move? m = some r') :
    r.world.log <+: r'.world.log := by
  cases m with
  | conduct => exact (conducts_of_conduct? h).log_extends
  | step process =>
    obtain ⟨world, hstep, rfl⟩ := Option.map_eq_some_iff.1 h
    exact (World.step_of_step? hstep).log_extends
  | pass timer wall =>
    cases h
    exact List.prefix_rfl

/-! ## What the rehearsal was told -/

/-- The rehearsal was told the same and excuses the same. -/
structure Told (start r : Rehearsal) : Prop where
  config : r.config = start.config
  options : r.options = start.options
  policy : r.world.policy = start.world.policy

theorem Told.control (h : Told start r) (c : World.Control) : Told start (r.control c) := by
  refine ⟨h.config, h.options, Eq.trans ?_ h.policy⟩
  unfold Rehearsal.control World.control World.signal
  cases c with
  | openWindow | closeWindow => dsimp only; split <;> rfl
  | _ => rfl

theorem Told.atStage (h : Told start r) (stage : RehearsalStage) : Told start (r.atStage stage) :=
  ⟨h.config, h.options, h.policy⟩

theorem Told.launch (h : Told start r) (streams : List (String × Source)) :
    Told start (r.launch streams) := by
  refine Told.atStage ?_ _
  exact List.foldlRecOn streams _ h fun r hr _ _ => hr.control _

theorem Conducts.told (hc : r.Conducts r') (h : Told start r) : Told start r' := by
  cases hc with
  | begin => exact ((h.control _).control _).atStage _
  | launch => exact h.launch _
  | struck | join | judge | fail => exact h.atStage _
  | strike | gather | restore | finish | failToBegin => exact (h.control _).atStage _

/-- Whatever happens, the rehearsal goes by what it was told. -/
theorem Reachable.told (h : Reachable start r) : Told start r := by
  induction h with
  | refl => exact ⟨rfl, rfl, rfl⟩
  | @move r r' m _ hm ih =>
    cases m with
    | conduct => exact (conducts_of_conduct? hm).told ih
    | step process =>
      obtain ⟨world, hstep, rfl⟩ := Option.map_eq_some_iff.1 hm
      have hpolicy : world.policy = r.world.policy := by
        cases World.step_of_step? hstep <;> rfl
      exact ⟨ih.config, ih.options, hpolicy.trans ih.policy⟩
    | pass timer wall =>
      cases hm
      exact ⟨ih.config, ih.options, ih.policy⟩

end Rehearsal

end FaultDrill
