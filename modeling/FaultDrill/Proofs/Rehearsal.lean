import FaultDrill.Proofs.Rehearsal.Step
import FaultDrill.Proofs.World.Post

/-! # Rehearsals judge rightly

The objects that a rehearsal writes first have different places. The streams read one half of
them back, delete the other half and write elsewhere, so that they do each other no harm. What
fails is due to the pod that is deleted, and the verdict on a rehearsal that runs to its end
depends on the budget alone.
-/

namespace FaultDrill

/-- The configuration can be used, and the objects it asks for fit in memory. -/
structure Config.Usable (c : Config) : Prop where
  valid : c.validate = .ok ()
  limit : c.workload.maxObjectSize.toNat < Payload.sizeLimit

theorem Config.Usable.sizes {c : Config} (h : c.Usable) :
    c.workload.minObjectSize ≤ c.workload.maxObjectSize := by
  have hvalid := h.valid
  unfold Config.validate at hvalid
  split at hvalid
  case isTrue => cases hvalid
  case isFalse =>
    split at hvalid
    case isTrue => cases hvalid
    case isFalse =>
      split at hvalid
      case isTrue => cases hvalid
      case isFalse hcrossed => exact UInt64.not_lt.1 hcrossed

namespace World

variable {w w' : World} {i : Nat} {d : Driver} {outcome : Except DriverFailure DriverReport}

/-- A driver that is done stays done. -/
theorem Step.done (hs : w.Step w') (hd : w.drivers[i]? = some d)
    (ho : d.outcome? = some outcome) :
    ∃ d', w'.drivers[i]? = some d' ∧ d'.plan = d.plan ∧ d'.outcome? = some outcome := by
  refine hs.keeps (P := fun e => e.plan = d.plan ∧ e.outcome? = some outcome) hd ⟨rfl, ho⟩ ?_ ?_
  · rintro e around e' emission hstep ⟨-, ho⟩
    simp [Driver.step?, Driver.outcome?_eq_some_iff.1 ho] at hstep
  · exact fun _ _ => id

end World

/-! ## The objects that are written first -/

section

variable {stock : Stock} {roles : List Role} {w : World} {d : Driver} {report : DriverReport}
  {origin : WriteSource} {o : StoredObject}

/-- What the first driver reports as written is there, as its source wrote it. -/
theorem World.Stocked.holds_written (h : w.Stocked stock roles) (hd : w.drivers[0]? = some d)
    (hreport : d.stage.outcome? = some (.ok report)) (ho : o ∈ report.writtenObjects)
    (hspared : o.target ∉ stock.doomed) : stock.origin.Puts o ∧ w.store.Holds o := by
  obtain ⟨role, -, ⟨pulled, hrun⟩, -⟩ := h.cast hd
  obtain ⟨r, hr, hwritten⟩ := List.mem_filterMap.1 ho
  have hrecorded := hrun.recorded hreport (List.mem_append_left _ hr)
  exact ⟨h.puts hd hrecorded hwritten, h.written d hd r o hrecorded hwritten hspared⟩

/-- Every task has written to a place of its own. -/
theorem World.Stocked.targets_ne (h : w.Stocked stock roles) (hd : w.drivers[0]? = some d)
    (hreport : d.stage.outcome? = some (.ok report)) (horigin : stock.origin = .write origin)
    (hw : origin.Bounded) :
    report.writtenObjects.Pairwise fun o o' => o.target ≠ o'.target := by
  obtain ⟨role, -, ⟨pulled, hrun⟩, -⟩ := h.cast hd
  have hkey {r : OperationResult} {o : StoredObject} (hr : r ∈ report.passed)
      (ho : r.written = some o) : o.target.key = origin.key r.taskId := by
    have hrecorded := hrun.recorded hreport (List.mem_append_left _ hr)
    obtain ⟨n, op, payload, hid, -, hgives, ht, -⟩ := h.wrote hd hrecorded ho
    rw [horigin] at hgives
    obtain ⟨payload', hwrites⟩ := hgives.writes hw
    rw [← ht, hid, hwrites.key]
  refine List.pairwise_filterMap.2 ((hrun.exact hreport).passed_sorted.imp_of_mem ?_)
  intro a b ha hb hlt o ho o' ho' ht
  have hid := WriteSource.key_inj ((hkey ha ho).symm.trans ((congrArg _ ht).trans (hkey hb ho')))
  rw [hid] at hlt
  exact UInt64.lt_irrefl _ hlt

/-- The first half of the objects is kept, and the rest is deleted. -/
def Stock.halved (origin : Source) (written : List StoredObject)
    (hputs : ∀ o ∈ written, origin.Puts o)
    (htargets : written.Pairwise fun o o' => o.target ≠ o'.target) : Stock where
  origin
  kept := written.take (written.length / 2)
  doomed := (written.drop (written.length / 2)).map StoredObject.target
  puts o ho := hputs o (List.mem_of_mem_take ho)
  spared := by
    intro o ho hdoomed
    obtain ⟨o', ho', ht⟩ := List.mem_map.1 hdoomed
    rw [← List.take_append_drop (written.length / 2) written] at htargets
    exact (List.pairwise_append.1 htargets).2.2 o ho o' ho' ht.symm

end

namespace Rehearsal

variable {r r' : Rehearsal} {d : Driver} {report : DriverReport} {origin : WriteSource}

/-- The world before anything has happened. -/
def blank (r : Rehearsal) : World := { policy := .ofConfig r.config.policy }

theorem fresh_blank (r : Rehearsal) : r.blank.Fresh := ⟨rfl, rfl, rfl, rfl⟩

theorem bounded_of_writes {seed : UInt64} {keyPrefix : String} {source : Source}
    (hc : r.config.Usable) (h : r.writes seed keyPrefix = .ok source) :
    ∃ w, source = .write w ∧ w.keyPrefix = keyPrefix ∧ w.Bounded := by
  cases hw : WriteSource.ofConfig r.config.workload seed with
  | error crash => rw [writes, hw] at h; cases h
  | ok w =>
    rw [writes, hw] at h
    cases h
    have hw := WriteSource.ofConfig_eq hc.sizes hw
    subst hw
    exact ⟨_, rfl, rfl, hc.sizes, hc.limit⟩

/-- The stream that writes first has ended without a failure. -/
def Preloaded (r : Rehearsal) : Prop :=
  ∃ d report, r.world.drivers[0]? = some d ∧ d.plan = r.preloadPlan ∧
    d.outcome? = some (.ok report) ∧ report.failed = []

/-- What is known of the report at each stage at which the streams have started. -/
inductive Judges (w : World) : RehearsalStage → Prop
  | resting (wake : Nat) : Judges w (.resting wake)
  | faulting : Judges w .faulting
  | joining (stream : Nat) (fault : Except DrillError FaultRecord) :
      Judges w (.joining stream fault)
  | gathering (fault : Except DrillError FaultRecord) : Judges w (.gathering fault)
  | restoring {report : AggregateReport} (record : FaultRecord) :
      (w.store.HasCount → report.Clean) → Judges w (.restoring report record)
  | restored {report : AggregateReport} (record : FaultRecord) :
      (w.store.HasCount → report.Clean) → Judges w (.restored report record)
  | failed (failure : RehearsalFailure) : Judges w (.done (.error failure))
  | done {report : AggregateReport} : (w.store.HasCount → report.Clean) →
      Judges w (.done (.ok ⟨report, report.verdict w.policy⟩))

/-- How far a rehearsal has come. -/
inductive Course (r : Rehearsal) : Prop
  | starting : r.stage = .starting →
      (∀ stock : Stock, stock.kept = [] → World.Fair stock [] r.blank r.world) → Course r
  | preloading {origin : WriteSource} : r.stage = .preloading → origin.Bounded →
      origin.keyPrefix = "pre" →
      World.Fair { origin := .write origin } [⟨r.preloadPlan, .write origin⟩] r.blank r.world →
      Course r
  | streaming {stock : Stock} {roles : List Role} : roles.length = 4 →
      World.Fair stock roles r.blank r.world → r.Preloaded → Judges r.world r.stage → Course r
  | failed {failure : RehearsalFailure} : r.stage = .done (.error failure) → Course r

theorem Preloaded.launch (h : r.Preloaded) (plan : DriverPlan) (source : Source) :
    (r.control (.launch plan source)).Preloaded := by
  obtain ⟨d, report, hd, hrest⟩ := h
  have hlt := (List.getElem?_eq_some_iff.1 hd).1
  exact ⟨d, report, (List.getElem?_append_left hlt).trans hd, hrest⟩

/-- The streams start once all objects are written. -/
theorem Course.launch {streams : List (String × Source)} (hc : r.config.Usable)
    (hw : origin.Bounded) (hname : origin.keyPrefix = "pre")
    (h : World.Fair { origin := .write origin } [⟨r.preloadPlan, .write origin⟩] r.blank r.world)
    (hd : r.world.drivers[0]? = some d) (ho : d.outcome? = some (.ok report))
    (hfailed : report.failed = []) (hstreams : r.streams report.writtenObjects = .ok streams) :
    Course (r.launch streams) := by
  have hreport := Driver.stage_outcome? ho
  have hplan : d.plan = r.preloadPlan := by
    obtain ⟨role, hrole, ⟨pulled, hrun⟩, -⟩ := h.stocked.cast hd
    cases hrole
    exact hrun.plan_eq
  have hheld (o : StoredObject) (hmem : o ∈ report.writtenObjects) :=
    h.stocked.holds_written hd hreport hmem (by simp)
  have htargets := h.stocked.targets_ne hd hreport rfl hw
  simp only [Rehearsal.streams] at hstreams
  cases hwrites : r.writes 2 "bg" with
  | error crash => rw [hwrites] at hstreams; cases hstreams
  | ok source =>
    rw [hwrites] at hstreams
    cases hstreams
    obtain ⟨later, rfl, hlater, hw'⟩ := bounded_of_writes hc hwrites
    let stock := Stock.halved (.write origin) report.writtenObjects
      (fun o hmem => (hheld o hmem).1) htargets
    have hrestocked : World.Fair stock [⟨r.preloadPlan, .write origin⟩] r.blank r.world := by
      refine h.restock rfl (List.nil_subset _) ?_ ?_
      · intro role hrole
        rw [List.mem_singleton.1 hrole]
        exact Stock.admits_origin rfl rfl hw
      · intro o hmem
        exact (hheld o (List.mem_of_mem_take hmem)).2
    have hkeys (id id' : TaskId) : later.key id ≠ origin.key id' := by
      apply WriteSource.key_ne
      · rw [hlater, hname]
        decide
      · rw [hlater]
        decide
      · rw [hname]
        decide
    have hreads : stock.Admits ⟨r.streamPlan "reads", .read stock.kept 0⟩ :=
      Stock.admits_reads rfl (List.Subset.refl _)
    have hwrites : stock.Admits ⟨r.streamPlan "writes", .write later⟩ :=
      Stock.admits_apart rfl rfl hw hw' hkeys
    have hdeletes : stock.Admits ⟨r.streamPlan "deletes", .delete stock.doomed⟩ :=
      Stock.admits_deletes rfl (List.Subset.refl _)
    have hfair := ((hrestocked.launch hreads nofun).launch hwrites nofun).launch hdeletes nofun
    have hpreloaded : r.Preloaded := ⟨d, report, hd, hplan, ho, hfailed⟩
    exact .streaming rfl hfair (((hpreloaded.launch _ _).launch _ _).launch _ _)
      (.resting _)

/-! ## One move -/

theorem Judges.mono {w w' : World} {stage : RehearsalStage} (h : Judges w stage)
    (hroom : w'.store.HasCount → w.store.HasCount) (hpolicy : w'.policy = w.policy) :
    Judges w' stage := by
  cases h with
  | restoring record hclean => exact .restoring record fun hcount => hclean (hroom hcount)
  | restored record hclean => exact .restored record fun hcount => hclean (hroom hcount)
  | done hclean => exact hpolicy ▸ .done fun hcount => hclean (hroom hcount)
  | resting wake => exact .resting wake
  | faulting => exact .faulting
  | joining stream fault => exact .joining stream fault
  | gathering fault => exact .gathering fault
  | failed failure => exact .failed failure

theorem Course.step {process : Process} {world : World} (h : r.Course)
    (hm : r.world.step? process = some world) : Course { r with world } := by
  have hs := World.step_of_step? hm
  cases h with
  | starting hstage hfair =>
    exact .starting hstage fun stock hkept => (hfair stock hkept).step r.fresh_blank hm
  | preloading hstage hw hname hfair =>
    exact .preloading hstage hw hname (hfair.step r.fresh_blank hm)
  | streaming hfew hfair hpreloaded hjudges =>
    refine .streaming hfew (hfair.step r.fresh_blank hm) ?_ ?_
    · obtain ⟨d, report, hd, hplan, ho, hfailed⟩ := hpreloaded
      obtain ⟨d', hd', hplan', ho'⟩ := hs.done hd ho
      exact ⟨d', report, hd', hplan'.trans hplan, ho', hfailed⟩
    · have hpolicy : world.policy = r.world.policy := by cases hs <;> rfl
      exact hjudges.mono (hfair.stocked.hasCount_mono hs) hpolicy
  | failed hstage => exact .failed hstage

theorem Course.pass (h : r.Course) (timer : Nat) (wall : Duration) :
    Course { r with world := r.world.pass timer wall } := by
  cases h with
  | starting hstage hfair =>
    exact .starting hstage fun stock hkept => (hfair stock hkept).pass timer wall
  | preloading hstage hw hname hfair => exact .preloading hstage hw hname (hfair.pass timer wall)
  | streaming hfew hfair hpreloaded hjudges =>
    exact .streaming hfew (hfair.pass timer wall) hpreloaded (hjudges.mono id rfl)
  | failed hstage => exact .failed hstage

theorem Course.begin {source : Source} (hc : r.config.Usable)
    (h : ∀ stock : Stock, stock.kept = [] → World.Fair stock [] r.blank r.world)
    (hwrites : r.writes 1 "pre" = .ok source) (event : Event) :
    Course (((r.control (.log event)).control (.launch r.preloadPlan source)).atStage
      .preloading) := by
  obtain ⟨origin, rfl, hname, hw⟩ := bounded_of_writes hc hwrites
  have hfair := (h { origin := .write origin } rfl).log event
  exact .preloading rfl hw hname (hfair.launch (Stock.admits_origin rfl rfl hw) fun _ => rfl)

/-- A step of the conductor once the streams have started. -/
theorem Course.goOn {stock : Stock} {roles : List Role} (hfew : roles.length = 4)
    (hfair : World.Fair stock roles r.blank r.world) (hpreloaded : r.Preloaded)
    (hjudges : Judges r.world r.stage) (hm : r.Conducts r') : r'.Course := by
  cases hm with
  | begin hs | launch hs => rw [hs] at hjudges; cases hjudges
  | strike => exact .streaming hfew (hfair.startFault r.injector) hpreloaded .faulting
  | struck fault => exact .streaming hfew hfair hpreloaded (.joining 1 fault)
  | join => exact .streaming hfew hfair hpreloaded (.joining _ _)
  | gather => exact .streaming hfew (hfair.collect _ _) hpreloaded (.gathering _)
  | judge _ hc hended =>
    exact .streaming hfew hfair hpreloaded (.restoring _ (hfair.posted.clean _ _ hc hended))
  | @restore report record hs =>
    rw [hs] at hjudges
    cases hjudges with
    | restoring _ hclean =>
      have hcount := (r.injector.alike_restore record r.world.store).operationsTotal
      refine .streaming hfew (hfair.restoreFault r.injector record) hpreloaded
        (.restored record fun hroom => hclean ?_)
      rwa [Store.HasCount, ← hcount]
  | finish hs =>
    rw [hs] at hjudges
    cases hjudges with
    | restored _ hclean => exact .streaming hfew (hfair.log _) hpreloaded (.done hclean)
  | fail | failToBegin => exact .failed rfl

theorem Course.conduct (hc : r.config.Usable) (h : r.Course) (hm : r.Conducts r') : r'.Course := by
  cases h with
  | starting hstage hfair =>
    cases hm with
    | begin _ hwrites => exact .begin hc hfair hwrites _
    | fail | failToBegin => exact .failed rfl
    | launch hs | strike hs | struck _ hs | join hs | gather hs | judge hs | restore hs
    | finish hs => cases hstage.symm.trans hs
  | preloading hstage hw hname hfair =>
    cases hm with
    | launch _ hd ho hfailed hstreams => exact .launch hc hw hname hfair hd ho hfailed hstreams
    | fail | failToBegin => exact .failed rfl
    | begin hs | strike hs | struck _ hs | join hs | gather hs | judge hs | restore hs
    | finish hs => cases hstage.symm.trans hs
  | streaming hfew hfair hpreloaded hjudges => exact .goOn hfew hfair hpreloaded hjudges hm
  | failed hstage =>
    cases hm with
    | fail | failToBegin => exact .failed rfl
    | begin hs | launch hs | strike hs | struck _ hs | join hs | gather hs | judge hs | restore hs
    | finish hs => cases hstage.symm.trans hs

theorem Course.move {m : Move} (hc : r.config.Usable) (h : r.Course) (hm : r.move? m = some r') :
    r'.Course := by
  cases m with
  | conduct => exact h.conduct hc (conducts_of_conduct? hm)
  | step process =>
    obtain ⟨world, hstep, rfl⟩ := Option.map_eq_some_iff.1 hm
    exact h.step hstep
  | pass timer wall =>
    cases hm
    exact h.pass timer wall

/-! ## The whole rehearsal -/

variable {config : Config} {options : RehearsalOptions} {summary : RehearsalSummary}

theorem course_start (config : Config) (options : RehearsalOptions) :
    (start config options).Course := by
  refine .starting rfl fun stock hkept => ⟨.refl, .of_fresh rfl rfl rfl hkept, ?_⟩
  refine ⟨?_, ?_, ?_⟩ <;> simp [start]

theorem Reachable.course (h : Reachable (start config options) r) (hc : config.Usable) :
    r.Course := by
  induction h with
  | refl => exact course_start config options
  | move m hr hm ih => exact ih.move (hr.told.config.symm ▸ hc) hm

/-- A rehearsal that runs to its end has written its objects without a failure, has a result for
every submission, blames none of them and finds none corrupted, and its verdict is that the
excused failures are within the budget. -/
theorem Reachable.judges_rightly (h : Reachable (start config options) r) (hc : config.Usable)
    (hresult : r.result? = some (.ok summary))
    (hmemory : ∀ d ∈ r.world.drivers, ∀ p, d.pool = some p → p.results.length < Pool.resultLimit) :
    (∃ d report, r.world.drivers[0]? = some d ∧ d.plan = (start config options).preloadPlan ∧
      d.outcome? = some (.ok report) ∧ report.failed = []) ∧
    summary.report.unexpectedFailures = [] ∧
    (∀ f ∈ summary.report.failures, f.outcome.failureKind? ≠ some .corruption) ∧
    summary.report.totalSubmitted.toNat = summary.report.passCount + summary.report.failCount ∧
    (summary.passed = true ↔ ∀ most, config.policy.maxExpectedFailures = some most →
      summary.report.expectedFailureCount ≤ most.toNat) := by
  have htold := h.told
  have hstage : r.stage = .done (.ok summary) := by
    unfold result? at hresult
    split at hresult
    case h_1 result hs =>
      cases hresult
      exact hs
    case h_2 => cases hresult
  cases h.course hc with
  | starting hs | preloading hs | failed hs => cases hstage.symm.trans hs
  | streaming hfew hfair hpreloaded hjudges =>
    rw [hstage] at hjudges
    cases hjudges with
    | done hclean =>
      have hroom := hfair.stocked.hasCount (Nat.le_of_eq hfew) hmemory
      obtain ⟨haccounted, hunexpected, hintact⟩ := hclean hroom
      have hplan : r.preloadPlan = (start config options).preloadPlan := by
        rw [preloadPlan, htold.config, htold.options]
        rfl
      have hbudget : r.world.policy.maxExpectedFailures = config.policy.maxExpectedFailures := by
        rw [htold.policy]
        rfl
      refine ⟨hplan ▸ hpreloaded, hunexpected, hintact, haccounted, ?_⟩
      rw [← hbudget]
      exact (hclean hroom).passed_iff

/-! ## A trial -/

def moves? (r : Rehearsal) (ms : List Move) : Option Rehearsal := ms.foldlM move? r

theorem Reachable.of_moves? {ms : List Move} {start : Rehearsal} (h : Reachable start r)
    (hms : r.moves? ms = some r') : Reachable start r' := by
  induction ms generalizing r with
  | nil =>
    cases hms
    exact h
  | cons m ms ih =>
    simp only [moves?, List.foldlM_cons, Option.bind_eq_bind, Option.bind_eq_some_iff] at hms
    obtain ⟨r₁, hm, hms⟩ := hms
    exact ih (h.move m hm) hms

/-- Two failures are within the budget. -/
def trialConfig : Config where
  pool := { workers := 1, queueCapacity := 0 }
  workload := { buckets := 1, minObjectSize := 1, maxObjectSize := 1 }
  policy := { maxExpectedFailures := some 2 }
  fault := { startAfterMs := 0, transitionMs := 1 }

/-- The steps of a driver that is about to stop. -/
def trialStop (d shutdown : Nat) : List (Nat × Process) :=
  [(7, .client d shutdown), (4, .worker d 0), (6, .client d shutdown), (3, .driver d)]

/-- One object is written first. The pod is down while it is to be deleted and another is to be
written, and the next write succeeds. -/
def trialMoves : List Move :=
  let run := List.flatMap fun ((n, p) : Nat × Process) => List.replicate n (Move.step p)
  [.conduct] ++ run [(2, .driver 0), (5, .client 0 0), (9, .worker 0 0), (2, .driver 0),
      (7, .client 0 1), (4, .worker 0 0), (6, .client 0 1), (2, .driver 0)]
    ++ [.conduct, .conduct] ++ run [(3, .fault 0), (2, .driver 2), (5, .client 2 0),
      (9, .worker 2 0), (2, .driver 3), (5, .client 3 0), (9, .worker 3 0)]
    ++ [.pass 1 .zero] ++ run ([(1, .fault 0), (3, .driver 2), (2, .fault 0), (5, .client 2 1),
      (8, .worker 2 0), (2, .driver 1), (7, .client 1 0), (5, .worker 1 0), (6, .client 1 0),
      (3, .driver 1), (3, .driver 2)] ++ trialStop 2 2 ++ [(3, .driver 3)] ++ trialStop 3 1)
    ++ List.replicate 4 .conduct ++ run [(4, .collection)] ++ List.replicate 3 .conduct

theorem judges_rightly_trial : ∃ r summary, Reachable (start trialConfig { preload := 1 }) r ∧
    r.result? = some (.ok summary) ∧ summary.report.expectedFailureCount = 2 ∧
      summary.report.unexpectedFailures = [] ∧ summary.passed = true := by
  have hend : ((start trialConfig { preload := 1 }).moves? trialMoves).any (fun r =>
      (r.result?.bind Except.toOption).any (fun summary =>
        summary.report.expectedFailureCount = 2) &&
      r.world.drivers.all fun d => d.pool.all fun p => p.results.length < Pool.resultLimit)
        = true := by decide +kernel
  obtain ⟨r, hr, hend⟩ := (Option.any_eq_true _ _).1 hend
  obtain ⟨hsummary, hmemory⟩ := Bool.and_eq_true_iff.1 hend
  obtain ⟨summary, hsummary, hcount⟩ := (Option.any_eq_true _ _).1 hsummary
  obtain ⟨result, hresult, hok⟩ := Option.bind_eq_some_iff.1 hsummary
  obtain rfl := toOption_eq_some hok
  have hcount := of_decide_eq_true hcount
  have hreached : Reachable (start trialConfig { preload := 1 }) r := .of_moves? .refl hr
  have hheld (d : Driver) (hd : d ∈ r.world.drivers) (p : Pool) (hp : d.pool = some p) :
      p.results.length < Pool.resultLimit := by
    have hpool := List.all_eq_true.1 hmemory d hd
    exact of_decide_eq_true ((Option.all_eq_true _ _).1 hpool p hp)
  obtain ⟨-, hunexpected, -, -, hpassed⟩ :=
    hreached.judges_rightly ⟨rfl, by decide⟩ hresult hheld
  refine ⟨r, summary, hreached, hresult, hcount, hunexpected, hpassed.2 ?_⟩
  rintro most hmost
  cases hmost
  rw [hcount]
  decide

end Rehearsal

end FaultDrill
