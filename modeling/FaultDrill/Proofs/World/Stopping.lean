import FaultDrill.Proofs.Driver.Halt
import FaultDrill.Proofs.World.Course

/-! # Drivers that are stopped in a world

Once the signal of a driver is raised, or the window closed for which it waits, the driver takes in
no more than the task that it submits. Left to itself it ends, and it reports all that it took in.
All of this is about drivers on one thread, where a signal is raised while the driver waits, and
never between its look at the stop condition and its request to the source.
-/

namespace FaultDrill.World

open Driver

/-- Time passes, or driver `i` takes a step, or somebody in its pool does. -/
def Move.IsOf (i : Nat) : Move → Prop
  | .step process => process.driver? = some i
  | .pass _ _ => True
  | .control _ => False

variable {w w' w₀ : World} {process : Process} {early late ms : List Move} {i : Nat} {d : Driver}
  {plan : DriverPlan} {source : Source} {pulled : List (Option Operation)} {n : UInt64}

/-! ## A driver comes to rest -/

theorem exists_step_of_not_rest (h : ¬w.RestsAt i) : ∃ timer wall process w',
    process.driver? = some i ∧ (w.pass timer wall).step? process = some w' := by
  by_contra hnone
  have idle (process : Process) (hprocess : process.driver? = some i) (timer wall) :
      (w.pass timer wall).step? process = none :=
    Option.eq_none_iff_forall_ne_some.2 fun w' hw' =>
      hnone ⟨timer, wall, process, w', hprocess, hw'⟩
  exact h ⟨idle (.driver i) rfl, fun timer wall j => idle (.client i j) rfl timer wall,
    fun timer wall j => idle (.worker i j) rfl timer wall⟩

/-- A driver whose stop condition is reached for good comes to rest by itself. -/
theorem comes_to_rest (hstop : plan.stop.isExternal = true)
    (hfits : ∀ n op, source.Gives n op → op.Fits) (hd : w.drivers[i]? = some d)
    (hr : Run plan source pulled d) (hreached : plan.stop.reached n w.surroundings = true) :
    ∃ ms w', (∀ m ∈ ms, m.IsOf i) ∧ w.moves? ms = some w' ∧ w'.RestsAt i := by
  induction heffort : d.effort using WellFoundedLT.induction generalizing w d pulled with
  | _ effort ih =>
    by_cases hrest : w.RestsAt i
    · exact ⟨[], w, List.forall_mem_nil _, rfl, hrest⟩
    · obtain ⟨timer, wall, process, w₁, hprocess, hstep⟩ := exists_step_of_not_rest hrest
      have hpass : plan.stop.reached n (w.pass timer wall).surroundings = true :=
        StopCondition.reached_move? (m := .pass timer wall) hstop rfl hreached
      obtain ⟨d₁, pulled₁, hd₁, hr₁, hlt⟩ : ∃ d₁ pulled₁, w₁.drivers[i]? = some d₁ ∧
          Run plan source pulled₁ d₁ ∧ d₁.effort < d.effort := by
        rcases step?_driver hprocess hstep hd with
          ⟨d₁, emission, hd₁, hown, -⟩ | ⟨p, m, p', hp, hi, hm, hd₁, -⟩
        · refine ⟨d₁, _, hd₁, hr.own _ hown, effort_own hown ?_⟩
          rw [hr.plan_eq, StopCondition.reached_congr hstop _ n]
          exact hpass
        · have hr₁ := hr.pool m hp hi hm
          exact ⟨_, _, hd₁, hr₁, hr.effort_pool hp hi hm (hr₁.noneLost hfits p' rfl)⟩
      obtain ⟨ms, w', hms, hmoves, hrest'⟩ := ih _ (heffort ▸ hlt) hd₁ hr₁
        (StopCondition.reached_move? (m := .step process) hstop hstep hpass) rfl
      refine ⟨.pass timer wall :: .step process :: ms, w', ?_, ?_, hrest'⟩
      · exact List.forall_mem_cons.2 ⟨trivial, List.forall_mem_cons.2 ⟨hprocess, hms⟩⟩
      · exact moves?_cons_eq_some.2 ⟨_, rfl, moves?_cons_eq_some.2 ⟨w₁, hstep, hmoves⟩⟩

/-! ## The moment at which a driver is stopped -/

/-- On one thread a driver asks for nothing more from the moment at which its signal is raised, or
its window closed, and takes in one task at most, for which it may be waiting to get a permit. Once
nobody can go on it has ended, and it can always come to that by itself. It ends with a report of
each task that was accepted, of none if it had not started, unless its pool does not start, its
source has panicked or there are no numbers left. -/
theorem stopping_law (hstart : w₀.drivers[i]? = some { plan, source })
    (hfits : ∀ n op, source.Gives n op → op.Fits) (hstop : plan.stop.isExternal = true)
    (hearly : w₀.moves? early = some w) (hreached : plan.stop.reached n w.surroundings = true)
    (hlate : w.moves? late = some w') :
    ∃ d d', w.drivers[i]? = some d ∧ w'.drivers[i]? = some d' ∧
      d.Halts (w.incidents i late) ∧
      (w'.RestsAt i → ∃ outcome, d'.outcome? = some outcome) ∧
      (∃ ms w'', (∀ m ∈ ms, m.IsOf i) ∧ w'.moves? ms = some w'' ∧ w''.RestsAt i) ∧
      (Undisturbed plan (w₀.incidents i early ++ w.incidents i late) →
        ∀ outcome, d'.outcome? = some outcome → ∃ report, outcome = .ok report ∧
          (report.results.map OperationResult.label).Perm
            ((Incident.tasks .accepted (w₀.incidents i early ++ w.incidents i late)).map
              Task.label) ∧
          (d.stage = .starting →
            report = { stream := plan.stream, submitted := 0, passed := [], failed := [] })) := by
  obtain ⟨d, hd, hbefore⟩ := exists_course hearly hstart
  have hr := hbefore.run_of_start
  obtain ⟨d', hd', hafter⟩ := moves?_course
    (P := fun around => plan.stop.reached n around = true) (StopCondition.reached_move? hstop)
    hlate hd .refl hreached
  obtain ⟨d'', hd'', hwhole⟩ := moves?_course (fun _ _ => trivial) hlate hd hbefore trivial
  obtain rfl := Option.some.inj (hd'.symm.trans hd'')
  have hr' := hwhole.run_of_start
  have hn := hr'.noneLost hfits
  have hhalts : d.Halts (w.incidents i late) := hafter.halts hr fun around hP n' =>
    (StopCondition.reached_congr hstop n' n around).trans hP
  refine ⟨d, d', hd, hd', hhalts, fun hrest => (hrest.rests hd').outcome hr' hn, ?_, ?_⟩
  · exact comes_to_rest hstop hfits hd' hr' (StopCondition.reached_moves? hstop hlate hreached)
  · intro hwell outcome ho
    obtain ⟨report, rfl⟩ := hwhole.ends_well hn hwell ho
    have hreport := stage_outcome? ho
    refine ⟨report, rfl, hwhole.reported hn hreport, fun hs => ?_⟩
    have hexact := hr'.exact hreport
    rw [Incident.answers_append, hr.pulled_of_starting hs,
      Incident.answers_eq_nil hhalts.asks] at hexact
    exact hexact.eq_empty

def haltPlan (workers : UInt64) : DriverPlan :=
  { stream := "trial", stop := .signal "halt", pool := { workers, queueCapacity := 1 },
    inBackground := false }

def haltOps : List Operation :=
  [.delete ⟨"bucket", "a"⟩, .delete ⟨"bucket", "b"⟩, .delete ⟨"bucket", "c"⟩]

def haltStart : World := { drivers := [{ plan := haltPlan 1, source := .scripted haltOps }] }

/-- The second task waits for the permit of the first one when the signal is raised. -/
def haltEarly : List Move :=
  soloSteps [(2, .driver 0), (5, .client 0 0), (3, .driver 0), (2, .client 0 1)] ++
    [.control (.raise "halt")]

def haltLate : List Move :=
  soloSteps [(8, .worker 0 0), (4, .client 0 1), (3, .driver 0), (7, .client 0 2),
    (11, .worker 0 0), (3, .client 0 2), (1, .worker 0 0), (3, .client 0 2), (2, .driver 0)]

def haltMiddle : World := (haltStart.moves? haltEarly).get rfl

def haltEnd : World := (haltMiddle.moves? haltLate).get (by decide +kernel)

def haltTold : List Incident := haltStart.incidents 0 haltEarly ++ haltMiddle.incidents 0 haltLate

/-- The second task is accepted late, and reported; the third one is never asked for. -/
theorem stopping_law_trial : haltStart.moves? haltEarly = some haltMiddle ∧
    haltMiddle.moves? haltLate = some haltEnd ∧
    ∃ d d' report, haltMiddle.drivers[0]? = some d ∧ haltEnd.drivers[0]? = some d' ∧
      d.Halts (haltMiddle.incidents 0 haltLate) ∧
      (Incident.tasks .accepted (haltMiddle.incidents 0 haltLate)).length = 1 ∧
      d'.outcome? = some (.ok report) ∧
      (report.results.map OperationResult.label).Perm
        ((tasks "trial" [.delete ⟨"bucket", "a"⟩, .delete ⟨"bucket", "b"⟩]).map Task.label) := by
  have hfits (n : Nat) (op : Operation) (h : (Source.scripted haltOps).Gives n op) : op.Fits := by
    have hkind : ∀ op ∈ haltOps, op.kind = .delete := by decide
    intro hwrite
    cases (hkind op h.mem_scripted).symm.trans hwrite
  have hearly : haltStart.moves? haltEarly = some haltMiddle := (Option.some_get _).symm
  have hlate : haltMiddle.moves? haltLate = some haltEnd := (Option.some_get _).symm
  have hraised : (haltPlan 1).stop.reached 0 haltMiddle.surroundings = true := by decide +kernel
  have hstart : haltStart.drivers[0]? = some { plan := haltPlan 1, source := .scripted haltOps } :=
    rfl
  obtain ⟨d, d', hd, hd', hhalts, -, -, hreports⟩ :=
    stopping_law hstart hfits rfl hearly hraised hlate
  have hwell : Undisturbed (haltPlan 1) haltTold :=
    ⟨⟨_, rfl⟩, by decide +kernel, by decide +kernel⟩
  have hended : (haltEnd.drivers[0]?.bind Driver.outcome?).isSome = true := by decide +kernel
  rw [hd', Option.bind_some, Option.isSome_iff_exists] at hended
  obtain ⟨outcome, ho⟩ := hended
  obtain ⟨report, rfl, hperm, -⟩ := hreports hwell outcome ho
  exact ⟨hearly, hlate, d, d', report, hd, hd', hhalts, by decide +kernel, ho, hperm⟩

/-- A driver without workers, whose signal is raised before it starts. -/
def unstaffed : World :=
  { signals := ["halt"], drivers := [{ plan := haltPlan 0, source := .scripted [] }] }

/-- A driver whose source panics when it is asked for a second task. -/
def explosive : World :=
  { drivers := [{
      plan := haltPlan 1
      source := .rule (fun n _ =>
        if n = 0 then .ok (some (.delete ⟨"bucket", "a"⟩)) else .error (.raised "exploded")) 0 }] }

def explosiveMoves : List Move :=
  soloSteps [(2, .driver 0), (5, .client 0 0), (3, .driver 0)] ++ [.control (.raise "halt")]

/-- Without workers there is no report, and a task that was accepted before the source panicked has
none either. -/
theorem stopping_fails :
    (∃ w d, unstaffed.moves? [.step (.driver 0)] = some w ∧ w.drivers[0]? = some d ∧
      (haltPlan 0).stop.reached 0 unstaffed.surroundings = true ∧
      d.outcome? = some (.error (.error (.invalidWorkerCount 0)))) ∧
    ∃ w d, explosive.moves? explosiveMoves = some w ∧ w.drivers[0]? = some d ∧
      (Incident.tasks .accepted (explosive.incidents 0 explosiveMoves)).length = 1 ∧
      d.outcome? = some (.error (.crash (.raised "exploded"))) :=
  ⟨⟨_, _, rfl, rfl, rfl, rfl⟩, _, _, rfl, rfl, rfl, rfl⟩

end FaultDrill.World
