import FaultDrill.Proofs.Outage

/-! # A fault inside its window

A bracketed fault opens the window, injects, and closes the window whether or not the injection
went well. Others go on between any two of its steps, and one of them may close the window first.
What the fault wrote into the log, how the window stands in the end and what the fault returns
depend on nothing but the injection and on who closed the window.
-/

namespace FaultDrill

namespace Clock

instance : LE Clock := ⟨fun a b => a.timer ≤ b.timer ∧ a.wall ≤ b.wall⟩

variable {a b c : Clock}

theorem le_refl (c : Clock) : c ≤ c := ⟨Nat.le_refl _, Nat.le_refl _⟩

theorem le_trans (hab : a ≤ b) (hbc : b ≤ c) : a ≤ c :=
  ⟨Nat.le_trans hab.1 hbc.1, Nat.le_trans hab.2 hbc.2⟩

theorem le_pass (timer : Nat) (wall : Duration) (c : Clock) : c ≤ c.pass timer wall :=
  ⟨c.timer_le_pass timer wall, c.wall_le_pass timer wall⟩

end Clock

/-- A step that a fault has taken: how far it was, what it found and what it told the log. -/
structure FaultStep where
  stage : FaultStage
  clock : Clock
  scene : FaultRun.Scene
  told : List Event

def FaultStep.Is (s : FaultStep) (stage : FaultStage) (told : List Event) : Prop :=
  s.stage = stage ∧ s.told = told

/-! ## Who closed the window -/

namespace Window

/-- What became of an attempt to close the window; it is late if somebody else was first. -/
inductive Attempt
  | ahead
  | late
  | made (closed : Duration)

/-- The move, if it closed the window. -/
def closer {Move : Type} (m : Move) (w w' : Window) : List Move :=
  if w.phase = .open ∧ w'.phase = .postFault then [m] else []

/-- Who has closed the window that was opened at this time, and what became of the attempt that is
made by the move `mine`. -/
inductive ClosedBy {Move : Type} (mine : Move) (opened : Duration) (w : Window) :
    List Move → Attempt → Prop
  | nobody : w.phase = .open → ClosedBy mine opened w [] .ahead
  | another {m : Move} {closed : Duration} : m ≠ mine → w.phase = .postFault →
      w.closedAt = some closed → opened ≤ closed → ClosedBy mine opened w [m] .ahead
  | late {m : Move} {closed : Duration} : m ≠ mine → w.phase = .postFault →
      w.closedAt = some closed → opened ≤ closed → ClosedBy mine opened w [m] .late
  | made {closed : Duration} : w.phase = .postFault → w.closedAt = some closed →
      opened ≤ closed → ClosedBy mine opened w [mine] (.made closed)

variable {Move : Type} {m mine : Move} {w w' : Window} {now opened : Duration}
  {closers : List Move} {a : Attempt}

theorem closer_self : closer m w w = [] := by
  refine if_neg ?_
  rintro ⟨ho, hp⟩
  cases ho.symm.trans hp

theorem ClosedBy.not_preFault (h : ClosedBy mine opened w closers a) : w.phase ≠ .preFault := by
  cases h with
  | nobody hp | another _ hp | late _ hp | made hp => rw [hp]; exact nofun

theorem ClosedBy.of_open (h : ClosedBy mine opened w closers a) (hp : w.phase = .open) :
    closers = [] ∧ a = .ahead := by
  cases h with
  | nobody => exact ⟨rfl, rfl⟩
  | another _ hp' | late _ hp' | made hp' => cases hp.symm.trans hp'

/-- Somebody else gives a signal to the window. -/
theorem ClosedBy.signal (h : ClosedBy mine opened w closers a) (hm : m ≠ mine)
    (hle : opened ≤ now) (hw : w' = w ∨ w.signalOpen now = .ok w' ∨ w.signalClose now = .ok w') :
    w'.openedAt = w.openedAt ∧ ClosedBy mine opened w' (closers ++ closer m w w') a := by
  rcases hw with rfl | hw | hw
  · rw [closer_self, List.append_nil]
    exact ⟨rfl, h⟩
  · exact (h.not_preFault (Timeline.signalOpen_eq_ok hw).1).elim
  · obtain ⟨hp, rfl⟩ := Timeline.signalClose_eq_ok hw
    obtain ⟨rfl, rfl⟩ := h.of_open hp
    rw [closer, if_pos ⟨hp, rfl⟩]
    exact ⟨rfl, .another hm rfl rfl hle⟩

end Window

/-! ## The course of a fault -/

namespace FaultRun

/-- The steps of an injection that ended like this. -/
inductive Injects (f : FaultRun) : Except FaultError FaultRecord → List FaultStep → Prop
  | fails {s : FaultStep} {e : FaultError} {store : Store} :
      s.Is .injecting [f.injectionEvent (.error e)] →
      f.injector.begin s.scene.store = (.error e, store) → Injects f (.error e) [s]
  | ends {s s' : FaultStep} {transition : Nat} {store store' : Store}
      {injected : Except FaultError FaultRecord} :
      s.Is .injecting [] → f.injector.begin s.scene.store = (.ok transition, store) →
      s'.Is (.transitioning (s.clock.timer + transition)) [f.injectionEvent injected] →
      s.clock.timer + transition ≤ s'.clock.timer →
      f.injector.finish s'.scene.store = (injected, store') → Injects f injected [s, s']

/-- How far a fault has come that opened the window with its first step, the steps that it took,
and what became of its attempt to close the window. -/
inductive Course (f : FaultRun) (first : FaultStep) :
    FaultStage → List FaultStep → Window.Attempt → Prop
  | opens : Course f first .opened [first] .ahead
  | tells {steps : List FaultStep} {s : FaultStep} : Course f first .opened steps .ahead →
      s.Is .opened [.windowOpened (.ofNat first.clock.wall.wholeMillis)] →
      Course f first .injecting (steps ++ [s]) .ahead
  | begins {steps : List FaultStep} {s : FaultStep} {transition : Nat} {store : Store} :
      Course f first .injecting steps .ahead → s.Is .injecting [] →
      f.injector.begin s.scene.store = (.ok transition, store) →
      Course f first (.transitioning (s.clock.timer + transition)) (steps ++ [s]) .ahead
  | fails {steps : List FaultStep} {s : FaultStep} {e : FaultError} {store : Store} :
      Course f first .injecting steps .ahead → s.Is .injecting [f.injectionEvent (.error e)] →
      f.injector.begin s.scene.store = (.error e, store) →
      Course f first (.closing (.error e)) (steps ++ [s]) .ahead
  | ends {steps : List FaultStep} {s : FaultStep} {wake : Nat} {store : Store}
      {injected : Except FaultError FaultRecord} :
      Course f first (.transitioning wake) steps .ahead →
      s.Is (.transitioning wake) [f.injectionEvent injected] → wake ≤ s.clock.timer →
      f.injector.finish s.scene.store = (injected, store) →
      Course f first (.closing injected) (steps ++ [s]) .ahead
  | closes {steps : List FaultStep} {s : FaultStep} {injected : Except FaultError FaultRecord} :
      Course f first (.closing injected) steps .ahead → s.Is (.closing injected) [] →
      Course f first (.closed injected) (steps ++ [s]) (.made s.clock.wall)
  | finds {steps : List FaultStep} {s : FaultStep} {injected : Except FaultError FaultRecord} :
      Course f first (.closing injected) steps .ahead → s.Is (.closing injected) [] →
      Course f first (.done (.error .windowAlreadyClosed)) (steps ++ [s]) .late
  | returns {steps : List FaultStep} {s : FaultStep} {closed : Duration}
      {injected : Except FaultError FaultRecord} :
      Course f first (.closed injected) steps (.made closed) →
      s.Is (.closed injected) [.windowClosed (.ofNat closed.wholeMillis)] →
      Course f first (.done (asResult injected)) (steps ++ [s]) (.made closed)

variable {f f' : FaultRun} {first : FaultStep} {stage : FaultStage} {steps : List FaultStep}
  {a : Window.Attempt} {injected : Except FaultError FaultRecord} {clock : Clock}
  {scene scene' : Scene} {event : Option Event} {Move : Type} {mine : Move} {closers : List Move}

theorem Course.turn (h : f.Course first stage steps a) (hb : f.isBracketed = true)
    (hopened : scene.window.openedAt = some first.clock.wall)
    (hclosed : scene.window.ClosedBy mine first.clock.wall closers a)
    (hle : first.clock ≤ clock)
    (hturn : { f with stage }.Turn clock.timer clock.wall scene f' scene' event) :
    ∃ stage' a', f' = { f with stage := stage' } ∧
      f.Course first stage' (steps ++ [⟨stage, clock, scene, event.toList⟩]) a' ∧
      scene'.window.openedAt = some first.clock.wall ∧
      scene'.window.ClosedBy mine first.clock.wall
        (closers ++ Window.closer mine scene.window scene'.window) a' := by
  have hstays : scene.window.ClosedBy mine first.clock.wall
      (closers ++ Window.closer mine scene.window scene.window) a := by
    rwa [Window.closer_self, List.append_nil]
  have hinjected (result : Except FaultError FaultRecord) : { f with stage }.injected result =
      ({ f with stage := .closing result }, some (f.injectionEvent result)) :=
    injected_of_bracketed hb result
  cases hturn with
  | opens hs | refused hs | starts hs =>
    obtain rfl : stage = .starting := hs
    cases h
  | tells hs =>
    obtain rfl : stage = .opened := hs
    obtain rfl : a = .ahead := by cases h; rfl
    refine ⟨_, _, rfl, .tells h ⟨rfl, ?_⟩, hopened, hstays⟩
    simp [millis, hopened]
  | begins hs hbegin =>
    obtain rfl : stage = .injecting := hs
    obtain rfl : a = .ahead := by cases h; rfl
    exact ⟨_, _, rfl, .begins (s := ⟨.injecting, clock, scene, []⟩) h ⟨rfl, rfl⟩ hbegin, hopened,
      hstays⟩
  | fails hs hbegin =>
    rw [hinjected]
    obtain rfl : stage = .injecting := hs
    obtain rfl : a = .ahead := by cases h; rfl
    exact ⟨_, _, rfl, .fails h ⟨rfl, rfl⟩ hbegin, hopened, hstays⟩
  | @ends wake result store hs hwake hfinish =>
    rw [hinjected]
    obtain rfl : stage = .transitioning wake := hs
    obtain rfl : a = .ahead := by cases h; rfl
    exact ⟨_, _, rfl, .ends h ⟨rfl, rfl⟩ hwake hfinish, hopened, hstays⟩
  | @closes result window hs hw =>
    obtain rfl : stage = .closing result := hs
    obtain ⟨hp, rfl⟩ := Timeline.signalClose_eq_ok hw
    obtain ⟨rfl, rfl⟩ := hclosed.of_open hp
    refine ⟨_, _, rfl, .closes (s := ⟨.closing result, clock, scene, []⟩) h ⟨rfl, rfl⟩,
      hopened, ?_⟩
    rw [Window.closer, if_pos ⟨hp, rfl⟩]
    exact .made rfl rfl hle.2
  | @late result e hs hw =>
    obtain rfl : stage = .closing result := hs
    obtain rfl : a = .ahead := by cases h <;> rfl
    unfold Window.signalClose at hw
    -- the window is not open, so it was closed by somebody else
    cases hclosed with
    | nobody hp => simp [hp] at hw
    | another hm hp hc hle =>
      simp only [hp] at hw
      cases hw
      refine ⟨_, _, rfl, .finds h ⟨rfl, rfl⟩, hopened, ?_⟩
      rw [Window.closer_self]
      exact .late hm hp hc hle
  | @returns result hs =>
    obtain rfl : stage = .closed result := hs
    cases h with
    | closes h hs =>
      cases hclosed with
      | made hp hc hle =>
        refine ⟨_, _, rfl, .returns (.closes h hs) ⟨rfl, ?_⟩, hopened, hstays⟩
        simp [millis, hc]

theorem Injects.told {injection : List FaultStep} (h : f.Injects injected injection) :
    injection.flatMap FaultStep.told = [f.injectionEvent injected] := by
  cases h with
  | fails hs => simp [hs.2]
  | ends hs _ hs' => simp [hs.2, hs'.2]

/-- Before a fault closes the window the injection has run, and nothing else has happened since the
window was opened. -/
theorem Course.of_closing (h : f.Course first (.closing injected) steps a) :
    ∃ s injection, steps = first :: s :: injection ∧
      s.Is .opened [.windowOpened (.ofNat first.clock.wall.wholeMillis)] ∧
      f.Injects injected injection := by
  cases h with
  | fails h hs hbegin =>
    cases h with
    | tells h hs₁ =>
      cases h
      exact ⟨_, _, rfl, hs₁, .fails hs hbegin⟩
  | ends h hs' hwake hfinish =>
    cases h with
    | begins h hs hbegin =>
      cases h with
      | tells h hs₁ =>
        cases h
        exact ⟨_, _, rfl, hs₁, .ends hs hbegin hs' hwake hfinish⟩

/-- What holds of a fault that opened the window with its first step and has returned: how the
injection ended and the step that tried to close the window. The moves that closed the window are
given. -/
structure Brackets (f : FaultRun) (mine : Move) (first : FaultStep) (steps : List FaultStep)
    (closers : List Move) (window : Window) (result : Except DrillError FaultRecord)
    (injected : Except FaultError FaultRecord) (attempt : FaultStep) : Prop where
  /-- The injection runs after the window was opened and before the fault tries to close it. -/
  encloses : ∃ telling injection rest, steps = first :: telling :: (injection ++ attempt :: rest) ∧
    telling.stage = .opened ∧ f.Injects injected injection ∧ attempt.stage = .closing injected
  inOrder : steps.Pairwise (·.clock ≤ ·.clock)
  closed : ∃ closed, window.phase = .postFault ∧ window.openedAt = some first.clock.wall ∧
    window.closedAt = some closed ∧ first.clock.wall ≤ closed
  alone : (∀ m ∈ closers, m = mine) → window.closedAt = some attempt.clock.wall ∧
    steps.flatMap FaultStep.told = [.windowOpened (.ofNat first.clock.wall.wholeMillis),
      f.injectionEvent injected, .windowClosed (.ofNat attempt.clock.wall.wholeMillis)] ∧
    result = asResult injected
  overtaken : (∃ m ∈ closers, m ≠ mine) →
    steps.flatMap FaultStep.told =
      [.windowOpened (.ofNat first.clock.wall.wholeMillis), f.injectionEvent injected] ∧
    result = .error .windowAlreadyClosed

theorem Course.brackets {window : Window} {result : Except DrillError FaultRecord}
    (h : f.Course first (.done result) steps a) (hfirst : first.told = [])
    (hopened : window.openedAt = some first.clock.wall)
    (hclosed : window.ClosedBy mine first.clock.wall closers a)
    (hsorted : steps.Pairwise (·.clock ≤ ·.clock)) :
    ∃ injected attempt,
      f.Brackets mine first steps closers window result injected attempt := by
  cases h with
  | @finds _ s injected h hs =>
    obtain ⟨s₁, injection, rfl, hs₁, hinjects⟩ := h.of_closing
    cases hclosed with
    | late hm hp hc hle =>
      refine ⟨injected, s, ⟨s₁, injection, [], ?_, hs₁.1, hinjects, hs.1⟩, hsorted,
        ⟨_, hp, hopened, hc, hle⟩, fun halone => ?_, fun _ => ?_⟩
      · rfl
      · exact (hm (halone _ (List.mem_singleton_self _))).elim
      · refine ⟨?_, rfl⟩
        simp [hfirst, hs₁.2, hinjects.told, hs.2]
  | @returns _ s₃ closed injected h hs₃ =>
    cases h with
    | @closes _ s injected h hs =>
      obtain ⟨s₁, injection, rfl, hs₁, hinjects⟩ := h.of_closing
      cases hclosed with
      | made hp hc hle =>
        refine ⟨injected, s, ⟨s₁, injection, [s₃], by simp, hs₁.1, hinjects, hs.1⟩, hsorted,
          ⟨_, hp, hopened, hc, hle⟩, fun _ => ⟨hc, ?_, rfl⟩, ?_⟩
        · simp [hfirst, hs₁.2, hinjects.told, hs.2, hs₃.2]
        · simp

end FaultRun

/-! ## Going on -/

/-- The steps that are left at most. -/
@[simp] def FaultStage.left : FaultStage → Nat
  | .starting => 6
  | .opened => 5
  | .injecting => 4
  | .transitioning _ => 3
  | .closing _ => 2
  | .closed _ => 1
  | .done _ => 0

namespace FaultRun

variable {f : FaultRun}

theorem left_injected (injected : Except FaultError FaultRecord) :
    (f.injected injected).1.stage.left ≤ 2 := by
  unfold FaultRun.injected
  split
  case isTrue => exact Nat.le_refl _
  case isFalse => exact Nat.zero_le _

/-- A fault that has not returned goes on after some time, and has fewer steps left then. -/
theorem exists_step (hs : 0 < f.stage.left) (timer : Nat) :
    ∃ wait, ∀ now scene, ∃ f' scene' event,
      f.step? (timer + wait) now scene = some (f', scene', event) ∧
        f'.stage.left < f.stage.left := by
  obtain ⟨injector, isBracketed, stage⟩ := f
  unfold step?
  cases stage with
  | starting =>
    refine ⟨0, fun now scene => ?_⟩
    dsimp only
    split
    case isTrue => split <;> exact ⟨_, _, _, rfl, by simp⟩
    case isFalse => exact ⟨_, _, _, rfl, by simp⟩
  | opened => exact ⟨0, fun _ _ => ⟨_, _, _, rfl, by simp⟩⟩
  | injecting =>
    refine ⟨0, fun now scene => ?_⟩
    dsimp only
    split
    case h_1 => exact ⟨_, _, _, rfl, by simp⟩
    case h_2 => exact ⟨_, _, _, rfl, Nat.lt_of_le_of_lt (left_injected _) (by simp)⟩
  | transitioning wake =>
    refine ⟨wake, fun now scene => ?_⟩
    dsimp only
    rw [if_pos (Nat.le_add_left ..)]
    exact ⟨_, _, _, rfl, Nat.lt_of_le_of_lt (left_injected _) (by simp)⟩
  | closing =>
    refine ⟨0, fun now scene => ?_⟩
    dsimp only
    split <;> exact ⟨_, _, _, rfl, by simp⟩
  | closed => exact ⟨0, fun _ _ => ⟨_, _, _, rfl, by simp⟩⟩
  | done => exact absurd hs (by simp)

end FaultRun

namespace World

/-- One move of a run, with what it led from and to. -/
structure Transition where
  before : World
  move : Move
  after : World

def transitions (w : World) : List Move → List Transition
  | [] => []
  | m :: ms =>
    match w.move? m with
    | some w' => ⟨w, m, w'⟩ :: w'.transitions ms
    | none => []

def scene (w : World) : FaultRun.Scene := ⟨w.window, w.store⟩

/-- The step of the fault, if it was the fault that moved. -/
def Transition.faultStep? (i : Nat) (t : Transition) : Option FaultStep :=
  match t.move with
  | .step (.fault j) =>
    if j = i then
      t.before.faults[i]?.map fun f =>
        ⟨f.stage, t.before.clock, t.before.scene, t.after.log.drop t.before.log.length⟩
    else none
  | _ => none

def faultSteps (i : Nat) (run : List Transition) : List FaultStep :=
  run.filterMap (·.faultStep? i)

/-- The moves that closed the window. -/
def closers (run : List Transition) : List Move :=
  run.flatMap fun t => Window.closer t.move t.before.window t.after.window

def returned? (w : World) (i : Nat) : Option (Except DrillError FaultRecord) :=
  w.faults[i]?.bind FaultRun.result?

variable {w w' w₀ : World} {m : Move} {ms : List Move} {i : Nat} {f f' : FaultRun}
  {process : Process}

/-- Who is not the fault leaves it alone. -/
theorem faults_step? (hm : w.step? process = some w') (hne : process ≠ .fault i) :
    w'.faults[i]? = w.faults[i]? := by
  cases process with
  | fault j =>
    simp only [step?, stepFault?, Option.bind_eq_bind, Option.bind_eq_some_iff] at hm
    obtain ⟨g, hg, ⟨g', scene, event⟩, hstep, hm⟩ := hm
    cases hm
    exact List.getElem?_set_ne fun hji => hne (by rw [hji])
  | driver j =>
    simp only [step?, stepDriver?, Option.bind_eq_bind, Option.bind_eq_some_iff] at hm
    obtain ⟨d, -, ⟨next, emission⟩, -, hm⟩ := hm
    cases hm
    rfl
  | client j k =>
    simp only [step?, stepClient?, Option.bind_eq_bind, Option.bind_eq_some_iff] at hm
    obtain ⟨d, -, p, -, p', -, hm⟩ := hm
    cases hm
    rfl
  | worker j k =>
    simp only [step?, stepWorker?, Option.bind_eq_bind, Option.bind_eq_some_iff] at hm
    obtain ⟨d, -, p, -, ⟨p', store⟩, -, hm⟩ := hm
    cases hm
    rfl
  | collection =>
    simp only [step?, stepCollection?, Option.bind_eq_bind, Option.bind_eq_some_iff] at hm
    obtain ⟨c, -, ⟨c', mailbox, event⟩, -, hm⟩ := hm
    cases hm
    rfl

theorem faults_move? (hm : w.move? m = some w') (hne : m ≠ .step (.fault i))
    (hf : w.faults[i]? = some f) : w'.faults[i]? = some f := by
  cases m with
  | step process => exact (faults_step? hm fun h => hne (by rw [h])).trans hf
  | pass => cases hm; exact hf
  | control c =>
    cases hm
    cases c with
    | openWindow | closeWindow =>
      simp only [control, signal]
      split <;> exact hf
    | startFault =>
      exact (List.getElem?_append_left (List.getElem?_eq_some_iff.1 hf).1).trans hf
    | _ => exact hf

/-- The window is changed by its signals, at the time that the clock shows. -/
theorem window_move? (hm : w.move? m = some w') : w.clock ≤ w'.clock ∧
    (w'.window = w.window ∨ w.window.signalOpen w.clock.wall = .ok w'.window ∨
      w.window.signalClose w.clock.wall = .ok w'.window) := by
  cases m with
  | step process =>
    cases step_of_step? hm with
    | fault _ hstep => exact ⟨Clock.le_refl _, (FaultRun.turn_of_step? hstep).window⟩
    | _ => exact ⟨Clock.le_refl _, .inl rfl⟩
  | pass timer wall =>
    cases hm
    exact ⟨Clock.le_pass timer wall _, .inl rfl⟩
  | control c =>
    cases hm
    cases c with
    | openWindow =>
      obtain ⟨-, hc, hw⟩ := w.signal_cases (Window.signalOpen w.clock.wall)
      exact ⟨hc ▸ Clock.le_refl _, hw.imp_right .inl⟩
    | closeWindow =>
      obtain ⟨-, hc, hw⟩ := w.signal_cases (Window.signalClose w.clock.wall)
      exact ⟨hc ▸ Clock.le_refl _, hw.imp_right .inr⟩
    | _ => exact ⟨Clock.le_refl _, .inl rfl⟩

def setFault (i : Nat) (f : FaultRun) (w : World) : World := { w with faults := w.faults.set i f }

/-- The world after a step of the fault. -/
def afterFault (w : World) (i : Nat) : FaultRun × FaultRun.Scene × Option Event → World
  | (f, scene, event) =>
    ({ w with window := scene.window, store := scene.store }.setFault i f).emit event

theorem step?_fault (hf : w.faults[i]? = some f) : w.step? (.fault i) =
    (f.step? w.clock.timer w.clock.wall w.scene).map (w.afterFault i) := by
  simp only [step?, stepFault?, hf, Option.bind_eq_bind, Option.bind_some]
  rw [Option.map_eq_bind]
  rfl

theorem faults_afterFault (hf : w.faults[i]? = some f) {scene : FaultRun.Scene}
    {event : Option Event} : (w.afterFault i (f', scene, event)).faults[i]? = some f' :=
  List.getElem?_set_self (List.getElem?_eq_some_iff.1 hf).1

theorem faultStep?_fault (hf : w.faults[i]? = some f) {scene : FaultRun.Scene}
    {event : Option Event} :
    Transition.faultStep? i ⟨w, .step (.fault i), w.afterFault i (f', scene, event)⟩ =
      some ⟨f.stage, w.clock, w.scene, event.toList⟩ := by
  simp [Transition.faultStep?, hf, afterFault, setFault, emit]

theorem faultStep?_other (hne : m ≠ .step (.fault i)) :
    Transition.faultStep? i ⟨w, m, w'⟩ = none := by
  unfold Transition.faultStep?
  split
  case h_1 j hm => exact if_neg fun hji => hne (by rw [← hji]; exact hm)
  case h_2 => rfl

theorem faultSteps_cons (t : Transition) (run : List Transition) :
    faultSteps i (t :: run) = (t.faultStep? i).toList ++ faultSteps i run := by
  unfold faultSteps
  rw [List.filterMap_cons]
  cases t.faultStep? i <;> rfl

theorem closers_cons (t : Transition) (run : List Transition) :
    closers (t :: run) = Window.closer t.move t.before.window t.after.window ++ closers run := rfl

/-! ## A fault among others -/

/-- A fault that opened the window with its first step, at any time later: the steps that it has
taken and the moves that closed the window. -/
structure Inside (w : World) (i : Nat) (f : FaultRun) (first : FaultStep)
    (steps : List FaultStep) (closers : List Move) : Prop where
  started : first.clock ≤ w.clock
  past : ∀ s ∈ steps, s.clock ≤ w.clock
  inOrder : steps.Pairwise (·.clock ≤ ·.clock)
  openedAt : w.window.openedAt = some first.clock.wall
  course : ∃ stage a, w.faults[i]? = some { f with stage } ∧ f.Course first stage steps a ∧
    w.window.ClosedBy (.step (.fault i)) first.clock.wall closers a

variable {first : FaultStep} {steps : List FaultStep} {closed : List Move}
  {result : Except DrillError FaultRecord}

theorem Inside.move (h : w.Inside i f first steps closed) (hb : f.isBracketed = true)
    (hm : w.move? m = some w') : w'.Inside i f first
      (steps ++ (Transition.faultStep? i ⟨w, m, w'⟩).toList)
      (closed ++ Window.closer m w.window w'.window) := by
  obtain ⟨hle, hw⟩ := window_move? hm
  obtain ⟨stage, a, hf, hcourse, hclosed⟩ := h.course
  have hpast (s : FaultStep) (hs : s ∈ steps) : s.clock ≤ w'.clock := Clock.le_trans (h.past s hs) hle
  by_cases hmine : m = .step (.fault i)
  · subst hmine
    have hstep : w.step? (.fault i) = some w' := hm
    rw [step?_fault hf] at hstep
    obtain ⟨⟨f', scene', event⟩, hnext, rfl⟩ := Option.map_eq_some_iff.1 hstep
    obtain ⟨stage', a', rfl, hcourse', hopened, hclosed'⟩ :=
      hcourse.turn hb h.openedAt hclosed h.started (FaultRun.turn_of_step? hnext)
    rw [faultStep?_fault hf, Option.toList_some]
    constructor
    case started => exact Clock.le_trans h.started hle
    case past =>
      intro s hs
      rcases List.mem_append.1 hs with hs | hs
      · exact hpast s hs
      · rw [List.mem_singleton.1 hs]
        exact hle
    case inOrder =>
      rw [List.pairwise_append]
      refine ⟨h.inOrder, List.pairwise_singleton _ _, fun s hs s' hs' => ?_⟩
      rw [List.mem_singleton.1 hs']
      exact h.past s hs
    case openedAt => exact hopened
    case course => exact ⟨stage', a', faults_afterFault hf, hcourse', hclosed'⟩
  · -- the window was opened, so whoever else moves can only close it
    obtain ⟨hopened, hclosed⟩ := hclosed.signal hmine h.started.2 hw
    rw [faultStep?_other hmine, Option.toList_none, List.append_nil]
    constructor
    case started => exact Clock.le_trans h.started hle
    case past => exact hpast
    case inOrder => exact h.inOrder
    case openedAt => exact hopened.trans h.openedAt
    case course => exact ⟨stage, a, faults_move? hm hmine hf, hcourse, hclosed⟩

theorem Inside.moves (h : w.Inside i f first steps closed) (hb : f.isBracketed = true)
    (hms : w.moves? ms = some w') : w'.Inside i f first
      (steps ++ faultSteps i (w.transitions ms)) (closed ++ closers (w.transitions ms)) := by
  induction ms generalizing w steps closed with
  | nil =>
    cases hms
    simpa [transitions, faultSteps, closers] using h
  | cons m ms ih =>
    obtain ⟨w₁, hm, hms⟩ := moves?_cons_eq_some.1 hms
    have hrest := ih (h.move hb hm) hms
    simp only [transitions, hm]
    rwa [faultSteps_cons, closers_cons, ← List.append_assoc, ← List.append_assoc]

/-- A fault that has returned takes no more steps. -/
theorem faultSteps_of_done (hf : w.faults[i]? = some f) (hs : f.stage = .done result)
    (hms : w.moves? ms = some w') :
    faultSteps i (w.transitions ms) = [] ∧ w'.faults[i]? = some f := by
  induction ms generalizing w with
  | nil =>
    cases hms
    exact ⟨rfl, hf⟩
  | cons m ms ih =>
    obtain ⟨w₁, hm, hms⟩ := moves?_cons_eq_some.1 hms
    have hne : m ≠ .step (.fault i) := by
      rintro rfl
      have hstep : w.step? (.fault i) = some w₁ := hm
      simp [step?_fault hf, FaultRun.step?, hs] at hstep
    obtain ⟨hsteps, hf'⟩ := ih (faults_move? hm hne hf) hms
    refine ⟨?_, hf'⟩
    simp only [transitions, hm]
    rw [faultSteps_cons, faultStep?_other hne, hsteps]
    rfl

/-- The fault takes a step, or time passes on its timer. -/
def Move.GoesOn (i : Nat) : Move → Prop
  | .step process => process = .fault i
  | .pass _ wall => wall = .zero
  | .control _ => False

/-- Whatever the others did, a fault returns if only it goes on. -/
theorem exists_returned (hf : w.faults[i]? = some f) : ∃ later w', (∀ m ∈ later, m.GoesOn i) ∧
    w.moves? later = some w' ∧ (w'.returned? i).isSome = true := by
  generalize hn : f.stage.left = n
  induction n using Nat.strongRecOn generalizing w f with
  | ind n ih =>
    subst hn
    by_cases hs : 0 < f.stage.left
    · obtain ⟨wait, hwait⟩ := f.exists_step hs w.clock.timer
      obtain ⟨f', scene, event, hnext, hlt⟩ :=
        hwait (w.pass wait .zero).clock.wall (w.pass wait .zero).scene
      have hf' : (w.pass wait .zero).faults[i]? = some f := hf
      have hstep : (w.pass wait .zero).step? (.fault i) =
          some ((w.pass wait .zero).afterFault i (f', scene, event)) := by
        rw [step?_fault hf']
        exact congrArg _ hnext
      obtain ⟨later, w', hlater, hms, hreturned⟩ := ih _ hlt (faults_afterFault hf') rfl
      refine ⟨.pass wait .zero :: .step (.fault i) :: later, w', ?_, ?_, hreturned⟩
      · intro m hm
        rcases List.mem_cons.1 hm with rfl | hm
        · exact rfl
        rcases List.mem_cons.1 hm with rfl | hm
        · exact rfl
        · exact hlater m hm
      · exact moves?_cons_eq_some.2 ⟨_, rfl, moves?_cons_eq_some.2 ⟨_, hstep, hms⟩⟩
    · refine ⟨[], w, List.forall_mem_nil _, rfl, ?_⟩
      obtain ⟨result, hresult⟩ : ∃ result, f.stage = .done result := by
        cases hstage : f.stage with
        | done result => exact ⟨result, rfl⟩
        | _ => simp [hstage] at hs
      rw [returned?, hf, Option.bind_some, FaultRun.result?_eq_some_iff.2 hresult]
      rfl

theorem faults_moves? (hf : w.faults[i]? = some f) (hms : w.moves? ms = some w') :
    ∃ f', w'.faults[i]? = some f' := by
  induction ms generalizing w f with
  | nil =>
    cases hms
    exact ⟨f, hf⟩
  | cons m ms ih =>
    obtain ⟨w₁, hm, hms⟩ := moves?_cons_eq_some.1 hms
    by_cases hmine : m = .step (.fault i)
    · subst hmine
      have hstep : w.step? (.fault i) = some w₁ := hm
      rw [step?_fault hf] at hstep
      obtain ⟨⟨f', scene', event⟩, -, rfl⟩ := Option.map_eq_some_iff.1 hstep
      exact ih (faults_afterFault hf) hms
    · exact ih (faults_move? hm hmine hf) hms

/-- The first step of a bracketed fault opens the window, or finds that it was opened. -/
theorem step?_starting (hf : w.faults[i]? = some f) (hb : f.isBracketed = true)
    (hs : f.stage = .starting) : w.step? (.fault i) = some (match w.window.phase with
      | .preFault => w.afterFault i ({ f with stage := .opened },
          ⟨{ w.window with phase := .open, openedAt := some w.clock.wall }, w.store⟩, none)
      | phase => w.afterFault i
          ({ f with stage := .done (.error (.windowAlreadyOpened phase)) }, w.scene, none)) := by
  rw [step?_fault hf, FaultRun.step?]
  simp only [hs, hb, if_true, Window.signalOpen, scene]
  cases w.window.phase <;> rfl

theorem refused (hf : w₀.faults[i]? = some f) (hb : f.isBracketed = true)
    (hs : f.stage = .starting) (hp : w₀.window.phase ≠ .preFault) :
    w₀.step? (.fault i) = some (w₀.setFault i
      { f with stage := .done (.error (.windowAlreadyOpened w₀.window.phase)) }) ∧
    ∀ ms w, w₀.moves? (.step (.fault i) :: ms) = some w →
      faultSteps i (w₀.transitions (.step (.fault i) :: ms)) =
        [⟨.starting, w₀.clock, w₀.scene, []⟩] ∧
      w.returned? i = some (.error (.windowAlreadyOpened w₀.window.phase)) := by
  have hfirst := step?_starting hf hb hs
  split at hfirst
  case h_1 hopen => exact (hp hopen).elim
  case h_2 =>
    constructor
    · rw [hfirst]
      simp [afterFault, emit, setFault, scene]
    · intro ms w hms
      obtain ⟨w₁, hm, hms⟩ := moves?_cons_eq_some.1 hms
      obtain rfl := Option.some.inj (hm.symm.trans hfirst)
      obtain ⟨hsteps, hf'⟩ := faultSteps_of_done (faults_afterFault hf) rfl hms
      constructor
      · simp only [transitions, hm]
        rw [faultSteps_cons, faultStep?_fault hf, hsteps, hs]
        rfl
      · rw [returned?, hf']
        rfl

theorem inside_of_first (hf : w₀.faults[i]? = some f) (hb : f.isBracketed = true)
    (hs : f.stage = .starting) (hp : w₀.window.phase = .preFault)
    (hms : w₀.moves? (.step (.fault i) :: ms) = some w) :
    w.Inside i f ⟨.starting, w₀.clock, w₀.scene, []⟩
      (faultSteps i (w₀.transitions (.step (.fault i) :: ms)))
      (closers (w₀.transitions (.step (.fault i) :: ms))) := by
  have hfirst := step?_starting hf hb hs
  rw [hp] at hfirst
  dsimp only at hfirst
  obtain ⟨w₁, hm, hms⟩ := moves?_cons_eq_some.1 hms
  obtain rfl := Option.some.inj (hm.symm.trans hfirst)
  simp only [transitions, hm]
  rw [faultSteps_cons, closers_cons, faultStep?_fault hf, hs]
  refine Inside.moves ?_ hb hms
  constructor
  case started => exact Clock.le_refl _
  case past =>
    intro s hs
    rw [List.mem_singleton.1 hs]
    exact Clock.le_refl _
  case inOrder => exact List.pairwise_singleton _ _
  case openedAt => rfl
  case course =>
    refine ⟨.opened, .ahead, faults_afterFault hf, .opens, ?_⟩
    rw [Window.closer, if_neg (by simp [hp])]
    exact .nobody rfl

/-- A bracketed fault returns if only it goes on. If the window was opened before, the fault is
refused and does nothing else. Otherwise it encloses its injection. -/
theorem bracket_law (hf : w₀.faults[i]? = some f) (hb : f.isBracketed = true)
    (hs : f.stage = .starting) :
    (∀ ms w, w₀.moves? ms = some w → ∃ later w', (∀ m ∈ later, m.GoesOn i) ∧
      w.moves? later = some w' ∧ (w'.returned? i).isSome = true) ∧
    (w₀.window.phase ≠ .preFault →
      w₀.step? (.fault i) = some (w₀.setFault i
        { f with stage := .done (.error (.windowAlreadyOpened w₀.window.phase)) }) ∧
      ∀ ms w, w₀.moves? (.step (.fault i) :: ms) = some w →
        faultSteps i (w₀.transitions (.step (.fault i) :: ms)) =
          [⟨.starting, w₀.clock, w₀.scene, []⟩] ∧
        w.returned? i = some (.error (.windowAlreadyOpened w₀.window.phase))) ∧
    (w₀.window.phase = .preFault → ∀ ms w result,
      w₀.moves? (.step (.fault i) :: ms) = some w → w.returned? i = some result →
      ∃ injected attempt, f.Brackets (.step (.fault i)) ⟨.starting, w₀.clock, w₀.scene, []⟩
        (faultSteps i (w₀.transitions (.step (.fault i) :: ms)))
        (closers (w₀.transitions (.step (.fault i) :: ms))) w.window result injected attempt) := by
  refine ⟨fun ms w hms => ?_, refused hf hb hs, fun hp ms w result hms hresult => ?_⟩
  · obtain ⟨f', hf'⟩ := faults_moves? hf hms
    exact exists_returned hf'
  · have hinside := inside_of_first hf hb hs hp hms
    obtain ⟨stage, a, hf', hcourse, hclosed⟩ := hinside.course
    rw [returned?, hf', Option.bind_some, FaultRun.result?_eq_some_iff] at hresult
    obtain rfl : stage = .done result := hresult
    exact hcourse.brackets rfl hinside.openedAt hclosed hinside.inOrder

/-- A pod goes down inside its window. -/
def bracketStart : World := { faults := [{ injector := .podFailure "pod" 5, isBracketed := true }] }

def bracketMoves : List Move :=
  [.step (.fault 0), .step (.fault 0), .step (.fault 0), .control .openWindow,
    .pass 5 (.ofMillis 5), .step (.fault 0), .step (.fault 0), .control .closeWindow,
    .step (.fault 0)]

theorem bracket_law_trial : ∃ w, bracketStart.moves? bracketMoves = some w ∧
    w.returned? 0 = some (.ok (Injector.podRecord "pod" 5)) ∧
    (faultSteps 0 (bracketStart.transitions bracketMoves)).flatMap FaultStep.told =
      [.windowOpened 0, .faultInjected "pod", .windowClosed 5] := by
  have hsome : (bracketStart.moves? bracketMoves).isSome = true := rfl
  have hreturned : ((bracketStart.moves? bracketMoves).get hsome).returned? 0 =
      some (.ok (Injector.podRecord "pod" 5)) := rfl
  obtain ⟨injected, attempt, hbrackets⟩ := (bracket_law rfl rfl rfl).2.2 rfl _ _ _
    (Option.some_get hsome).symm hreturned
  have halone : ∀ m ∈ closers (bracketStart.transitions bracketMoves), m = .step (.fault 0) :=
    fun m hm => List.mem_singleton.1 hm
  obtain ⟨hclosed, htold, hresult⟩ := hbrackets.alone halone
  refine ⟨_, (Option.some_get hsome).symm, hreturned, htold.trans ?_⟩
  obtain rfl : injected = .ok (Injector.podRecord "pod" 5) := by
    cases injected with
    | ok record => cases hresult; rfl
    | error => cases hresult
  have hwall : attempt.clock.wall = .ofMillis 5 := (Option.some.inj hclosed).symm
  rw [hwall]
  rfl

end World

end FaultDrill
