import FaultDrill.FaultRun

/-! # The steps of a fault

What the next step of a fault can be, as rules: one for each stage and for each way in which the
window or the injector answers.
-/

namespace FaultDrill.FaultRun

/-- What a fault comes to by one step, what becomes of the scene, and what it tells. -/
inductive Turn (f : FaultRun) (timer : Nat) (now : Duration) (scene : Scene) :
    FaultRun → Scene → Option Event → Prop
  | opens {window : Window} : f.stage = .starting → f.isBracketed = true →
      scene.window.signalOpen now = .ok window →
      Turn f timer now scene { f with stage := .opened } { scene with window } none
  | refused {e : DrillError} : f.stage = .starting → f.isBracketed = true →
      scene.window.signalOpen now = .error e →
      Turn f timer now scene { f with stage := .done (.error e) } scene none
  | starts : f.stage = .starting → f.isBracketed = false →
      Turn f timer now scene { f with stage := .injecting } scene none
  | tells : f.stage = .opened → Turn f timer now scene { f with stage := .injecting } scene
      (some (.windowOpened (millis scene.window.openedAt)))
  | begins {transition : Nat} {store : Store} : f.stage = .injecting →
      f.injector.begin scene.store = (.ok transition, store) →
      Turn f timer now scene { f with stage := .transitioning (timer + transition) }
        { scene with store } none
  | fails {e : FaultError} {store : Store} : f.stage = .injecting →
      f.injector.begin scene.store = (.error e, store) →
      Turn f timer now scene (f.injected (.error e)).1 { scene with store }
        (f.injected (.error e)).2
  | ends {wake : Nat} {injected : Except FaultError FaultRecord} {store : Store} :
      f.stage = .transitioning wake → wake ≤ timer →
      f.injector.finish scene.store = (injected, store) →
      Turn f timer now scene (f.injected injected).1 { scene with store } (f.injected injected).2
  | closes {injected : Except FaultError FaultRecord} {window : Window} :
      f.stage = .closing injected → scene.window.signalClose now = .ok window →
      Turn f timer now scene { f with stage := .closed injected } { scene with window } none
  | late {injected : Except FaultError FaultRecord} {e : DrillError} :
      f.stage = .closing injected → scene.window.signalClose now = .error e →
      Turn f timer now scene { f with stage := .done (.error e) } scene none
  | returns {injected : Except FaultError FaultRecord} : f.stage = .closed injected →
      Turn f timer now scene { f with stage := .done (asResult injected) } scene
        (some (.windowClosed (millis scene.window.closedAt)))

variable {f f' : FaultRun} {timer : Nat} {now : Duration} {scene scene' : Scene}
  {event : Option Event}

theorem turn_of_step? (h : f.step? timer now scene = some (f', scene', event)) :
    f.Turn timer now scene f' scene' event := by
  unfold step? at h
  split at h
  case h_1 hs =>
    split at h
    case isTrue hb =>
      split at h
      case h_1 hw => cases h; exact .opens hs hb hw
      case h_2 hw => cases h; exact .refused hs hb hw
    case isFalse hb => cases h; exact .starts hs (Bool.not_eq_true _ ▸ hb)
  case h_2 hs => cases h; exact .tells hs
  case h_3 hs =>
    split at h
    case h_1 hbegin => cases h; exact .begins hs hbegin
    case h_2 hbegin => cases h; exact .fails hs hbegin
  case h_4 hs =>
    split at h
    case isTrue hwake => cases h; exact .ends hs hwake rfl
    case isFalse => cases h
  case h_5 hs =>
    split at h
    case h_1 hw => cases h; exact .closes hs hw
    case h_2 hw => cases h; exact .late hs hw
  case h_6 hs => cases h; exact .returns hs
  case h_7 => cases h

theorem result?_eq_some_iff {result : Except DrillError FaultRecord} :
    f.result? = some result ↔ f.stage = .done result := by
  unfold result?
  split <;> simp_all

theorem injected_of_bracketed (hb : f.isBracketed = true)
    (injected : Except FaultError FaultRecord) : f.injected injected =
      ({ f with stage := .closing injected }, some (f.injectionEvent injected)) :=
  if_pos hb

theorem injector_injected (injected : Except FaultError FaultRecord) :
    (f.injected injected).1.injector = f.injector := by
  unfold FaultRun.injected
  split <;> rfl

theorem Turn.injector_eq (h : f.Turn timer now scene f' scene' event) :
    f'.injector = f.injector := by
  cases h with
  | fails | ends => exact injector_injected _
  | _ => rfl

theorem Turn.isBracketed_eq (h : f.Turn timer now scene f' scene' event) :
    f'.isBracketed = f.isBracketed := by
  cases h with
  | fails | ends =>
    unfold FaultRun.injected
    split <;> rfl
  | _ => rfl

/-- A fault leaves the window alone, or opens or closes it. -/
theorem Turn.window (h : f.Turn timer now scene f' scene' event) :
    scene'.window = scene.window ∨ scene.window.signalOpen now = .ok scene'.window ∨
      scene.window.signalClose now = .ok scene'.window := by
  cases h with
  | opens _ _ hw => exact .inr (.inl hw)
  | closes _ hw => exact .inr (.inr hw)
  | _ => exact .inl rfl

end FaultDrill.FaultRun
