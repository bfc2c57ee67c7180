import FaultDrill.Injection
import FaultDrill.Window
import FaultDrill.Event

/-! # Running a fault

The destructive action, by itself or bracketed by the fault window. The window is closed
even if the injection fails, so that whoever waits for the close always goes on.
-/

namespace FaultDrill

inductive FaultStage
  | starting
  /-- The window was opened, and nobody was told yet. -/
  | opened
  | injecting
  /-- The injection has begun and ends at this time of the timer. -/
  | transitioning (wake : Nat)
  | closing (injected : Except FaultError FaultRecord)
  /-- The window was closed, and nobody was told yet. -/
  | closed (injected : Except FaultError FaultRecord)
  | done (result : Except DrillError FaultRecord)

structure FaultRun where
  injector : Injector
  /-- The fault window is opened before and closed after. -/
  isBracketed : Bool
  stage : FaultStage := .starting

namespace FaultRun

def asResult (injected : Except FaultError FaultRecord) : Except DrillError FaultRecord :=
  injected.mapError .fault

/-- The parts of a drill that a fault changes. -/
structure Scene where
  window : Window
  store : Store

/-- The event that tells how the injection went. -/
def injectionEvent (f : FaultRun) : Except FaultError FaultRecord → Event
  | .ok record => .faultInjected record.component
  | .error e => .faultFailed f.injector.name e.message

def millis (edge : Option Duration) : UInt64 := .ofNat (edge.getD .zero).wholeMillis

/-- The injection has ended. -/
def injected (f : FaultRun) (result : Except FaultError FaultRecord) : FaultRun × Option Event :=
  if f.isBracketed then ({ f with stage := .closing result }, some (f.injectionEvent result))
  else ({ f with stage := .done (asResult result) }, none)

/-- The next step at these times of the timer and the clock; none while the injection takes its
time and once the run is done. -/
def step? (timer : Nat) (now : Duration) (scene : Scene) (f : FaultRun) :
    Option (FaultRun × Scene × Option Event) :=
  match f.stage with
  | .starting =>
    if f.isBracketed then
      match scene.window.signalOpen now with
      | .ok window => some ({ f with stage := .opened }, { scene with window }, none)
      | .error e => some ({ f with stage := .done (.error e) }, scene, none)
    else some ({ f with stage := .injecting }, scene, none)
  | .opened =>
    some ({ f with stage := .injecting }, scene, some (.windowOpened (millis scene.window.openedAt)))
  | .injecting =>
    match f.injector.begin scene.store with
    | (.ok transition, store) =>
      some ({ f with stage := .transitioning (timer + transition) }, { scene with store }, none)
    | (.error e, store) =>
      let (f, event) := f.injected (.error e)
      some (f, { scene with store }, event)
  | .transitioning wake =>
    if wake ≤ timer then
      let (result, store) := f.injector.finish scene.store
      let (f, event) := f.injected result
      some (f, { scene with store }, event)
    else none
  | .closing result =>
    match scene.window.signalClose now with
    | .ok window => some ({ f with stage := .closed result }, { scene with window }, none)
    | .error e => some ({ f with stage := .done (.error e) }, scene, none)
  | .closed result =>
    some ({ f with stage := .done (asResult result) }, scene,
      some (.windowClosed (millis scene.window.closedAt)))
  | .done _ => none

def result? (f : FaultRun) : Option (Except DrillError FaultRecord) :=
  match f.stage with
  | .done result => some result
  | _ => none

/-- The time at which the injection ends. -/
def wake? (f : FaultRun) : Option Nat :=
  match f.stage with
  | .transitioning wake => some wake
  | _ => none

end FaultRun

end FaultDrill
