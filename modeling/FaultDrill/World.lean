import FaultDrill.Collection
import FaultDrill.FaultRun
import FaultDrill.Pool.Work

/-! # The world of a drill

Everything that runs in one drill, side by side: drivers with their pools, faults, and
the collection of reports, over one store, one window, one mailbox and one log. A move
lets one process take its next step, lets time pass, or changes something from outside.
Whatever order the moves come in, a drill is a sequence of them.
-/

namespace FaultDrill

structure World where
  clock : Clock := {}
  store : Store := {}
  window : Window := {}
  policy : Policy := {}
  mailbox : Mailbox := {}
  signals : List String := []
  drivers : List Driver := []
  faults : List FaultRun := []
  collection : Option Collection := none
  /-- The events logged, in order. -/
  log : List Event := []

/-- Something that takes steps of its own; drivers, their calls and workers go by number. -/
inductive Process
  | driver (d : Nat)
  | client (d i : Nat)
  | worker (d w : Nat)
  | fault (f : Nat)
  | collection
  deriving DecidableEq, Repr

namespace World

def surroundings (w : World) : Surroundings :=
  { windowClosed := w.window.closedAt.isSome, raised := w.signals, timer := w.clock.timer }

def emit (event : Option Event) (w : World) : World := { w with log := w.log ++ event.toList }

def post (message : Option Message) (w : World) : World :=
  { w with mailbox := message.toList.foldl (fun m message => m.send message) w.mailbox }

def setDriver (d : Nat) (driver : Driver) (w : World) : World :=
  { w with drivers := w.drivers.set d driver }

def stepDriver? (d : Nat) (w : World) : Option World := do
  let driver ← w.drivers[d]?
  let (next, emission) ← driver.step? w.surroundings
  let event := if driver.plan.isLogged then emission.event else none
  some (((w.setDriver d next).emit event).post emission.message)

def stepClient? (d i : Nat) (w : World) : Option World := do
  let driver ← w.drivers[d]?
  let pool ← (← driver.pool).stepClient? i
  some (w.setDriver d { driver with pool := some pool })

def stepWorker? (d i : Nat) (w : World) : Option World := do
  let driver ← w.drivers[d]?
  let pool ← driver.pool
  let (pool, store) ← pool.work? driver.plan.handler w.window.phase w.clock w.store i
  some ({ w with store }.setDriver d { driver with pool := some pool })

def stepFault? (f : Nat) (w : World) : Option World := do
  let fault ← w.faults[f]?
  let (fault, scene, event) ← fault.step? w.clock.timer w.clock.wall ⟨w.window, w.store⟩
  some ({ w with
    window := scene.window, store := scene.store, faults := w.faults.set f fault }.emit event)

def stepCollection? (w : World) : Option World := do
  let collection ← w.collection
  let (collection, mailbox, event) ←
    collection.step? w.policy w.window.bounds w.clock.timer w.mailbox
  some ({ w with collection := some collection, mailbox }.emit event)

def step? (w : World) : Process → Option World
  | .driver d => w.stepDriver? d
  | .client d i => w.stepClient? d i
  | .worker d i => w.stepWorker? d i
  | .fault f => w.stepFault? f
  | .collection => w.stepCollection?

/-! ## From outside -/

inductive Control
  | openWindow
  | closeWindow
  | disrupt (reason : String)
  | endDisruption
  | markDegraded (component : String)
  | restoreComponent (component : String)
  | rejectNext (detail : String)
  | corrupt (target : ObjectRef)
  | raise (signal : String)
  | launch (plan : DriverPlan) (source : Source)
  | startFault (injector : Injector) (isBracketed : Bool)
  | restoreFault (injector : Injector) (record : FaultRecord)
  | send (message : Message)
  | closeMailbox
  | collect (expected : UInt64) (timeout : Duration)
  | log (event : Event)

def withStore (w : World) (change : Store → Store) : World := { w with store := change w.store }

/-- A signal that the window refuses leaves it as it is. -/
def signal (w : World) (change : Window → Except DrillError Window) : World :=
  match change w.window with
  | .ok window => { w with window }
  | .error _ => w

def control (w : World) : Control → World
  | .openWindow => w.signal (Window.signalOpen w.clock.wall)
  | .closeWindow => w.signal (Window.signalClose w.clock.wall)
  | .disrupt reason => w.withStore (Store.disrupt reason)
  | .endDisruption => w.withStore Store.endDisruption
  | .markDegraded component => w.withStore (Store.markDegraded component)
  | .restoreComponent component => w.withStore fun s => (s.restoreComponent component).2
  | .rejectNext detail => w.withStore (Store.rejectNext detail)
  | .corrupt target => w.withStore fun s => (s.corrupt target).2
  | .raise signal => { w with signals := w.signals ++ [signal] }
  | .launch plan source => { w with drivers := w.drivers ++ [{ plan, source }] }
  | .startFault injector isBracketed =>
    { w with faults := w.faults ++ [{ injector, isBracketed }] }
  | .restoreFault injector record => w.withStore fun s => (injector.restore record s).2
  | .send message => { w with mailbox := w.mailbox.send message }
  | .closeMailbox => { w with mailbox := w.mailbox.close }
  | .collect expected timeout =>
    { w with collection := some (.start w.clock.timer expected timeout) }
  | .log event => { w with log := w.log ++ [event] }

inductive Move
  | step (process : Process)
  /-- Time passes: so many milliseconds on the timer, so long on the wall clock. -/
  | pass (timer : Nat) (wall : Duration)
  | control (control : Control)

def pass (timer : Nat) (wall : Duration) (w : World) : World :=
  { w with clock := w.clock.pass timer wall }

/-- What one move leads to; none if it is not possible. -/
def move? (w : World) : Move → Option World
  | .step process => w.step? process
  | .pass timer wall => some (w.pass timer wall)
  | .control c => some (w.control c)

/-- What any sequence of moves leads to. -/
inductive Reachable (start : World) : World → Prop
  | refl : Reachable start start
  | move {w w' : World} (m : Move) : Reachable start w → w.move? m = some w' → Reachable start w'

end World

end FaultDrill
