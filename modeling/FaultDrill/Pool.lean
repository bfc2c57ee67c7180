import FaultDrill.Pool.Gate
import FaultDrill.Handler
import FaultDrill.Config

/-! # The task pool

A fixed number of workers take tasks from one queue. A task needs a permit, which bounds
the tasks outstanding, and passes the latch, which orders it before or after shutdown.
Shutdown raises a flag, queues one sentinel for each worker and waits until everything
is acknowledged.

The pool is a transition system. Each client call and each worker is at a stage, and a
move takes one of them one step further, so that every order of steps is a sequence of
moves. What a handler does is not decided here: the moves `begin` and `finish` bring
the times, the phase and the outcome along.
-/

namespace FaultDrill

inductive QueueItem
  | run (task : Task)
  | stop
  deriving DecidableEq, Repr

/-- How far a call to submit a task or to shut the pool down has come. -/
inductive ClientStage
  /-- A submission that has not looked at the flag. -/
  | arrived (task : Task)
  /-- Has found the flag down and has not asked for a permit. -/
  | asking (task : Task)
  /-- In the line for a permit, or granted one there. -/
  | awaitingPermit (task : Task)
  | permitted (task : Task)
  /-- In the line for the latch, or let in there. -/
  | awaitingRead (task : Task)
  /-- Holds the latch and has not looked at the flag again. -/
  | admitted (task : Task)
  /-- Counted as outstanding and not yet in the queue. -/
  | counted (task : Task)
  /-- Has found the flag up and still holds its permit. -/
  | refused
  /-- A shutdown that has not asked for the latch. -/
  | leaving
  | awaitingWrite
  | exclusive
  /-- So many sentinels are still to be queued; the next one may be counted already. -/
  | stopping (left : Nat) (isCounted : Bool)
  /-- About to register for the notice that the pool is idle. -/
  | draining
  | listening (heard : Bool)
  | asleep (heard : Bool)
  /-- Waits for this worker and those after it to exit. -/
  | joining (worker : Nat)
  | closing
  | returned (reply : Except DrillError Unit)
  /-- Abandoned while it waited. -/
  | dropped

namespace ClientStage

/-- The call is over. -/
def isOver : ClientStage → Bool
  | returned _ | dropped => true
  | _ => false

/-- A call that has registered for the notice that the pool is idle hears it. -/
def hear : ClientStage → ClientStage
  | listening _ => listening true
  | asleep _ => asleep true
  | stage => stage

end ClientStage

/-- What a worker does. -/
inductive WorkerStage
  /-- About to line up for the queue. -/
  | ready
  /-- In line; the first in line may take from the queue. -/
  | lined
  | holding (task : Task)
  /-- Executes the task; the handler's delay ends at `wake`. -/
  | running (task : Task) (phase : WindowPhase) (startedAt : Duration) (wake : Nat)
  | finished (result : OperationResult)
  /-- Has sent the result. -/
  | reported
  /-- Has acknowledged a task; it announces that the pool is idle if it was the last. -/
  | acknowledged (last : Bool)
  /-- Has taken a sentinel. -/
  | stopTaken
  | stopAcknowledged (last : Bool)
  /-- Gone; `lost` if it was torn down by a crash. -/
  | exited (lost : Bool)

namespace WorkerStage

def hasExited : WorkerStage → Bool
  | exited _ => true
  | _ => false

def isRunning : WorkerStage → Bool
  | running _ _ _ _ => true
  | _ => false

end WorkerStage

structure Pool where
  name : String
  workers : List WorkerStage
  /-- Absent when the tasks outstanding are not bounded. -/
  gate : Option Gate
  clients : List ClientStage := []
  latch : Latch := {}
  /-- The flag that shutdown raises. -/
  shutDown : Bool := false
  queue : List QueueItem := []
  /-- Somebody can still put something into the queue. -/
  isOpen : Bool := true
  outstanding : Nat := 0
  /-- The workers in line for the queue, the one whose turn it is first. -/
  line : List Nat := []
  /-- The results delivered, in order of delivery. -/
  results : List OperationResult := []
  /-- Somebody receives the results. -/
  isHeard : Bool := true

/-- Why a pool does not start. -/
inductive StartError
  | noWorkers
  | crash (crash : Crash)
  deriving DecidableEq, Repr

namespace Pool

/-- No list of this many workers can be reserved. -/
def workerLimit : Nat := Payload.sizeLimit / 8

def start (name : String) (config : PoolConfig) : Except StartError Pool :=
  if config.workers = 0 then .error .noWorkers
  else if Crash.permitLimit < config.queueCapacity.toNat then .error (.crash .permitOverflow)
  else if workerLimit ≤ config.workers.toNat then .error (.crash .capacityOverflow)
  else .ok {
    name
    workers := List.replicate config.workers.toNat .ready
    gate := if config.queueCapacity = 0 then none else some { free := config.queueCapacity.toNat } }

def workerCount (p : Pool) : Nat := p.workers.length

/-- The handlers that execute now. -/
def runningCount (p : Pool) : Nat := p.workers.countP WorkerStage.isRunning

def allExited (p : Pool) : Bool := p.workers.all WorkerStage.hasExited

def setClient (i : Nat) (stage : ClientStage) (p : Pool) : Pool :=
  { p with clients := p.clients.set i stage }

def setWorker (w : Nat) (stage : WorkerStage) (p : Pool) : Pool :=
  { p with workers := p.workers.set w stage }

def refusal (p : Pool) : Except DrillError Unit := .error (.poolShutDown p.name)

def giveBackPermit (p : Pool) : Pool := { p with gate := p.gate.map Gate.giveBack }

def releaseLatch (access : Access) (p : Pool) : Pool := { p with latch := p.latch.release access }

/-- Everyone who has registered hears that the pool is idle. -/
def announceIdle (p : Pool) : Pool := { p with clients := p.clients.map ClientStage.hear }

/-- Put an item into the queue. Nobody is left to take it once every worker has exited. -/
def enqueue? (item : QueueItem) (p : Pool) : Option Pool :=
  if p.allExited then none else some { p with queue := p.queue ++ [item] }

/-- Take back one count; the pool may have become idle by it. -/
def uncount (p : Pool) : Pool :=
  { p with
    outstanding := p.outstanding - 1
    clients := if p.outstanding = 1 then p.clients.map ClientStage.hear else p.clients }

/-! ## Calls -/

inductive Request
  | submit (task : Task)
  | shutdown

def Request.stage : Request → ClientStage
  | submit task => .arrived task
  | shutdown => .leaving

/-- The next step of a submission. The flag cannot change while the latch is held, so that the last
look at it and the count are one step. -/
def stepSubmit (i : Nat) (p : Pool) : ClientStage → Option Pool
  | .arrived task =>
    some (p.setClient i (if p.shutDown then .returned p.refusal else .asking task))
  | .asking task =>
    match p.gate with
    | none => some (p.setClient i (.permitted task))
    | some gate =>
      if gate.closed then some (p.setClient i (.returned p.refusal))
      else match gate.take? with
        | some gate => some ({ p with gate := some gate }.setClient i (.permitted task))
        | none => some ({ p with gate := some (gate.wait i) }.setClient i (.awaitingPermit task))
  | .awaitingPermit task =>
    match p.gate with
    | none => none
    | some gate =>
      if gate.closed then
        some ({ p with gate := some (gate.leave i) }.setClient i (.returned p.refusal))
      else if i ∈ gate.granted then
        some ({ p with gate := some (gate.notice i) }.setClient i (.permitted task))
      else none
  | .permitted task =>
    match p.latch.take? .read with
    | some latch => some ({ p with latch }.setClient i (.admitted task))
    | none => some ({ p with latch := p.latch.wait i .read }.setClient i (.awaitingRead task))
  | .awaitingRead task =>
    if i ∈ p.latch.granted then
      some ({ p with latch := p.latch.notice i }.setClient i (.admitted task))
    else none
  | .admitted task =>
    if p.shutDown then some ((p.releaseLatch .read).setClient i .refused)
    else some ({ p with outstanding := p.outstanding + 1 }.setClient i (.counted task))
  | .counted task =>
    match p.enqueue? (.run task) with
    | some p => some ((p.releaseLatch .read).setClient i (.returned (.ok ())))
    | none =>
      some (((p.uncount.releaseLatch .read).giveBackPermit).setClient i (.returned p.refusal))
  | .refused => some (p.giveBackPermit.setClient i (.returned p.refusal))
  | _ => none

/-- The next step of a shutdown. -/
def stepShutdown (i : Nat) (p : Pool) : ClientStage → Option Pool
  | .leaving =>
    match p.latch.take? .write with
    | some latch => some ({ p with latch }.setClient i .exclusive)
    | none => some ({ p with latch := p.latch.wait i .write }.setClient i .awaitingWrite)
  | .awaitingWrite =>
    if i ∈ p.latch.granted then
      some ({ p with latch := p.latch.notice i }.setClient i .exclusive)
    else none
  | .exclusive =>
    let next := if p.shutDown then .returned (.error (.poolAlreadyShutDown p.name))
      else .stopping p.workerCount false
    some (({ p with shutDown := true }.releaseLatch .write).setClient i next)
  | .stopping 0 _ => some (p.setClient i .draining)
  | .stopping (left + 1) false =>
    some ({ p with outstanding := p.outstanding + 1 }.setClient i (.stopping (left + 1) true))
  | .stopping (left + 1) true =>
    match p.enqueue? .stop with
    | some p => some (p.setClient i (.stopping left false))
    | none => some (p.uncount.setClient i (.stopping left false))
  | .draining => some (p.setClient i (.listening false))
  | .listening heard =>
    some (p.setClient i (if p.outstanding = 0 then .joining 0 else .asleep heard))
  | .asleep true => some (p.setClient i .draining)
  | .joining w =>
    match p.workers[w]? with
    | none => some (p.setClient i .closing)
    | some (.exited false) => some (p.setClient i (.joining (w + 1)))
    | some (.exited true) =>
      some (p.setClient i (.returned (.error (.workerJoin p.name (.ofNat w) "worker panicked"))))
    | some _ => none
  | .closing =>
    some ({ p with gate := p.gate.map Gate.close }.setClient i (.returned (.ok ())))
  | _ => none

def stepClient? (i : Nat) (p : Pool) : Option Pool := do
  let stage ← p.clients[i]?
  (p.stepSubmit i stage).or (p.stepShutdown i stage)

/-- Abandon a submission that waits; a permit it was granted goes back. -/
def abandon? (i : Nat) (p : Pool) : Option Pool := do
  match ← p.clients[i]? with
  | .awaitingPermit _ => some ({ p with gate := p.gate.map (Gate.leave i) }.setClient i .dropped)
  | .awaitingRead _ =>
    some (({ p with latch := p.latch.leave i }.giveBackPermit).setClient i .dropped)
  | _ => none

/-! ## Workers -/

/-- Take from the queue; the next in line has its turn then. -/
def dequeue (w : Nat) (p : Pool) : Option Pool :=
  match p.line, p.queue with
  | first :: line, item :: queue =>
    if first = w then
      some ({ p with line, queue }.setWorker w
        (match item with | .run task => .holding task | .stop => .stopTaken))
    else none
  | first :: line, [] =>
    if first = w ∧ !p.isOpen then some ({ p with line }.setWorker w (.exited false)) else none
  | [], _ => none

def acknowledge (w : Nat) (next : Bool → WorkerStage) (p : Pool) : Pool :=
  { p with outstanding := p.outstanding - 1 }.setWorker w (next (p.outstanding = 1))

/-- The next step of a worker that needs nothing from outside. -/
def stepWorker? (w : Nat) (p : Pool) : Option Pool := do
  match ← p.workers[w]? with
  | .ready => some ({ p with line := p.line ++ [w] }.setWorker w .lined)
  | .lined => p.dequeue w
  | .finished result =>
    let results := if p.isHeard then p.results ++ [result] else p.results
    some ({ p with results }.setWorker w .reported)
  | .reported => some (p.acknowledge w .acknowledged)
  | .acknowledged true => some (p.announceIdle.setWorker w (.acknowledged false))
  | .acknowledged false => some (p.giveBackPermit.setWorker w .ready)
  | .stopTaken => some (p.acknowledge w .stopAcknowledged)
  | .stopAcknowledged true => some (p.announceIdle.setWorker w (.stopAcknowledged false))
  | .stopAcknowledged false => some (p.setWorker w (.exited false))
  | .holding _ | .running _ _ _ _ | .exited _ => none

/-- A worker begins to execute the task it holds. -/
def begin? (w : Nat) (phase : WindowPhase) (now : Duration) (wake : Nat) (p : Pool) :
    Option Pool := do
  match ← p.workers[w]? with
  | .holding task => some (p.setWorker w (.running task phase now wake))
  | _ => none

/-- The handler ends. Assembling the result may crash, which tears the worker down. -/
def finish? (w : Nat) (outcome : Outcome) (now : Duration) (p : Pool) : Option Pool := do
  match ← p.workers[w]? with
  | .running task phase startedAt _ =>
    match OperationResult.assemble task.id task.stream task.operation outcome startedAt now phase with
    | .ok result => some (p.setWorker w (.finished result))
    | .error _ => some (p.giveBackPermit.setWorker w (.exited true))
  | _ => none

/-! ## Moves -/

inductive Move
  | call (request : Request)
  | client (i : Nat)
  | abandon (i : Nat)
  | worker (w : Nat)
  | begin (w : Nat) (phase : WindowPhase) (now : Duration) (wake : Nat)
  | finish (w : Nat) (outcome : Outcome) (now : Duration)
  /-- The pool is let go, once no call is in progress. -/
  | detach
  /-- Nobody receives the results any more. -/
  | deafen

def call (request : Request) (p : Pool) : Pool := { p with clients := p.clients ++ [request.stage] }

def detach (p : Pool) : Pool := { p with isOpen := false }

def deafen (p : Pool) : Pool := { p with isHeard := false }

/-- What one move leads to; none if it is not possible. -/
def move? (p : Pool) : Move → Option Pool
  | .call request => if p.isOpen then some (p.call request) else none
  | .client i => p.stepClient? i
  | .abandon i => p.abandon? i
  | .worker w => p.stepWorker? w
  | .begin w phase now wake => p.begin? w phase now wake
  | .finish w outcome now => p.finish? w outcome now
  | .detach => if p.clients.all ClientStage.isOver then some p.detach else none
  | .deafen => some p.deafen

/-- What a call has returned, once it has. -/
def reply? (i : Nat) (p : Pool) : Option (Except DrillError Unit) := do
  match ← p.clients[i]? with
  | .returned reply => some reply
  | _ => none

end Pool

end FaultDrill
