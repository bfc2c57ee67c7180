import FaultDrill.Proofs.Driver.Accounts
import FaultDrill.Proofs.Driver.Cover
import FaultDrill.Proofs.Driver.Rest
import FaultDrill.Proofs.Driver.Tale
import FaultDrill.Proofs.Pool.Order

/-! # The course of a driver

What a driver and its pool do is told incident by incident: how often the source was asked, which
tasks were accepted, and how far each of them has come. A task that was accepted is in the queue or
with a worker until a handler begins with it, and no handler begins with it again.
-/

namespace FaultDrill

/-- How far a task has come. -/
inductive Milestone
  | accepted
  | begun
  /-- Its handler has ended. -/
  | performed
  deriving DecidableEq

/-- What a driver does, or a call to its pool, or a worker there. -/
inductive Incident
  /-- The driver finds its stop condition reached. -/
  | halt
  | ask (answer : Except Crash (Option Operation))
  | task (milestone : Milestone) (task : Task)
  /-- A worker takes a sentinel. -/
  | takeStop
  | send (message : Message)
  deriving DecidableEq

namespace Incident

/-- The driver itself does this, not a call to its pool nor a worker there. -/
def isOfDriver : Incident → Bool
  | halt | ask _ | send _ => true
  | task _ _ | takeStop => false

/-- The source panics. -/
def isPanic : Incident → Bool
  | ask (.error _) => true
  | _ => false

/-- The answer of the source, if it has one. -/
def answer? : Incident → Option (Option Operation)
  | ask answer => answer.toOption
  | _ => none

def sent? : Incident → Option Message
  | send message => some message
  | _ => none

def task? (milestone : Milestone) : Incident → Option Task
  | task milestone' t => if milestone' = milestone then some t else none
  | _ => none

/-- What the source has answered. -/
def answers (told : List Incident) : List (Option Operation) := told.filterMap answer?

/-- The messages that were sent. -/
def messages (told : List Incident) : List Message := told.filterMap sent?

/-- The tasks that have come so far, in the order in which they did. -/
def tasks (milestone : Milestone) (told : List Incident) : List Task :=
  told.filterMap (task? milestone)

end Incident

/-- What a worker does that comes from one stage to another. -/
def WorkerStage.incident? : WorkerStage → WorkerStage → Option Incident
  | holding t, running _ _ _ _ => some (.task .begun t)
  | running t _ _ _, finished _ | running t _ _ _, exited _ => some (.task .performed t)
  | lined, stopTaken => some .takeStop
  | _, _ => none

/-- What happens with a move of the pool. -/
def Pool.incident? (p : Pool) (m : Move) (p' : Pool) : Option Incident :=
  match m with
  | .client _ => (p.accepts? m p').map (.task .accepted)
  | .worker w | .begin w _ _ _ | .finish w _ _ => do
    (← p.workers[w]?).incident? (← p'.workers[w]?)
  | _ => none

namespace Driver

/-- What happens with the next step of the driver. -/
def incident? (around : Surroundings) (d : Driver) : Option Incident :=
  match d.stage, d.pool with
  | .deciding, some _ =>
    some (if d.plan.stop.reached d.submitted around then .halt
      else .ask ((d.source.next d.nextId).map Prod.fst))
  | .sending message _, _ => some (.send message)
  | _, _ => none

/-- What a driver comes to by steps of its own, in surroundings like these, and by moves of its
pool; and what happens meanwhile. -/
inductive Course (P : Surroundings → Prop) (d₀ : Driver) : List Incident → Driver → Prop
  | refl : Course P d₀ [] d₀
  | own {told d d' emission} (around : Surroundings) : Course P d₀ told d → P around →
      d.step? around = some (d', emission) →
      Course P d₀ (told ++ (d.incident? around).toList) d'
  | pool {told d p p'} (m : Pool.Move) : Course P d₀ told d → d.pool = some p →
      m.isInternal = true → p.move? m = some p' →
      Course P d₀ (told ++ (p.incident? m p').toList) { d with pool := some p' }

/-- The tasks that were accepted and not begun. -/
def waiting (d : Driver) : List Task := (d.pool.map fun p => p.queued ++ p.held).getD []

/-- The tasks that are begun and not performed. -/
def executing (d : Driver) : List Task := (d.pool.map Pool.executing).getD []

end Driver

variable {P : Surroundings → Prop} {plan : DriverPlan} {source : Source}
  {pulled : List (Option Operation)} {told more : List Incident} {d d' d₀ : Driver} {p p' : Pool}
  {m : Pool.Move} {around : Surroundings} {emission : Emission} {milestone : Milestone}
  {e : Incident}

namespace Incident

theorem answers_append : answers (told ++ more) = answers told ++ answers more :=
  List.filterMap_append

theorem messages_append : messages (told ++ more) = messages told ++ messages more :=
  List.filterMap_append

theorem tasks_append :
    tasks milestone (told ++ more) = tasks milestone told ++ tasks milestone more :=
  List.filterMap_append

end Incident

/-! ## What happens with one move -/

namespace Pool

/-- What happens with a step of a worker is up to its stages before and after. -/
theorem WorkerStep.incident?_eq {w : Nat} {v v' : WorkerStage} {q : Pool}
    (hv : p.workers[w]? = some v) (hw : WorkerStep p w m v v' q) :
    p.incident? m (q.setWorker w v') = v.incident? v' := by
  have hset : (q.setWorker w v').workers[w]? = some v' :=
    List.getElem?_set_self (hw.workers_eq.symm ▸ (List.getElem?_eq_some_iff.1 hv).1)
  cases hw <;> simp only [incident?, hv, hset] <;> rfl

/-- With a move of the pool tasks are accepted, begun or performed as the pool tells. -/
theorem tasks_incident? (hi : m.isInternal = true) (hm : p.move? m = some p') :
    Incident.tasks .accepted (p.incident? m p').toList = (p.accepts? m p').toList ∧
      Incident.tasks .begun (p.incident? m p').toList = (p.starts? m p').toList ∧
      Incident.tasks .performed (p.incident? m p').toList = (p.ends? m p').toList := by
  cases step_of_move? hm with
  | client hcall =>
    rcases hcall with ⟨rfl, -⟩ | rfl
    · unfold incident?
      cases accepts? p _ _ <;> exact ⟨rfl, rfl, rfl⟩
    · cases hi
  | @worker w v v' q _ hv hw =>
    have hset : (q.setWorker w v').workers[w]? = some v' :=
      List.getElem?_set_self (hw.workers_eq.symm ▸ (List.getElem?_eq_some_iff.1 hv).1)
    cases hw <;> simp only [incident?, hv, hset, starts?, ends?] <;> exact ⟨rfl, rfl, rfl⟩
  | call | detach | deafen => cases hi

theorem isOfDriver_incident? (h : p.incident? m p' = some e) : e.isOfDriver = false := by
  cases m with
  | client i =>
    obtain ⟨task, -, rfl⟩ := Option.map_eq_some_iff.1 h
    rfl
  | worker w | begin w | finish w =>
    simp only [incident?, Option.bind_eq_bind, Option.bind_eq_some_iff] at h
    obtain ⟨v, -, v', -, h⟩ := h
    unfold WorkerStage.incident? at h
    split at h <;> cases h <;> rfl
  | _ => cases h

/-- In a pool nobody asks the source and nobody sends a message. -/
theorem silent_incident? : Incident.answers (p.incident? m p').toList = [] ∧
    Incident.messages (p.incident? m p').toList = [] := by
  cases h : p.incident? m p' with
  | none => exact ⟨rfl, rfl⟩
  | some e =>
    have hpool := isOfDriver_incident? h
    cases e with
    | halt | ask | send => cases hpool
    | task | takeStop => exact ⟨rfl, rfl⟩

end Pool

namespace Driver

theorem incident?_of_reached (hs : d.stage = .deciding) (hp : d.pool = some p)
    (hreached : d.plan.stop.reached d.submitted around = true) :
    d.incident? around = some .halt := by
  simp only [incident?, hs, hp, hreached, if_true]

theorem incident?_of_next {answer : Except Crash (Option Operation × Source)}
    (hs : d.stage = .deciding) (hp : d.pool = some p)
    (hreached : d.plan.stop.reached d.submitted around = false)
    (hnext : d.source.next d.nextId = answer) :
    d.incident? around = some (.ask (answer.map Prod.fst)) := by
  simp only [incident?, hs, hp, hreached, hnext, Bool.false_eq_true, if_false]

theorem answers_incident? :
    Incident.answers (d.incident? around).toList = (d.pull? around).toList := by
  unfold incident? pull?
  cases d.stage with
  | deciding =>
    cases d.pool with
    | none => rfl
    | some p =>
      dsimp only
      split
      · rfl
      · cases d.source.next d.nextId <;> rfl
  | _ => rfl

theorem isOfDriver_incident? (h : d.incident? around = some e) : e.isOfDriver = true := by
  unfold incident? at h
  split at h
  · cases h
    split <;> rfl
  · cases h
    rfl
  · cases h

theorem tasks_incident? : Incident.tasks milestone (d.incident? around).toList = [] := by
  cases h : d.incident? around with
  | none => rfl
  | some e =>
    have hdriver := isOfDriver_incident? h
    cases e with
    | halt | ask | send => rfl
    | task | takeStop => cases hdriver

theorem messages_incident? (h : d.step? around = some (d', emission)) :
    Incident.messages (d.incident? around).toList = emission.message.toList := by
  have silent (hs : d.stage.hasEnded = false) :
      Incident.messages (d.incident? around).toList = [] := by
    unfold incident?
    cases hstage : d.stage with
    | deciding =>
      cases d.pool with
      | none => rfl
      | some p =>
        dsimp only
        split <;> rfl
    | sending => rw [hstage] at hs; cases hs
    | _ => rfl
  cases advance_step h with
  | goOn hs _ hnone => rw [silent hs, hnone]; rfl
  | giveUp hs | finish hs => exact silent hs
  | announce hs => exact silent (by rw [hs]; rfl)
  | send hs => simp only [incident?, hs]; rfl

/-! ## What happens in a whole course -/

theorem Course.run (h : Course P d₀ told d) (hr : Run plan source pulled d₀) :
    Run plan source (pulled ++ Incident.answers told) d := by
  induction h with
  | refl => rwa [show Incident.answers [] = [] from rfl, List.append_nil]
  | own around _ _ hd ih =>
    rw [Incident.answers_append, answers_incident?, ← List.append_assoc]
    exact ih.own around hd
  | pool m _ hp hi hm ih =>
    rw [Incident.answers_append, Pool.silent_incident?.1, List.append_nil]
    exact ih.pool m hp hi hm

theorem Course.run_of_start (h : Course P { plan, source } told d) :
    Run plan source (Incident.answers told) d := h.run .start

/-- The messages are those that a driver at this stage has sent. -/
theorem Course.messages_eq (h : Course P { plan, source } told d) :
    Incident.messages told = d.sent := by
  induction h with
  | refl => rfl
  | own around hcourse _ hd ih =>
    rw [Incident.messages_append, messages_incident? hd, ih, hcourse.run_of_start.sent_step hd]
  | pool m _ _ _ _ ih =>
    rw [Incident.messages_append, Pool.silent_incident?.2, List.append_nil, ih]
    rfl

/-! ## No task is lost, and none is begun twice -/

theorem PoolStep.queue (h : PoolStep plan d.pool d'.pool) :
    d'.waiting = d.waiting ∧ d'.executing = d.executing := by
  unfold waiting executing
  generalize d.pool = pool at h
  generalize d'.pool = pool' at h
  cases h with
  | keep => exact ⟨rfl, rfl⟩
  | @start p hstart =>
    have hqueue : p.queue = [] := by rw [(Pool.start_eq hstart).2]
    have hheld : p.held = [] := Pool.filterMap_workers_of_start hstart rfl
    have hexecuting : p.executing = [] := Pool.filterMap_workers_of_start hstart rfl
    simp [Pool.queued, hqueue, hheld, hexecuting]
  | call hm =>
    simp only [Pool.move?] at hm
    split at hm <;> cases hm
    exact ⟨rfl, rfl⟩
  | letGo hm =>
    simp only [Pool.move?] at hm
    split at hm <;> cases hm
    exact ⟨rfl, rfl⟩

/-- A task that was accepted waits until it is begun, and executes until it is performed. -/
theorem Course.custody (h : Course P d₀ told d) (hr : Run plan source pulled d₀) :
    (Incident.tasks .accepted told ++ d₀.waiting).Perm (Incident.tasks .begun told ++ d.waiting) ∧
      (Incident.tasks .begun told ++ d₀.executing).Perm
        (Incident.tasks .performed told ++ d.executing) := by
  induction h with
  | refl => exact ⟨.refl _, .refl _⟩
  | own around hcourse _ hd ih =>
    obtain ⟨hwaiting, hexecuting⟩ := ((hcourse.run hr).poolStep hd).queue
    simpa only [Incident.tasks_append, tasks_incident?, List.append_nil, hwaiting, hexecuting]
      using ih
  | @pool told d p p' m _ hp hi hm ih =>
    obtain ⟨haccepted, hbegun, hperformed⟩ := Pool.tasks_incident? hi hm
    simp only [Incident.tasks_append, haccepted, hbegun, hperformed]
    have hqueued := Pool.queued_step hm
    have hheld := Pool.held_step hm
    have hexecuting := Pool.executing_step hm
    simp only [List.perm_iff_count, List.count_append, waiting, executing, hp, Option.map_some,
      Option.getD_some] at ih hheld hexecuting ⊢
    refine ⟨fun t => ?_, fun t => ?_⟩
    · have hw := ih.1 t
      have hh := hheld t
      have hq := congrArg (List.count t) hqueued
      simp only [List.count_append] at hq
      omega
    · have he := ih.2 t
      have hx := hexecuting t
      omega

theorem Course.custody_of_start (h : Course P { plan, source } told d) :
    (Incident.tasks .accepted told).Perm (Incident.tasks .begun told ++ d.waiting) ∧
      (Incident.tasks .begun told).Perm (Incident.tasks .performed told ++ d.executing) := by
  have hcustody := h.custody .start
  rwa [waiting, executing, Option.map_none, Option.getD_none, List.append_nil,
    Option.map_none, Option.getD_none, List.append_nil] at hcustody

end Driver

end FaultDrill
