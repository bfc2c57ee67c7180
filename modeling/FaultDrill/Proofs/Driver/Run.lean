import FaultDrill.Proofs.Driver.Turn
import FaultDrill.Proofs.Pool.Ledger
import FaultDrill.Proofs.Source

/-! # Runs of a driver

A driver, the calls to its pool and the workers of its pool take steps in any order. Every
answer of the source is written down, so that a run tells how often it was asked.
-/

namespace FaultDrill

/-- The pool makes this move by itself. -/
def Pool.Move.isInternal : Pool.Move → Bool
  | client _ | worker _ | begin _ _ _ _ | finish _ _ _ => true
  | call _ | abandon _ | detach | deafen => false

namespace Driver

/-- The answer of the source, if the next step of the driver asks it. -/
def pull? (around : Surroundings) (d : Driver) : Option (Option Operation) :=
  match d.stage, d.pool with
  | .deciding, some _ =>
    if d.plan.stop.reached d.submitted around then none
    else (d.source.next d.nextId).toOption.map Prod.fst
  | _, _ => none

/-- What a driver with this plan and this source comes to, and the answers of the source so far. -/
inductive Run (plan : DriverPlan) (source : Source) : List (Option Operation) → Driver → Prop
  | start : Run plan source [] { plan, source }
  | own {pulled d d' emission} (around : Surroundings) : Run plan source pulled d →
      d.step? around = some (d', emission) → Run plan source (pulled ++ (d.pull? around).toList) d'
  | pool {pulled d p p'} (m : Pool.Move) : Run plan source pulled d → d.pool = some p →
      m.isInternal = true → p.move? m = some p' → Run plan source pulled { d with pool := some p' }

/-- What a driver comes to by steps of its own, each with what it sees around it, and by moves of
its pool; and the answers of the source. -/
def moves? : List (Surroundings ⊕ Pool.Move) → Driver → List (Option Operation) →
    Option (Driver × List (Option Operation))
  | [], d, pulled => some (d, pulled)
  | .inl around :: rest, d, pulled => do
    let (d', _) ← d.step? around
    moves? rest d' (pulled ++ (d.pull? around).toList)
  | .inr m :: rest, d, pulled => do
    let p ← d.pool
    let p' ← p.move? m
    if m.isInternal then moves? rest { d with pool := some p' } pulled else none

theorem Run.of_moves? {plan : DriverPlan} {source : Source} {d d' : Driver}
    {pulled pulled' : List (Option Operation)} {ms : List (Surroundings ⊕ Pool.Move)}
    (h : Run plan source pulled d) (hm : moves? ms d pulled = some (d', pulled')) :
    Run plan source pulled' d' := by
  induction ms generalizing d pulled with
  | nil =>
    cases hm
    exact h
  | cons m ms ih =>
    cases m with
    | inl around =>
      simp only [moves?, Option.bind_eq_bind, Option.bind_eq_some_iff] at hm
      obtain ⟨⟨d₁, emission⟩, hd, hm⟩ := hm
      exact ih (h.own around hd) hm
    | inr m =>
      simp only [moves?, Option.bind_eq_bind, Option.bind_eq_some_iff] at hm
      obtain ⟨p, hp, p', hp', hm⟩ := hm
      split at hm
      case isTrue hi => exact ih (h.pool m hp hi hp') hm
      case isFalse => cases hm

/-! ## The plan -/

section

variable {plan : DriverPlan} {source : Source} {pulled : List (Option Operation)}
  {d d' : Driver} {p : Pool} {around : Surroundings} {emission : Emission}

theorem plan_step (h : d.step? around = some (d', emission)) : d'.plan = d.plan := by
  cases turn_of_step? h <;> rfl

theorem Run.plan_eq (h : Run plan source pulled d) : d.plan = plan := by
  induction h with
  | start => rfl
  | own around _ hd ih => exact (plan_step hd).trans ih
  | pool m _ _ _ _ ih => exact ih

/-! ## Asking the source -/

theorem pull?_eq_none (h : d.stage ≠ .deciding) : d.pull? around = none := by
  unfold pull?
  split
  · contradiction
  · rfl

theorem pull?_of_reached (hs : d.stage = .deciding) (hp : d.pool = some p)
    (hreached : d.plan.stop.reached d.submitted around = true) : d.pull? around = none := by
  simp only [pull?, hs, hp, hreached, if_true]

theorem pull?_of_next {answer : Except Crash (Option Operation × Source)}
    (hs : d.stage = .deciding) (hp : d.pool = some p)
    (hreached : d.plan.stop.reached d.submitted around = false)
    (hnext : d.source.next d.nextId = answer) :
    d.pull? around = answer.toOption.map Prod.fst := by
  simp only [pull?, hs, hp, hreached, hnext, Bool.false_eq_true, if_false]

end

/-! ## Calls -/

/-- The calls that submit these operations as the first tasks of a stream. -/
def submits (stream : String) (ops : List Operation) : List Pool.Request :=
  ops.mapIdx fun n op => .submit ⟨.ofIndex n, stream, op⟩

theorem submits_snoc (stream : String) (ops : List Operation) (op : Operation) :
    submits stream (ops ++ [op]) =
      submits stream ops ++ [.submit ⟨.ofIndex ops.length, stream, op⟩] := by
  simp [submits, List.mapIdx_append]

theorem length_submits (stream : String) (ops : List Operation) :
    (submits stream ops).length = ops.length := List.length_mapIdx

theorem getElem?_submits (stream : String) (ops : List Operation) (n : Nat) :
    (submits stream ops)[n]? =
      ops[n]?.map fun op => .submit ⟨.ofIndex n, stream, op⟩ := List.getElem?_mapIdx

end Driver

namespace Pool

variable {p p' : Pool} {m : Move} {n : Nat}

/-- The first calls have all succeeded. -/
def Answered (p : Pool) (n : Nat) : Prop := ∀ i < n, p.reply? i = some (.ok ())

theorem Answered.succ (h : p.Answered n) (hn : p.reply? n = some (.ok ())) :
    p.Answered (n + 1) := by
  intro i hi
  rcases Nat.lt_succ_iff_lt_or_eq.1 hi with hi | rfl
  · exact h i hi
  · exact hn

theorem Step.answered (h : Step p m p') (hn : p.Answered n) : p'.Answered n :=
  fun i hi => h.reply?_eq (hn i hi)

theorem Step.of_isInternal (h : Step p m p') (hm : m.isInternal = true) :
    p'.isOpen = p.isOpen ∧ p'.isHeard = p.isHeard ∧ m.request? = none := by
  cases h with
  | client hm' _ hc =>
    refine ⟨hc.isOpen_eq, hc.isHeard_eq, ?_⟩
    rcases hm' with ⟨rfl, -⟩ | rfl <;> rfl
  | worker _ hw => exact ⟨hw.isOpen_eq, hw.isHeard_eq, hw.request?_eq⟩
  | _ => cases hm

end Pool

end FaultDrill
