import FaultDrill.Proofs.Driver.Abandon
import FaultDrill.Proofs.World.Course

/-! # Drivers in a world whose source panics

A driver whose source panics abandons its run. Whoever takes steps in which order, the tasks that
it has submitted until then are executed once each, although its pool is never shut down.
-/

namespace FaultDrill.World

open Driver Source

variable {w w₀ : World} {ms : List Move} {i : Nat} {plan : DriverPlan} {source s : Source}
  {ops : List Operation}

/-- If the source of a driver panics after these operations, only tasks of theirs are accepted, and
none is executed twice. Once nobody can go on, each one that was accepted has been executed; the
driver has given up and said so once, and its workers are gone without a sentinel. -/
theorem abandons (hstart : w₀.drivers[i]? = some { plan, source })
    (hworkers : plan.pool.workers ≠ 0) (hgives : GivesFrom 0 source ops s)
    (hpanics : s.PanicsAfter ops.length) (hops : ops.length + 1 < UInt64.size)
    (hfits : ∀ n op, source.Gives n op → op.Fits) (hms : w₀.moves? ms = some w)
    (hhalt : .halt ∉ w₀.incidents i ms) :
    AtMostOnce plan.stream ops (w₀.incidents i ms) ∧
      ∃ d, w.drivers[i]? = some d ∧
        (w.RestsAt i → Abandoned plan ops (w₀.incidents i ms) d) := by
  obtain ⟨d, hd, hcourse⟩ := exists_course hms hstart
  have hn := hcourse.run_of_start.noneLost hfits
  refine ⟨hcourse.at_most_once hn hgives hpanics (by omega), d, hd, fun hrest => ?_⟩
  exact (hrest.rests hd).abandoned hcourse hn hgives hpanics hhalt hworkers hops

def panicOps : List Operation := [.delete ⟨"bucket", "a"⟩, .delete ⟨"bucket", "b"⟩]

/-- It panics when it is asked for a third task. -/
def panicSource (pulls : Nat) : Source :=
  .rule (fun n _ => match panicOps[n]? with
    | some op => .ok (some op)
    | none => .error (.raised "exploded")) pulls

def panicPlan : DriverPlan :=
  { stream := "trial", stop := .exhausted, pool := { workers := 1, queueCapacity := 2 } }

def panicStart : World := { drivers := [{ plan := panicPlan, source := panicSource 0 }] }

/-- Both tasks are queued when the driver gives up. -/
def panicMoves : List Move :=
  soloSteps [(2, .driver 0), (5, .client 0 0), (3, .driver 0), (5, .client 0 1), (5, .driver 0),
    (17, .worker 0 0)]

def panicEnd : World := (panicStart.moves? panicMoves).get rfl

theorem abandons_trial : panicStart.moves? panicMoves = some panicEnd ∧ panicEnd.RestsAt 0 ∧
    ∃ d, panicEnd.drivers[0]? = some d ∧
      Abandoned panicPlan panicOps (panicStart.incidents 0 panicMoves) d ∧
      (Incident.tasks .performed (panicStart.incidents 0 panicMoves)).Perm
        (tasks "trial" panicOps) := by
  have hfits (n : Nat) (op : Operation) (h : (panicSource 0).Gives n op) : op.Fits := by
    obtain ⟨k, hk⟩ := h.exists_rule
    have hkind : ∀ op ∈ panicOps, op.kind = .delete := by decide
    have hop : op ∈ panicOps := by
      split at hk
      case h_1 given hgiven => cases hk; exact List.mem_of_getElem? hgiven
      case h_2 => cases hk
    intro hwrite
    cases (hkind op hop).symm.trans hwrite
  have hms : panicStart.moves? panicMoves = some panicEnd := (Option.some_get _).symm
  have hhalt : .halt ∉ panicStart.incidents 0 panicMoves := by decide +kernel
  have hrest : panicEnd.RestsAt 0 :=
    (atRest_of_over (by decide +kernel) (by decide +kernel)).restsAt 0
  have hstart : panicStart.drivers[0]? = some { plan := panicPlan, source := panicSource 0 } := rfl
  have hgives : GivesFrom 0 (panicSource 0) panicOps (panicSource 2) :=
    .cons rfl (.cons rfl .nil)
  obtain ⟨-, d, hd, habandoned⟩ :=
    abandons hstart (by decide) hgives ⟨_, rfl⟩ (by decide) hfits hms hhalt
  have hend := habandoned hrest
  exact ⟨hms, hrest, d, hd, hend, hend.performed.trans (hend.accepted ⟨_, rfl⟩)⟩

end FaultDrill.World
