import Mathlib.Data.ENat.Lattice
import Mathlib.Order.CompletePartialOrder
import FaultDrill.Source

/-! # How much a source has

A source is asked for one task after another. The operations that it gives before it runs
dry are the ones it has, and there may be no end of them.
-/

namespace FaultDrill

namespace TaskId

/-- The task with this number, counted from zero. -/
def ofIndex (n : Nat) : TaskId := ⟨.ofNat (n + 1)⟩

theorem toNat_ofIndex {n : Nat} (h : n + 1 < UInt64.size) : (ofIndex n).seq.toNat = n + 1 :=
  UInt64.toNat_ofNat_of_lt' h

theorem next_ofIndex {n : Nat} (h : n + 2 < UInt64.size) :
    (ofIndex n).next = .ok (ofIndex (n + 1)) := by
  unfold next
  rw [toNat_ofIndex (by omega), if_pos h]
  exact congrArg (Except.ok ∘ TaskId.mk) (UInt64.ofNat_add (n + 1) 1).symm

end TaskId

namespace Source

/-- From the task with the given number on, the source gives these operations one after another;
the second source is what it has become then. -/
inductive GivesFrom : Nat → Source → List Operation → Source → Prop
  | nil {k s} : GivesFrom k s [] s
  | cons {k s op s' ops s''} : s.next (.ofIndex k) = .ok (some op, s') →
      GivesFrom (k + 1) s' ops s'' → GivesFrom k s (op :: ops) s''

/-- The operations that the source gives to so many tasks. -/
def offered (count : Nat) (source : Source) : List Operation :=
  (source.pulls count .first).1.filterMap fun answer => answer.toOption.join

/-- The number of operations that the source has. -/
noncomputable def size (source : Source) : ℕ∞ := ⨆ count, ((source.offered count).length : ℕ∞)

variable {k : Nat} {s s' s'' source : Source} {op : Operation} {ops : List Operation}

theorem GivesFrom.snoc (h : GivesFrom k s ops s')
    (hop : s'.next (.ofIndex (k + ops.length)) = .ok (some op, s'')) :
    GivesFrom k s (ops ++ [op]) s'' := by
  induction h with
  | nil => exact .cons hop .nil
  | @cons k s _ _ ops _ hfirst _ ih =>
    refine .cons hfirst (ih ?_)
    rwa [List.length_cons, ← Nat.add_assoc, Nat.add_right_comm] at hop

/-- The answers to the first pulls are what the source gives. -/
theorem GivesFrom.pulls (h : GivesFrom k s ops s') (hk : k + ops.length + 1 < UInt64.size)
    (count : Nat) (hdry : count ≤ ops.length ∨
      ∃ s'', s'.next (.ofIndex (k + ops.length)) = .ok (none, s'')) :
    (s.pulls count (.ofIndex k)).1.filterMap (fun answer => answer.toOption.join) =
      ops.take count := by
  induction h generalizing count with
  | nil =>
    cases count with
    | zero => rfl
    | succ count =>
      obtain ⟨s'', hdry⟩ := hdry.resolve_left (Nat.not_succ_le_zero count)
      simp only [List.length_nil, Nat.add_zero] at hdry
      simp [Source.pulls, hdry, Except.toOption]
  | @cons k s op s₁ ops s₂ hfirst _ ih =>
    cases count with
    | zero => rfl
    | succ count =>
      rw [List.length_cons] at hk
      have hdry' : count ≤ ops.length ∨
          ∃ s'', s₂.next (.ofIndex (k + 1 + ops.length)) = .ok (none, s'') := by
        refine hdry.imp Nat.le_of_succ_le_succ ?_
        intro h
        rwa [List.length_cons, ← Nat.add_assoc, Nat.add_right_comm] at h
      have hrest := ih (by omega) count hdry'
      have hnext := TaskId.next_ofIndex (n := k) (by omega)
      simp only [Source.pulls, hfirst, hnext, List.filterMap_cons, Except.toOption,
        Option.join_some, List.take_succ_cons]
      exact congrArg (op :: ·) hrest

theorem GivesFrom.length_le_size (h : GivesFrom 0 source ops s)
    (hops : ops.length + 1 < UInt64.size) : (ops.length : ℕ∞) ≤ source.size := by
  refine le_iSup_of_le ops.length ?_
  have := h.pulls (by omega) ops.length (.inl (Nat.le_refl _))
  rw [List.take_length] at this
  rw [offered, show TaskId.first = .ofIndex 0 from rfl, this]

theorem GivesFrom.size_eq (h : GivesFrom 0 source ops s) (hops : ops.length + 1 < UInt64.size)
    (hdry : s.next (.ofIndex ops.length) = .ok (none, s')) : source.size = ops.length := by
  refine le_antisymm (iSup_le fun count => ?_) (h.length_le_size hops)
  have := h.pulls (by omega) count (.inr ⟨s', by rwa [Nat.zero_add]⟩)
  rw [offered, show TaskId.first = .ofIndex 0 from rfl, this]
  exact_mod_cast List.length_take_le' count ops

end Source

end FaultDrill
