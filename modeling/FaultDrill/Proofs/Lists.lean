import Mathlib.Algebra.BigOperators.Group.List.Basic
import Mathlib.Algebra.GroupWithZero.Nat
import Mathlib.Data.List.ReduceOption

/-! # Lists of which one place changes

A step of a system changes what is at one place of a list. What that means for a sum, a
concatenation, or a second list with which it goes together, does not depend on the system.
-/

namespace FaultDrill

variable {α β : Type} {i j n : Nat}

/-- A result that is there is one that was returned. -/
theorem toOption_eq_some {ε : Type} {x : Except ε α} {a : α} (h : x.toOption = some a) :
    x = .ok a := by
  cases x with
  | error => cases h
  | ok => cases h; rfl

/-! ## Places -/

theorem getElem?_set_cases {l : List α} {a b : α} (h : (l.set j a)[i]? = some b) :
    i = j ∧ b = a ∨ l[i]? = some b := by
  rw [List.getElem?_set] at h
  split at h
  case isTrue hij =>
    split at h
    case isTrue => cases h; exact .inl ⟨hij.symm, rfl⟩
    case isFalse => cases h
  case isFalse => exact .inr h

theorem getElem?_concat_cases {l : List α} {a b : α} (h : (l ++ [a])[i]? = some b) :
    (∃ hi : i < l.length, l[i] = b) ∨ i = l.length ∧ b = a := by
  rw [List.getElem?_append] at h
  split at h
  case isTrue hi => exact .inl (List.getElem?_eq_some_iff.1 h)
  case isFalse hi =>
    rw [List.getElem?_singleton] at h
    split at h
    case isTrue hzero => exact .inr ⟨by omega, (Option.some.inj h).symm⟩
    case isFalse => cases h

theorem getElem?_map_eq (f : α → Nat) {xs : List α} {x : α} (h : xs[i]? = some x) :
    (xs.map f)[i]? = some (f x) := by
  rw [List.getElem?_map, h, Option.map_some]

/-! ## Sums -/

theorem sum_set {xs : List Nat} {a : Nat} (h : xs[i]? = some a) (b : Nat) :
    (xs.set i b).sum + a = xs.sum + b := by
  induction xs generalizing i with
  | nil => simp at h
  | cons x xs ih =>
    cases i with
    | zero =>
      simp only [List.getElem?_cons_zero, Option.some.injEq] at h
      subst h
      simp only [List.set_cons_zero, List.sum_cons]
      omega
    | succ i =>
      have := ih (i := i) (by simpa using h)
      simp only [List.set_cons_succ, List.sum_cons]
      omega

theorem sum_map_eq_zero {f : α → Nat} {xs : List α}
    (h : ∀ (i : Nat) x, xs[i]? = some x → f x = 0) : (xs.map f).sum = 0 := by
  rw [List.sum_eq_zero_iff_forall_eq_nat]
  intro n hn
  obtain ⟨x, hx, rfl⟩ := List.mem_map.1 hn
  obtain ⟨i, hi⟩ := List.mem_iff_getElem?.1 hx
  exact h i x hi

theorem sum_map_eq_add {f g k : α → Nat} {xs : List α} (h : ∀ x ∈ xs, f x = g x + k x) :
    (xs.map f).sum = (xs.map g).sum + (xs.map k).sum := by
  rw [← List.sum_map_add]
  exact congrArg List.sum (List.map_congr_left h)

theorem count_reduceOption_set {xs : List (Option Nat)} {a b : Option Nat} (h : xs[i]? = some a)
    (k : Nat) : (xs.set i b).reduceOption.count k + a.toList.count k =
      xs.reduceOption.count k + b.toList.count k := by
  induction xs generalizing i with
  | nil => cases h
  | cons x xs ih =>
    have hcons (y : Option Nat) (ys : List (Option Nat)) :
        (y :: ys).reduceOption.count k = y.toList.count k + ys.reduceOption.count k := by
      cases y <;> simp [List.reduceOption_cons_of_some, List.reduceOption_cons_of_none,
        List.count_cons, Nat.add_comm]
    cases i with
    | zero =>
      cases h
      simp only [List.set_cons_zero, hcons]
      omega
    | succ i =>
      have := ih (i := i) h
      simp only [List.set_cons_succ, hcons]
      omega

/-! ## Concatenations -/

theorem filterMap_set_perm {f : α → Option β} {l : List α} {a b : α} (ha : l[i]? = some a) :
    ((f a).toList ++ (l.set i b).filterMap f).Perm ((f b).toList ++ l.filterMap f) := by
  have hcons (c : α) (l : List α) : (c :: l).filterMap f = (f c).toList ++ l.filterMap f := by
    cases h : f c <;> simp [h]
  induction l generalizing i with
  | nil => cases ha
  | cons c l ih =>
    cases i with
    | zero =>
      cases ha
      rw [List.set_cons_zero, hcons, hcons, ← List.append_assoc, ← List.append_assoc]
      exact List.perm_append_comm.append_right _
    | succ i =>
      rw [List.set_cons_succ, hcons, hcons]
      refine (List.perm_append_comm_assoc ..).trans ?_
      exact ((ih ha).append_left _).trans (List.perm_append_comm_assoc ..)

theorem flatMap_set_perm {f : α → List β} {l : List α} {a b : α} {xs : List β}
    (ha : l[i]? = some a) (hb : f b = f a ++ xs) :
    ((l.set i b).flatMap f).Perm (l.flatMap f ++ xs) := by
  induction l generalizing i with
  | nil => cases ha
  | cons c l ih =>
    cases i with
    | zero =>
      cases ha
      rw [List.set_cons_zero, List.flatMap_cons, List.flatMap_cons, hb, List.append_assoc,
        List.append_assoc]
      exact List.perm_append_comm.append_left _
    | succ i =>
      rw [List.set_cons_succ, List.flatMap_cons, List.flatMap_cons, List.append_assoc]
      exact (ih ha).append_left _

/-! ## Two lists that go together -/

variable {R : α → β → Prop} {xs : List α} {ys : List β} {a : α} {b : β}

theorem forall₂_getElem? (h : List.Forall₂ R xs ys) (hb : ys[i]? = some b) :
    ∃ a, xs[i]? = some a ∧ R a b := by
  induction h generalizing i with
  | nil => cases hb
  | cons hab _ ih =>
    cases i with
    | zero => cases hb; exact ⟨_, rfl, hab⟩
    | succ i => exact ih hb

theorem forall₂_set (h : List.Forall₂ R xs ys) (hab : R a b) :
    List.Forall₂ R (xs.set i a) (ys.set i b) := by
  induction h generalizing i with
  | nil => exact .nil
  | cons hab' hrest ih =>
    cases i with
    | zero => exact .cons hab hrest
    | succ i => exact .cons hab' ih

theorem forall₂_set_right (h : List.Forall₂ R xs ys) (ha : xs[i]? = some a) (hab : R a b) :
    List.Forall₂ R xs (ys.set i b) := by
  obtain ⟨hlt, rfl⟩ := List.getElem?_eq_some_iff.1 ha
  have hset := forall₂_set (i := i) h hab
  rwa [List.set_getElem_self] at hset

end FaultDrill
