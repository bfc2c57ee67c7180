import Mathlib.Logic.Function.Basic
import Mathlib.Data.List.Perm.Basic
import Mathlib.Data.List.Nodup
import FaultDrill.Proofs.Pool.Total

/-! # The latch

Who waits for the latch, who has been let in and who is inside, in every state of a pool.
No task is counted once the flag is up, and nobody waits for a latch that is free.
-/

namespace FaultDrill.Latch

variable {l l' : Latch} {a : Access} {i : Nat} {wants holds : Nat → Option Access}
  {letIn inside holders holders' : List (Nat × Access)}

/-- The latch is held by some readers or by one writer. -/
def HeldBy (l : Latch) (holders : List (Nat × Access)) : Prop :=
  (l.writing = false ∧ (∀ h ∈ holders, h.2 = .read) ∧ l.readers = holders.length) ∨
    (l.writing = true ∧ l.readers = 0 ∧ ∃ i, holders = [(i, .write)])

theorem HeldBy.perm (h : l.HeldBy holders) (hp : holders.Perm holders') : l.HeldBy holders' := by
  rcases h with ⟨hw, hr, hl⟩ | ⟨hw, hr, i, rfl⟩
  · exact .inl ⟨hw, fun c hc => hr c (hp.mem_iff.2 hc), hl.trans hp.length_eq⟩
  · exact .inr ⟨hw, hr, i, List.perm_singleton.1 hp.symm⟩

theorem HeldBy.hold (h : l.HeldBy holders) (hl : l.hold? a = some l') (i : Nat) :
    l'.HeldBy ((i, a) :: holders) := by
  cases a with
  | read =>
    simp only [hold?] at hl
    split at hl
    case isTrue => cases hl
    case isFalse hw =>
      cases hl
      rcases h with ⟨hw', hr, hl⟩ | ⟨hw', -⟩
      · refine .inl ⟨hw', fun c hc => ?_, by simp [hl]⟩
        rcases List.mem_cons.1 hc with rfl | hc
        · rfl
        · exact hr c hc
      · exact absurd hw' hw
  | write =>
    simp only [hold?] at hl
    split at hl
    case isTrue => cases hl
    case isFalse hw =>
      cases hl
      obtain ⟨hw, hr⟩ := not_or.1 hw
      rcases h with ⟨-, -, hl⟩ | ⟨hw', -⟩
      · have : holders = [] := List.length_eq_zero_iff.1 (by omega)
        exact .inr ⟨rfl, by simpa using hr, i, by rw [this]⟩
      · exact absurd hw' hw

theorem hold?_eq (hl : l.hold? a = some l') : l'.waiting = l.waiting ∧ l'.granted = l.granted := by
  cases a <;> simp only [hold?] at hl <;> split at hl <;> cases hl <;> exact ⟨rfl, rfl⟩

theorem hold?_eq_none_iff :
    l.hold? a = none ↔ l.writing = true ∨ (a = .write ∧ 0 < l.readers) := by
  cases a <;> simp only [hold?] <;> split <;> simp_all

/-- The latch as one who held it leaves it, before anybody is let in. -/
def drop (access : Access) (l : Latch) : Latch :=
  match access with
  | .read => { l with readers := l.readers - 1 }
  | .write => { l with writing := false }

theorem release_eq : l.release a = (l.drop a).promote l.waiting := by cases a <;> rfl

theorem HeldBy.drop (h : l.HeldBy ((i, a) :: holders)) : (l.drop a).HeldBy holders := by
  rcases h with ⟨hw, hr, hl⟩ | ⟨hw, hr, j, h⟩
  · obtain rfl : a = .read := hr _ List.mem_cons_self
    exact .inl ⟨hw, fun c hc => hr c (List.mem_cons_of_mem _ hc), by simp [Latch.drop, hl]⟩
  · simp only [List.cons.injEq, Prod.mk.injEq] at h
    obtain ⟨⟨-, rfl⟩, rfl⟩ := h
    exact .inl ⟨rfl, by simp, by simpa [Latch.drop] using hr⟩

/-- The list tells for each number what the function gives there. -/
def Lists (f : Nat → Option Access) (xs : List (Nat × Access)) : Prop :=
  ∀ i a, f i = some a ↔ (i, a) ∈ xs

theorem Lists.cons {f : Nat → Option Access} {xs ys : List (Nat × Access)} (h : Lists f xs)
    (hi : f i = none) (hp : ys.Perm ((i, a) :: xs)) :
    Lists (Function.update f i (some a)) ys := by
  intro j b
  rw [hp.mem_iff]
  by_cases hj : j = i
  · subst hj
    have : (j, b) ∉ xs := by
      intro hb
      rw [(h j b).2 hb] at hi
      cases hi
    simp [this, eq_comm]
  · simp [hj, h j b]

theorem Lists.uncons {f : Nat → Option Access} {xs ys : List (Nat × Access)} (h : Lists f xs)
    (hp : xs.Perm ((i, a) :: ys)) (hn : (i, a) ∉ ys) : Lists (Function.update f i none) ys := by
  intro j b
  have hmem := hp.mem_iff (a := (j, b))
  rw [← h j b, List.mem_cons] at hmem
  by_cases hj : j = i
  · subst hj
    have : (j, b) ∉ ys := by
      intro hb
      have ha : f j = some a := (h j a).2 (hp.mem_iff.2 List.mem_cons_self)
      rw [hmem.2 (.inr hb), Option.some.injEq] at ha
      exact hn (ha ▸ hb)
    simp [this]
  · simp [hj, hmem]

/-- The books of a latch: who waits, who was let in and has not taken notice, and who is inside. -/
structure Kept (l : Latch) (wants holds : Nat → Option Access)
    (letIn inside : List (Nat × Access)) : Prop where
  held : l.HeldBy (letIn ++ inside)
  holds_iff : Lists holds inside
  wants_iff : Lists wants (l.waiting ++ letIn)
  granted : l.granted.Perm (letIn.map Prod.fst)
  nodup : ((l.waiting ++ letIn ++ inside).map Prod.fst).Nodup

/-- The first in line cannot hold the latch now. -/
def Blocked (l : Latch) : Prop :=
  ∀ c ∈ l.waiting.head?, l.writing = true ∨ (c.2 = .write ∧ 0 < l.readers)

theorem Kept.fresh (h : l.Kept wants holds letIn inside) (hw : wants i = none)
    (hh : holds i = none) : i ∉ (l.waiting ++ letIn ++ inside).map Prod.fst := by
  intro hi
  obtain ⟨⟨j, a⟩, hc, rfl⟩ := List.mem_map.1 hi
  rcases List.mem_append.1 hc with hc | hc
  · rw [(h.wants_iff _ _).2 hc] at hw; cases hw
  · rw [(h.holds_iff _ _).2 hc] at hh; cases hh

theorem Kept.take (h : l.Kept wants holds letIn inside) (hl : l.take? a = some l')
    (hw : wants i = none) (hh : holds i = none) :
    l'.Kept wants (Function.update holds i (some a)) letIn ((i, a) :: inside) ∧ l'.Blocked := by
  unfold take? at hl
  split at hl
  case isFalse => cases hl
  case isTrue he =>
    obtain ⟨hwait, hgrant⟩ := hold?_eq hl
    have he : l'.waiting = [] := by rw [hwait]; exact List.isEmpty_iff.1 he
    refine ⟨⟨?_, h.holds_iff.cons hh (.refl _), ?_, ?_, ?_⟩, by simp [Blocked, he]⟩
    · exact (h.held.hold hl i).perm (List.perm_middle.symm)
    · rw [hwait]; exact h.wants_iff
    · rw [hgrant]; exact h.granted
    · have hf := h.fresh hw hh
      have hp : (l'.waiting ++ letIn ++ (i, a) :: inside).Perm
          ((i, a) :: (l.waiting ++ letIn ++ inside)) := by
        rw [hwait]; exact List.perm_middle
      rw [(hp.map _).nodup_iff, List.map_cons, List.nodup_cons]
      exact ⟨hf, h.nodup⟩

theorem Kept.wait (h : l.Kept wants holds letIn inside) (hb : l.Blocked)
    (hl : l.take? a = none) (hw : wants i = none) (hh : holds i = none) :
    (l.wait i a).Kept (Function.update wants i (some a)) holds letIn inside ∧
      (l.wait i a).Blocked := by
  refine ⟨⟨h.held, h.holds_iff, ?_, h.granted, ?_⟩, ?_⟩
  · refine h.wants_iff.cons hw ?_
    simp [Latch.wait]
  · have hf := h.fresh hw hh
    have hp : ((l.wait i a).waiting ++ letIn ++ inside).Perm
        ((i, a) :: (l.waiting ++ letIn ++ inside)) := by
      simp [Latch.wait]
    rw [(hp.map _).nodup_iff, List.map_cons, List.nodup_cons]
    exact ⟨hf, h.nodup⟩
  · intro c hc
    cases hwait : l.waiting with
    | nil =>
      simp only [Latch.wait, hwait, List.nil_append, List.head?_cons, Option.mem_some_iff] at hc
      subst hc
      exact (hold?_eq_none_iff (l := l)).1 (by simpa [take?, hwait] using hl)
    | cons d rest =>
      simp only [Latch.wait, hwait, List.cons_append, List.head?_cons] at hc
      exact hb c (by rw [hwait]; exact hc)

theorem Kept.letIn_mem (h : l.Kept wants holds letIn inside) (hw : wants i = some a)
    (hi : i ∈ l.granted) : (i, a) ∈ letIn := by
  obtain ⟨⟨j, b⟩, hm, rfl⟩ := List.mem_map.1 (h.granted.mem_iff.1 hi)
  have := (h.wants_iff j b).2 (List.mem_append_right _ hm)
  rw [hw, Option.some.injEq] at this
  rwa [this]

theorem Kept.holds_eq_none (h : l.Kept wants holds letIn inside) (ha : (i, a) ∈ letIn) :
    holds i = none := by
  apply Option.eq_none_iff_forall_ne_some.2
  intro b hb
  have := h.nodup
  rw [List.map_append, List.nodup_append, List.map_append] at this
  exact this.2.2 i (List.mem_append_right _ (List.mem_map_of_mem ha)) i
    (List.mem_map_of_mem ((h.holds_iff i b).1 hb)) rfl

theorem Kept.notice (h : l.Kept wants holds letIn inside) (hb : l.Blocked)
    (hw : wants i = some a) (hi : i ∈ l.granted) :
    (l.notice i).Kept (Function.update wants i none) (Function.update holds i (some a))
      (letIn.erase (i, a)) ((i, a) :: inside) ∧ (l.notice i).Blocked := by
  have hm := h.letIn_mem hw hi
  have hp := List.perm_cons_erase hm
  have hn : ((l.waiting ++ letIn.erase (i, a) ++ (i, a) :: inside).map Prod.fst).Nodup := by
    have : (l.waiting ++ letIn.erase (i, a) ++ (i, a) :: inside).Perm
        (l.waiting ++ letIn ++ inside) := by
      have hmid : (l.waiting ++ letIn.erase (i, a) ++ (i, a) :: inside).Perm
          ((i, a) :: (l.waiting ++ letIn.erase (i, a) ++ inside)) := List.perm_middle
      refine hmid.trans ?_
      exact (List.perm_middle.symm.trans (hp.symm.append_left _)).append_right inside
    rw [(this.map _).nodup_iff]
    exact h.nodup
  refine ⟨⟨?_, h.holds_iff.cons (h.holds_eq_none hm) (.refl _), ?_, ?_, hn⟩, hb⟩
  · exact h.held.perm ((hp.append_right inside).trans List.perm_middle.symm)
  · refine h.wants_iff.uncons (a := a) ((hp.append_left _).trans List.perm_middle) ?_
    intro hm
    rw [List.map_append, List.map_cons] at hn
    exact (List.nodup_middle.1 hn).notMem (List.mem_append_left _ (List.mem_map.2 ⟨_, hm, rfl⟩))
  · have := (h.granted.trans (hp.map _)).erase i
    simpa [Latch.notice] using this

/-- Letting in those in front keeps the books, and leaves nobody in front who could be let in. -/
theorem Kept.promote {ws : List (Nat × Access)}
    (h : { l with waiting := ws }.Kept wants holds letIn inside) :
    ∃ letIn', (l.promote ws).Kept wants holds letIn' inside ∧ (l.promote ws).Blocked := by
  induction ws generalizing l letIn with
  | nil => exact ⟨letIn, h, by simp [Blocked, Latch.promote]⟩
  | cons c ws ih =>
    obtain ⟨j, b⟩ := c
    unfold Latch.promote
    split
    case h_1 hn =>
      refine ⟨letIn, h, ?_⟩
      intro c hc
      simp only [List.head?_cons, Option.mem_some_iff] at hc
      subst hc
      exact (hold?_eq_none_iff (l := l)).1 hn
    case h_2 held hl =>
      have hp : (ws ++ (j, b) :: letIn).Perm ((j, b) :: ws ++ letIn) := List.perm_middle
      have hh : l.HeldBy (letIn ++ inside) := h.held
      refine ih (show Kept _ wants holds ((j, b) :: letIn) inside from
        ⟨hh.hold hl j, h.holds_iff, fun k b => ?_, ?_, ?_⟩)
      · exact (h.wants_iff k b).trans hp.mem_iff.symm
      · simpa only [List.map_cons, (hold?_eq hl).2] using h.granted.cons j
      · rw [((hp.append_right inside).map _).nodup_iff]
        exact h.nodup

theorem Kept.release (h : l.Kept wants holds letIn inside) (hh : holds i = some a) :
    ∃ letIn', (l.release a).Kept wants (Function.update holds i none) letIn'
      (inside.erase (i, a)) ∧ (l.release a).Blocked := by
  have hm := (h.holds_iff i a).1 hh
  have hp := List.perm_cons_erase hm
  have hd : inside.Nodup := (List.nodup_append.1 (List.Nodup.of_map _ h.nodup)).2.1
  have hheld : (l.drop a).HeldBy (letIn ++ inside.erase (i, a)) := by
    refine HeldBy.drop (i := i) (h.held.perm ?_)
    exact (hp.append_left letIn).trans List.perm_middle
  rw [release_eq]
  refine Kept.promote ⟨hheld, h.holds_iff.uncons hp hd.not_mem_erase, h.wants_iff, ?_, ?_⟩
  · cases a <;> exact h.granted
  · exact h.nodup.sublist ((List.erase_sublist.append_left _).map _)

/-- One who waits goes away, with the latch if he was let in. -/
theorem Kept.leave (h : l.Kept wants holds letIn inside) (hb : l.Blocked)
    (hw : wants i = some .read) (hh : holds i = none) :
    ∃ letIn', (l.leave i).Kept (Function.update wants i none) holds letIn' inside ∧
      (l.leave i).Blocked := by
  unfold Latch.leave
  split
  case isTrue hi =>
    obtain ⟨hn, -⟩ := h.notice hb hw hi
    obtain ⟨letIn', hr, hb'⟩ := hn.release (Function.update_self ..)
    refine ⟨letIn', ?_, hb'⟩
    have hsame : Function.update holds i none = holds := Function.update_eq_self_iff.2 hh.symm
    rwa [Function.update_idem, hsame, List.erase_cons_head] at hr
  case isFalse hi =>
    refine Kept.promote ⟨h.held, h.holds_iff, fun j b => ?_, h.granted, ?_⟩
    · by_cases hj : j = i
      · subst hj
        have : (j, b) ∉ letIn := by
          intro hb
          exact hi (h.granted.mem_iff.2 (List.mem_map_of_mem (f := Prod.fst) hb))
        simp [this]
      · simp [hj, h.wants_iff j b]
    · refine h.nodup.sublist (List.Sublist.map _ ?_)
      exact (List.filter_sublist.append_right _).append_right _

/-- Who is inside to write is there alone. -/
theorem Kept.alone (h : l.Kept wants holds letIn inside) (hi : holds i = some .write) {j : Nat}
    {b : Access} (hj : holds j = some b) : j = i ∧ b = .write := by
  have hi := List.mem_append_right letIn ((h.holds_iff i _).1 hi)
  have hj := List.mem_append_right letIn ((h.holds_iff j b).1 hj)
  rcases h.held with ⟨-, hr, -⟩ | ⟨-, -, k, he⟩
  · cases hr _ hi
  · rw [he, List.mem_singleton] at hi hj
    cases hi
    cases hj
    exact ⟨rfl, rfl⟩

/-- Nobody waits for a latch that nobody holds and into which nobody has been let. -/
theorem Kept.wants_eq_none (h : l.Kept wants holds letIn inside) (hb : l.Blocked)
    (hh : ∀ i, holds i = none) (hg : ∀ i a, wants i = some a → i ∉ l.granted) (i : Nat) :
    wants i = none := by
  have hinside : inside = [] := by
    apply List.eq_nil_iff_forall_not_mem.2
    rintro ⟨j, b⟩ hj
    have := (h.holds_iff j b).2 hj
    rw [hh j] at this
    cases this
  have hletIn : letIn = [] := by
    apply List.eq_nil_iff_forall_not_mem.2
    rintro ⟨j, b⟩ hj
    refine hg j b ((h.wants_iff j b).2 (List.mem_append_right _ hj)) ?_
    exact h.granted.mem_iff.2 (List.mem_map_of_mem (f := Prod.fst) hj)
  subst hinside hletIn
  have hfree : l.writing = false ∧ l.readers = 0 := by
    rcases h.held with ⟨hw, -, hr⟩ | ⟨-, -, k, he⟩
    · exact ⟨hw, hr⟩
    · cases he
  have hwaiting : l.waiting = [] := by
    cases hl : l.waiting with
    | nil => rfl
    | cons c rest =>
      rcases hb c (by simp [hl]) with hw | ⟨-, hr⟩
      · rw [hfree.1] at hw; cases hw
      · omega
  apply Option.eq_none_iff_forall_ne_some.2
  intro a ha
  have := (h.wants_iff i a).1 ha
  simp [hwaiting] at this

end FaultDrill.Latch

namespace FaultDrill.ClientStage

/-- The way in which the call waits for the latch. -/
def wants : ClientStage → Option Access
  | awaitingRead _ => some .read
  | awaitingWrite => some .write
  | _ => none

/-- The way in which the call holds the latch and knows it. -/
def holds : ClientStage → Option Access
  | admitted _ | counted _ => some .read
  | exclusive => some .write
  | _ => none

end FaultDrill.ClientStage

namespace FaultDrill.Pool

variable {config : PoolConfig} {p p' q : Pool} {i w : Nat} {s s' : ClientStage}
  {v v' : WorkerStage} {m : Move} {ms : List Move}

/-- The latch serves the calls of the pool. -/
def LatchKept (p : Pool) : Prop :=
  ∃ letIn inside, p.latch.Kept (p.role ClientStage.wants) (p.role ClientStage.holds) letIn inside ∧
    p.latch.Blocked

theorem hear_wants (s : ClientStage) : s.hear.wants = s.wants := by cases s <;> rfl

theorem hear_holds (s : ClientStage) : s.hear.holds = s.holds := by cases s <;> rfl

theorem Step.latchKept (h : Step p m p') (hp : p.LatchKept) : p'.LatchKept := by
  obtain ⟨letIn, inside, hk, hb⟩ := hp
  cases h with
  | @call request =>
    refine ⟨letIn, inside, ?_, hb⟩
    rw [role_call (by cases request <;> rfl), role_call (by cases request <;> rfl)]
    exact hk
  | @client i s s' q _ _ hs hc =>
    have hw := ClientStep.role_eq hs hc hear_wants
    have hh := ClientStep.role_eq hs hc hear_holds
    have hws := Pool.role_eq (r := ClientStage.wants) hs
    have hhs := Pool.role_eq (r := ClientStage.holds) hs
    have sameWants (h : s'.wants = s.wants) :
        Function.update (p.role ClientStage.wants) i s'.wants = p.role ClientStage.wants :=
      Function.update_eq_self_iff.2 (h.trans hws.symm)
    have sameHolds (h : s'.holds = s.holds) :
        Function.update (p.role ClientStage.holds) i s'.holds = p.role ClientStage.holds :=
      Function.update_eq_self_iff.2 (h.trans hhs.symm)
    unfold LatchKept
    rw [hw, hh]
    cases hc with
    | takeRead hl | takeWrite hl =>
      rw [sameWants rfl]
      exact ⟨_, _, hk.take hl hws hhs⟩
    | waitRead hl | waitWrite hl =>
      rw [sameHolds rfl]
      exact ⟨_, _, hk.wait hb hl hws hhs⟩
    | noticeRead hi | noticeWrite hi => exact ⟨_, _, hk.notice hb hws hi⟩
    | refuse | enqueue | findNobody | raise | findRaised =>
      rw [sameWants rfl]
      obtain ⟨letIn', h⟩ := hk.release hhs
      exact ⟨letIn', _, h⟩
    | abandonRead =>
      rw [sameHolds rfl]
      obtain ⟨letIn', h⟩ := hk.leave hb hws hhs
      exact ⟨letIn', _, h⟩
    | _ =>
      rw [sameWants rfl, sameHolds rfl]
      exact ⟨letIn, inside, hk, hb⟩
  | worker hv hw =>
    refine ⟨letIn, inside, ?_⟩
    rw [hw.role_eq hear_wants, hw.role_eq hear_holds]
    exact hw.latch_eq ▸ ⟨hk, hb⟩
  | detach | deafen => exact ⟨letIn, inside, hk, hb⟩

theorem Run.latchKept (h : Run config ms p) : p.LatchKept := by
  induction h with
  | start h =>
    rw [(start_eq h).2]
    refine ⟨[], [], ⟨.inl ⟨rfl, by simp, rfl⟩, ?_, ?_, .refl _, by simp⟩, by simp [Latch.Blocked]⟩
    all_goals
      intro i a
      simp [role]
  | move _ hm ih => exact (step_of_move? hm).latchKept ih

/-- No task is counted once the flag is up: the flag is raised by one who is inside alone. -/
theorem Run.not_counted (h : Run config ms p) (hf : p.shutDown = true) (i : Nat) (task : Task) :
    p.clients[i]? ≠ some (.counted task) := by
  induction h generalizing i task with
  | start h => rw [(start_eq h).2] at hf; cases hf
  | @move ms p m p' hr hm ih =>
    intro hi
    have hstep := step_of_move? hm
    rcases hstep.client_cases hi with
      ⟨s, hs, hs'⟩ | ⟨s, q, hs, hc, rfl, -⟩ | ⟨request, -, -, -, hs'⟩
    · have hs : p.clients[i]? = some (.counted task) := by
        rcases hs' with rfl | hs'
        · exact hs
        · cases s <;> cases hs'
          exact hs
      by_cases hp : p.shutDown = true
      · exact ih hp i task hs
      · cases hstep with
        | @client j s s' q _ _ hj hc =>
          cases hc with
          | raise | findRaised =>
            obtain ⟨letIn, inside, hk, -⟩ := hr.latchKept
            exact absurd (hk.alone (role_eq hj) (role_eq hs)).2 (by simp)
          | _ => exact hp hf
        | worker _ hw => exact hp (hw.shutDown_eq ▸ hf)
        | _ => exact hp hf
    · cases hc with
      | count hp => rw [show p.shutDown = true from hf] at hp; cases hp
    · cases request <;> cases hs'

end FaultDrill.Pool
