import Mathlib.Data.List.Induction
import FaultDrill.Proofs.Timeline

/-! # The life of a window

A window opens once and closes once, whatever is asked of it and in whatever order. Its phase and
its two edges tell the same story, which is the story of the signals that it accepted: at most one
that opened it and then at most one that closed it.
-/

namespace FaultDrill.Window

/-- What is asked of a window. All who hold it ask the same one. -/
inductive Request
  | signalOpen
  | signalClose
  | phase
  | isOpen
  | openedAt
  | closedAt
  | bounds
  deriving DecidableEq, Repr

/-- A request at a time. -/
structure Call where
  request : Request
  now : Duration
  deriving DecidableEq, Repr

inductive Answer
  | accepted
  | refused (error : DrillError)
  | phase (phase : WindowPhase)
  | isOpen (isOpen : Bool)
  | edge (edge : Option Duration)
  | bounds (bounds : Option WindowBounds)
  deriving DecidableEq, Repr

/-- A signal that is refused leaves the window as it is. -/
def answer (w : Window) : Except DrillError Window → Answer × Window
  | .ok w' => (.accepted, w')
  | .error e => (.refused e, w)

def handle (w : Window) (c : Call) : Answer × Window :=
  match c.request with
  | .signalOpen => w.answer (w.signalOpen c.now)
  | .signalClose => w.answer (w.signalClose c.now)
  | .phase => (.phase w.phase, w)
  | .isOpen => (.isOpen w.isOpen, w)
  | .openedAt => (.edge w.openedAt, w)
  | .closedAt => (.edge w.closedAt, w)
  | .bounds => (.bounds w.bounds, w)

/-- The window after these calls, one after the other. -/
def after (w : Window) (calls : List Call) : Window :=
  calls.foldl (fun w c => (w.handle c).2) w

/-- The signals among the calls that the window accepted. -/
def accepted (w : Window) : List Call → List Call
  | [] => []
  | c :: later =>
    (if (w.handle c).1 = .accepted then [c] else []) ++ (w.handle c).2.accepted later

/-- The clock never goes back between the calls. -/
def InTime (calls : List Call) : Prop := calls.Pairwise (·.now ≤ ·.now)

variable {w : Window} {c : Call} {calls later : List Call} {now opened closed : Duration}

/-! ## One call -/

/-- A call opens the window, closes it or leaves it as it is. -/
inductive Handled (w : Window) (c : Call) : Answer → Window → Prop
  | opens : c.request = .signalOpen → w.phase = .preFault →
      Handled w c .accepted { w with phase := .open, openedAt := some c.now }
  | closes : c.request = .signalClose → w.phase = .open →
      Handled w c .accepted { w with phase := .postFault, closedAt := some c.now }
  | keeps {a : Answer} : a ≠ .accepted → Handled w c a w

theorem handled (w : Window) (c : Call) : w.Handled c (w.handle c).1 (w.handle c).2 := by
  unfold handle
  split
  case h_1 hc =>
    unfold signalOpen
    split
    case h_1 hp => exact .opens hc hp
    case h_2 => exact .keeps nofun
  case h_2 hc =>
    unfold signalClose
    split
    case h_1 hp => exact .closes hc hp
    case h_2 | h_3 => exact .keeps nofun
  all_goals exact .keeps nofun

theorem Handled.phase_le {a : Answer} {w' : Window} (h : w.Handled c a w') : w.phase ≤ w'.phase := by
  cases h with
  | opens _ hp | closes _ hp =>
    rw [hp]
    exact of_decide_eq_true rfl
  | keeps => exact Nat.le_refl _

theorem Handled.dated {a : Answer} {w' : Window} (h : w.Handled c a w')
    (hw : Timeline.Dated w c.now) : Timeline.Dated w' c.now := by
  cases h with
  | opens _ hp => exact hw.open (by rw [signalOpen, hp])
  | closes _ hp => exact hw.close (by rw [signalClose, hp])
  | keeps => exact hw

/-- An edge that is set is not set again. -/
theorem Handled.edges {a : Answer} {w' : Window} (h : w.Handled c a w')
    (hw : Timeline.Dated w now) :
    (∀ t, w.openedAt = some t → w'.openedAt = some t) ∧
      ∀ t, w.closedAt = some t → w'.closedAt = some t := by
  unfold Timeline.Dated at hw
  cases h with
  | opens _ hp =>
    rw [hp] at hw
    constructor
    · intro t ht
      cases hw.1.symm.trans ht
    · exact fun t => id
  | closes _ hp =>
    rw [hp] at hw
    constructor
    · exact fun t => id
    · intro t ht
      cases hw.1.symm.trans ht
  | keeps => exact ⟨fun t => id, fun t => id⟩

theorem handle_signalOpen (w : Window) (now : Duration) :
    (w.handle ⟨.signalOpen, now⟩).1 =
      if w.phase = .preFault then .accepted else .refused (.windowAlreadyOpened w.phase) := by
  unfold handle signalOpen
  dsimp only
  split
  case h_1 hp => rw [if_pos hp]; rfl
  case h_2 hp => rw [if_neg hp]; rfl

theorem handle_signalClose (w : Window) (now : Duration) :
    (w.handle ⟨.signalClose, now⟩).1 =
      match w.phase with
      | .preFault => .refused .windowNotOpen
      | .open => .accepted
      | .postFault => .refused .windowAlreadyClosed := by
  unfold handle signalClose
  dsimp only
  cases w.phase <;> rfl

theorem handle_eq_self (h : (w.handle c).1 ≠ .accepted) : (w.handle c).2 = w := by
  have hhandled := handled w c
  generalize (w.handle c).1 = a at h hhandled
  generalize (w.handle c).2 = w' at hhandled
  cases hhandled with
  | opens | closes => exact (h rfl).elim
  | keeps => rfl

theorem bounds_eq_some_iff {b : WindowBounds} :
    w.bounds = some b ↔ w.openedAt = some b.openedAt ∧ w.closedAt = b.closedAt := by
  unfold bounds
  cases w.openedAt with
  | none => simp
  | some opened => cases b; simp

/-! ## One call after another -/

theorem after_snoc : w.after (calls ++ [c]) = ((w.after calls).handle c).2 := by
  simp [after]

theorem after_append : w.after (calls ++ later) = (w.after calls).after later := by
  simp [after]

theorem accepted_snoc : w.accepted (calls ++ [c]) =
    w.accepted calls ++ if ((w.after calls).handle c).1 = .accepted then [c] else [] := by
  induction calls generalizing w with
  | nil => exact List.append_nil _
  | cons first rest ih => rw [List.cons_append, accepted, ih, accepted, List.append_assoc]; rfl

theorem inTime_snoc :
    InTime (calls ++ [c]) ↔ InTime calls ∧ ∀ earlier ∈ calls, earlier.now ≤ c.now := by
  simp [InTime, List.pairwise_append]

theorem dated_after (h : InTime calls) (hnow : ∀ c ∈ calls, c.now ≤ now) :
    Timeline.Dated (after {} calls) now := by
  induction calls using List.reverseRecOn generalizing now with
  | nil => exact ⟨rfl, rfl⟩
  | append_singleton calls c ih =>
    obtain ⟨hcalls, hc⟩ := inTime_snoc.1 h
    rw [after_snoc]
    exact ((handled _ c).dated (ih hcalls hc)).pass (hnow c (by simp))

theorem exists_dated (h : InTime calls) : ∃ now, Timeline.Dated (after {} calls) now := by
  rcases List.eq_nil_or_concat calls with rfl | ⟨earlier, c, rfl⟩
  · exact ⟨.zero, rfl, rfl⟩
  · rw [List.concat_eq_append] at h ⊢
    refine ⟨c.now, dated_after h fun c' hc' => ?_⟩
    rcases List.mem_append.1 hc' with hc' | hc'
    · exact (inTime_snoc.1 h).2 c' hc'
    · rw [List.mem_singleton.1 hc']
      exact Nat.le_refl _

/-- The edges are the times of the signals that the window accepted. -/
theorem accepted_eq (h : InTime calls) : accepted {} calls =
    (after {} calls).openedAt.toList.map (⟨.signalOpen, ·⟩) ++
      (after {} calls).closedAt.toList.map (⟨.signalClose, ·⟩) := by
  induction calls using List.reverseRecOn with
  | nil => rfl
  | append_singleton calls c ih =>
    obtain ⟨hcalls, -⟩ := inTime_snoc.1 h
    obtain ⟨now, hdated⟩ := exists_dated hcalls
    rw [accepted_snoc, after_snoc, ih hcalls]
    have hhandled := handled (after {} calls) c
    generalize ((after {} calls).handle c).1 = a at hhandled
    generalize ((after {} calls).handle c).2 = w' at hhandled
    obtain ⟨request, t⟩ := c
    unfold Timeline.Dated at hdated
    cases hhandled with
    | opens hc hp =>
      rw [hp] at hdated
      obtain rfl : request = .signalOpen := hc
      simp [hdated.1, hdated.2]
    | closes hc hp =>
      rw [hp] at hdated
      obtain rfl : request = .signalClose := hc
      simp [hdated.1]
    | keeps hne => rw [if_neg hne, List.append_nil]

theorem phase_le_after : w.phase ≤ (w.after later).phase := by
  induction later generalizing w with
  | nil => exact Nat.le_refl _
  | cons c later ih => exact Nat.le_trans (handled w c).phase_le ih

theorem edges_after (h : InTime (calls ++ later)) :
    (∀ t, (after {} calls).openedAt = some t →
      ((after {} calls).after later).openedAt = some t) ∧
    ∀ t, (after {} calls).closedAt = some t →
      ((after {} calls).after later).closedAt = some t := by
  induction later using List.reverseRecOn with
  | nil => exact ⟨fun t => id, fun t => id⟩
  | append_singleton later c ih =>
    rw [← List.append_assoc] at h
    obtain ⟨hcalls, -⟩ := inTime_snoc.1 h
    obtain ⟨now, hdated⟩ := exists_dated hcalls
    obtain ⟨hopened, hclosed⟩ := ih hcalls
    rw [after_append] at hdated
    obtain ⟨hopened', hclosed'⟩ := (handled _ c).edges hdated
    rw [after_snoc]
    exact ⟨fun t ht => hopened' t (hopened t ht), fun t ht => hclosed' t (hclosed t ht)⟩

/-! ## The law -/

/-- One of the calls opened the window. -/
def HasOpened (calls : List Call) : Prop := ∃ t, ⟨.signalOpen, t⟩ ∈ accepted {} calls

/-- One of the calls closed the window. -/
def HasClosed (calls : List Call) : Prop := ∃ t, ⟨.signalClose, t⟩ ∈ accepted {} calls

/-- What holds of the window that these calls have led to, and of the calls that come later. -/
structure Lawful (calls : List Call) (w : Window) : Prop where
  preFault_iff : w.phase = .preFault ↔ w.openedAt = none ∧ w.closedAt = none
  open_iff : w.phase = .open ↔ w.openedAt.isSome = true ∧ w.closedAt = none
  postFault_iff : w.phase = .postFault ↔ w.openedAt.isSome = true ∧ w.closedAt.isSome = true
  ordered : w.Ordered
  /-- The edges are the times of the signals that were accepted, one of each kind at most. -/
  accepted : accepted {} calls = w.openedAt.toList.map (⟨.signalOpen, ·⟩) ++
    w.closedAt.toList.map (⟨.signalClose, ·⟩)
  phase_le : ∀ later, w.phase ≤ (w.after later).phase
  openedAt_stays : ∀ later t, InTime (calls ++ later) → w.openedAt = some t →
    (w.after later).openedAt = some t
  closedAt_stays : ∀ later t, InTime (calls ++ later) → w.closedAt = some t →
    (w.after later).closedAt = some t
  bounds_none : w.bounds = none ↔ ¬ HasOpened calls
  bounds_some : ∀ b, w.bounds = some b ↔ w.openedAt = some b.openedAt ∧ w.closedAt = b.closedAt
  opens : ∀ now, (w.handle ⟨.signalOpen, now⟩).1 = .accepted ↔ ¬ HasOpened calls
  already_opened : ∀ now, HasOpened calls →
    (w.handle ⟨.signalOpen, now⟩).1 = .refused (.windowAlreadyOpened w.phase)
  closes : ∀ now, (w.handle ⟨.signalClose, now⟩).1 = .accepted ↔ w.isOpen = true
  not_open : ∀ now,
    (w.handle ⟨.signalClose, now⟩).1 = .refused .windowNotOpen ↔ ¬ HasOpened calls
  already_closed : ∀ now,
    (w.handle ⟨.signalClose, now⟩).1 = .refused .windowAlreadyClosed ↔ HasClosed calls
  /-- Neither a signal that is refused nor a look at the window changes anything. -/
  keeps : ∀ c, (w.handle c).1 ≠ .accepted → (w.handle c).2 = w

/-- What was accepted, told by the phase. -/
theorem hasOpened_iff (h : InTime calls) :
    HasOpened calls ↔ (after {} calls).phase ≠ .preFault := by
  obtain ⟨now, hdated⟩ := exists_dated h
  rw [HasOpened, accepted_eq h]
  unfold Timeline.Dated at hdated
  split at hdated
  case h_1 hp => simp [hp, hdated]
  case h_2 hp =>
    obtain ⟨-, opened, ho, -⟩ := hdated
    simp [hp, ho]
  case h_3 hp =>
    obtain ⟨opened, closed, ho, -⟩ := hdated
    simp [hp, ho]

theorem hasClosed_iff (h : InTime calls) :
    HasClosed calls ↔ (after {} calls).phase = .postFault := by
  obtain ⟨now, hdated⟩ := exists_dated h
  rw [HasClosed, accepted_eq h]
  unfold Timeline.Dated at hdated
  split at hdated
  case h_1 hp => simp [hp, hdated]
  case h_2 hp => simp [hp, hdated.1]
  case h_3 hp =>
    obtain ⟨opened, closed, -, hc, -⟩ := hdated
    simp [hp, hc]

/-- A window keeps the law, whatever is asked of it, as long as the clock does not go back. -/
theorem lawful (h : InTime calls) : Lawful calls (after {} calls) := by
  obtain ⟨now, hdated⟩ := exists_dated h
  have hopened := hasOpened_iff h
  have hclosed := hasClosed_iff h
  have haccepted := accepted_eq h
  have hlate (later : List Call) := @edges_after calls later
  generalize after {} calls = w at *
  have hordered := hdated.ordered
  unfold Timeline.Dated at hdated
  constructor
  case ordered => exact hordered
  case accepted => exact haccepted
  case phase_le => exact fun later => phase_le_after
  case openedAt_stays => exact fun later t hlater => (hlate later hlater).1 t
  case closedAt_stays => exact fun later t hlater => (hlate later hlater).2 t
  case keeps => exact fun c => handle_eq_self
  case opens => intro now; rw [handle_signalOpen, hopened]; split <;> simp_all
  case already_opened => intro now ho; rw [handle_signalOpen, if_neg (hopened.1 ho)]
  case closes => intro now; rw [handle_signalClose, isOpen]; split <;> simp_all
  case not_open => intro now; rw [handle_signalClose, hopened]; split <;> simp_all
  case already_closed => intro now; rw [handle_signalClose, hclosed]; split <;> simp_all
  case bounds_some => exact fun b => bounds_eq_some_iff
  -- what is left compares the phase with the edges, phase by phase
  case bounds_none | preFault_iff | open_iff | postFault_iff =>
    split at hdated
    case h_1 hp => simp [bounds, hopened, hp, hdated]
    case h_2 hp =>
      obtain ⟨hc, opened, ho, -⟩ := hdated
      simp [bounds, hopened, hp, ho, hc]
    case h_3 hp =>
      obtain ⟨opened, closed, ho, hc, -⟩ := hdated
      simp [bounds, hopened, hp, ho, hc]

/-- A close that comes too early, an opening, a look, another opening and two closes. -/
def trialCalls : List Call :=
  [⟨.signalClose, .zero⟩, ⟨.signalOpen, .ofMillis 3⟩, ⟨.bounds, .ofMillis 3⟩,
    ⟨.signalOpen, .ofMillis 5⟩, ⟨.signalClose, .ofMillis 8⟩, ⟨.signalClose, .ofMillis 9⟩]

theorem lawful_trial : InTime trialCalls ∧
    after {} trialCalls = ⟨.postFault, some (.ofMillis 3), some (.ofMillis 8)⟩ ∧
    accepted {} trialCalls = [⟨.signalOpen, .ofMillis 3⟩, ⟨.signalClose, .ofMillis 8⟩] ∧
    ((after {} trialCalls).handle ⟨.signalOpen, .ofMillis 9⟩).1 =
      .refused (.windowAlreadyOpened .postFault) := by
  have htime : InTime trialCalls := by
    unfold InTime trialCalls
    decide
  have hlaw := lawful htime
  exact ⟨htime, rfl, hlaw.accepted,
    hlaw.already_opened _ ⟨.ofMillis 3, by rw [hlaw.accepted]; exact List.mem_cons_self ..⟩⟩

end FaultDrill.Window
