import FaultDrill.Collection
import FaultDrill.Proofs.Aggregate.Partition

/-! # What a collection comes to

A collection takes the messages in the order of their arrival. Of those that come in time it
considers the ones up to the last report that it expects, and they alone decide what it comes to:
the first abort, an aggregated report if all reports are there and can be aggregated, or the end of
its time. Its time ends with the first whole millisecond in which the timeout is over, and what
arrives in that millisecond comes in time if it is there before the collection is given up.
-/

namespace FaultDrill

/-- A message with the time on the timer at which it arrives, in milliseconds. -/
structure Arrival where
  time : Nat
  message : Message

namespace Arrival

/-- The reports among the messages. -/
def reports (arrivals : List Arrival) : List DriverReport :=
  arrivals.filterMap fun a => match a.message with
    | .final report => some report
    | .aborted _ _ => none

/-- Nobody has aborted. -/
def AllFinal (arrivals : List Arrival) : Prop :=
  ∀ a ∈ arrivals, ∃ report, a.message = .final report

/-- The messages up to the one with which there are so many reports. -/
def upTo : Nat → List Arrival → List Arrival
  | 0, _ | _ + 1, [] => []
  | n + 1, a :: arrivals => a :: match a.message with
    | .final _ => upTo n arrivals
    | .aborted _ _ => upTo (n + 1) arrivals

/-- The messages that a collection considers which expects so many reports: of those that arrived
while it went on, the ones that came by its deadline, and of those that arrived after it had ended,
the ones that came before its deadline. -/
def considered (expected : Nat) (deadline : Option Nat) (heard unheard : List Arrival) :
    List Arrival :=
  upTo expected (heard.filter (fun a => deadline.all (a.time ≤ ·)) ++
    unheard.filter (fun a => deadline.all (a.time < ·)))

end Arrival

namespace Collection

/-- The time on the timer at which a collection is given up, in whole milliseconds. -/
def deadlineAt (start : Nat) (timeout : Duration) : Option Nat :=
  (Collection.start start 0 timeout).deadline

/-- These messages make a collection end like this at this time, with these events and the window
at these edges. -/
inductive Answer (policy : Policy) (expected : UInt64) (timeout : Duration)
    (deadline : Option Nat) (arrivals : List Arrival) (time : Nat)
    (bounds : Option WindowBounds) : List Event → CollectionEnd → Prop
  | aborted {before after stream reason} :
      arrivals = before ++ ⟨time, .aborted stream reason⟩ :: after → Arrival.AllFinal before →
      Answer policy expected timeout deadline arrivals time bounds []
        (.error (.driverAborted stream reason))
  | report {report} :
      Arrival.AllFinal arrivals → (Arrival.reports arrivals).length = expected.toNat →
      AggregateReport.classify (Arrival.reports arrivals) bounds policy = .ok report →
      report.streams = (Arrival.reports arrivals).map DriverReport.stream →
      Answer policy expected timeout deadline arrivals time bounds
        [.reportReady (.ofNat report.passCount) (.ofNat report.expectedFailureCount)
          (.ofNat report.unexpectedFailureCount)] (.report report)
  | crash {crash} :
      Arrival.AllFinal arrivals → (Arrival.reports arrivals).length = expected.toNat →
      AggregateReport.classify (Arrival.reports arrivals) bounds policy = .error crash →
      Answer policy expected timeout deadline arrivals time bounds [] (.crash crash)
  | late :
      Arrival.AllFinal arrivals → (Arrival.reports arrivals).length < expected.toNat →
      deadline = some time →
      Answer policy expected timeout deadline arrivals time bounds []
        (.error (.reportTimeout expected (.ofNat (Arrival.reports arrivals).length) timeout))

/-- What one step of a collection can be. -/
inductive Turn (policy : Policy) (bounds : Option WindowBounds) (timer : Nat) (mailbox : Mailbox)
    (c : Collection) : Collection → Mailbox → Option Event → Prop
  | receive {report} : c.received.length < c.expected.toNat →
      mailbox.arrived[mailbox.taken]? = some (.final report) →
      Turn policy bounds timer mailbox c { c with received := c.received ++ [report] }
        { mailbox with taken := mailbox.taken + 1 } none
  | abort {stream reason} : c.received.length < c.expected.toNat →
      mailbox.arrived[mailbox.taken]? = some (.aborted stream reason) →
      Turn policy bounds timer mailbox c
        { c with ended := some (.error (.driverAborted stream reason)) }
        { mailbox with taken := mailbox.taken + 1 } none
  | conclude {report} : c.expected.toNat ≤ c.received.length →
      AggregateReport.classify c.received bounds policy = .ok report →
      Turn policy bounds timer mailbox c { c with ended := some (.report report) } mailbox
        (some (readyEvent report))
  | crash {crash} : c.expected.toNat ≤ c.received.length →
      AggregateReport.classify c.received bounds policy = .error crash →
      Turn policy bounds timer mailbox c { c with ended := some (.crash crash) } mailbox none
  | giveUp {deadline} : c.received.length < c.expected.toNat →
      mailbox.arrived[mailbox.taken]? = none → c.deadline = some deadline → deadline ≤ timer →
      Turn policy bounds timer mailbox c
        { c with ended := some (.error
          (.reportTimeout c.expected (.ofNat c.received.length) c.timeout)) } mailbox none

end Collection

variable {policy : Policy} {bounds : Option WindowBounds} {start timer time n : Nat}
  {mailbox mailbox' : Mailbox} {c c' : Collection} {event : Option Event} {events : List Event}
  {expected : UInt64} {timeout : Duration} {deadline : Option Nat} {a : Arrival}
  {arrivals before fresh more : List Arrival} {ended : CollectionEnd}

namespace Collection

theorem turn_of_step? (h : c.step? policy bounds timer mailbox = some (c', mailbox', event)) :
    c.ended = none ∧ c.Turn policy bounds timer mailbox c' mailbox' event := by
  unfold step? at h
  split at h
  case isTrue => cases h
  case isFalse hgoes =>
    refine ⟨by simpa using hgoes, ?_⟩
    split at h
    case isTrue hall =>
      split at h
      case h_1 hc => cases h; exact .conclude hall hc
      case h_2 hc => cases h; exact .crash hall hc
    case isFalse hfew =>
      have hfew := Nat.lt_of_not_le hfew
      unfold Mailbox.take? at h
      cases hnext : mailbox.arrived[mailbox.taken]? with
      | some message =>
        rw [hnext] at h
        cases message with
        | final report => cases h; exact .receive hfew hnext
        | aborted stream reason => cases h; exact .abort hfew hnext
      | none =>
        rw [hnext] at h
        dsimp only [Option.map_none] at h
        split at h
        case isTrue hlate =>
          obtain ⟨d, hd, hle⟩ := (Option.any_eq_true ..).1 hlate
          cases h
          exact .giveUp hfew hnext hd (of_decide_eq_true hle)
        case isFalse => cases h

theorem Turn.arrived_eq (h : c.Turn policy bounds timer mailbox c' mailbox' event) :
    mailbox'.arrived = mailbox.arrived := by
  cases h <;> rfl

/-- A bound for the steps that the collection can take. -/
def left (c : Collection) : Nat :=
  if c.ended.isSome then 0 else c.expected.toNat - c.received.length + 1

theorem Turn.left_lt (h : c.Turn policy bounds timer mailbox c' mailbox' event)
    (hgoes : c.ended = none) : c'.left < c.left := by
  cases h with
  | receive hfew =>
    simp only [left, hgoes, Option.isSome_none, Bool.false_eq_true, if_false, List.length_append,
      List.length_singleton]
    omega
  | _ => simp [left, hgoes]

/-- A collection that waits has taken all messages, expects more and still has time. -/
theorem waits_of_step? (h : c.step? policy bounds timer mailbox = none) (hgoes : c.ended = none) :
    c.received.length < c.expected.toNat ∧ mailbox.arrived[mailbox.taken]? = none ∧
      ∀ d, c.deadline = some d → timer < d := by
  unfold step? at h
  rw [hgoes] at h
  dsimp only [Option.isSome_none] at h
  rw [if_neg Bool.false_ne_true] at h
  split at h
  case isTrue => split at h <;> cases h
  case isFalse hfew =>
    unfold Mailbox.take? at h
    cases hnext : mailbox.arrived[mailbox.taken]? with
    | some message =>
      rw [hnext] at h
      cases message <;> cases h
    | none =>
      rw [hnext] at h
      dsimp only [Option.map_none] at h
      split at h
      case isTrue => cases h
      case isFalse hearly =>
        refine ⟨Nat.lt_of_not_le hfew, rfl, fun d hd => ?_⟩
        rw [hd] at hearly
        simpa using hearly

end Collection

namespace Arrival

theorem upTo_zero : upTo 0 arrivals = [] := by cases arrivals <;> rfl

theorem upTo_nil : upTo n [] = [] := by cases n <;> rfl

theorem upTo_append :
    upTo n (arrivals ++ more) =
      upTo n arrivals ++ upTo (n - (reports (upTo n arrivals)).length) more := by
  induction arrivals generalizing n with
  | nil => simp [upTo_nil, reports]
  | cons a arrivals ih =>
    cases n with
    | zero => simp [upTo_zero]
    | succ n =>
      rw [List.cons_append, upTo, upTo]
      cases hm : a.message with
      | final report =>
        have hr (as : List Arrival) : (reports (a :: as)).length = (reports as).length + 1 := by
          simp [reports, hm]
        rw [hr, Nat.add_sub_add_right, List.cons_append]
        exact congrArg (a :: ·) ih
      | aborted stream reason =>
        have hr (as : List Arrival) : (reports (a :: as)).length = (reports as).length := by
          simp [reports, hm]
        rw [hr, List.cons_append]
        exact congrArg (a :: ·) ih

/-- Nothing is cut from reports as long as they are expected. -/
theorem upTo_of_allFinal (h : AllFinal arrivals) (hn : arrivals.length ≤ n) :
    upTo n (arrivals ++ more) = arrivals ++ upTo (n - arrivals.length) more := by
  induction arrivals generalizing n with
  | nil => rfl
  | cons a arrivals ih =>
    obtain ⟨⟨report, hm⟩, hrest⟩ := List.forall_mem_cons.1 h
    cases n with
    | zero => cases hn
    | succ n =>
      rw [List.cons_append, upTo, hm]
      dsimp only
      rw [ih hrest (Nat.le_of_succ_le_succ hn), List.length_cons, Nat.add_sub_add_right,
        List.cons_append]

/-- If nothing was heard too late, all that was heard is considered. -/
theorem considered_of_heard {deadline : Option Nat} {heard unheard : List Arrival}
    (h : ∀ a ∈ heard, ∀ d, deadline = some d → a.time ≤ d) :
    considered n deadline heard unheard =
      upTo n (heard ++ unheard.filter (fun a => deadline.all (a.time < ·))) := by
  have hall : heard.filter (fun a => deadline.all (a.time ≤ ·)) = heard := by
    rw [List.filter_eq_self]
    intro a ha
    cases hd : deadline with
    | none => rfl
    | some d => exact decide_eq_true (h a ha d hd)
  rw [considered, hall]

end Arrival

namespace Collection

open Arrival

/-- What arrives after a collection has ended does not change what it came to, although some of it
may still come in time. -/
theorem Answer.extend (h : Answer policy expected timeout deadline
      (upTo expected.toNat arrivals) time bounds events ended)
    (hmore : ∀ a ∈ more, time ≤ a.time) :
    Answer policy expected timeout deadline
      (upTo expected.toNat (arrivals ++ more.filter (fun a => deadline.all (a.time < ·))))
      time bounds events ended := by
  rw [upTo_append]
  cases h with
  | aborted hsplit hbefore =>
    rw [hsplit, List.append_assoc, List.cons_append]
    exact .aborted rfl hbefore
  | report hfinal hlength hclassify hstreams =>
    rw [hlength, Nat.sub_self, upTo_zero, List.append_nil]
    exact .report hfinal hlength hclassify hstreams
  | crash hfinal hlength hclassify =>
    rw [hlength, Nat.sub_self, upTo_zero, List.append_nil]
    exact .crash hfinal hlength hclassify
  | late hfinal hlength hd =>
    -- The collection ended at its deadline, and whatever came after that came too late.
    have hnone : more.filter (fun a => deadline.all (a.time < ·)) = [] := by
      rw [List.filter_eq_nil_iff]
      intro a ha
      have hle := hmore a ha
      simp [hd, hle]
    rw [hnone, upTo_nil, List.append_nil]
    exact .late hfinal hlength hd

/-- A collection that has received what arrived before and has just been sent the rest. -/
structure Waits (c : Collection) (start timer : Nat) (mailbox : Mailbox)
    (before fresh : List Arrival) : Prop where
  ended : c.ended = none
  deadline : c.deadline = deadlineAt start c.timeout
  received : before.map Arrival.message = c.received.map Message.final
  room : c.received.length ≤ c.expected.toNat
  taken : mailbox.taken = before.length
  arrived : mailbox.arrived = (before ++ fresh).map Arrival.message
  now : ∀ a ∈ fresh, a.time = timer
  past : ∀ a ∈ before ++ fresh, a.time ≤ timer
  onTime : ∀ d, c.deadline = some d → timer ≤ d

namespace Waits

variable (h : c.Waits start timer mailbox before fresh)
include h

theorem length : before.length = c.received.length := by
  simpa using congrArg List.length h.received

theorem allFinal : AllFinal before := by
  intro a ha
  have hmem := List.mem_map_of_mem (f := Arrival.message) ha
  rw [h.received] at hmem
  obtain ⟨report, -, hreport⟩ := List.mem_map.1 hmem
  exact ⟨report, hreport.symm⟩

theorem reports_eq : reports before = c.received := by
  have hmap : reports before = (before.map Arrival.message).filterMap fun
      | .final report => some report
      | .aborted _ _ => none := by
    rw [List.filterMap_map]
    rfl
  rw [hmap, h.received, List.filterMap_map]
  exact List.filterMap_some

theorem upTo_eq : upTo c.expected.toNat (before ++ fresh) =
    before ++ upTo (c.expected.toNat - c.received.length) fresh := by
  rw [upTo_of_allFinal h.allFinal (h.length ▸ h.room), h.length]

/-- Whatever has arrived has come by the deadline. -/
theorem in_time : ∀ a ∈ before ++ fresh, ∀ d, deadlineAt start c.timeout = some d → a.time ≤ d :=
  fun a ha d hd => Nat.le_trans (h.past a ha) (h.onTime d (h.deadline.trans hd))

/-- The next message to be taken is the first of those that have just been sent. -/
theorem next : mailbox.arrived[mailbox.taken]? = fresh.head?.map Arrival.message := by
  rw [h.arrived, h.taken, List.map_append, List.getElem?_append_right (by simp), List.length_map,
    Nat.sub_self, ← List.head?_eq_getElem?, List.head?_map]

/-- A collection that has nothing to do has received all messages and waits for more. -/
theorem idle (hstep : c.step? policy bounds timer mailbox = none) :
    fresh = [] ∧ c.received.length < c.expected.toNat ∧ ∀ d, c.deadline = some d → timer < d := by
  obtain ⟨hfew, hnext, hearly⟩ := waits_of_step? hstep h.ended
  rw [h.next, Option.map_eq_none_iff, List.head?_eq_none_iff] at hnext
  exact ⟨hnext, hfew, hearly⟩

theorem upTo_eq_before (hdone : c.expected.toNat ≤ c.received.length ∨ fresh = []) :
    upTo c.expected.toNat (before ++ fresh) = before := by
  rw [h.upTo_eq]
  rcases hdone with hall | rfl
  · rw [Nat.sub_eq_zero_of_le hall, upTo_zero, List.append_nil]
  · rw [upTo_nil, List.append_nil]

theorem receive {report : DriverReport} {rest : List Arrival}
    (hfew : c.received.length < c.expected.toNat) (hfresh : fresh = a :: rest)
    (ha : a.message = .final report) :
    Waits { c with received := c.received ++ [report] } start timer
      { mailbox with taken := mailbox.taken + 1 } (before ++ [a]) rest := by
  subst hfresh
  have hsame : before ++ [a] ++ rest = before ++ a :: rest := List.append_cons .. |>.symm
  refine ⟨h.ended, h.deadline, ?_, ?_, ?_, ?_, ?_, ?_, h.onTime⟩
  · rw [List.map_append, List.map_append, h.received]
    exact congrArg (_ ++ [·]) ha
  · rw [List.length_append]
    exact hfew
  · simpa using h.taken
  · rw [hsame]
    exact h.arrived
  · exact fun b hb => h.now b (List.mem_cons_of_mem a hb)
  · rw [hsame]
    exact h.past

/-- One more turn of a collection that waits. -/
theorem turn (hturn : c.Turn policy bounds timer mailbox c' mailbox' event) :
    (c'.expected = c.expected ∧ c'.timeout = c.timeout) ∧
      ((event = none ∧ ∃ before' fresh', before' ++ fresh' = before ++ fresh ∧
          c'.Waits start timer mailbox' before' fresh') ∨
        ∃ ended, c'.ended = some ended ∧
          Answer policy c.expected c.timeout (deadlineAt start c.timeout)
            (upTo c.expected.toNat (before ++ fresh)) timer bounds event.toList ended) := by
  have hfirst {message : Message} (hnext : mailbox.arrived[mailbox.taken]? = some message) :
      ∃ a rest, fresh = a :: rest ∧ a.time = timer ∧ a.message = message := by
    rw [h.next] at hnext
    obtain ⟨a, ha, hmessage⟩ := Option.map_eq_some_iff.1 hnext
    obtain ⟨rest, hrest⟩ := List.head?_eq_some_iff.1 ha
    exact ⟨a, rest, hrest, h.now a (hrest ▸ List.mem_cons_self), hmessage⟩
  have hlength : (reports before).length = c.received.length := congrArg _ h.reports_eq
  cases hturn with
  | receive hfew hnext =>
    obtain ⟨a, rest, hfresh, -, ha⟩ := hfirst hnext
    refine ⟨⟨rfl, rfl⟩, .inl ⟨rfl, before ++ [a], rest, ?_, h.receive hfew hfresh ha⟩⟩
    rw [hfresh, List.append_assoc, List.singleton_append]
  | @abort stream reason hfew hnext =>
    obtain ⟨a, rest, hfresh, htime, ha⟩ := hfirst hnext
    refine ⟨⟨rfl, rfl⟩, .inr ⟨_, rfl, ?_⟩⟩
    obtain ⟨m, hm⟩ : ∃ m, c.expected.toNat - c.received.length = m + 1 :=
      Nat.exists_eq_succ_of_ne_zero (Nat.sub_ne_zero_of_lt hfew)
    rw [h.upTo_eq, hm, hfresh, upTo, ha]
    obtain rfl : a = ⟨timer, .aborted stream reason⟩ := by
      rw [← htime, ← ha]
    exact .aborted rfl h.allFinal
  | conclude hall hc =>
    refine ⟨⟨rfl, rfl⟩, .inr ⟨_, rfl, ?_⟩⟩
    rw [h.upTo_eq_before (.inl hall)]
    have hstreams := congrArg AggregateReport.streams (AggregateReport.classify_eq_ok_iff.1 hc).2.2
    rw [← h.reports_eq] at hc hstreams
    exact .report h.allFinal (hlength.trans (Nat.le_antisymm h.room hall)) hc hstreams
  | crash hall hc =>
    refine ⟨⟨rfl, rfl⟩, .inr ⟨_, rfl, ?_⟩⟩
    rw [h.upTo_eq_before (.inl hall)]
    rw [← h.reports_eq] at hc
    exact .crash h.allFinal (hlength.trans (Nat.le_antisymm h.room hall)) hc
  | giveUp hfew hnext hd hle =>
    refine ⟨⟨rfl, rfl⟩, .inr ⟨_, rfl, ?_⟩⟩
    rw [h.next, Option.map_eq_none_iff, List.head?_eq_none_iff] at hnext
    rw [h.upTo_eq_before (.inr hnext), ← hlength]
    obtain rfl := Nat.le_antisymm (h.onTime _ hd) hle
    exact .late h.allFinal (hlength ▸ hfew) (h.deadline ▸ hd)

/-- Messages are sent to a collection that waits. -/
theorem send {sent : List Message} (htaken : mailbox'.taken = mailbox.taken)
    (harrived : mailbox'.arrived = mailbox.arrived ++ sent) :
    c.Waits start timer mailbox' before (fresh ++ sent.map (Arrival.mk timer)) := by
  have hnow : ∀ a ∈ sent.map (Arrival.mk timer), a.time = timer := by
    intro a ha
    obtain ⟨message, -, rfl⟩ := List.mem_map.1 ha
    rfl
  refine ⟨h.ended, h.deadline, h.received, h.room, htaken.trans h.taken, ?_, ?_, ?_, h.onTime⟩
  · rw [harrived, h.arrived]
    simp [Function.comp_def]
  · exact List.forall_mem_append.2 ⟨h.now, hnow⟩
  · rw [← List.append_assoc, List.forall_mem_append]
    exact ⟨h.past, fun a ha => Nat.le_of_eq (hnow a ha)⟩

/-- Time passes for a collection that has nothing to do. -/
theorem pass {later : Nat} (hstep : c.step? policy bounds timer mailbox = none)
    (hlater : timer ≤ later) (hwake : ∀ d, c.wake? = some d → later ≤ d) :
    c.Waits start later mailbox before fresh := by
  obtain ⟨rfl, -, -⟩ := h.idle hstep
  refine ⟨h.ended, h.deadline, h.received, h.room, h.taken, h.arrived, nofun, ?_, ?_⟩
  · exact fun a ha => Nat.le_trans (h.past a ha) hlater
  · intro d hd
    refine hwake d ?_
    rw [wake?, h.ended]
    exact hd

end Waits

/-- A collection has been called when these messages had arrived before. -/
theorem waits_start (hroom : expected.toNat < reserveLimit) (htaken : mailbox.taken = 0) :
    (Collection.start start expected timeout).Waits start start mailbox []
      (mailbox.arrived.map (Arrival.mk start)) := by
  refine ⟨if_pos hroom, rfl, rfl, Nat.zero_le _, htaken, ?_, ?_, ?_, fun d hd => ?_⟩
  · simp [Function.comp_def]
  · intro a ha
    obtain ⟨message, -, rfl⟩ := List.mem_map.1 ha
    rfl
  · intro a ha
    obtain ⟨message, -, rfl⟩ := List.mem_map.1 ha
    exact Nat.le_refl _
  · change (if _ then _ else _) = some d at hd
    split at hd <;> cases hd
    exact Nat.le_add_right _ _

end Collection

end FaultDrill
