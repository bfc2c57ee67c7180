import FaultDrill.Proofs.Collection
import FaultDrill.World

/-! # Waiting for the reports

Somebody collects the reports of a drill in which everything else goes on. As long as the
collection is not kept from its steps while time passes, what it comes to is decided by the messages
that arrive and their times, and by nothing else that happens.
-/

namespace FaultDrill.World

/-- Time passes only while the collection has nothing to do, and not past its deadline; nobody
starts another collection. -/
def Prompt (w : World) : Move → Prop
  | .pass timer _ => timer = 0 ∨ w.step? .collection = none ∧
      ∀ c d, w.collection = some c → c.wake? = some d → w.clock.timer + timer ≤ d
  | .control (.collect _ _) => False
  | _ => True

/-- What is seen of a collection that was called. -/
structure Seen where
  /-- The messages that arrived before the call, and since then while the collection went on. -/
  heard : List Arrival := []
  /-- The messages that arrived after it had ended. -/
  unheard : List Arrival := []
  /-- The events that the collection logged. -/
  events : List Event := []
  /-- When it ended, and the edges of the window then. -/
  ended : Option (Nat × Option WindowBounds) := none

/-- The events that a collection logs in a move. -/
def Move.logged (w w' : World) : Move → List Event
  | .step .collection => w'.log.drop w.log.length
  | _ => []

/-- The messages that arrive in a move. -/
def sentBy (w w' : World) : List Arrival :=
  (w'.mailbox.arrived.drop w.mailbox.arrived.length).map (Arrival.mk w.clock.timer)

/-- What is seen of it after one more move. -/
def Seen.after (seen : Seen) (w : World) (m : Move) (w' : World) : Seen where
  heard := if seen.ended.isSome then seen.heard else seen.heard ++ w.sentBy w'
  unheard := if seen.ended.isSome then seen.unheard ++ w.sentBy w' else seen.unheard
  events := seen.events ++ m.logged w w'
  ended := seen.ended.or
    (if w'.collection.any (·.ended.isSome) then some (w.clock.timer, w.window.bounds) else none)

/-- What a drill comes to after this collection was called, with what is seen of it. -/
inductive Awaits (w₀ : World) (expected : UInt64) (timeout : Duration) : Seen → World → Prop
  | call : Awaits w₀ expected timeout
      { heard := w₀.mailbox.arrived.map (Arrival.mk w₀.clock.timer) }
      (w₀.control (.collect expected timeout))
  | move {seen w w'} (m : Move) : Awaits w₀ expected timeout seen w → w.Prompt m →
      w.move? m = some w' → Awaits w₀ expected timeout (seen.after w m w') w'

variable {w w' w₀ : World} {expected : UInt64} {timeout : Duration} {seen : Seen} {m : Move}

/-! ## What is seen of one more move -/

theorem logged_eq_nil (hm : m ≠ .step .collection) : m.logged w w' = [] := by
  cases m with
  | step process =>
    cases process with
    | collection => exact absurd rfl hm
    | _ => rfl
  | _ => rfl

theorem Seen.events_after (hm : m ≠ .step .collection) :
    (seen.after w m w').events = seen.events := by
  rw [after, logged_eq_nil hm, List.append_nil]

theorem sentBy_eq {sent : List Message} (h : w'.mailbox.arrived = w.mailbox.arrived ++ sent) :
    w.sentBy w' = sent.map (Arrival.mk w.clock.timer) := by
  rw [sentBy, h, List.drop_left]

theorem sentBy_eq_nil (h : w'.mailbox.arrived = w.mailbox.arrived) : w.sentBy w' = [] :=
  sentBy_eq (h.trans (List.append_nil _).symm)

theorem Seen.after_of_goes (w : World) (m : Move) (w' : World) (h : seen.ended = none) :
    (seen.after w m w').heard = seen.heard ++ w.sentBy w' ∧
      (seen.after w m w').unheard = seen.unheard := by
  simp [after, h]

theorem Seen.after_of_ended (w : World) (m : Move) (w' : World) (h : seen.ended.isSome = true) :
    (seen.after w m w').heard = seen.heard ∧
      (seen.after w m w').unheard = seen.unheard ++ w.sentBy w' ∧
      (seen.after w m w').ended = seen.ended := by
  obtain ⟨ended, hended⟩ := Option.isSome_iff_exists.1 h
  simp [after, hended]

/-! ## The other moves -/

/-- The collection is as it was, and messages may have arrived at its mailbox. -/
structure Spares (w w' : World) : Prop where
  collection : w'.collection = w.collection
  policy : w'.policy = w.policy
  taken : w'.mailbox.taken = w.mailbox.taken
  arrived : ∃ sent, w'.mailbox.arrived = w.mailbox.arrived ++ sent
  timer : w'.clock.timer = w.clock.timer

theorem Spares.of_same (hc : w'.collection = w.collection) (hp : w'.policy = w.policy)
    (hm : w'.mailbox.taken = w.mailbox.taken ∧ w'.mailbox.arrived = w.mailbox.arrived)
    (ht : w'.clock = w.clock) : w.Spares w' :=
  ⟨hc, hp, hm.1, ⟨[], by rw [hm.2, List.append_nil]⟩, congrArg _ ht⟩

theorem send_cases (mailbox : Mailbox) (message : Message) :
    (mailbox.send message).taken = mailbox.taken ∧
      ∃ sent, (mailbox.send message).arrived = mailbox.arrived ++ sent := by
  unfold Mailbox.send
  split
  · exact ⟨rfl, _, rfl⟩
  · exact ⟨rfl, [], (List.append_nil _).symm⟩

theorem spares_signal (change : Window → Except DrillError Window) :
    w.Spares (w.signal change) := by
  unfold signal
  split <;> exact .of_same rfl rfl ⟨rfl, rfl⟩ rfl

/-- Whatever else takes a step or comes from outside leaves the collection alone. -/
theorem spares_of_move? (h : w.move? m = some w') (hprompt : w.Prompt m)
    (hm : m ≠ .step .collection) : w.Spares w' ∨ ∃ timer wall, m = .pass timer wall ∧
      w.step? .collection = none ∧
        ∀ c d, w.collection = some c → c.wake? = some d → w.clock.timer + timer ≤ d := by
  cases m with
  | pass timer wall =>
    cases h
    rcases hprompt with rfl | ⟨hstep, hwake⟩
    · exact .inl ⟨rfl, rfl, rfl, ⟨[], (List.append_nil _).symm⟩, rfl⟩
    · exact .inr ⟨timer, wall, rfl, hstep, hwake⟩
  | step process =>
    cases process with
    | collection => exact absurd rfl hm
    | driver i =>
      simp only [move?, step?, stepDriver?, Option.bind_eq_bind, Option.bind_eq_some_iff] at h
      obtain ⟨d, -, ⟨next, emission⟩, -, h⟩ := h
      cases h
      cases emission.message with
      | none => exact .inl (.of_same rfl rfl ⟨rfl, rfl⟩ rfl)
      | some message =>
        obtain ⟨htaken, harrived⟩ := send_cases w.mailbox message
        exact .inl ⟨rfl, rfl, htaken, harrived, rfl⟩
    | client i j =>
      simp only [move?, step?, stepClient?, Option.bind_eq_bind, Option.bind_eq_some_iff] at h
      obtain ⟨d, -, p, -, p', -, h⟩ := h
      cases h
      exact .inl (.of_same rfl rfl ⟨rfl, rfl⟩ rfl)
    | worker i j =>
      simp only [move?, step?, stepWorker?, Option.bind_eq_bind, Option.bind_eq_some_iff] at h
      obtain ⟨d, -, p, -, ⟨p', store⟩, -, h⟩ := h
      cases h
      exact .inl (.of_same rfl rfl ⟨rfl, rfl⟩ rfl)
    | fault i =>
      simp only [move?, step?, stepFault?, Option.bind_eq_bind, Option.bind_eq_some_iff] at h
      obtain ⟨f, -, ⟨f', scene, event⟩, -, h⟩ := h
      cases h
      exact .inl (.of_same rfl rfl ⟨rfl, rfl⟩ rfl)
  | control c =>
    cases h
    cases c with
    | collect => exact hprompt.elim
    | send message =>
      obtain ⟨htaken, harrived⟩ := send_cases w.mailbox message
      exact .inl ⟨rfl, rfl, htaken, harrived, rfl⟩
    | openWindow | closeWindow => exact .inl (spares_signal _)
    | _ => exact .inl (.of_same rfl rfl ⟨rfl, rfl⟩ rfl)

/-! ## What holds while it waits and after it has ended -/

/-- The collection waits, and all that arrived is before it. -/
structure Goes (w₀ : World) (seen : Seen) (w : World) (c : Collection) : Prop where
  ended : seen.ended = none
  unheard : seen.unheard = []
  events : seen.events = []
  waits : ∃ before fresh, before ++ fresh = seen.heard ∧
    c.Waits w₀.clock.timer w.clock.timer w.mailbox before fresh

open Collection in
/-- The collection has ended at this time as the messages say that it had heard. -/
structure HasEnded (w₀ : World) (seen : Seen) (w : World) (c : Collection) (time : Nat)
    (bounds : Option WindowBounds) (outcome : CollectionEnd) : Prop where
  ended : seen.ended = some (time, bounds)
  collection : c.ended = some outcome
  past : time ≤ w.clock.timer
  heard : ∀ a ∈ seen.heard, ∀ d, deadlineAt w₀.clock.timer c.timeout = some d → a.time ≤ d
  unheard : ∀ a ∈ seen.unheard, time ≤ a.time
  answer : Answer w₀.policy c.expected c.timeout (deadlineAt w₀.clock.timer c.timeout)
    (Arrival.upTo c.expected.toNat seen.heard) time bounds seen.events outcome

/-- The collection waits, or it has ended as the messages say. -/
def Follows (w₀ : World) (expected : UInt64) (timeout : Duration) (seen : Seen) (w : World) :
    Prop :=
  ∃ c, w.collection = some c ∧ c.expected = expected ∧ c.timeout = timeout ∧
    w.policy = w₀.policy ∧
    (w₀.Goes seen w c ∨ ∃ time bounds ended, w₀.HasEnded seen w c time bounds ended)

/-- Once it has ended, what else happens does not matter. -/
theorem HasEnded.move {c : Collection} {time : Nat} {bounds : Option WindowBounds}
    {ended : CollectionEnd} (h : w₀.HasEnded seen w c time bounds ended)
    (hm : m ≠ .step .collection) (hlater : w.clock.timer ≤ w'.clock.timer) :
    w₀.HasEnded (seen.after w m w') w' c time bounds ended := by
  obtain ⟨hheard, hunheard, hended⟩ := Seen.after_of_ended w m w' (by rw [h.ended]; rfl)
  constructor
  case ended => exact hended.trans h.ended
  case collection => exact h.collection
  case past => exact Nat.le_trans h.past hlater
  case heard =>
    rw [hheard]
    exact h.heard
  case unheard =>
    rw [hunheard]
    intro a ha
    rcases List.mem_append.1 ha with ha | ha
    · exact h.unheard a ha
    · obtain ⟨message, -, rfl⟩ := List.mem_map.1 ha
      exact h.past
  case answer =>
    rw [hheard, Seen.events_after hm]
    exact h.answer

/-- A collection that waits still waits after a move in which it logs nothing. -/
theorem Goes.after {c c' : Collection} {before fresh : List Arrival} (h : w₀.Goes seen w c)
    (hc : w'.collection = some c') (hlogged : m.logged w w' = [])
    (hseen : before ++ fresh = seen.heard ++ w.sentBy w')
    (hwaits : c'.Waits w₀.clock.timer w'.clock.timer w'.mailbox before fresh) :
    w₀.Goes (seen.after w m w') w' c' := by
  obtain ⟨hheard, hunheard⟩ := Seen.after_of_goes w m w' h.ended
  constructor
  case ended => simp [Seen.after, h.ended, hc, hwaits.ended]
  case unheard => exact hunheard.trans h.unheard
  case events => simp [Seen.after, h.events, hlogged]
  case waits => exact ⟨before, fresh, hseen.trans hheard.symm, hwaits⟩

theorem Follows.spares (h : w₀.Follows expected timeout seen w) (hs : w.Spares w')
    (hm : m ≠ .step .collection) : w₀.Follows expected timeout (seen.after w m w') w' := by
  obtain ⟨c, hc, rfl, rfl, hpolicy, hstate⟩ := h
  refine ⟨c, hs.collection ▸ hc, rfl, rfl, hs.policy.trans hpolicy, ?_⟩
  rcases hstate with hgoes | ⟨time, bounds, ended, hended⟩
  · obtain ⟨sent, hsent⟩ := hs.arrived
    obtain ⟨before, fresh, heq, hwaits⟩ := hgoes.waits
    have hseen : before ++ (fresh ++ sent.map (Arrival.mk w.clock.timer)) =
        seen.heard ++ w.sentBy w' := by
      rw [sentBy_eq hsent, ← List.append_assoc, heq]
    refine .inl (hgoes.after (hs.collection ▸ hc) (logged_eq_nil hm) hseen ?_)
    rw [hs.timer]
    exact hwaits.send hs.taken hsent
  · exact .inr ⟨time, bounds, ended, hended.move hm (Nat.le_of_eq hs.timer.symm)⟩

theorem Follows.turn (h : w₀.Follows expected timeout seen w)
    (hm : w.move? (.step .collection) = some w') :
    w₀.Follows expected timeout (seen.after w (.step .collection) w') w' := by
  obtain ⟨c, hc, rfl, rfl, hpolicy, hstate⟩ := h
  simp only [move?, step?, stepCollection?, hc, Option.bind_eq_bind, Option.bind_some,
    Option.bind_eq_some_iff] at hm
  obtain ⟨⟨c', mailbox', event⟩, hstep, hm⟩ := hm
  cases hm
  obtain ⟨hgoes, hturn⟩ := Collection.turn_of_step? hstep
  rcases hstate with hstate | ⟨time, bounds, ended, hended⟩
  · obtain ⟨before, fresh, heq, hwaits⟩ := hstate.waits
    have hlogged : Move.logged w ({ w with collection := some c', mailbox := mailbox' }.emit event)
        (.step .collection) = event.toList := by simp [Move.logged, emit]
    have hsilent : w.sentBy ({ w with collection := some c', mailbox := mailbox' }.emit event) =
        [] := sentBy_eq_nil hturn.arrived_eq
    obtain ⟨⟨hexpected, htimeout⟩, hnext⟩ := hwaits.turn hturn
    refine ⟨c', rfl, hexpected, htimeout, hpolicy, ?_⟩
    rcases hnext with ⟨rfl, before', fresh', heq', hwaits'⟩ | ⟨ended, hcended, hanswer⟩
    · refine .inl (hstate.after rfl hlogged ?_ hwaits')
      rw [hsilent, List.append_nil, heq', heq]
    · obtain ⟨hheard, hunheard⟩ := Seen.after_of_goes w (.step .collection)
        ({ w with collection := some c', mailbox := mailbox' }.emit event) hstate.ended
      rw [hsilent, List.append_nil, ← heq] at hheard
      refine .inr ⟨w.clock.timer, w.window.bounds, ended, ?_⟩
      constructor
      case ended => simp [Seen.after, hstate.ended, emit, hcended]
      case collection => exact hcended
      case past => exact Nat.le_refl _
      case heard =>
        rw [hheard, htimeout]
        exact hwaits.in_time
      case unheard =>
        rw [hunheard, hstate.unheard]
        exact List.forall_mem_nil _
      case answer =>
        rw [hheard, ← hpolicy, hexpected, htimeout, Seen.after, hstate.events, hlogged]
        exact hanswer
  · rw [hended.collection] at hgoes
    cases hgoes

theorem step?_of_collection {c : Collection} (h : w.step? .collection = none)
    (hc : w.collection = some c) :
    c.step? w.policy w.window.bounds w.clock.timer w.mailbox = none := by
  cases hstep : c.step? w.policy w.window.bounds w.clock.timer w.mailbox with
  | none => rfl
  | some next => simp [step?, stepCollection?, hc, hstep] at h

theorem Follows.pass {timer : Nat} {wall : Duration} (h : w₀.Follows expected timeout seen w)
    (hstep : w.step? .collection = none)
    (hwake : ∀ c d, w.collection = some c → c.wake? = some d → w.clock.timer + timer ≤ d) :
    w₀.Follows expected timeout (seen.after w (.pass timer wall) (w.pass timer wall))
      (w.pass timer wall) := by
  obtain ⟨c, hc, rfl, rfl, hpolicy, hstate⟩ := h
  have hm : Move.pass timer wall ≠ .step .collection := by rintro ⟨⟩
  refine ⟨c, hc, rfl, rfl, hpolicy, ?_⟩
  rcases hstate with hgoes | ⟨time, bounds, ended, hended⟩
  · obtain ⟨before, fresh, heq, hwaits⟩ := hgoes.waits
    have hsilent : w.sentBy (w.pass timer wall) = [] := sentBy_eq_nil rfl
    have hseen : before ++ fresh = seen.heard ++ w.sentBy (w.pass timer wall) := by
      rw [hsilent, List.append_nil, heq]
    refine .inl (hgoes.after hc (logged_eq_nil hm) hseen ?_)
    apply hwaits.pass (step?_of_collection hstep hc) (w.clock.timer_le_pass timer wall)
    intro d hd
    exact hwake c d hc hd
  · exact .inr ⟨time, bounds, ended, hended.move hm (w.clock.timer_le_pass timer wall)⟩

theorem Awaits.follows (h : w₀.Awaits expected timeout seen w) (htaken : w₀.mailbox.taken = 0)
    (hroom : expected.toNat < Collection.reserveLimit) : w₀.Follows expected timeout seen w := by
  induction h with
  | call =>
    exact ⟨_, rfl, rfl, rfl, rfl, .inl ⟨rfl, rfl, rfl, [], _, rfl,
      Collection.waits_start hroom htaken⟩⟩
  | @move seen w w' m _ hprompt hm ih =>
    by_cases hstep : m = .step .collection
    · subst hstep
      exact ih.turn hm
    · rcases spares_of_move? hm hprompt hstep with hs | ⟨timer, wall, rfl, hidle, hwake⟩
      · exact ih.spares hs hstep
      · cases hm
        exact ih.pass hidle hwake

/-! ## What it comes to -/

/-- So many steps of the collection and nothing else. -/
def turns : Nat → World → Option World
  | 0, w => some w
  | n + 1, w => (w.step? .collection).bind (turns n)

/-- The collection comes to rest by itself. -/
theorem exists_turns {c : Collection} (hc : w.collection = some c) :
    ∃ n w', w.turns n = some w' ∧ w'.step? .collection = none := by
  generalize hk : c.left = k
  induction k using Nat.strongRecOn generalizing w c with
  | ind k ih =>
    cases hstep : w.step? .collection with
    | none => exact ⟨0, w, rfl, hstep⟩
    | some w₁ =>
      have hm := hstep
      simp only [step?, stepCollection?, hc, Option.bind_eq_bind, Option.bind_some,
        Option.bind_eq_some_iff] at hm
      obtain ⟨⟨c', mailbox', event⟩, hturn, hm⟩ := hm
      cases hm
      obtain ⟨hgoes, hturn⟩ := Collection.turn_of_step? hturn
      have hc' : ({ w with collection := some c', mailbox := mailbox' }.emit event).collection =
          some c' := rfl
      obtain ⟨n, w', hturns, hrest⟩ := ih _ (hk ▸ hturn.left_lt hgoes) hc' rfl
      exact ⟨n + 1, w', by rw [turns, hstep]; exact hturns, hrest⟩

/-- What a collection comes to is decided by the messages that it considers and by the times at
which they arrive. It never goes on for ever by itself; once it has ended, it has ended as they say;
and while it rests without having ended, none of them is an abort, reports are missing and its time
is not up. -/
theorem Awaits.decided (h : w₀.Awaits expected timeout seen w) (htaken : w₀.mailbox.taken = 0)
    (hroom : expected.toNat < Collection.reserveLimit) :
    let deadline := Collection.deadlineAt w₀.clock.timer timeout
    let considered := Arrival.considered expected.toNat deadline seen.heard seen.unheard
    (∃ n w', w.turns n = some w' ∧ w'.step? .collection = none) ∧
    (∀ time bounds, seen.ended = some (time, bounds) →
      ∃ c ended, w.collection = some c ∧ c.ended = some ended ∧
        Collection.Answer w₀.policy expected timeout deadline considered time bounds seen.events
          ended) ∧
    (seen.ended = none →
      (∃ c, w.collection = some c ∧ c.ended = none) ∧ seen.events = [] ∧
        (w.step? .collection = none →
          Arrival.AllFinal considered ∧ (Arrival.reports considered).length < expected.toNat ∧
          ∀ d, deadline = some d → w.clock.timer < d)) := by
  intro deadline considered
  obtain ⟨c, hc, rfl, rfl, -, hstate⟩ := h.follows htaken hroom
  refine ⟨exists_turns hc, ?_, ?_⟩
  · intro time bounds hended
    rcases hstate with hgoes | ⟨time', bounds', ended, hstate⟩
    · cases hgoes.ended.symm.trans hended
    · cases hstate.ended.symm.trans hended
      refine ⟨c, ended, hc, hstate.collection, ?_⟩
      have hheard : considered = _ := Arrival.considered_of_heard hstate.heard
      rw [hheard]
      exact hstate.answer.extend hstate.unheard
  · intro hgoes
    rcases hstate with hstate | ⟨_, _, _, hstate⟩
    · obtain ⟨before, fresh, heq, hwaits⟩ := hstate.waits
      refine ⟨⟨c, hc, hwaits.ended⟩, hstate.events, ?_⟩
      intro hrest
      obtain ⟨hfresh, hfew, hearly⟩ := hwaits.idle (step?_of_collection hrest hc)
      have hheard : considered = _ := Arrival.considered_of_heard (heq ▸ hwaits.in_time)
      have hbefore : considered = before := by
        rw [hheard, hstate.unheard, List.filter_nil, List.append_nil, ← heq,
          hwaits.upTo_eq_before (.inr hfresh)]
      rw [hbefore, hwaits.reports_eq]
      exact ⟨hwaits.allFinal, hfew, fun d hd => hearly d (hwaits.deadline.trans hd)⟩
    · cases hstate.ended.symm.trans hgoes

/-! ## Trials -/

def trialReport (stream : String) (submitted : UInt64) : DriverReport :=
  { stream, submitted, passed := [], failed := [] }

/-- One report has arrived already. -/
def trialWorld : World := { mailbox := { arrived := [.final (trialReport "first" 0)] } }

/-- Ten milliseconds and a half. -/
def trialTimeout : Duration := ⟨10500000, by decide⟩

/-- The second report comes in the millisecond of the deadline, and the third one after the end. -/
theorem decided_trial : ∃ seen w, trialWorld.Awaits 2 trialTimeout seen w ∧
    trialWorld.mailbox.taken = 0 ∧ (2 : UInt64).toNat < Collection.reserveLimit ∧
    Collection.deadlineAt trialWorld.clock.timer trialTimeout = some 11 ∧
    seen.heard.map Arrival.time = [0, 11] ∧ seen.unheard.map Arrival.time = [11] ∧
    ∃ c report, w.collection = some c ∧ c.ended = some (.report report) ∧
      report.streams = ["first", "second"] ∧ seen.events = [.reportReady 0 0 0] := by
  have hcall : trialWorld.Awaits 2 trialTimeout _ _ := .call
  have htake := hcall.move (.step .collection) trivial rfl
  have hpass := htake.move (.pass 11 .zero) (.inr ⟨rfl, by rintro _ _ ⟨⟩ ⟨⟩; decide⟩) rfl
  have hsend := hpass.move (.control (.send (.final (trialReport "second" 0)))) trivial rfl
  have hreceive := hsend.move (.step .collection) trivial rfl
  have hend := hreceive.move (.step .collection) trivial rfl
  have hlate := hend.move (.control (.send (.final (trialReport "third" 0)))) trivial rfl
  obtain ⟨c, ended, hc, hended, hanswer⟩ := (hlate.decided rfl (by decide)).2.1 11 none rfl
  refine ⟨_, _, hlate, rfl, by decide, rfl, rfl, rfl, c, ?_⟩
  generalize hevents : Seen.events _ = events at hanswer
  cases hanswer with
  | report _ _ _ hstreams => exact ⟨_, hc, hended, hstreams, hevents.symm.trans rfl⟩
  | aborted | crash | late => cases hevents

/-- The message arrives within exactly this time from the start, or that instant is out of range. -/
def isWithin (start : Nat) (timeout : Duration) (a : Arrival) : Bool :=
  decide (start / 1000 + timeout.secs < Collection.clockRange →
    a.time * 1000000 ≤ start * 1000000 + timeout.nanos)

/-- Both reports have arrived already. Together they submitted more tasks than can be counted. -/
def crowdedWorld : World :=
  { mailbox := { arrived := [.final (trialReport "first" 18446744073709551615),
      .final (trialReport "second" 1)] } }

/-- A report that comes half a millisecond after the timeout is over still counts, and there is no
report of all reports if they cannot be aggregated. -/
theorem decided_fails :
    (∃ seen w c time bounds ended, World.Awaits {} 1 trialTimeout seen w ∧
      (∀ a ∈ seen.heard ++ seen.unheard, a.time * 1000000 ≠ trialTimeout.nanos) ∧
      seen.ended = some (time, bounds) ∧ w.collection = some c ∧ c.ended = some ended ∧
      ∀ deadline, ¬Collection.Answer {} 1 trialTimeout deadline
        (Arrival.upTo 1 ((seen.heard ++ seen.unheard).filter (isWithin 0 trialTimeout))) time
        bounds seen.events ended) ∧
    ∃ seen w c, crowdedWorld.Awaits 2 trialTimeout seen w ∧
      (Arrival.reports seen.heard).length = 2 ∧ Arrival.AllFinal seen.heard ∧
      w.collection = some c ∧ c.ended = some (.crash .addOverflow) := by
  constructor
  · have hcall : World.Awaits {} 1 trialTimeout _ _ := .call
    have hpass := hcall.move (.pass 11 .zero) (.inr ⟨rfl, by rintro _ _ ⟨⟩ ⟨⟩; decide⟩) rfl
    have hsend := hpass.move (.control (.send (.final (trialReport "first" 0)))) trivial rfl
    have hreceive := hsend.move (.step .collection) trivial rfl
    have hend := hreceive.move (.step .collection) trivial rfl
    refine ⟨_, _, _, 11, none, _, hend, ?_, rfl, rfl, rfl, ?_⟩
    · decide
    · intro deadline hanswer
      generalize Seen.events _ = events at hanswer
      cases hanswer with
      | report _ hlength => cases hlength
  · have hcall : crowdedWorld.Awaits 2 trialTimeout _ _ := .call
    have hfirst := hcall.move (.step .collection) trivial rfl
    have hsecond := hfirst.move (.step .collection) trivial rfl
    have hend := hsecond.move (.step .collection) trivial rfl
    have hfinal : Arrival.AllFinal (crowdedWorld.mailbox.arrived.map (Arrival.mk 0)) := by
      simp [Arrival.AllFinal, crowdedWorld]
    exact ⟨_, _, _, hend, rfl, hfinal, rfl, rfl⟩

end FaultDrill.World
