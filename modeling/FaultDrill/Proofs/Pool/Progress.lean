import FaultDrill.Proofs.Pool.Ledger
import FaultDrill.Proofs.Pool.Waiting

/-! # Progress

A pool in which no handler executes and no step is possible has answered every call. So
no order of steps gets it stuck; in particular a shutdown comes to its end.
-/

namespace FaultDrill.Pool

variable {config : PoolConfig} {p p' q : Pool} {i w : Nat} {s s' : ClientStage}
  {v v' : WorkerStage} {m : Move} {ms : List Move}

/-- No call can take a step. -/
def Paused (p : Pool) : Prop := ∀ i, p.move? (.client i) = none

/-- No handler executes, and no call and no worker can take a step. -/
structure Quiet (p : Pool) : Prop where
  clients : ∀ i, p.move? (.client i) = none
  workers : ∀ w, p.move? (.worker w) = none
  begins : ∀ w phase now wake, p.move? (.begin w phase now wake) = none
  running : p.runningCount = 0

/-- The stages at which a call cannot take a step. -/
inductive Halted (p : Pool) (i : Nat) : ClientStage → Prop
  | returned {reply} : Halted p i (.returned reply)
  | dropped : Halted p i .dropped
  | permit {task} : (∀ g, p.gate = some g → i ∉ g.granted) → Halted p i (.awaitingPermit task)
  | read {task} : i ∉ p.latch.granted → Halted p i (.awaitingRead task)
  | write : i ∉ p.latch.granted → Halted p i .awaitingWrite
  | asleep : Halted p i (.asleep false)
  | joining {w : Nat} {v : WorkerStage} : p.workers[w]? = some v → v.hasExited = false →
      Halted p i (.joining w)

theorem Paused.halted (hq : p.Paused) (hs : p.clients[i]? = some s) : p.Halted i s := by
  have h := hq i
  simp only [move?, stepClient?, hs, Option.bind_eq_bind, Option.bind_some,
    Option.or_eq_none_iff] at h
  obtain ⟨hsub, hshut⟩ := h
  cases s with
  | returned => exact .returned
  | dropped => exact .dropped
  | asking =>
    simp only [stepSubmit] at hsub
    repeat' split at hsub
    all_goals cases hsub
  | awaitingPermit task =>
    refine .permit fun g hg hi => ?_
    simp only [stepSubmit, hg, if_pos hi] at hsub
    split at hsub <;> cases hsub
  | permitted =>
    simp only [stepSubmit] at hsub
    split at hsub <;> cases hsub
  | awaitingRead task =>
    refine .read fun hi => ?_
    rw [stepSubmit, if_pos hi] at hsub
    cases hsub
  | admitted =>
    simp only [stepSubmit] at hsub
    split at hsub <;> cases hsub
  | counted =>
    simp only [stepSubmit] at hsub
    split at hsub <;> cases hsub
  | leaving =>
    simp only [stepShutdown] at hshut
    split at hshut <;> cases hshut
  | awaitingWrite =>
    refine .write fun hi => ?_
    rw [stepShutdown, if_pos hi] at hshut
    cases hshut
  | stopping left isCounted =>
    cases left with
    | zero => cases hshut
    | succ left =>
      cases isCounted with
      | false => cases hshut
      | true =>
        simp only [stepShutdown] at hshut
        split at hshut <;> cases hshut
  | asleep heard =>
    cases heard with
    | false => exact .asleep
    | true => cases hshut
  | joining w =>
    simp only [stepShutdown] at hshut
    split at hshut
    case h_4 v hkept hlost hv =>
      refine .joining hv ?_
      cases v with
      | exited lost =>
        cases lost with
        | false => exact absurd rfl hkept
        | true => exact absurd rfl hlost
      | _ => rfl
    all_goals cases hshut
  | arrived | refused => cases hsub
  | exclusive | draining | listening | closing => cases hshut

theorem Quiet.halted (hq : p.Quiet) (hs : p.clients[i]? = some s) : p.Halted i s :=
  Paused.halted hq.clients hs

theorem Quiet.worker_cases (hq : p.Quiet) (hn : p.NoneLost) (hv : p.workers[w]? = some v) :
    v = .lined ∨ v = .exited false := by
  have h := hq.workers w
  simp only [move?, stepWorker?, hv, Option.bind_eq_bind, Option.bind_some] at h
  cases v with
  | lined => exact .inl rfl
  | exited lost =>
    cases lost with
    | false => exact .inr rfl
    | true => exact absurd hv (hn w)
  | holding task =>
    have := hq.begins w .preFault .zero 0
    simp [move?, begin?, hv] at this
  | running =>
    have hmem := List.mem_of_getElem? hv
    have := List.countP_eq_zero.1 hq.running _ hmem
    exact absurd rfl this
  | acknowledged last | stopAcknowledged last => cases last <;> cases h
  | _ => cases h

/-- Unless all have exited, somebody is first in line. -/
theorem Quiet.first_in_line (hq : p.Quiet) (h : Run config ms p) (hn : p.NoneLost)
    (hall : ¬p.allExited = true) :
    ∃ first line, p.line = first :: line ∧ p.workers[first]? = some .lined := by
  have hline : p.line ≠ [] := by
    intro hnil
    apply hall
    rw [Pool.allExited, List.all_eq_true]
    intro v hv
    obtain ⟨w, hw⟩ := List.mem_iff_getElem?.1 hv
    rcases hq.worker_cases hn hw with rfl | rfl
    · have := (h.lineKept.mem_iff w).2 hw
      rw [hnil] at this
      cases this
    · rfl
  obtain ⟨first, line, hl⟩ := List.exists_cons_of_ne_nil hline
  exact ⟨first, line, hl, (h.lineKept.mem_iff first).1 (hl ▸ List.mem_cons_self)⟩

/-- While something is queued, nobody is in line for it. -/
theorem Quiet.allExited (hq : p.Quiet) (h : Run config ms p) (hn : p.NoneLost)
    (hqueue : p.queue ≠ []) : p.allExited = true := by
  by_contra hall
  obtain ⟨first, line, hl, hfirst⟩ := hq.first_in_line h hn hall
  obtain ⟨item, queue, hqu⟩ := List.exists_cons_of_ne_nil hqueue
  have := hq.workers first
  simp [move?, stepWorker?, hfirst, dequeue, hl, hqu] at this

/-! ## What those who cannot go on have -/

theorem Halted.holds (h : p.Halted i s) : s.holds = none := by cases h <;> rfl

theorem Halted.counts (h : p.Halted i s) : s.counts = 0 := by cases h <;> rfl

theorem Halted.stops (h : p.Halted i s) : s.stops = 0 := by cases h <;> rfl

theorem Halted.permits (h : p.Halted i s) (hw : s.wants = none) : s.permits = 0 := by
  cases h with
  | read => cases hw
  | _ => rfl

/-- Nobody waits for the latch but for one who can take a step. -/
theorem Paused.wants (hq : p.Paused) (h : Run config ms p) (hs : p.clients[i]? = some s) :
    s.wants = none := by
  obtain ⟨letIn, inside, hk, hb⟩ := h.latchKept
  have hholds (j : Nat) : p.role ClientStage.holds j = none := by
    apply Option.eq_none_iff_forall_ne_some.2
    intro a ha
    obtain ⟨s, hs, hholds⟩ := role_eq_some_iff.1 ha
    rw [(hq.halted hs).holds] at hholds
    cases hholds
  have hgranted (j : Nat) (a : Access) (ha : p.role ClientStage.wants j = some a) :
      j ∉ p.latch.granted := by
    obtain ⟨s, hs, hwants⟩ := role_eq_some_iff.1 ha
    cases hq.halted hs with
    | read hr | write hr => exact hr
    | _ => cases hwants
  rw [← role_eq (r := ClientStage.wants) hs]
  exact hk.wants_eq_none hb hholds hgranted i

theorem Quiet.wants (hq : p.Quiet) (h : Run config ms p) (hs : p.clients[i]? = some s) :
    s.wants = none := Paused.wants hq.clients h hs

theorem Quiet.sum_workers (hq : p.Quiet) (hn : p.NoneLost) {f : WorkerStage → Nat}
    (hlined : f .lined = 0) (hexited : f (.exited false) = 0) : (p.workers.map f).sum = 0 := by
  apply sum_map_eq_zero
  intro w v hv
  rcases hq.worker_cases hn hv with rfl | rfl
  · exact hlined
  · exact hexited

/-! ## Nobody waits for ever -/

theorem Quiet.not_awaitingPermit (hq : p.Quiet) (h : Run config ms p) (hn : p.NoneLost)
    (task : Task) : p.clients[i]? ≠ some (.awaitingPermit task) := by
  intro hs
  have hi := role_eq (r := ClientStage.queues) hs
  rcases h.balanced with ⟨-, hg⟩ | ⟨hpos, g, hg, hbalance⟩
  · rw [h.gateKept.unserved hg i] at hi
    cases hi
  · have hk := h.gateKept.served g hg
    have hgranted : g.granted = [] := by
      apply List.eq_nil_iff_forall_not_mem.2
      intro j hj
      obtain ⟨s, hs, hqueues⟩ :=
        role_eq_some_iff.1 ((hk.waits_iff j).2 (List.mem_append_right _ hj))
      cases hq.halted hs with
      | permit hnot => exact hnot g hg hj
      | _ => cases hqueues
    have hfree : g.free = 0 := by
      by_contra hfree
      have := (hk.waits_iff i).1 hi
      rw [hgranted, hk.starved (Nat.pos_of_ne_zero hfree)] at this
      cases this
    have hclients : (p.clients.map ClientStage.permits).sum = 0 :=
      sum_map_eq_zero fun j s hs => (hq.halted hs).permits (hq.wants h hs)
    have hworkers := hq.sum_workers hn (f := WorkerStage.permits) rfl rfl
    simp only [Gate.stock, total, permits, hgranted, hfree, hclients, hworkers,
      List.length_nil] at hbalance
    have hqueue : p.queue ≠ [] := by
      intro hnil
      rw [hnil] at hbalance
      simp at hbalance
      omega
    obtain ⟨n, hstops⟩ := h.queue_of_exited hn (hq.allExited h hn hqueue)
    rw [hstops, List.map_replicate, List.sum_replicate_nat, QueueItem.permits] at hbalance
    omega

/-- Nothing is outstanding but what is queued. -/
theorem Quiet.outstanding_of_queue (hq : p.Quiet) (h : Run config ms p) (hn : p.NoneLost)
    (hqueue : p.queue = []) : p.outstanding = 0 := by
  have hclients : (p.clients.map ClientStage.counts).sum = 0 :=
    sum_map_eq_zero fun j s hs => (hq.halted hs).counts
  have hworkers := hq.sum_workers hn (f := WorkerStage.counts) rfl rfl
  rw [h.outstanding_eq]
  simp [total, counting, hqueue, hclients, hworkers]

theorem Quiet.not_asleep (hq : p.Quiet) (h : Run config ms p) (hn : p.NoneLost) :
    p.clients[i]? ≠ some (.asleep false) := by
  intro hs
  have hf := (h.leads (role_eq (r := ClientStage.leads) hs)).1
  rcases h.wakeful i hs with ho | ⟨w, hw⟩
  · have hqueue : p.queue ≠ [] := by
      intro hnil
      rw [hq.outstanding_of_queue h hn hnil] at ho
      cases ho
    exact hqueue (h.queue_eq_nil hn (hq.allExited h hn hqueue) hf)
  · rcases hw with hw | hw <;> rcases hq.worker_cases hn hw with he | he <;> cases he

theorem Quiet.not_joining (hq : p.Quiet) (h : Run config ms p) (hn : p.NoneLost)
    (hs : p.clients[i]? = some (.joining w)) (hw : p.workers[w]? = some v) :
    v.hasExited = true := by
  rcases hq.worker_cases hn hw with rfl | rfl
  · have hf := (h.leads (role_eq (r := ClientStage.leads) hs)).1
    have hqueue : p.queue = [] := by
      by_contra hqueue
      have := List.all_eq_true.1 (hq.allExited h hn hqueue) _ (List.mem_of_getElem? hw)
      cases this
    have hclients : (p.clients.map ClientStage.stops).sum = 0 :=
      sum_map_eq_zero fun j s hs => (hq.halted hs).stops
    have htotal := h.staffed hn (.inr hf)
    have hlt := sum_stops_lt hw rfl
    simp only [total, stops, hqueue, hclients, if_pos hf, List.map_nil, List.sum_nil] at htotal
    omega
  · rfl

theorem Quiet.isOver (hq : p.Quiet) (h : Run config ms p) (hn : p.NoneLost)
    (hs : p.clients[i]? = some s) : s.isOver = true := by
  have hw := hq.wants h hs
  cases hq.halted hs with
  | returned | dropped => rfl
  | permit => exact absurd hs (hq.not_awaitingPermit h hn _)
  | read | write => cases hw
  | asleep => exact absurd hs (hq.not_asleep h hn)
  | joining hv hex =>
    rw [hq.not_joining h hn hs hv] at hex
    cases hex

/-- A quiet pool has answered every call that was not given up. If a shutdown has succeeded, every
worker has taken exactly one sentinel and has exited, and nothing is left in the queue. -/
theorem quiet_answered {name : String} {p₀ : Pool} (hstart : Pool.start name config = .ok p₀)
    (hrun : p₀.moves? ms = some p) (hq : p.Quiet)
    (fits : ∀ task, .submit task ∈ requests ms → task.operation.Fits) :
    (∀ i < (requests ms).length, (∃ reply, p.reply? i = some reply) ∨ .abandon i ∈ ms) ∧
      ∀ i, (requests ms)[i]? = some .shutdown → p.reply? i = some (.ok ()) →
        p.queue = [] ∧ ∀ w < config.workers.toNat,
          p.workers[w]? = some (.exited false) ∧ stopsTaken w p₀ ms = 1 := by
  have h := Run.of_moves? hstart hrun
  have hn := h.noneLost fits
  constructor
  · intro i hi
    obtain ⟨s, hs⟩ : ∃ s, p.clients[i]? = some s :=
      ⟨_, List.getElem?_eq_getElem (h.serves.1 ▸ hi)⟩
    have hover := hq.isOver h hn hs
    cases s with
    | returned reply => exact .inl ⟨reply, reply?_eq_some_iff.2 hs⟩
    | dropped => exact .inr (h.dropped hs)
    | _ => cases hover
  · intro i hi hr
    obtain ⟨hset, hexited⟩ := h.settled_of_ok hi hr
    refine ⟨h.queue_of_settled hset, fun w hw => ?_⟩
    have hw := hexited w (h.workers_length.1 ▸ hw)
    exact ⟨hw, stopsTaken_eq hstart hrun hn (.inr hset.flag) hw⟩

theorem quiet_trialEnd : trialEnd.Quiet where
  clients i := by
    match i with
    | 0 | 1 | _ + 2 => rfl
  workers w := by
    match w with
    | 0 | _ + 1 => rfl
  begins w phase now wake := by
    match w with
    | 0 | _ + 1 => rfl
  running := rfl

theorem quiet_answered_trial :
    Pool.start "trial" { workers := 1, queueCapacity := 1 } = .ok trialStart ∧
      trialStart.moves? trial = some trialEnd ∧ trialEnd.Quiet ∧
      (∀ task, .submit task ∈ requests trial → task.operation.Fits) ∧
      (∀ i < 2, (∃ reply, trialEnd.reply? i = some reply) ∨ .abandon i ∈ trial) ∧
      trialEnd.workers[0]? = some (.exited false) ∧ stopsTaken 0 trialStart trial = 1 := by
  obtain ⟨hcalls, hshut⟩ := quiet_answered start_trial moves?_trial quiet_trialEnd fits_trial
  obtain ⟨-, hworkers⟩ := hshut 1 rfl rfl
  exact ⟨start_trial, moves?_trial, quiet_trialEnd, fits_trial, hcalls, hworkers 0 (by decide)⟩

end FaultDrill.Pool
