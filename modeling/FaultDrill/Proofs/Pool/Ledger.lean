import Mathlib.Data.List.Forall2
import FaultDrill.Proofs.Lists
import FaultDrill.Proofs.Pool.Sentinel
import FaultDrill.Proofs.Result

/-! # Where the tasks are

A submission goes by the number of its call. Every accepted one is in the queue, with one
worker, or has one result, and in one of these places only.
-/

namespace FaultDrill.QueueItem

def task? : QueueItem → Option Task
  | run task => some task
  | stop => none

end FaultDrill.QueueItem

namespace FaultDrill.ClientStage

def accepts : ClientStage → Option Unit
  | returned (.ok ()) => some ()
  | _ => none

end FaultDrill.ClientStage

namespace FaultDrill.Pool

variable {config : PoolConfig} {p p' q : Pool} {i w : Nat} {s s' : ClientStage}
  {v v' : WorkerStage} {m : Move} {ms : List Move} {task : Task}

/-- Call number `i` submits this task. -/
def Submits (ms : List Move) (i : Nat) (task : Task) : Prop :=
  (requests ms)[i]? = some (.submit task)

/-- A result of the task that call number `i` submits. -/
def ResultOf (ms : List Move) (i : Nat) (r : OperationResult) : Prop :=
  ∃ task outcome startedAt finishedAt phase, Submits ms i task ∧
    OperationResult.assemble task.id task.stream task.operation outcome startedAt finishedAt phase
      = .ok r

/-- What the worker has of the call with this number, or that it has no task. -/
def HeldFor (ms : List Move) : Option Nat → WorkerStage → Prop
  | some i, .holding task | some i, .running task _ _ _ => Submits ms i task
  | some i, .finished result => ResultOf ms i result
  | some _, _ | none, .holding _ | none, .running _ _ _ _ | none, .finished _ => False
  | none, _ => True

/-- The submissions that were accepted, by number. -/
def accepted (ms : List Move) (p : Pool) : List Nat :=
  (List.range p.clients.length).filter fun i =>
    (requests ms)[i]?.any (· matches .submit _) && (p.reply? i).any (· matches .ok ())

/-- The submissions by the places where they are. The results that were sent are there while
somebody receives them. -/
structure Ledger (ms : List Move) (p : Pool) where
  queued : List Nat
  held : List (Option Nat)
  reported : List Nat
  queue : List.Forall₂ (Submits ms) queued (p.queue.filterMap QueueItem.task?)
  workers : List.Forall₂ (HeldFor ms) held p.workers
  results : p.isHeard = true → List.Forall₂ (ResultOf ms) reported p.results
  complete : (queued ++ held.reduceOption ++ reported).Perm (accepted ms p)

/-! ## Accepted submissions -/

theorem Submits.snoc (h : Submits ms i task) (m : Move) : Submits (ms ++ [m]) i task := by
  unfold Submits at *
  rw [requests_snoc, List.getElem?_append_left (List.getElem?_eq_some_iff.1 h).1, h]

theorem ResultOf.snoc {r : OperationResult} (h : ResultOf ms i r) (m : Move) :
    ResultOf (ms ++ [m]) i r := by
  obtain ⟨task, outcome, startedAt, finishedAt, phase, hi, hr⟩ := h
  exact ⟨task, outcome, startedAt, finishedAt, phase, hi.snoc m, hr⟩

theorem HeldFor.snoc {o : Option Nat} (h : HeldFor ms o v) (m : Move) :
    HeldFor (ms ++ [m]) o v := by
  cases o with
  | none => cases v <;> exact h
  | some i =>
    cases v with
    | holding | running => exact Submits.snoc h m
    | finished => exact ResultOf.snoc h m
    | _ => exact h

theorem hear_accepts (s : ClientStage) : s.hear.accepts = s.accepts := by cases s <;> rfl

theorem accepts_iff : p.role ClientStage.accepts i = some () ↔ p.reply? i = some (.ok ()) := by
  rw [role_eq_some_iff, reply?_eq_some_iff]
  constructor
  · rintro ⟨s, hs, haccepts⟩
    cases s with
    | returned reply =>
      cases reply with
      | ok => exact hs
      | error => cases haccepts
    | _ => cases haccepts
  · intro hs
    exact ⟨_, hs, rfl⟩

theorem mem_accepted :
    i ∈ accepted ms p ↔ (∃ task, Submits ms i task) ∧ p.role ClientStage.accepts i = some () := by
  have hlt (h : p.reply? i = some (.ok ())) : i < p.clients.length :=
    (List.getElem?_eq_some_iff.1 (reply?_eq_some_iff.1 h)).1
  rw [accepts_iff]
  unfold accepted Submits
  simp only [List.mem_filter, List.mem_range, Bool.and_eq_true, Option.any_eq_true]
  constructor
  · rintro ⟨-, ⟨request, hr, hsub⟩, reply, hreply, hok⟩
    refine ⟨?_, ?_⟩
    · cases request with
      | submit task => exact ⟨task, hr⟩
      | shutdown => cases hsub
    · cases reply with
      | ok => exact hreply
      | error => cases hok
  · rintro ⟨⟨task, hr⟩, hreply⟩
    exact ⟨hlt hreply, ⟨_, hr, rfl⟩, _, hreply, rfl⟩

theorem accepted_nodup : (accepted ms p).Nodup := List.nodup_range.filter _

theorem Run.submits_of_snoc (h : Run config ms p) (hs : p.clients[i]? = some s)
    (hi : Submits (ms ++ [m]) i task) : Submits ms i task := by
  unfold Submits at hi
  rw [requests_snoc] at hi
  exact getElem?_requests_left hs h.serves.1 hi

/-- Nothing is accepted unless a call of a submission returns. -/
theorem Run.accepted_perm (h : Run config ms p)
    (hsame : ∀ i, (requests ms)[i]? ≠ some .shutdown →
      p'.role ClientStage.accepts i = p.role ClientStage.accepts i) :
    (accepted (ms ++ [m]) p').Perm (accepted ms p) := by
  apply (List.perm_ext_iff_of_nodup accepted_nodup accepted_nodup).2
  intro i
  rw [mem_accepted, mem_accepted]
  constructor
  · rintro ⟨⟨task, hi⟩, hrole⟩
    rw [hsame i] at hrole
    · obtain ⟨s, hs, -⟩ := role_eq_some_iff.1 hrole
      exact ⟨⟨task, h.submits_of_snoc hs hi⟩, hrole⟩
    · intro hr
      rw [Submits, requests_snoc, List.getElem?_append_left (List.getElem?_eq_some_iff.1 hr).1,
        hr] at hi
      cases hi
  · rintro ⟨⟨task, hi⟩, hrole⟩
    refine ⟨⟨task, hi.snoc m⟩, ?_⟩
    rw [hsame i, hrole]
    rw [show (requests ms)[i]? = _ from hi]
    exact nofun

theorem Run.accepted_perm_cons (h : Run config ms p) (hi : Submits ms i task)
    (hs : p.clients[i]? = some s) (hnone : s.accepts = none)
    (hrole : p'.role ClientStage.accepts =
      Function.update (p.role ClientStage.accepts) i (some ())) :
    (accepted (ms ++ [m]) p').Perm (i :: accepted ms p) := by
  have hni : i ∉ accepted ms p := by
    rw [mem_accepted, role_eq hs, hnone]
    exact fun h => nomatch h.2
  apply (List.perm_ext_iff_of_nodup accepted_nodup (List.nodup_cons.2 ⟨hni, accepted_nodup⟩)).2
  intro j
  rw [List.mem_cons, mem_accepted, mem_accepted, hrole]
  by_cases hj : j = i
  · subst hj
    simp only [Function.update_self, and_true, true_or, iff_true]
    exact ⟨task, hi.snoc m⟩
  · rw [Function.update_of_ne hj]
    constructor
    · rintro ⟨⟨task, hj⟩, hrole⟩
      obtain ⟨s, hs, -⟩ := role_eq_some_iff.1 hrole
      exact .inr ⟨⟨task, h.submits_of_snoc hs hj⟩, hrole⟩
    · rintro (hji | ⟨⟨task, hj⟩, hrole⟩)
      · exact absurd hji hj
      · exact ⟨⟨task, hj.snoc m⟩, hrole⟩

/-! ## One step of the books -/

/-- Books in which the workers, the queue and the results are as they were. -/
def Ledger.keep (L : Ledger ms p) (m : Move) (hworkers : p'.workers = p.workers)
    (hqueue : p'.queue.filterMap QueueItem.task? = p.queue.filterMap QueueItem.task?)
    (hresults : p'.isHeard = true → p.isHeard = true ∧ p'.results = p.results)
    (haccepted : (accepted (ms ++ [m]) p').Perm (accepted ms p)) : Ledger (ms ++ [m]) p' where
  queued := L.queued
  held := L.held
  reported := L.reported
  queue := hqueue ▸ L.queue.imp fun _ _ h => h.snoc m
  workers := hworkers ▸ L.workers.imp fun _ _ h => h.snoc m
  results h := (hresults h).2 ▸ (L.results (hresults h).1).imp fun _ _ h => h.snoc m
  complete := L.complete.trans haccepted.symm

theorem Run.request_of_client (h : Run config ms p) (hs : p.clients[i]? = some s) :
    ∃ request, (requests ms)[i]? = some request ∧ s.Serves request := by
  have hlt : i < (requests ms).length := h.serves.1 ▸ (List.getElem?_eq_some_iff.1 hs).1
  exact ⟨_, List.getElem?_eq_getElem hlt, h.serves.2 _ _ _ hs (List.getElem?_eq_getElem hlt)⟩

theorem Run.submits_of_counted (h : Run config ms p) (hs : p.clients[i]? = some (.counted task)) :
    Submits ms i task := by
  obtain ⟨request, hr, hserves⟩ := h.request_of_client hs
  cases request with
  | submit task' => cases hserves; exact hr
  | shutdown => cases hserves

theorem Run.ledger_client (h : Run config ms p) (L : Ledger ms p)
    (hs : p.clients[i]? = some s) (hc : ClientStep p i s s' q) :
    Nonempty (Ledger (ms ++ [m]) (q.setClient i s')) := by
  have hrole := ClientStep.role_eq hs hc hear_accepts
  have hworkers : (q.setClient i s').workers = p.workers := hc.workers_eq
  have hresults (hh : (q.setClient i s').isHeard = true) :
      p.isHeard = true ∧ (q.setClient i s').results = p.results :=
    ⟨hc.isHeard_eq ▸ hh, hc.results_eq⟩
  have same (hsame : s'.accepts = s.accepts) :
      (accepted (ms ++ [m]) (q.setClient i s')).Perm (accepted ms p) :=
    h.accepted_perm fun j _ => congrFun (ClientStep.role_same hs hc hear_accepts hsame) j
  cases hc with
  | @enqueue task =>
    refine ⟨L.queued ++ [i], L.held, L.reported, ?_, ?_, fun hh => ?_, ?_⟩
    · change List.Forall₂ _ _ ((p.queue ++ [QueueItem.run task]).filterMap QueueItem.task?)
      rw [List.filterMap_append]
      have hi := (h.submits_of_counted hs).snoc m
      exact List.rel_append (L.queue.imp fun _ _ h => h.snoc m) (.cons hi .nil)
    · exact L.workers.imp fun _ _ h => h.snoc m
    · exact (L.results hh).imp fun _ _ h => h.snoc m
    · refine List.Perm.trans ?_
        (h.accepted_perm_cons (h.submits_of_counted hs) hs rfl hrole).symm
      rw [List.append_assoc, List.append_assoc, List.singleton_append]
      refine List.perm_middle.trans (List.Perm.cons i ?_)
      rw [← List.append_assoc]
      exact L.complete
  | close =>
    -- A shutdown that returns is no submission.
    refine ⟨L.keep m hworkers rfl hresults (h.accepted_perm fun j hj => ?_)⟩
    rw [hrole, Function.update_of_ne]
    rintro rfl
    obtain ⟨request, hr, hserves⟩ := h.request_of_client hs
    cases request with
    | submit => cases hserves
    | shutdown => exact hj hr
  | enqueueStop =>
    refine ⟨L.keep m hworkers ?_ hresults (same rfl)⟩
    change (p.queue ++ [QueueItem.stop]).filterMap QueueItem.task? = _
    rw [List.filterMap_append]
    exact List.append_nil _
  | _ => exact ⟨L.keep m hworkers rfl hresults (same rfl)⟩

/-- Books in which one worker has come to another stage. -/
theorem Ledger.move (L : Ledger ms p) (m : Move) {queued reported : List Nat} {o : Option Nat}
    (hw : L.held[w]? = some o) (o' : Option Nat) (hv' : HeldFor (ms ++ [m]) o' v')
    (hworkers : p'.workers = p.workers.set w v')
    (hqueue : List.Forall₂ (Submits (ms ++ [m])) queued (p'.queue.filterMap QueueItem.task?))
    (hresults : p'.isHeard = true → List.Forall₂ (ResultOf (ms ++ [m])) reported p'.results)
    (haccepted : (accepted (ms ++ [m]) p').Perm (accepted ms p))
    (hcount : ∀ k, queued.count k + o'.toList.count k + reported.count k =
      L.queued.count k + o.toList.count k + L.reported.count k) :
    Nonempty (Ledger (ms ++ [m]) p') := by
  refine ⟨queued, L.held.set w o', reported, hqueue, ?_, hresults, ?_⟩
  · rw [hworkers]
    exact forall₂_set (L.workers.imp fun _ _ h => h.snoc m) hv'
  · refine List.Perm.trans ?_ (L.complete.trans haccepted.symm)
    rw [List.perm_iff_count]
    intro k
    have hk := hcount k
    have hset := count_reduceOption_set (b := o') hw k
    simp only [List.count_append]
    omega

theorem Run.ledger_worker (h : Run config ms p) (L : Ledger ms p)
    (hv : p.workers[w]? = some v) (hw : WorkerStep p w m v v' q)
    (hn : (q.setWorker w v').NoneLost) : Nonempty (Ledger (ms ++ [m]) (q.setWorker w v')) := by
  obtain ⟨o, ho, hheld⟩ := forall₂_getElem? L.workers hv
  have hheld := hheld.snoc m
  have hworkers : (q.setWorker w v').workers = p.workers.set w v' := by
    rw [setWorker, hw.workers_eq]
  have haccepted : (accepted (ms ++ [m]) (q.setWorker w v')).Perm (accepted ms p) :=
    h.accepted_perm fun j _ => congrFun (hw.role_eq hear_accepts) j
  have hqueue := L.queue.imp fun _ _ h => h.snoc m
  have hresults (hh : p.isHeard = true) := (L.results hh).imp fun _ _ h => h.snoc m
  have kept (hv' : HeldFor (ms ++ [m]) o v')
      (hq : (q.setWorker w v').queue.filterMap QueueItem.task? =
        p.queue.filterMap QueueItem.task?)
      (hr : (q.setWorker w v').results = p.results) :
      Nonempty (Ledger (ms ++ [m]) (q.setWorker w v')) :=
    L.move m ho o hv' hworkers (hq ▸ hqueue) (fun hh => hr ▸ hresults (hw.isHeard_eq ▸ hh))
      haccepted fun _ => rfl
  cases hw with
  | @takeTask task line queue hl hq =>
    rw [hq] at hqueue
    generalize hqueued : L.queued = queued at hqueue
    cases hqueue with
    | @cons k _ rest _ hk hrest =>
      cases o with
      | some => cases hheld
      | none =>
        have hheld' : HeldFor (ms ++ [.worker w]) (some k) (.holding task) := hk
        refine L.move _ ho _ hheld' hworkers hrest hresults haccepted fun n => ?_
        simp only [hqueued, List.count_cons, Option.toList_some, Option.toList_none,
          List.count_nil]
        omega
  | @takeStop line queue hl hq =>
    refine kept ?_ (by rw [hq]; rfl) rfl
    cases o <;> exact hheld
  | crash =>
    refine absurd ?_ (hn w)
    change (p.workers.set w _)[w]? = _
    rw [List.getElem?_set_self (List.getElem?_eq_some_iff.1 hv).1]
  | @report result =>
    cases o with
    | none => cases hheld
    | some k =>
      have hheld' : HeldFor (ms ++ [.worker w]) none .reported := trivial
      have hsent (hh : p.isHeard = true) : List.Forall₂ (ResultOf (ms ++ [.worker w]))
          (L.reported ++ [k]) (if p.isHeard then p.results ++ [result] else p.results) := by
        rw [if_pos hh]
        exact List.rel_append (hresults hh) (.cons hheld .nil)
      refine L.move _ ho _ hheld' hworkers hqueue hsent haccepted fun n => ?_
      simp only [List.count_append, Option.toList_some, Option.toList_none, List.count_nil]
      omega
  | @finish task phase startedAt wake outcome now result hr =>
    refine kept ?_ rfl rfl
    cases o with
    | none => cases hheld
    | some k => exact ⟨task, outcome, startedAt, now, phase, hheld, hr⟩
  | start => exact kept (by cases o <;> exact hheld) rfl rfl
  | _ => exact kept (by cases o <;> exact hheld) rfl rfl

theorem Run.ledger_step (h : Run config ms p) (L : Ledger ms p) (hstep : Step p m p')
    (hn : p'.NoneLost) : Nonempty (Ledger (ms ++ [m]) p') := by
  cases hstep with
  | @call request =>
    have hrole : (p.call request).role ClientStage.accepts = p.role ClientStage.accepts :=
      role_call (by cases request <;> rfl)
    exact ⟨L.keep _ rfl rfl (fun hh => ⟨hh, rfl⟩) (h.accepted_perm fun j _ => congrFun hrole j)⟩
  | client _ hs hc => exact h.ledger_client L hs hc
  | worker hv hw => exact h.ledger_worker L hv hw hn
  | detach =>
    exact ⟨L.keep _ rfl rfl (fun hh => ⟨hh, rfl⟩) (h.accepted_perm fun _ _ => rfl)⟩
  | deafen => exact ⟨L.keep _ rfl rfl (fun hh => nomatch hh) (h.accepted_perm fun _ _ => rfl)⟩

theorem Run.ledger (h : Run config ms p) (hn : p.NoneLost) : Nonempty (Ledger ms p) := by
  induction h with
  | start h =>
    rw [(start_eq h).2]
    refine ⟨[], List.replicate config.workers.toNat none, [], .nil, ?_, fun _ => .nil, ?_⟩
    · exact List.forall₂_iff_get.2 (by simp [HeldFor])
    · rw [List.reduceOption_replicate_none]
      exact .refl _
  | move hr hm ih =>
    have hstep := step_of_move? hm
    obtain ⟨L⟩ := ih (hstep.noneLost hn)
    exact hr.ledger_step L hstep hn

/-- No worker is torn down if everything that is submitted fits in memory. -/
theorem Run.noneLost (h : Run config ms p)
    (hfits : ∀ task, .submit task ∈ requests ms → task.operation.Fits) : p.NoneLost := by
  induction h with
  | start h => exact noneLost_of_start h
  | @move ms p m p' hr hm ih =>
    have hn := ih fun task ht => hfits task (by rw [requests_snoc]; exact List.mem_append_left _ ht)
    intro w hw
    rcases (step_of_move? hm).worker_cases hw with hv | ⟨v, q, hv, hs, -⟩
    · exact hn w hv
    · cases hs with
      | @crash task phase startedAt wake outcome now crash hcrash =>
        obtain ⟨L⟩ := hr.ledger hn
        obtain ⟨o, -, hheld⟩ := forall₂_getElem? L.workers hv
        cases o with
        | none => exact hheld
        | some k =>
          refine OperationResult.assemble_ne_error (hfits task ?_) hcrash
          rw [requests_snoc]
          exact List.mem_append_left _ (List.mem_of_getElem? hheld)

/-- Once a shutdown has succeeded, every accepted submission has its result. -/
theorem Ledger.reported_perm (L : Ledger ms p) (h : Run config ms p) (hset : p.Settled)
    (hexited : ∀ w < p.workers.length, p.workers[w]? = some (.exited false)) :
    L.reported.Perm (accepted ms p) := by
  have hqueued : L.queued = [] := by
    have := L.queue
    rw [h.queue_of_settled hset] at this
    exact List.forall₂_nil_right_iff.1 this
  have hheld : L.held.reduceOption = [] := by
    apply List.eq_nil_iff_forall_not_mem.2
    intro k hk
    obtain ⟨w, hw⟩ := List.mem_iff_getElem?.1 (List.reduceOption_mem_iff.1 hk)
    obtain ⟨v, hv, hheld⟩ := forall₂_getElem? L.workers.flip hw
    rw [hexited w (List.getElem?_eq_some_iff.1 hv).1] at hv
    cases hv
    exact hheld
  simpa only [hqueued, hheld, List.nil_append] using L.complete

theorem Run.results_of_ok (h : Run config ms p) (heard : p.isHeard = true)
    (hi : (requests ms)[i]? = some .shutdown) (hr : p.reply? i = some (.ok ())) :
    ∃ reported, List.Forall₂ (ResultOf ms) reported p.results ∧
      reported.Perm (accepted ms p) := by
  obtain ⟨hset, hexited⟩ := h.settled_of_ok hi hr
  have hn : p.NoneLost := by
    intro w hw
    rw [hexited w (List.getElem?_eq_some_iff.1 hw).1] at hw
    cases hw
  obtain ⟨L⟩ := h.ledger hn
  exact ⟨L.reported, L.results heard, L.reported_perm h hset hexited⟩

/-- Every accepted submission has exactly one place: the queue, one worker, or one result. Once a
shutdown has succeeded each has its result, and there are no other results. -/
theorem Run.exactly_once (h : Run config ms p) (heard : p.isHeard = true)
    (fits : ∀ task, .submit task ∈ requests ms → task.operation.Fits) :
    ∃ queued held reported,
      List.Forall₂ (Submits ms) queued (p.queue.filterMap QueueItem.task?) ∧
      List.Forall₂ (HeldFor ms) held p.workers ∧
      List.Forall₂ (ResultOf ms) reported p.results ∧
      (queued ++ held.reduceOption ++ reported).Perm (accepted ms p) ∧
      ∀ i, (requests ms)[i]? = some .shutdown → p.reply? i = some (.ok ()) →
        reported.Perm (accepted ms p) ∧ p.queue = [] ∧ p.outstanding = 0 ∧
          ∀ j e, p.reply? j = some (.error e) → j ∉ reported := by
  obtain ⟨L⟩ := h.ledger (h.noneLost fits)
  refine ⟨L.queued, L.held, L.reported, L.queue, L.workers, L.results heard, L.complete,
    fun i hi hr => ?_⟩
  obtain ⟨hset, hexited⟩ := h.settled_of_ok hi hr
  have hperm := L.reported_perm h hset hexited
  refine ⟨hperm, h.queue_of_settled hset, hset.idle, fun j e he hj => ?_⟩
  have := accepts_iff.1 (mem_accepted.1 (hperm.mem_iff.1 hj)).2
  rw [he] at this
  cases this

theorem fits_trial : ∀ task, .submit task ∈ requests trial → task.operation.Fits := by
  intro task ht
  rw [show requests trial = [.submit trialTask, .shutdown] from rfl] at ht
  simp only [List.mem_cons, List.not_mem_nil, Request.submit.injEq, reduceCtorEq, or_false] at ht
  subst ht
  exact nofun

theorem exactly_once_trial :
    Run { workers := 1, queueCapacity := 1 } trial trialEnd ∧ trialEnd.isHeard = true ∧
      (∀ task, .submit task ∈ requests trial → task.operation.Fits) ∧
      trialEnd.reply? 1 = some (.ok ()) ∧
      ∃ reported, List.Forall₂ (ResultOf trial) reported trialEnd.results ∧
        reported.Perm (accepted trial trialEnd) ∧ trialEnd.outstanding = 0 := by
  have h := Run.of_moves? start_trial moves?_trial
  obtain ⟨queued, held, reported, -, -, hresults, -, hshut⟩ := Run.exactly_once h rfl fits_trial
  obtain ⟨hperm, -, hidle, -⟩ := hshut 1 rfl rfl
  exact ⟨h, rfl, fits_trial, rfl, reported, hresults, hperm, hidle⟩

end FaultDrill.Pool
