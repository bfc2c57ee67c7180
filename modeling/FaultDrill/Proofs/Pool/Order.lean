import FaultDrill.Proofs.Pool.Progress

/-! # The order of the tasks

Every task goes through the queue, which has one end for those that submit and one for the workers.
So tasks are taken in the order in which they were accepted, and no worker is idle while one waits.
-/

namespace FaultDrill

namespace WorkerStage

/-- The task that the worker has taken and not begun. -/
def held? : WorkerStage → Option Task
  | holding task => some task
  | _ => none

/-- The task that the worker executes. -/
def executes? : WorkerStage → Option Task
  | running task _ _ _ => some task
  | _ => none

/-- The time at which the delay of the handler is over. -/
def wake? : WorkerStage → Option Nat
  | running _ _ _ wake => some wake
  | _ => none

end WorkerStage

namespace Pool

/-- What some moves bring about, each with the time at which it was made. -/
def observe {α : Type} (f : Pool → Move → Pool → Option α) :
    Pool → List (Nat × Move) → List (Nat × α)
  | _, [] => []
  | p, (time, m) :: log =>
    (p.move? m).elim [] fun p' => ((f p m p').map (time, ·)).toList ++ p'.observe f log

/-- The task whose submission the move accepts. -/
def accepts? (p : Pool) (m : Move) (p' : Pool) : Option Task :=
  match m with
  | .client i =>
    match p.clients[i]?, p'.reply? i with
    | some (.counted task), some (.ok ()) => some task
    | _, _ => none
  | _ => none

/-- The task that a worker takes with the move. -/
def takes? (p : Pool) (m : Move) (p' : Pool) : Option Task :=
  match m with
  | .worker w =>
    match p.workers[w]?, p'.workers[w]? with
    | some .lined, some (.holding task) => some task
    | _, _ => none
  | _ => none

/-- The time for which the end of the handler is set that begins with the move. -/
def begins? (_ : Pool) (m : Move) (_ : Pool) : Option Nat :=
  match m with
  | .begin _ _ _ wake => some wake
  | _ => none

/-- The times for which handlers are set that begin with some moves. -/
def alarms (p : Pool) (log : List (Nat × Move)) : List Nat := (p.observe begins? log).map Prod.snd

/-- The task whose handler ends with the move. -/
def ends? (p : Pool) (m : Move) (_ : Pool) : Option Task :=
  match m with
  | .finish w _ _ => p.workers[w]?.bind WorkerStage.executes?
  | _ => none

/-- The tasks in the queue. -/
def queued (p : Pool) : List Task := p.queue.filterMap QueueItem.task?

variable {config : PoolConfig} {p p' p₀ q : Pool} {i w : Nat} {s s' : ClientStage}
  {v v' : WorkerStage} {m : Move} {ms : List Move} {log later : List (Nat × Move)} {time : Nat}

theorem observe_append {α : Type} {f : Pool → Move → Pool → Option α}
    (h : p₀.moves? (log.map Prod.snd) = some p) :
    p₀.observe f (log ++ later) = p₀.observe f log ++ p.observe f later := by
  induction log generalizing p₀ with
  | nil =>
    cases h
    rfl
  | cons x log ih =>
    obtain ⟨p₁, hp₁, h⟩ := moves?_cons.1 h
    simp only [List.cons_append, observe, hp₁, Option.elim_some, ih h, List.append_assoc]

theorem observe_snoc {α : Type} {f : Pool → Move → Pool → Option α}
    (h : p₀.moves? (log.map Prod.snd) = some p) (hm : p.move? m = some p') :
    p₀.observe f (log ++ [(time, m)]) = p₀.observe f log ++ ((f p m p').map (time, ·)).toList := by
  rw [observe_append h]
  simp [observe, hm]

theorem map_snd_toList {α : Type} (o : Option α) :
    (o.map (time, ·)).toList.map Prod.snd = o.toList := by
  cases o <;> rfl

/-- What moves bring about comes at the times of the moves. -/
theorem time_of_observe {α : Type} {f : Pool → Move → Pool → Option α} {x : Nat × α}
    (hx : x ∈ p.observe f log) : ∃ y ∈ log, y.1 = x.1 := by
  induction log generalizing p with
  | nil => cases hx
  | cons y log ih =>
    obtain ⟨time, m⟩ := y
    rw [observe] at hx
    cases hm : p.move? m with
    | none => simp [hm] at hx
    | some p' =>
      rw [hm, Option.elim_some] at hx
      rcases List.mem_append.1 hx with hx | hx
      · obtain ⟨a, -, rfl⟩ := Option.map_eq_some_iff.1 (Option.mem_toList.1 hx)
        exact ⟨_, List.mem_cons_self, rfl⟩
      · obtain ⟨y, hy, htime⟩ := ih hx
        exact ⟨y, List.mem_cons_of_mem _ hy, htime⟩

/-! ## First in, first out -/

theorem queued_congr (h : q.queue = p.queue) : q.queued = p.queued := by rw [queued, queued, h]

theorem accepts?_eq_none (hs : p.clients[i]? = some s) (h : ∀ task, s ≠ .counted task) :
    p.accepts? (.client i) p' = none := by
  simp only [accepts?, hs]
  split
  case h_1 task h' _ => exact (h task (Option.some.inj h')).elim
  case h_2 => rfl

theorem takes?_eq_none (hv : p.workers[w]? = some v) (h : v ≠ .lined) :
    p.takes? (.worker w) p' = none := by
  simp only [takes?, hv]
  split
  case h_1 h' _ => exact (h (Option.some.inj h')).elim
  case h_2 => rfl

theorem queue_of_abandon (h : p.move? (.abandon i) = some p') : p'.queue = p.queue := by
  simp only [move?, abandon?, Option.bind_eq_bind, Option.bind_eq_some_iff] at h
  obtain ⟨s, -, h⟩ := h
  split at h
  · cases h; rfl
  · cases h; rfl
  · cases h

theorem ClientStep.queued_eq (hs : p.clients[i]? = some s) (h : ClientStep p i s s' q) :
    (q.setClient i s').queued =
      p.queued ++ (p.accepts? (.client i) (q.setClient i s')).toList := by
  have hset : (q.setClient i s').clients[i]? = some s' := by
    have hlt : i < q.clients.length := by
      have hlt := (List.getElem?_eq_some_iff.1 hs).1
      rcases h.clients_eq with hq | hq <;> rw [hq]
      · exact hlt
      · rwa [List.length_map]
    exact List.getElem?_set_self hlt
  have keep (hqueue : (q.setClient i s').queue = p.queue)
      (hnone : p.accepts? (.client i) (q.setClient i s') = none) :
      (q.setClient i s').queued =
        p.queued ++ (p.accepts? (.client i) (q.setClient i s')).toList := by
    rw [hnone, Option.toList_none, List.append_nil, queued_congr hqueue]
  cases h with
  | @enqueue task =>
    have haccepts : p.accepts? (.client i)
        (({ p with queue := p.queue ++ [QueueItem.run task] }.releaseLatch .read).setClient i
          (.returned (.ok ()))) = some task := by
      simp only [accepts?, hs, reply?_eq_some_iff.2 hset]
    rw [haccepts]
    change (p.queue ++ [QueueItem.run task]).filterMap QueueItem.task? = _
    rw [List.filterMap_append]
    rfl
  | findNobody =>
    refine keep rfl ?_
    simp only [accepts?, hs, reply?_eq_some_iff.2 hset]
    rfl
  | enqueueStop =>
    rw [accepts?_eq_none hs (by simp), Option.toList_none, List.append_nil]
    change (p.queue ++ [QueueItem.stop]).filterMap QueueItem.task? = _
    rw [List.filterMap_append]
    exact List.append_nil _
  | _ => exact keep rfl (accepts?_eq_none hs (by simp))

theorem WorkerStep.queued_eq (hv : p.workers[w]? = some v) (h : WorkerStep p w m v v' q) :
    (p.takes? m (q.setWorker w v')).toList ++ (q.setWorker w v').queued = p.queued := by
  have hset : (q.setWorker w v').workers[w]? = some v' :=
    List.getElem?_set_self (h.workers_eq.symm ▸ (List.getElem?_eq_some_iff.1 hv).1)
  cases h with
  | @takeTask task line queue _ hq =>
    have htakes : p.takes? (.worker w) ({ p with line, queue }.setWorker w (.holding task)) =
        some task := by
      simp only [takes?, hv, hset]
    have hqueued : p.queued = task :: queue.filterMap QueueItem.task? := by rw [queued, hq]; rfl
    rw [htakes, hqueued]
    rfl
  | @takeStop line queue _ hq =>
    have htakes : p.takes? (.worker w) ({ p with line, queue }.setWorker w .stopTaken) = none := by
      simp only [takes?, hv, hset]
    have hqueued : p.queued = queue.filterMap QueueItem.task? := by rw [queued, hq]; rfl
    rw [htakes, hqueued]
    rfl
  | @findOver line =>
    have htakes : p.takes? (.worker w) ({ p with line }.setWorker w (.exited false)) = none := by
      simp only [takes?, hv, hset]
    rw [htakes]
    rfl
  | start | finish | crash => rfl
  | _ => rw [takes?_eq_none hv nofun]; rfl

/-- What is taken was at the front, and what is accepted comes to the end. -/
theorem queued_step (hm : p.move? m = some p') :
    (p.takes? m p').toList ++ p'.queued = p.queued ++ (p.accepts? m p').toList := by
  cases step_of_move? hm with
  | @client i s s' q _ hcall hs hc =>
    rcases hcall with ⟨rfl, -⟩ | rfl
    · exact hc.queued_eq hs
    · exact (queued_congr (queue_of_abandon hm)).trans (List.append_nil _).symm
  | @worker w v v' q _ hv hw =>
    have hnone : p.accepts? m (q.setWorker w v') = none := by cases hw <;> rfl
    rw [hnone, Option.toList_none, List.append_nil]
    exact hw.queued_eq hv
  | call | detach | deafen => exact (List.append_nil _).symm

/-- The tasks that were accepted are those that were taken and after them those that are queued. -/
theorem taken_append_queued (hstart : p₀.queue = [])
    (hrun : p₀.moves? (log.map Prod.snd) = some p) :
    (p₀.observe takes? log).map Prod.snd ++ p.queued =
      (p₀.observe accepts? log).map Prod.snd := by
  induction log using List.reverseRecOn generalizing p with
  | nil =>
    cases hrun
    rw [queued, hstart]
    rfl
  | append_singleton log x ih =>
    obtain ⟨time, m⟩ := x
    rw [List.map_append] at hrun
    obtain ⟨q, hq, hm⟩ := moves?_snoc.1 hrun
    rw [observe_snoc hq hm, observe_snoc hq hm, List.map_append, List.map_append, map_snd_toList,
      map_snd_toList, List.append_assoc, queued_step hm, ← List.append_assoc, ih hq]

/-! ## The tasks by how far they have come -/

/-- The task that a worker begins with the move. -/
def starts? (p : Pool) (m : Move) (_ : Pool) : Option Task :=
  match m with
  | .begin w _ _ _ => p.workers[w]?.bind WorkerStage.held?
  | _ => none

/-- The time for which the end of the handler was set that ends with the move. -/
def due? (p : Pool) (m : Move) (_ : Pool) : Option Nat :=
  match m with
  | .finish w _ _ => p.workers[w]?.bind WorkerStage.wake?
  | _ => none

/-- The tasks that workers hold. -/
def held (p : Pool) : List Task := p.workers.filterMap WorkerStage.held?

/-- The tasks that workers execute. -/
def executing (p : Pool) : List Task := p.workers.filterMap WorkerStage.executes?

/-- The tasks that were accepted and whose handlers have not ended. -/
def unfinished (p : Pool) : List Task := p.executing ++ p.held ++ p.queued

/-- The times for which the handlers are set that execute. -/
def wakes (p : Pool) : List Nat := p.workers.filterMap WorkerStage.wake?

theorem length_wakes (p : Pool) : p.wakes.length = p.runningCount := by
  rw [wakes, runningCount, List.length_filterMap_eq_countP]
  refine List.countP_congr fun v _ => ?_
  cases v <;> rfl

theorem length_executing (p : Pool) : p.executing.length = p.runningCount := by
  rw [executing, runningCount, List.length_filterMap_eq_countP]
  refine List.countP_congr fun v _ => ?_
  cases v <;> rfl

theorem WorkerStep.filterMap_perm {β : Type} (f : WorkerStage → Option β)
    (hv : p.workers[w]? = some v) (h : WorkerStep p w m v v' q) :
    ((f v).toList ++ (q.setWorker w v').workers.filterMap f).Perm
      ((f v').toList ++ p.workers.filterMap f) := by
  rw [setWorker, h.workers_eq]
  exact filterMap_set_perm hv

/-- A handler that begins is set for a time, and it is no longer when it has ended. -/
theorem wakes_step (hm : p.move? m = some p') :
    ((p.due? m p').toList ++ p'.wakes).Perm ((p.begins? m p').toList ++ p.wakes) := by
  cases step_of_move? hm with
  | @client i s s' q _ hcall _ hc =>
    have hwakes : (q.setClient i s').wakes = p.wakes := congrArg (List.filterMap _) hc.workers_eq
    rw [hwakes]
    rcases hcall with ⟨rfl, -⟩ | rfl <;> exact .refl _
  | worker hv hw =>
    have hperm := hw.filterMap_perm WorkerStage.wake? hv
    cases hw with
    | finish | crash => simp only [due?, hv]; exact hperm
    | _ => exact hperm
  | call | detach | deafen => exact .refl _

/-- A task that is taken is held until a worker begins with it. -/
theorem held_step (hm : p.move? m = some p') :
    ((p.starts? m p').toList ++ p'.held).Perm ((p.takes? m p').toList ++ p.held) := by
  cases step_of_move? hm with
  | @client i s s' q _ hcall _ hc =>
    have hheld : (q.setClient i s').held = p.held := congrArg (List.filterMap _) hc.workers_eq
    rw [hheld]
    rcases hcall with ⟨rfl, -⟩ | rfl <;> exact .refl _
  | @worker w v v' q _ hv hw =>
    have hperm := hw.filterMap_perm WorkerStage.held? hv
    have hset : (q.setWorker w v').workers[w]? = some v' :=
      List.getElem?_set_self (hw.workers_eq.symm ▸ (List.getElem?_eq_some_iff.1 hv).1)
    cases hw with
    | start => simp only [starts?, hv]; exact hperm
    | finish | crash => exact hperm
    | takeTask | takeStop | findOver => simp only [takes?, hv, hset]; exact hperm
    | _ => rw [takes?_eq_none hv (by simp)]; exact hperm
  | call | detach | deafen => exact .refl _

/-- A task that a worker begins with is executed until its handler ends. -/
theorem executing_step (hm : p.move? m = some p') :
    ((p.ends? m p').toList ++ p'.executing).Perm ((p.starts? m p').toList ++ p.executing) := by
  cases step_of_move? hm with
  | @client i s s' q _ hcall _ hc =>
    have hexecuting : (q.setClient i s').executing = p.executing :=
      congrArg (List.filterMap _) hc.workers_eq
    rw [hexecuting]
    rcases hcall with ⟨rfl, -⟩ | rfl <;> exact .refl _
  | worker hv hw =>
    have hperm := hw.filterMap_perm WorkerStage.executes? hv
    cases hw with
    | start => simp only [starts?, hv]; exact hperm
    | finish | crash => simp only [ends?, hv]; exact hperm
    | _ => exact hperm
  | call | detach | deafen => exact .refl _

/-- What has come in is what has gone out and what is there. -/
theorem observed_perm {β : Type} {f : WorkerStage → Option β}
    {gains loses : Pool → Move → Pool → Option β} (hstart : p₀.workers.filterMap f = [])
    (hstep : ∀ p m p', p.move? m = some p' →
      ((loses p m p').toList ++ p'.workers.filterMap f).Perm
        ((gains p m p').toList ++ p.workers.filterMap f))
    (hrun : p₀.moves? (log.map Prod.snd) = some p) :
    ((p₀.observe gains log).map Prod.snd).Perm
      ((p₀.observe loses log).map Prod.snd ++ p.workers.filterMap f) := by
  induction log using List.reverseRecOn generalizing p with
  | nil =>
    cases hrun
    rw [hstart]
    exact .refl _
  | append_singleton log x ih =>
    obtain ⟨time, m⟩ := x
    rw [List.map_append] at hrun
    obtain ⟨q, hq, hm⟩ := moves?_snoc.1 hrun
    rw [observe_snoc hq hm, observe_snoc hq hm, List.map_append, List.map_append, map_snd_toList,
      map_snd_toList, List.append_assoc]
    refine ((ih hq).append_right _).trans ?_
    rw [List.append_assoc]
    exact (List.perm_append_comm.trans (hstep q m p hm).symm).append_left _

/-- Two things that happen with the same moves happen at the same times. -/
theorem map_fst_observe {α β : Type} {f : Pool → Move → Pool → Option α}
    {g : Pool → Move → Pool → Option β}
    (h : ∀ p m p', p.move? m = some p' → (f p m p').isSome = (g p m p').isSome) :
    (p₀.observe f log).map Prod.fst = (p₀.observe g log).map Prod.fst := by
  induction log generalizing p₀ with
  | nil => rfl
  | cons x log ih =>
    obtain ⟨time, m⟩ := x
    cases hm : p₀.move? m with
    | none => simp [observe, hm]
    | some p' =>
      have hfst {γ : Type} (o : Option γ) :
          ((o.map (time, ·)).toList).map Prod.fst = if o.isSome then [time] else [] := by
        cases o <;> rfl
      simp only [observe, hm, Option.elim_some, List.map_append, hfst, h p₀ m p' hm, ih]

theorem starts?_isSome (hm : p.move? m = some p') :
    (p.starts? m p').isSome = (p.begins? m p').isSome := by
  cases step_of_move? hm with
  | client hcall => rcases hcall with ⟨rfl, -⟩ | rfl <;> rfl
  | worker hv hw =>
    cases hw with
    | start => simp [starts?, begins?, hv, WorkerStage.held?]
    | _ => rfl
  | call | detach | deafen => rfl

theorem ends?_isSome (hm : p.move? m = some p') :
    (p.ends? m p').isSome = (p.due? m p').isSome := by
  cases step_of_move? hm with
  | client hcall => rcases hcall with ⟨rfl, -⟩ | rfl <;> rfl
  | worker hv hw =>
    cases hw with
    | finish | crash => simp [ends?, due?, hv, WorkerStage.executes?, WorkerStage.wake?]
    | _ => rfl
  | call | detach | deafen => rfl

/-- A worker that holds a task does not execute one. -/
theorem runningCount_lt (hheld : p.held ≠ []) : p.runningCount < p.workers.length := by
  refine Nat.lt_of_le_of_ne List.countP_le_length fun hall => hheld ?_
  refine List.filterMap_eq_nil_iff.2 fun v hv => ?_
  have hrunning := List.countP_eq_length.1 hall v hv
  cases v <;> first | rfl | cases hrunning

/-! ## From the start -/

theorem filterMap_workers_of_start {name : String} {β : Type} {f : WorkerStage → Option β}
    (hstart : Pool.start name config = .ok p₀) (hf : f .ready = none) :
    p₀.workers.filterMap f = [] := by
  refine List.filterMap_eq_nil_iff.2 fun v hv => ?_
  obtain ⟨w, hw⟩ := List.mem_iff_getElem?.1 hv
  rw [ready_of_start hstart hw, hf]

section

variable {name : String} (hstart : Pool.start name config = .ok p₀)
  (hrun : p₀.moves? (log.map Prod.snd) = some p)
include hstart hrun

theorem fifo : (p₀.observe takes? log).map Prod.snd ++ p.queued =
    (p₀.observe accepts? log).map Prod.snd := by
  refine taken_append_queued ?_ hrun
  rw [(start_eq hstart).2]

theorem taken_perm : ((p₀.observe takes? log).map Prod.snd).Perm
    ((p₀.observe starts? log).map Prod.snd ++ p.held) :=
  observed_perm (filterMap_workers_of_start hstart rfl) (fun _ _ _ => held_step) hrun

theorem started_perm : ((p₀.observe starts? log).map Prod.snd).Perm
    ((p₀.observe ends? log).map Prod.snd ++ p.executing) :=
  observed_perm (filterMap_workers_of_start hstart rfl) (fun _ _ _ => executing_step) hrun

/-- The tasks that were accepted are those whose handlers have ended and the unfinished ones. -/
theorem accepted_perm_unfinished : ((p₀.observe accepts? log).map Prod.snd).Perm
    ((p₀.observe ends? log).map Prod.snd ++ p.unfinished) := by
  rw [← fifo hstart hrun, unfinished, ← List.append_assoc, ← List.append_assoc]
  refine List.Perm.append_right _ ((taken_perm hstart hrun).trans ?_)
  exact (started_perm hstart hrun).append_right _

theorem alarms_perm : (p₀.alarms log).Perm ((p₀.observe due? log).map Prod.snd ++ p.wakes) :=
  observed_perm (filterMap_workers_of_start hstart rfl) (fun _ _ _ => wakes_step) hrun

theorem length_taken : (p₀.observe takes? log).length =
    (p₀.alarms log).length + p.held.length := by
  have hlength := (taken_perm hstart hrun).length_eq
  have hsame : (p₀.observe starts? log).map Prod.fst = (p₀.observe begins? log).map Prod.fst :=
    map_fst_observe fun _ _ _ => starts?_isSome
  replace hsame := congrArg List.length hsame
  simp only [alarms, List.length_map, List.length_append] at hlength hsame ⊢
  omega

theorem length_alarms : (p₀.alarms log).length =
    (p₀.observe ends? log).length + p.runningCount := by
  have hlength := (alarms_perm hstart hrun).length_eq
  have hsame : (p₀.observe ends? log).map Prod.fst = (p₀.observe due? log).map Prod.fst :=
    map_fst_observe fun _ _ _ => ends?_isSome
  replace hsame := congrArg List.length hsame
  simp only [List.length_map, List.length_append, length_wakes] at hlength hsame ⊢
  omega

theorem length_accepted : (p₀.observe accepts? log).length =
    (p₀.observe takes? log).length + p.queued.length := by
  have hfifo := congrArg List.length (fifo hstart hrun)
  simp only [List.length_map, List.length_append] at hfifo
  exact hfifo.symm

end

/-! ## Nobody is idle while a task waits -/

/-- Workers wait in the line, for a handler or for nothing any more. -/
structure Idle (p : Pool) : Prop where
  workers : ∀ w, p.move? (.worker w) = none
  begins : ∀ w phase now wake, p.move? (.begin w phase now wake) = none

theorem Idle.worker_cases (hp : p.Idle) (hn : p.NoneLost) (hv : p.workers[w]? = some v) :
    v = .lined ∨ v = .exited false ∨ v.isRunning = true := by
  have h := hp.workers w
  simp only [move?, stepWorker?, hv, Option.bind_eq_bind, Option.bind_some] at h
  cases v with
  | lined => exact .inl rfl
  | running => exact .inr (.inr rfl)
  | exited lost =>
    cases lost with
    | false => exact .inr (.inl rfl)
    | true => exact absurd hv (hn w)
  | holding task =>
    have hbegin := hp.begins w .preFault .zero 0
    simp [move?, begin?, hv] at hbegin
  | acknowledged last | stopAcknowledged last => cases last <;> cases h
  | _ => cases h

theorem Idle.held_eq_nil (hp : p.Idle) (hn : p.NoneLost) : p.held = [] := by
  refine List.filterMap_eq_nil_iff.2 fun v hv => ?_
  obtain ⟨w, hw⟩ := List.mem_iff_getElem?.1 hv
  rcases hp.worker_cases hn hw with rfl | rfl | hrunning
  · rfl
  · rfl
  · cases v <;> first | rfl | cases hrunning

/-- While a task waits, every worker executes a handler: none of them is in line for the queue, and
none has left before the queue has run out of tasks. -/
theorem Idle.all_running (hp : p.Idle) (h : Run config ms p) (hn : p.NoneLost)
    (hqueued : p.queued ≠ []) : ∀ v ∈ p.workers, v.isRunning = true := by
  intro v hv
  obtain ⟨w, hw⟩ := List.mem_iff_getElem?.1 hv
  obtain ⟨tasks, n, hqueue, htasks⟩ := h.sorted hn
  rcases hp.worker_cases hn hw with rfl | rfl | hrunning
  · exfalso
    have hline : w ∈ p.line := (h.lineKept.mem_iff w).2 hw
    obtain ⟨first, line, hl⟩ := List.exists_cons_of_ne_nil (List.ne_nil_of_mem hline)
    have hfirst := (h.lineKept.mem_iff first).1 (hl ▸ List.mem_cons_self)
    have hitems : p.queue ≠ [] := fun hnil => hqueued (by rw [queued, hnil]; rfl)
    obtain ⟨item, queue, hqu⟩ := List.exists_cons_of_ne_nil hitems
    have hstuck := hp.workers first
    simp [move?, stepWorker?, hfirst, dequeue, hl, hqu] at hstuck
  · exfalso
    rcases htasks with rfl | hnone
    · refine hqueued ?_
      rw [queued, hqueue, List.map_nil, List.nil_append]
      exact List.filterMap_replicate_of_none rfl
    · have hsum := sum_set (getElem?_map_eq WorkerStage.stops hw) 0
      simp only [WorkerStage.stops] at hsum
      omega
  · exact hrunning

/-- As many handlers execute as there are workers and tasks for them. -/
theorem Idle.runningCount_eq (hp : p.Idle) (h : Run config ms p) (hn : p.NoneLost) :
    p.runningCount = min config.workers.toNat p.unfinished.length := by
  have hlength := h.workers_length.1
  have hunfinished : p.unfinished.length = p.runningCount + p.queued.length := by
    rw [unfinished, hp.held_eq_nil hn, List.append_nil, List.length_append, length_executing]
  have hle : p.runningCount ≤ p.workers.length := List.countP_le_length
  by_cases hqueued : p.queued = []
  · rw [hqueued, List.length_nil] at hunfinished
    omega
  · have hall : p.runningCount = p.workers.length :=
      List.countP_eq_length.2 (hp.all_running h hn hqueued)
    omega

end Pool

end FaultDrill
