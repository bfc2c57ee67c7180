import Mathlib.Logic.Function.Basic
import Mathlib.Data.List.Induction
import FaultDrill.Proofs.Pool.Step

/-! # Runs of a pool

A run is a sequence of moves. The calls of a run are numbered in the order in which they
were made, and every call stays at stages of its own request.
-/

namespace FaultDrill.ClientStage

/-- A call that was made with this request can be at this stage. -/
def Serves : Pool.Request → ClientStage → Prop
  | .submit task, arrived t | .submit task, asking t | .submit task, awaitingPermit t
  | .submit task, permitted t | .submit task, awaitingRead t | .submit task, admitted t
  | .submit task, counted t => t = task
  | .submit _, refused | .submit _, dropped | .submit _, returned _ => True
  | .shutdown, leaving | .shutdown, awaitingWrite | .shutdown, exclusive
  | .shutdown, stopping _ _ | .shutdown, draining | .shutdown, listening _
  | .shutdown, asleep _ | .shutdown, joining _ | .shutdown, closing
  | .shutdown, returned _ => True
  | _, _ => False

variable {s : ClientStage} {request : Pool.Request}

theorem serves_hear (h : s.Serves request) : s.hear.Serves request := by
  cases request <;> cases s <;> exact h

theorem serves_stage (request : Pool.Request) : request.stage.Serves request := by
  cases request <;> trivial

end FaultDrill.ClientStage

namespace FaultDrill.Pool

/-- The call that a move makes. -/
def Move.request? : Move → Option Request
  | .call request => some request
  | _ => none

/-- The calls that some moves make, in order. -/
def requests (ms : List Move) : List Request := ms.filterMap Move.request?

/-- What a pool that is started with this configuration comes to by a sequence of moves. -/
inductive Run (config : PoolConfig) : List Move → Pool → Prop
  | start {name p} : Pool.start name config = .ok p → Run config [] p
  | move {ms p m p'} : Run config ms p → p.move? m = some p' → Run config (ms ++ [m]) p'

variable {config : PoolConfig} {p p' q : Pool} {i w : Nat} {s s' : ClientStage}
  {v v' : WorkerStage} {m : Move} {ms : List Move}

/-- A pool starts with its workers about to line up and with all permits free. -/
theorem start_eq {name : String} (h : Pool.start name config = .ok p) :
    0 < config.workers.toNat ∧
      p = {
        name
        workers := List.replicate config.workers.toNat .ready
        gate := if config.queueCapacity = 0 then none
          else some { free := config.queueCapacity.toNat } } := by
  unfold Pool.start at h
  split at h
  case isTrue => cases h
  case isFalse hw =>
    split at h
    case isTrue => cases h
    case isFalse =>
      split at h
      case isTrue => cases h
      case isFalse =>
        cases h
        exact ⟨Nat.pos_of_ne_zero fun h => hw (UInt64.toNat_inj.1 h), rfl⟩

theorem ready_of_start {name : String} (h : Pool.start name config = .ok p)
    (hv : p.workers[w]? = some v) : v = .ready := by
  rw [(start_eq h).2, List.getElem?_replicate] at hv
  split at hv <;> cases hv
  rfl

/-- What a sequence of moves leads to; none if one of them is not possible. -/
def moves? (p : Pool) (ms : List Move) : Option Pool := ms.foldlM move? p

theorem moves?_snoc : p.moves? (ms ++ [m]) = some p' ↔
    ∃ q, p.moves? ms = some q ∧ q.move? m = some p' := by
  simp [moves?, Option.bind_eq_some_iff]

theorem moves?_cons : p.moves? (m :: ms) = some p' ↔
    ∃ q, p.move? m = some q ∧ q.moves? ms = some p' := by
  simp [moves?, Option.bind_eq_some_iff]

theorem moves?_append {later : List Move} (h : p.moves? ms = some q) :
    p.moves? (ms ++ later) = q.moves? later := by
  rw [moves?, List.foldlM_append, show ms.foldlM move? p = some q from h]
  rfl

/-- Whatever is reached by moves from the start is reached by a run. -/
theorem Run.of_moves? {name : String} {p₀ : Pool} (hstart : Pool.start name config = .ok p₀)
    (h : p₀.moves? ms = some p) : Run config ms p := by
  induction ms using List.reverseRecOn generalizing p with
  | nil =>
    cases h
    exact .start hstart
  | append_singleton ms m ih =>
    obtain ⟨q, hq, hm⟩ := moves?_snoc.1 h
    exact .move (ih hq) hm

theorem requests_snoc (ms : List Move) (m : Move) :
    requests (ms ++ [m]) = requests ms ++ m.request?.toList := by
  unfold requests
  cases h : m.request? <;> simp [h]

/-! ## What a step leaves alone -/

theorem ClientStep.workers_eq (h : ClientStep p i s s' q) : q.workers = p.workers := by
  cases h <;> rfl

theorem ClientStep.line_eq (h : ClientStep p i s s' q) : q.line = p.line := by cases h <;> rfl

theorem ClientStep.results_eq (h : ClientStep p i s s' q) : q.results = p.results := by
  cases h <;> rfl

theorem ClientStep.isOpen_eq (h : ClientStep p i s s' q) : q.isOpen = p.isOpen := by
  cases h <;> rfl

theorem ClientStep.isHeard_eq (h : ClientStep p i s s' q) : q.isHeard = p.isHeard := by
  cases h <;> rfl

theorem ClientStep.name_eq (h : ClientStep p i s s' q) : q.name = p.name := by cases h <;> rfl

theorem WorkerStep.name_eq (h : WorkerStep p w m v v' q) : q.name = p.name := by cases h <;> rfl

theorem WorkerStep.workers_eq (h : WorkerStep p w m v v' q) : q.workers = p.workers := by
  cases h <;> rfl

theorem WorkerStep.latch_eq (h : WorkerStep p w m v v' q) : q.latch = p.latch := by
  cases h <;> rfl

theorem WorkerStep.shutDown_eq (h : WorkerStep p w m v v' q) : q.shutDown = p.shutDown := by
  cases h <;> rfl

theorem WorkerStep.isOpen_eq (h : WorkerStep p w m v v' q) : q.isOpen = p.isOpen := by
  cases h <;> rfl

theorem WorkerStep.isHeard_eq (h : WorkerStep p w m v v' q) : q.isHeard = p.isHeard := by
  cases h <;> rfl

theorem WorkerStep.request?_eq (h : WorkerStep p w m v v' q) : m.request? = none := by
  cases h <;> rfl

/-- Other calls may hear that the pool is idle, and that is all that happens to them. -/
theorem ClientStep.clients_eq (h : ClientStep p i s s' q) :
    q.clients = p.clients ∨ q.clients = p.clients.map ClientStage.hear := by
  have heard : p.uncount.clients = p.clients ∨ p.uncount.clients = p.clients.map .hear := by
    simp only [uncount]
    split
    · exact .inr rfl
    · exact .inl rfl
  cases h with
  | findNobody | loseStop => exact heard
  | _ => exact .inl rfl

theorem WorkerStep.clients_eq (h : WorkerStep p w m v v' q) :
    q.clients = p.clients ∨ q.clients = p.clients.map ClientStage.hear := by
  cases h with
  | announce | announceStop => exact .inr rfl
  | _ => exact .inl rfl

/-! ## Roles

A role is what hearing a notice does not change about a call. -/

section Roles

variable {β : Type} {r : ClientStage → β}

theorem map_role (hr : ∀ s, r s.hear = r s) {xs : List ClientStage}
    (h : xs = p.clients ∨ xs = p.clients.map ClientStage.hear) :
    xs.map r = p.clients.map r := by
  rcases h with rfl | rfl
  · rfl
  · rw [List.map_map]
    exact List.map_congr_left fun s _ => hr s

theorem ClientStep.map_role (h : ClientStep p i s s' q) (hr : ∀ s, r s.hear = r s) :
    (q.setClient i s').clients.map r = (p.clients.map r).set i (r s') := by
  rw [setClient, List.map_set, Pool.map_role hr h.clients_eq]

theorem WorkerStep.map_role (h : WorkerStep p w m v v' q) (hr : ∀ s, r s.hear = r s) :
    (q.setWorker w v').clients.map r = p.clients.map r :=
  Pool.map_role hr h.clients_eq

/-- The role that call `i` has, if it has one. -/
def role (r : ClientStage → Option β) (p : Pool) (i : Nat) : Option β := (p.clients.map r)[i]?.join

variable {r : ClientStage → Option β}

theorem role_eq (hs : p.clients[i]? = some s) : p.role r i = r s := by simp [role, hs]

theorem role_eq_some_iff {b : β} :
    p.role r i = some b ↔ ∃ s, p.clients[i]? = some s ∧ r s = some b := by
  simp only [role, List.getElem?_map, Option.join_eq_some_iff, Option.map_eq_some_iff]

theorem ClientStep.role_eq (hs : p.clients[i]? = some s) (h : ClientStep p i s s' q)
    (hr : ∀ s, r s.hear = r s) :
    (q.setClient i s').role r = Function.update (p.role r) i (r s') := by
  funext j
  unfold role
  rw [h.map_role hr]
  by_cases hj : j = i
  · subst hj
    simp [List.getElem?_set_self', hs]
  · simp [List.getElem?_set_ne (Ne.symm hj), hj]

theorem ClientStep.role_same (hs : p.clients[i]? = some s) (h : ClientStep p i s s' q)
    (hr : ∀ s, r s.hear = r s) (hsame : r s' = r s) : (q.setClient i s').role r = p.role r := by
  have hi := Pool.role_eq (r := r) hs
  rw [ClientStep.role_eq hs h hr, hsame, ← hi, Function.update_eq_self]

theorem WorkerStep.role_eq (h : WorkerStep p w m v v' q) (hr : ∀ s, r s.hear = r s) :
    (q.setWorker w v').role r = p.role r := by
  unfold role
  rw [h.map_role hr]

theorem role_call {request : Request} (hr : r request.stage = none) :
    (p.call request).role r = p.role r := by
  funext j
  simp only [role, Pool.call, List.map_append, List.map_cons, List.map_nil, hr,
    List.getElem?_append]
  split
  · rfl
  · rename_i hj
    rw [List.getElem?_eq_none (l := p.clients.map r) (Nat.not_lt.1 hj)]
    cases j - (p.clients.map r).length <;> rfl

end Roles

/-! ## One call and one worker -/

/-- A call that is there after a step stays as it was, takes the step, or has just been made. -/
theorem Step.client_cases (h : Step p m p') {j : Nat} (hj : p'.clients[j]? = some s') :
    (∃ s, p.clients[j]? = some s ∧ (s' = s ∨ s' = s.hear)) ∨
      (∃ s q, p.clients[j]? = some s ∧ ClientStep p j s s' q ∧ p' = q.setClient j s' ∧
        (m = .client j ∧ s' ≠ .dropped ∨ m = .abandon j)) ∨
        ∃ request, m = .call request ∧ p.isOpen = true ∧ j = p.clients.length ∧
          s' = request.stage := by
  have kept {q : Pool} (hq : q.clients = p.clients ∨ q.clients = p.clients.map ClientStage.hear)
      (hj : q.clients[j]? = some s') : ∃ s, p.clients[j]? = some s ∧ (s' = s ∨ s' = s.hear) := by
    rcases hq with hq | hq <;> rw [hq] at hj
    · exact ⟨s', hj, .inl rfl⟩
    · rw [List.getElem?_map, Option.map_eq_some_iff] at hj
      obtain ⟨s, hs, rfl⟩ := hj
      exact ⟨s, hs, .inr rfl⟩
  cases h with
  | @call request ho =>
    simp only [Pool.call, List.getElem?_append] at hj
    split at hj
    · exact .inl ⟨s', hj, .inl rfl⟩
    · rename_i hlt
      obtain ⟨hlt', rfl⟩ := List.getElem?_eq_some_iff.1 hj
      simp only [List.length_singleton] at hlt'
      exact .inr (.inr ⟨request, rfl, ho, by omega, by simp⟩)
  | @client i s s'' q _ hm hs hc =>
    by_cases hij : i = j
    · subst hij
      simp only [setClient, List.getElem?_set_self'] at hj
      obtain ⟨-, -, rfl⟩ := Option.map_eq_some_iff.1 hj
      exact .inr (.inl ⟨s, q, hs, hc, rfl, hm⟩)
    · simp only [setClient, List.getElem?_set_ne hij] at hj
      exact .inl (kept hc.clients_eq hj)
  | worker hs hw => exact .inl (kept hw.clients_eq hj)
  | detach => exact .inl ⟨s', hj, .inl rfl⟩
  | deafen => exact .inl ⟨s', hj, .inl rfl⟩

theorem Step.worker_cases (h : Step p m p') (hw : p'.workers[w]? = some v') :
    p.workers[w]? = some v' ∨
      ∃ v q, p.workers[w]? = some v ∧ WorkerStep p w m v v' q ∧ p' = q.setWorker w v' := by
  cases h with
  | client hm hs hc =>
    rw [setClient, hc.workers_eq] at hw
    exact .inl hw
  | @worker u v v'' q _ hv hs =>
    by_cases huw : u = w
    · subst huw
      simp only [setWorker, List.getElem?_set_self'] at hw
      obtain ⟨-, -, rfl⟩ := Option.map_eq_some_iff.1 hw
      exact .inr ⟨v, q, hv, hs, rfl⟩
    · simp only [setWorker, List.getElem?_set_ne huw, hs.workers_eq] at hw
      exact .inl hw
  | _ => exact .inl hw

theorem Step.clients_length (h : Step p m p') :
    p'.clients.length = p.clients.length + m.request?.toList.length := by
  have kept {q : Pool} (hq : q.clients = p.clients ∨ q.clients = p.clients.map ClientStage.hear) :
      q.clients.length = p.clients.length := by
    rcases hq with hq | hq <;> simp [hq]
  cases h with
  | call => simp [Pool.call, Move.request?]
  | client hm hs hc =>
    rcases hm with ⟨rfl, -⟩ | rfl <;> simp [setClient, kept hc.clients_eq, Move.request?]
  | worker hv hs => simp [setWorker, kept hs.clients_eq, hs.request?_eq]
  | detach => rfl
  | deafen => rfl

theorem Step.workers_length (h : Step p m p') : p'.workers.length = p.workers.length := by
  cases h with
  | client hm hs hc => rw [setClient, hc.workers_eq]
  | worker hv hs => rw [setWorker, List.length_set, hs.workers_eq]
  | _ => rfl

theorem Step.name_eq (h : Step p m p') : p'.name = p.name := by
  cases h with
  | client _ _ hc => exact hc.name_eq
  | worker _ hs => exact hs.name_eq
  | _ => rfl

theorem name_eq_of_moves? (h : p.moves? ms = some p') : p'.name = p.name := by
  induction ms generalizing p with
  | nil => cases h; rfl
  | cons m ms ih =>
    obtain ⟨q, hm, h⟩ := moves?_cons.1 h
    exact (ih h).trans (step_of_move? hm).name_eq

theorem Run.workers_length (h : Run config ms p) :
    p.workers.length = config.workers.toNat ∧ 0 < config.workers.toNat := by
  induction h with
  | start h => rw [(start_eq h).2]; exact ⟨List.length_replicate, (start_eq h).1⟩
  | move _ hm ih => rw [(step_of_move? hm).workers_length]; exact ih

/-! ## Requests -/

theorem ClientStep.serves {request : Request} (h : ClientStep p i s s' q)
    (hs : s.Serves request) : s'.Serves request := by
  cases h <;> cases request <;> first | exact hs | trivial

theorem getElem?_requests_left {j : Nat} {request : Request} (hs : p.clients[j]? = some s)
    (hlen : p.clients.length = (requests ms).length)
    (h : (requests ms ++ m.request?.toList)[j]? = some request) :
    (requests ms)[j]? = some request := by
  have hlt := (List.getElem?_eq_some_iff.1 hs).1
  rwa [List.getElem?_append_left (hlen ▸ hlt)] at h

/-- Every call is at a stage of the request that it was made with. -/
theorem Run.serves (h : Run config ms p) :
    p.clients.length = (requests ms).length ∧
      ∀ (j : Nat) (s : ClientStage) request, p.clients[j]? = some s →
        (requests ms)[j]? = some request → s.Serves request := by
  induction h with
  | start h => simp [(start_eq h).2, requests]
  | @move ms p m p' _ hm ih =>
    obtain ⟨hlen, ih⟩ := ih
    have hstep := step_of_move? hm
    refine ⟨?_, fun j s' request hj hr => ?_⟩
    · rw [requests_snoc, List.length_append, ← hlen]
      exact hstep.clients_length
    · rw [requests_snoc] at hr
      rcases hstep.client_cases hj with
        ⟨s, hs, hs'⟩ | ⟨s, q, hs, hc, -⟩ | ⟨request', rfl, -, hj', rfl⟩
      · have hr' := getElem?_requests_left hs hlen hr
        rcases hs' with rfl | rfl
        · exact ih j _ _ hs hr'
        · exact ClientStage.serves_hear (ih j _ _ hs hr')
      · exact hc.serves (ih j _ _ hs (getElem?_requests_left hs hlen hr))
      · subst hj'
        rw [hlen, List.getElem?_append_right (Nat.le_refl _)] at hr
        simp only [Nat.sub_self, Move.request?, Option.toList_some, List.getElem?_cons_zero,
          Option.some.injEq] at hr
        subst hr
        exact ClientStage.serves_stage request'

/-- A call is given up only by whoever made it. -/
theorem Run.dropped (h : Run config ms p) (hs : p.clients[i]? = some .dropped) :
    .abandon i ∈ ms := by
  induction h generalizing i with
  | start h => rw [(start_eq h).2] at hs; cases hs
  | @move ms p m p' _ hm ih =>
    rw [List.mem_append, List.mem_singleton]
    rcases (step_of_move? hm).client_cases hs with
      ⟨s, hs, hs'⟩ | ⟨s, q, -, -, -, hm⟩ | ⟨request, -, -, -, hs'⟩
    · refine .inl (ih ?_)
      rcases hs' with rfl | hs'
      · exact hs
      · cases s <;> cases hs'
        exact hs
    · rcases hm with ⟨-, hne⟩ | rfl
      · exact absurd rfl hne
      · exact .inr rfl
    · cases request <;> cases hs'

/-! ## Replies -/

theorem reply?_eq_some_iff {reply : Except DrillError Unit} :
    p.reply? i = some reply ↔ p.clients[i]? = some (.returned reply) := by
  simp only [reply?, Option.bind_eq_bind, Option.bind_eq_some_iff]
  constructor
  · rintro ⟨s, hs, h⟩
    split at h
    · cases h
      exact hs
    · cases h
  · intro h
    exact ⟨_, h, rfl⟩

/-- What a call has returned stays its answer. -/
theorem Step.reply?_eq (h : Step p m p') {reply : Except DrillError Unit}
    (hr : p.reply? i = some reply) : p'.reply? i = some reply := by
  rw [reply?_eq_some_iff] at hr ⊢
  have hlt := (List.getElem?_eq_some_iff.1 hr).1
  obtain ⟨s', hs'⟩ : ∃ s', p'.clients[i]? = some s' :=
    ⟨_, List.getElem?_eq_getElem (h.clients_length ▸ Nat.lt_add_right _ hlt)⟩
  rw [hs']
  rcases h.client_cases hs' with ⟨s, hs, heq⟩ | ⟨s, q, hs, hc, -⟩ | ⟨_, -, -, hi, -⟩
  · rw [hr] at hs
    cases hs
    rcases heq with rfl | rfl <;> rfl
  · rw [hr] at hs
    cases hs
    cases hc
  · omega

/-! ## The end of a pool -/

theorem ClientStep.not_isOver (h : ClientStep p i s s' q) : s.isOver = false := by
  cases h <;> rfl

/-- A pool is let go once no call is in progress, and nobody calls it after that. -/
theorem Run.isOver (h : Run config ms p) (hp : p.isOpen = false) {j : Nat} {s : ClientStage}
    (hj : p.clients[j]? = some s) : s.isOver = true := by
  induction h generalizing s with
  | start h => rw [(start_eq h).2] at hp; cases hp
  | @move ms p m p' _ hm ih =>
    have hstep := step_of_move? hm
    by_cases ho : p.isOpen = false
    · rcases hstep.client_cases hj with ⟨s₀, hs, rfl | rfl⟩ | ⟨s₀, q, hs, hc, -⟩ | ⟨_, -, hc, -⟩
      · exact ih ho hs
      · have := ih ho hs
        cases s₀ <;> exact this
      · have := ih ho hs
        rw [hc.not_isOver] at this
        cases this
      · rw [ho] at hc; cases hc
    · cases hstep with
      | detach hall => exact List.all_eq_true.1 hall _ (List.mem_of_getElem? hj)
      | client _ _ hc => exact absurd (hc.isOpen_eq ▸ hp) ho
      | worker _ hs => exact absurd (hs.isOpen_eq ▸ hp) ho
      | call | deafen => exact absurd hp ho

/-- No worker was torn down by a crash. -/
def NoneLost (p : Pool) : Prop := ∀ w : Nat, p.workers[w]? ≠ some (.exited true)

/-- Once a worker has exited it stays so. -/
theorem Step.exited {lost : Bool} (h : Step p m p') (hw : p.workers[w]? = some (.exited lost)) :
    p'.workers[w]? = some (.exited lost) := by
  have hlt : w < p'.workers.length := h.workers_length ▸ (List.getElem?_eq_some_iff.1 hw).1
  rcases h.worker_cases (List.getElem?_eq_getElem hlt) with hv | ⟨v, q, hv, hs, -⟩
  · rw [List.getElem?_eq_getElem hlt, ← hv, hw]
  · rw [hw, Option.some.injEq] at hv
    subst hv
    cases hs

theorem noneLost_of_start {name : String} (h : Pool.start name config = .ok p) : p.NoneLost :=
  fun _ hw => nomatch ready_of_start h hw

theorem Step.noneLost (h : Step p m p') (hp : p'.NoneLost) : p.NoneLost :=
  fun w hw => hp w (h.exited hw)

/-! ## A trial -/

def trialTask : Task := ⟨.first, "trial", .read ⟨"bucket", "key"⟩ none⟩

/-- One task and a shutdown that falls asleep while the task executes. -/
def trial : List Move :=
  [.call (.submit trialTask), .client 0, .client 0, .client 0, .client 0, .client 0,
    .call .shutdown, .worker 0, .worker 0, .begin 0 .preFault .zero 0,
    .finish 0 (.success "ok") .zero, .client 1, .client 1, .client 1, .client 1, .client 1,
    .client 1, .client 1, .worker 0, .worker 0, .worker 0, .worker 0, .worker 0, .worker 0,
    .worker 0, .worker 0, .client 1, .client 1, .client 1, .client 1, .client 1, .client 1]

def trialStart : Pool := { name := "trial", workers := [.ready], gate := some { free := 1 } }

def trialEnd : Pool where
  name := "trial"
  workers := [.exited false]
  gate := some { free := 1, closed := true }
  clients := [.returned (.ok ()), .returned (.ok ())]
  shutDown := true
  results := [{
    taskId := .first
    stream := "trial"
    kind := .read
    target := ⟨"bucket", "key"⟩
    written := none
    outcome := .success "ok"
    startedAt := .zero
    finishedAt := .zero
    phaseAtStart := .preFault }]

theorem start_trial :
    Pool.start "trial" { workers := 1, queueCapacity := 1 } = .ok trialStart := rfl

theorem moves?_trial : trialStart.moves? trial = some trialEnd := rfl

end FaultDrill.Pool
