import FaultDrill.Pool

/-! # The steps of a pool

What one move can do, as rules: the stage that a call or a worker leaves, the one it
reaches, and what becomes of the rest of the pool. Whatever is to be kept by every move is
checked against these rules; the functions behind them are not opened again.
-/

namespace FaultDrill.Pool

/-- Call `i` goes from one stage to another, and `q` is the pool with all that the step does
besides. -/
inductive ClientStep (p : Pool) (i : Nat) : ClientStage → ClientStage → Pool → Prop
  | late {task} : p.shutDown = true →
      ClientStep p i (.arrived task) (.returned p.refusal) p
  | look {task} : p.shutDown = false → ClientStep p i (.arrived task) (.asking task) p
  | needNoPermit {task} : p.gate = none → ClientStep p i (.asking task) (.permitted task) p
  | findClosed {task gate} : p.gate = some gate → gate.closed = true →
      ClientStep p i (.asking task) (.returned p.refusal) p
  | takePermit {task gate gate'} : p.gate = some gate → gate.take? = some gate' →
      ClientStep p i (.asking task) (.permitted task) { p with gate := some gate' }
  | waitPermit {task gate} : p.gate = some gate → gate.take? = none →
      ClientStep p i (.asking task) (.awaitingPermit task)
        { p with gate := some (gate.wait i) }
  | turnAway {task gate} : p.gate = some gate → gate.closed = true →
      ClientStep p i (.awaitingPermit task) (.returned p.refusal)
        { p with gate := some (gate.leave i) }
  | noticePermit {task gate} : p.gate = some gate → i ∈ gate.granted →
      ClientStep p i (.awaitingPermit task) (.permitted task)
        { p with gate := some (gate.notice i) }
  | takeRead {task latch} : p.latch.take? .read = some latch →
      ClientStep p i (.permitted task) (.admitted task) { p with latch }
  | waitRead {task} : p.latch.take? .read = none →
      ClientStep p i (.permitted task) (.awaitingRead task)
        { p with latch := p.latch.wait i .read }
  | noticeRead {task} : i ∈ p.latch.granted →
      ClientStep p i (.awaitingRead task) (.admitted task)
        { p with latch := p.latch.notice i }
  | refuse {task} : p.shutDown = true →
      ClientStep p i (.admitted task) .refused (p.releaseLatch .read)
  | count {task} : p.shutDown = false →
      ClientStep p i (.admitted task) (.counted task) { p with outstanding := p.outstanding + 1 }
  | enqueue {task} : p.allExited = false →
      ClientStep p i (.counted task) (.returned (.ok ()))
        ({ p with queue := p.queue ++ [QueueItem.run task] }.releaseLatch .read)
  | findNobody {task} : p.allExited = true →
      ClientStep p i (.counted task) (.returned p.refusal)
        (p.uncount.releaseLatch .read).giveBackPermit
  | giveBack : ClientStep p i .refused (.returned p.refusal) p.giveBackPermit
  | abandonPermit {task} : ClientStep p i (.awaitingPermit task) .dropped
      { p with gate := p.gate.map (Gate.leave i) }
  | abandonRead {task} : ClientStep p i (.awaitingRead task) .dropped
      { p with latch := p.latch.leave i }.giveBackPermit
  | takeWrite {latch} : p.latch.take? .write = some latch →
      ClientStep p i .leaving .exclusive { p with latch }
  | waitWrite : p.latch.take? .write = none →
      ClientStep p i .leaving .awaitingWrite { p with latch := p.latch.wait i .write }
  | noticeWrite : i ∈ p.latch.granted →
      ClientStep p i .awaitingWrite .exclusive { p with latch := p.latch.notice i }
  | raise : p.shutDown = false →
      ClientStep p i .exclusive (.stopping p.workerCount false)
        ({ p with shutDown := true }.releaseLatch .write)
  | findRaised : p.shutDown = true →
      ClientStep p i .exclusive (.returned (.error (.poolAlreadyShutDown p.name)))
        ({ p with shutDown := true }.releaseLatch .write)
  | drain {isCounted} : ClientStep p i (.stopping 0 isCounted) .draining p
  | countStop {left} : ClientStep p i (.stopping (left + 1) false) (.stopping (left + 1) true)
      { p with outstanding := p.outstanding + 1 }
  | enqueueStop {left} : p.allExited = false →
      ClientStep p i (.stopping (left + 1) true) (.stopping left false)
        { p with queue := p.queue ++ [QueueItem.stop] }
  | loseStop {left} : p.allExited = true →
      ClientStep p i (.stopping (left + 1) true) (.stopping left false) p.uncount
  | listen : ClientStep p i .draining (.listening false) p
  | findIdle {heard} : p.outstanding = 0 → ClientStep p i (.listening heard) (.joining 0) p
  | sleep {heard} : 0 < p.outstanding → ClientStep p i (.listening heard) (.asleep heard) p
  | wake : ClientStep p i (.asleep true) .draining p
  | joinAll {w} : p.workers.length ≤ w → ClientStep p i (.joining w) .closing p
  | join {w} : p.workers[w]? = some (.exited false) →
      ClientStep p i (.joining w) (.joining (w + 1)) p
  | findLost {w} : p.workers[w]? = some (.exited true) →
      ClientStep p i (.joining w)
        (.returned (.error (.workerJoin p.name (.ofNat w) "worker panicked"))) p
  | close : ClientStep p i .closing (.returned (.ok ()))
      { p with gate := p.gate.map Gate.close }

/-- Worker `w` goes from one stage to another in a move, and `q` is the pool with all that the
step does besides. -/
inductive WorkerStep (p : Pool) (w : Nat) : Move → WorkerStage → WorkerStage → Pool → Prop
  | lineUp : WorkerStep p w (.worker w) .ready .lined { p with line := p.line ++ [w] }
  | takeTask {task line queue} : p.line = w :: line → p.queue = .run task :: queue →
      WorkerStep p w (.worker w) .lined (.holding task) { p with line, queue }
  | takeStop {line queue} : p.line = w :: line → p.queue = .stop :: queue →
      WorkerStep p w (.worker w) .lined .stopTaken { p with line, queue }
  | findOver {line} : p.line = w :: line → p.queue = [] → p.isOpen = false →
      WorkerStep p w (.worker w) .lined (.exited false) { p with line }
  | start {task phase now wake} :
      WorkerStep p w (.begin w phase now wake) (.holding task) (.running task phase now wake) p
  | finish {task phase startedAt wake outcome now result} :
      OperationResult.assemble task.id task.stream task.operation outcome startedAt now phase
        = .ok result →
      WorkerStep p w (.finish w outcome now) (.running task phase startedAt wake)
        (.finished result) p
  | crash {task phase startedAt wake outcome now crash} :
      OperationResult.assemble task.id task.stream task.operation outcome startedAt now phase
        = .error crash →
      WorkerStep p w (.finish w outcome now) (.running task phase startedAt wake) (.exited true)
        p.giveBackPermit
  | report {result} : WorkerStep p w (.worker w) (.finished result) .reported
      { p with results := if p.isHeard then p.results ++ [result] else p.results }
  | acknowledge : WorkerStep p w (.worker w) .reported (.acknowledged (p.outstanding = 1))
      { p with outstanding := p.outstanding - 1 }
  | announce : WorkerStep p w (.worker w) (.acknowledged true) (.acknowledged false)
      p.announceIdle
  | giveBack : WorkerStep p w (.worker w) (.acknowledged false) .ready p.giveBackPermit
  | acknowledgeStop :
      WorkerStep p w (.worker w) .stopTaken (.stopAcknowledged (p.outstanding = 1))
        { p with outstanding := p.outstanding - 1 }
  | announceStop :
      WorkerStep p w (.worker w) (.stopAcknowledged true) (.stopAcknowledged false)
        p.announceIdle
  | exit : WorkerStep p w (.worker w) (.stopAcknowledged false) (.exited false) p

inductive Step (p : Pool) : Move → Pool → Prop
  | call {request} : p.isOpen = true → Step p (.call request) (p.call request)
  | client {i s s' q m} : (m = .client i ∧ s' ≠ .dropped) ∨ m = .abandon i →
      p.clients[i]? = some s → ClientStep p i s s' q → Step p m (q.setClient i s')
  | worker {w s s' q m} : p.workers[w]? = some s → WorkerStep p w m s s' q →
      Step p m (q.setWorker w s')
  | detach : p.clients.all ClientStage.isOver = true → Step p .detach p.detach
  | deafen : Step p .deafen p.deafen

variable {p p' : Pool} {i w : Nat} {m : Move}

theorem submit_step {s : ClientStage} (hs : p.clients[i]? = some s)
    (h : p.stepSubmit i s = some p') : Step p (.client i) p' := by
  have go {s' q} (hd : s' ≠ .dropped) (h : ClientStep p i s s' q) :
      Step p (.client i) (q.setClient i s') := .client (.inl ⟨rfl, hd⟩) hs h
  cases s with
  | arrived task =>
    simp only [stepSubmit, Option.some.injEq] at h
    subst h
    by_cases hf : p.shutDown = true
    · rw [if_pos hf]; exact go nofun (.late hf)
    · rw [if_neg hf]; exact go nofun (.look (by simpa using hf))
  | asking task =>
    simp only [stepSubmit] at h
    split at h
    case h_1 hg => cases h; exact go nofun (.needNoPermit hg)
    case h_2 gate hg =>
      split at h
      case isTrue hc => cases h; exact go nofun (.findClosed hg hc)
      case isFalse hc =>
        split at h
        case h_1 hg' => cases h; exact go nofun (.takePermit hg hg')
        case h_2 hg' => cases h; exact go nofun (.waitPermit hg hg')
  | awaitingPermit task =>
    simp only [stepSubmit] at h
    split at h
    case h_1 => cases h
    case h_2 gate hg =>
      split at h
      case isTrue hc => cases h; exact go nofun (.turnAway hg hc)
      case isFalse hc =>
        split at h
        case isTrue hi => cases h; exact go nofun (.noticePermit hg hi)
        case isFalse => cases h
  | permitted task =>
    simp only [stepSubmit] at h
    split at h
    case h_1 hl => cases h; exact go nofun (.takeRead hl)
    case h_2 hl => cases h; exact go nofun (.waitRead hl)
  | awaitingRead task =>
    simp only [stepSubmit] at h
    split at h
    case isTrue hi => cases h; exact go nofun (.noticeRead hi)
    case isFalse => cases h
  | admitted task =>
    simp only [stepSubmit] at h
    split at h
    case isTrue hf => cases h; exact go nofun (.refuse hf)
    case isFalse hf => cases h; exact go nofun (.count (by simpa using hf))
  | counted task =>
    simp only [stepSubmit, enqueue?] at h
    split at h
    case h_1 he =>
      split at he
      case isTrue => cases he
      case isFalse ha => cases he; cases h; exact go nofun (.enqueue (by simpa using ha))
    case h_2 he =>
      split at he
      case isTrue ha => cases h; exact go nofun (.findNobody ha)
      case isFalse => cases he
  | refused =>
    simp only [stepSubmit, Option.some.injEq] at h
    subst h
    exact go nofun .giveBack
  | _ => simp [stepSubmit] at h

theorem shutdown_step {s : ClientStage} (hs : p.clients[i]? = some s)
    (h : p.stepShutdown i s = some p') : Step p (.client i) p' := by
  have go {s' q} (hd : s' ≠ .dropped) (h : ClientStep p i s s' q) :
      Step p (.client i) (q.setClient i s') := .client (.inl ⟨rfl, hd⟩) hs h
  cases s with
  | leaving =>
    simp only [stepShutdown] at h
    split at h
    case h_1 hl => cases h; exact go nofun (.takeWrite hl)
    case h_2 hl => cases h; exact go nofun (.waitWrite hl)
  | awaitingWrite =>
    simp only [stepShutdown] at h
    split at h
    case isTrue hi => cases h; exact go nofun (.noticeWrite hi)
    case isFalse => cases h
  | exclusive =>
    simp only [stepShutdown, Option.some.injEq] at h
    subst h
    by_cases hf : p.shutDown = true
    · rw [if_pos hf]; exact go nofun (.findRaised hf)
    · rw [if_neg hf]; exact go nofun (.raise (by simpa using hf))
  | stopping left isCounted =>
    cases left with
    | zero => simp only [stepShutdown] at h; cases h; exact go nofun .drain
    | succ left =>
      cases isCounted with
      | false => simp only [stepShutdown] at h; cases h; exact go nofun .countStop
      | true =>
        simp only [stepShutdown, enqueue?] at h
        split at h
        case h_1 he =>
          split at he
          case isTrue => cases he
          case isFalse ha => cases he; cases h; exact go nofun (.enqueueStop (by simpa using ha))
        case h_2 he =>
          split at he
          case isTrue ha => cases h; exact go nofun (.loseStop ha)
          case isFalse => cases he
  | draining => simp only [stepShutdown] at h; cases h; exact go nofun .listen
  | listening heard =>
    simp only [stepShutdown, Option.some.injEq] at h
    subst h
    by_cases ho : p.outstanding = 0
    · rw [if_pos ho]; exact go nofun (.findIdle ho)
    · rw [if_neg ho]; exact go nofun (.sleep (Nat.pos_of_ne_zero ho))
  | asleep heard =>
    cases heard with
    | true => simp only [stepShutdown] at h; cases h; exact go nofun .wake
    | false => simp [stepShutdown] at h
  | joining w =>
    simp only [stepShutdown] at h
    split at h
    case h_1 hw => cases h; exact go nofun (.joinAll (List.getElem?_eq_none_iff.1 hw))
    case h_2 hw => cases h; exact go nofun (.join hw)
    case h_3 hw => cases h; exact go nofun (.findLost hw)
    case h_4 => cases h
  | closing => simp only [stepShutdown] at h; cases h; exact go nofun .close
  | _ => simp [stepShutdown] at h

theorem abandon_step (h : p.abandon? i = some p') : Step p (.abandon i) p' := by
  simp only [abandon?, Option.bind_eq_bind, Option.bind_eq_some_iff] at h
  obtain ⟨s, hs, h⟩ := h
  split at h
  · cases h; exact .client (.inr rfl) hs .abandonPermit
  · cases h; exact .client (.inr rfl) hs .abandonRead
  · cases h

theorem worker_step (h : p.stepWorker? w = some p') : Step p (.worker w) p' := by
  simp only [stepWorker?, Option.bind_eq_bind, Option.bind_eq_some_iff] at h
  obtain ⟨s, hs, h⟩ := h
  split at h
  case h_1 => cases h; exact .worker hs .lineUp
  case h_2 =>
    simp only [dequeue] at h
    split at h
    case h_1 first line item queue hl hq =>
      split at h
      case isTrue hw =>
        subst hw
        cases h
        cases item with
        | run task => exact .worker hs (.takeTask hl hq)
        | stop => exact .worker hs (.takeStop hl hq)
      case isFalse => cases h
    case h_2 first line hl hq =>
      split at h
      case isTrue hw =>
        obtain ⟨rfl, ho⟩ := hw
        cases h
        exact .worker hs (.findOver hl hq (by simpa using ho))
      case isFalse => cases h
    case h_3 => cases h
  case h_3 => cases h; exact .worker hs .report
  case h_4 => cases h; exact .worker hs .acknowledge
  case h_5 => cases h; exact .worker hs .announce
  case h_6 => cases h; exact .worker hs .giveBack
  case h_7 => cases h; exact .worker hs .acknowledgeStop
  case h_8 => cases h; exact .worker hs .announceStop
  case h_9 => cases h; exact .worker hs .exit
  all_goals cases h

theorem begin_step {phase : WindowPhase} {now : Duration} {wake : Nat}
    (h : p.begin? w phase now wake = some p') : Step p (.begin w phase now wake) p' := by
  simp only [begin?, Option.bind_eq_bind, Option.bind_eq_some_iff] at h
  obtain ⟨s, hs, h⟩ := h
  split at h
  · cases h; exact .worker hs .start
  · cases h

theorem finish_step {outcome : Outcome} {now : Duration}
    (h : p.finish? w outcome now = some p') : Step p (.finish w outcome now) p' := by
  simp only [finish?, Option.bind_eq_bind, Option.bind_eq_some_iff] at h
  obtain ⟨s, hs, h⟩ := h
  split at h
  · split at h
    case h_1 ha => cases h; exact .worker hs (.finish ha)
    case h_2 ha => cases h; exact .worker hs (.crash ha)
  · cases h

/-- Whatever a move leads to, a rule leads to. -/
theorem step_of_move? (h : p.move? m = some p') : Step p m p' := by
  cases m with
  | call request =>
    simp only [move?] at h
    split at h
    case isTrue ho => cases h; exact .call ho
    case isFalse => cases h
  | client i =>
    simp only [move?, stepClient?, Option.bind_eq_bind, Option.bind_eq_some_iff,
      Option.or_eq_some_iff] at h
    obtain ⟨s, hs, h | ⟨-, h⟩⟩ := h
    · exact submit_step hs h
    · exact shutdown_step hs h
  | abandon i => exact abandon_step h
  | worker w => exact worker_step h
  | begin w phase now wake => exact begin_step h
  | finish w outcome now => exact finish_step h
  | detach =>
    simp only [move?] at h
    split at h
    case isTrue ho => cases h; exact .detach ho
    case isFalse => cases h
  | deafen => cases h; exact .deafen

end FaultDrill.Pool
