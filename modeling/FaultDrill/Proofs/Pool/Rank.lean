import FaultDrill.Proofs.Pool.Progress

/-! # Calls by themselves

While no worker moves, every step of a call brings it nearer to its end or to where it has to wait
for a worker. So the calls of a pool can take only so many steps by themselves.
-/

namespace FaultDrill.ClientStage

/-- A bound for the steps that the call can take by itself in a pool of so many workers. -/
def rank (workers : Nat) : ClientStage → Nat
  | arrived _ => 7
  | asking _ => 6
  | awaitingPermit _ => 5
  | permitted _ => 4
  | awaitingRead _ => 3
  | admitted _ => 2
  | counted _ | refused => 1
  | leaving => 3 * workers + 9
  | awaitingWrite => 3 * workers + 8
  | exclusive => 3 * workers + 7
  | stopping left isCounted => workers + 2 * left + if isCounted then 5 else 6
  | listening true => workers + 6
  | asleep true => workers + 5
  | draining => workers + 4
  | listening false => workers + 3
  | joining w => workers - w + 2
  | closing => 1
  | asleep false | returned _ | dropped => 0

end FaultDrill.ClientStage

namespace FaultDrill.Pool

variable {config : PoolConfig} {p p' q : Pool} {i : Nat} {s s' : ClientStage} {m : Move}
  {ms : List Move}

theorem ClientStep.rank_lt (h : ClientStep p i s s' q) :
    s'.rank p.workers.length < s.rank p.workers.length := by
  cases h with
  | @join w hw =>
    have hlt := (List.getElem?_eq_some_iff.1 hw).1
    simp only [ClientStage.rank]
    omega
  | @findIdle heard | @sleep heard => cases heard <;> simp [ClientStage.rank]
  | @drain isCounted => cases isCounted <;> simp [ClientStage.rank]
  | raise | findRaised => simp [ClientStage.rank, workerCount] <;> omega
  | _ => simp [ClientStage.rank] <;> omega

/-- A call does not tell the others that the pool is idle: a task that is counted, or a sentinel,
finds a worker. -/
theorem Run.clients_eq (h : Run config ms p) (hn : p.NoneLost) (hs : p.clients[i]? = some s)
    (hc : ClientStep p i s s' q) : q.clients = p.clients := by
  cases hc with
  | findNobody hall =>
    have hsum := sum_stops_eq hall hn
    have hzero := (h.no_stop (h.staffed hn) hs).1
    have hpos := h.workers_length
    omega
  | loseStop hall => exact absurd hall (h.not_allExited hn hs)
  | _ => rfl

/-- The steps that the calls can take by themselves are at most this many. -/
def rank (p : Pool) : Nat := (p.clients.map (ClientStage.rank p.workers.length)).sum

theorem ClientStep.stage_eq (hs : p.clients[i]? = some s) (hc : ClientStep p i s s' q) :
    (q.setClient i s').clients[i]? = some s' := by
  have hlt := (List.getElem?_eq_some_iff.1 hs).1
  rw [setClient, List.getElem?_set_self]
  rcases hc.clients_eq with hq | hq <;> simpa [hq] using hlt

theorem clientStep_of_move? (h : p.move? (.client i) = some p') :
    ∃ s s' q, p.clients[i]? = some s ∧ ClientStep p i s s' q ∧ p' = q.setClient i s' := by
  cases step_of_move? h with
  | client hm hs hc =>
    rcases hm with ⟨hm, -⟩ | hm <;> cases hm
    exact ⟨_, _, _, hs, hc, rfl⟩
  | worker _ hw => cases hw

theorem Run.rank_lt (h : Run config ms p) (hn : p.NoneLost) (hs : p.clients[i]? = some s)
    (hc : ClientStep p i s s' q) : (q.setClient i s').rank < p.rank := by
  have hlt := hc.rank_lt
  have hsum := sum_set (getElem?_map_eq (ClientStage.rank p.workers.length) hs)
    (s'.rank p.workers.length)
  have hrank : (q.setClient i s').rank =
      ((p.clients.map (ClientStage.rank p.workers.length)).set i
        (s'.rank p.workers.length)).sum := by
    have hworkers : (q.setClient i s').workers = p.workers := hc.workers_eq
    rw [rank, hworkers, setClient, List.map_set, h.clients_eq hn hs hc]
  have hp : p.rank = (p.clients.map (ClientStage.rank p.workers.length)).sum := rfl
  omega

/-- In whatever order the calls take steps by themselves, they come to an end. -/
theorem Run.calls_length_le (h : Run config ms p) (hn : p.NoneLost) {calls : List Nat}
    (hrun : p.moves? (calls.map .client) = some q) : calls.length + q.rank ≤ p.rank := by
  induction calls generalizing p ms with
  | nil =>
    cases hrun
    exact Nat.le_of_eq (Nat.zero_add _)
  | cons i calls ih =>
    obtain ⟨p₁, hm, hrest⟩ := moves?_cons.1 hrun
    obtain ⟨s, s', q₁, hs, hc, rfl⟩ := clientStep_of_move? hm
    have hworkers : (q₁.setClient i s').workers = p.workers := hc.workers_eq
    have hle := ih (h.move hm) (fun w => hworkers ▸ hn w) hrest
    have hlt := h.rank_lt hn hs hc
    rw [List.length_cons]
    omega

end FaultDrill.Pool
