import FaultDrill.Proofs.Pool.Latch

/-! # Those who wait

Calls wait at the gate for a permit, workers in line for the queue, and a shutdown sleeps
until it hears that the pool is idle. None of them is forgotten: nobody waits while a permit
is free, the line holds the workers that wait, and whoever sleeps will be told.
-/

namespace FaultDrill.Gate

variable {g g' : Gate} {i : Nat} {waits : Nat → Option Unit}

/-- The gate knows who waits, and nobody waits while a permit is free. -/
structure Kept (g : Gate) (waits : Nat → Option Unit) : Prop where
  nodup : (g.waiting ++ g.granted).Nodup
  waits_iff : ∀ i, waits i = some () ↔ i ∈ g.waiting ++ g.granted
  starved : 0 < g.free → g.waiting = []

theorem Kept.take (h : g.Kept waits) (ht : g.take? = some g') : g'.Kept waits := by
  unfold take? at ht
  split at ht
  case isTrue hf =>
    cases ht
    exact ⟨h.nodup, h.waits_iff, fun _ => h.starved hf⟩
  case isFalse => cases ht

theorem Kept.wait (h : g.Kept waits) (ht : g.take? = none) (hi : waits i = none) :
    (g.wait i).Kept (Function.update waits i (some ())) := by
  have hp : ((g.wait i).waiting ++ g.granted).Perm (i :: (g.waiting ++ g.granted)) := by
    simp [Gate.wait]
  have hni : i ∉ g.waiting ++ g.granted := by
    rw [← h.waits_iff, hi]
    exact nofun
  refine ⟨?_, fun j => ?_, fun hf => ?_⟩
  · rw [show (g.wait i).granted = g.granted from rfl, hp.nodup_iff, List.nodup_cons]
    exact ⟨hni, h.nodup⟩
  · rw [show (g.wait i).granted = g.granted from rfl, hp.mem_iff, List.mem_cons]
    by_cases hj : j = i
    · simp [hj]
    · simp only [Function.update_of_ne hj, hj, false_or, h.waits_iff]
  · have hf : 0 < g.free := hf
    rw [take?, if_pos hf] at ht
    cases ht

theorem Kept.giveBack (h : g.Kept waits) : g.giveBack.Kept waits := by
  unfold Gate.giveBack
  split
  case h_1 hw =>
    have hgranted := h.nodup
    have hmem := h.waits_iff
    rw [hw] at hgranted hmem
    exact ⟨hw ▸ hgranted, hw ▸ hmem, fun _ => hw⟩
  case h_2 client rest hw =>
    have hp : (rest ++ client :: g.granted).Perm (g.waiting ++ g.granted) := by
      rw [hw]
      exact List.perm_middle
    refine ⟨hp.nodup_iff.2 h.nodup, fun j => (h.waits_iff j).trans hp.mem_iff.symm, fun hf => ?_⟩
    rw [h.starved hf] at hw
    cases hw

theorem Kept.notice (h : g.Kept waits) (hi : i ∈ g.granted) :
    (g.notice i).Kept (Function.update waits i none) := by
  have hp : (i :: (g.waiting ++ g.granted.erase i)).Perm (g.waiting ++ g.granted) :=
    List.perm_middle.symm.trans ((List.perm_cons_erase hi).symm.append_left g.waiting)
  obtain ⟨hni, hn⟩ := List.nodup_cons.1 (hp.nodup_iff.2 h.nodup)
  refine ⟨hn, fun j => ?_, h.starved⟩
  by_cases hj : j = i
  · subst hj
    simpa [Gate.notice] using hni
  · rw [Function.update_of_ne hj, h.waits_iff, ← hp.mem_iff, List.mem_cons]
    simp [hj, Gate.notice]

theorem Kept.leave (h : g.Kept waits) (hi : waits i = some ()) :
    (g.leave i).Kept (Function.update waits i none) := by
  unfold Gate.leave
  split
  case isTrue hg => exact (h.notice hg).giveBack
  case isFalse hg =>
    have hw : i ∈ g.waiting := by
      rcases List.mem_append.1 ((h.waits_iff i).1 hi) with hw | hw
      · exact hw
      · exact absurd hw hg
    have hp : (i :: (g.waiting.erase i ++ g.granted)).Perm (g.waiting ++ g.granted) :=
      (List.perm_cons_erase hw).symm.append_right g.granted
    obtain ⟨hni, hn⟩ := List.nodup_cons.1 (hp.nodup_iff.2 h.nodup)
    refine ⟨hn, fun j => ?_, fun hf => by rw [h.starved hf]; rfl⟩
    by_cases hj : j = i
    · subst hj
      simpa using hni
    · rw [Function.update_of_ne hj, h.waits_iff, ← hp.mem_iff, List.mem_cons]
      simp [hj]

end FaultDrill.Gate

namespace FaultDrill.ClientStage

def queues : ClientStage → Option Unit
  | awaitingPermit _ => some ()
  | _ => none

end FaultDrill.ClientStage

namespace FaultDrill.Pool

variable {config : PoolConfig} {p p' q : Pool} {i w : Nat} {s s' : ClientStage}
  {v v' : WorkerStage} {m : Move} {ms : List Move}

/-! ## The gate -/

/-- The gate serves the calls of the pool; without a gate nobody waits for a permit. -/
structure GateKept (p : Pool) : Prop where
  served : ∀ g, p.gate = some g → g.Kept (p.role ClientStage.queues)
  unserved : p.gate = none → ∀ i, p.role ClientStage.queues i = none

theorem hear_queues (s : ClientStage) : s.hear.queues = s.queues := by cases s <;> rfl

theorem GateKept.map (hp : p.GateKept) {f : Gate → Gate} {waits : Nat → Option Unit}
    (hf : ∀ g, g.Kept (p.role ClientStage.queues) → (f g).Kept waits)
    (hwaits : ∀ i, p.role ClientStage.queues i = none → waits i = none)
    (hq : q.gate = p.gate.map f) (hrole : q.role ClientStage.queues = waits) : q.GateKept := by
  constructor
  · intro g hg
    rw [hq, Option.map_eq_some_iff] at hg
    obtain ⟨g, hg, rfl⟩ := hg
    exact hrole ▸ hf g (hp.served g hg)
  · intro hg i
    rw [hq, Option.map_eq_none_iff] at hg
    exact hrole ▸ hwaits i (hp.unserved hg i)

theorem GateKept.put {g : Gate} (hq : q.gate = some g) (hg : g.Kept (q.role ClientStage.queues)) :
    q.GateKept := by
  constructor
  · intro g' hg'
    rw [hq] at hg'
    cases hg'
    exact hg
  · intro hnone
    rw [hq] at hnone
    cases hnone

theorem GateKept.same (hp : p.GateKept) (hgate : q.gate = p.gate)
    (hrole : q.role ClientStage.queues = p.role ClientStage.queues) : q.GateKept :=
  ⟨fun g hg => hrole ▸ hp.served g (hgate ▸ hg), fun hg i => hrole ▸ hp.unserved (hgate ▸ hg) i⟩

theorem ClientStep.gateKept (hp : p.GateKept) (hs : p.clients[i]? = some s)
    (h : ClientStep p i s s' q) : (q.setClient i s').GateKept := by
  have hrole := ClientStep.role_eq hs h hear_queues
  have hsame (hs' : s'.queues = s.queues) := ClientStep.role_same hs h hear_queues hs'
  have hi := Pool.role_eq (r := ClientStage.queues) hs
  have keep (f : Gate → Gate) (hf : ∀ g, g.Kept (p.role ClientStage.queues) →
      (f g).Kept (p.role ClientStage.queues)) (hgate : q.gate = p.gate.map f)
      (hs' : s'.queues = s.queues) : (q.setClient i s').GateKept :=
    hp.map hf (fun _ h => h) hgate (hsame hs')
  cases h with
  | takePermit hg ht => exact .put rfl (hsame rfl ▸ (hp.served _ hg).take ht)
  | waitPermit hg ht => exact .put rfl (hrole ▸ (hp.served _ hg).wait ht hi)
  | turnAway hg => exact .put rfl (hrole ▸ (hp.served _ hg).leave hi)
  | noticePermit hg hgr => exact .put rfl (hrole ▸ (hp.served _ hg).notice hgr)
  | findNobody | giveBack | abandonRead =>
    exact keep Gate.giveBack (fun _ h => h.giveBack) rfl rfl
  | abandonPermit =>
    refine hp.map (fun g hg => hg.leave hi) (fun j hj => ?_) rfl hrole
    by_cases hji : j = i
    · subst hji; exact Function.update_self ..
    · rwa [Function.update_of_ne hji]
  | close => exact keep Gate.close (fun _ h => ⟨h.nodup, h.waits_iff, h.starved⟩) rfl rfl
  | _ => exact hp.same rfl (hsame rfl)

theorem Step.gateKept (h : Step p m p') (hp : p.GateKept) : p'.GateKept := by
  cases h with
  | @call request => exact hp.same rfl (role_call (by cases request <;> rfl))
  | client _ hs hc => exact hc.gateKept hp hs
  | @worker w v v' q _ hv hw =>
    have hrole := hw.role_eq hear_queues
    cases hw with
    | crash | giveBack => exact hp.map (fun _ h => h.giveBack) (fun _ h => h) rfl hrole
    | _ => exact hp.same rfl hrole
  | detach | deafen => exact hp.same rfl rfl

theorem Run.gateKept (h : Run config ms p) : p.GateKept := by
  induction h with
  | start h =>
    rw [(start_eq h).2]
    constructor
    · intro g hg
      split at hg
      · cases hg
      · cases hg
        exact ⟨by simp, fun i => by simp [role], fun _ => rfl⟩
    · intro _ i
      simp [role]
  | move _ hm ih => exact (step_of_move? hm).gateKept ih

/-! ## The line -/

/-- The workers in line are those that wait there. -/
structure LineKept (p : Pool) : Prop where
  nodup : p.line.Nodup
  mem_iff : ∀ w, w ∈ p.line ↔ p.workers[w]? = some .lined

theorem getElem?_set_lined (hv : p.workers[w]? = some v) (u : Nat) :
    (p.workers.set w v')[u]? = some .lined ↔
      if u = w then v' = .lined else p.workers[u]? = some .lined := by
  by_cases hu : u = w
  · subst hu
    rw [List.getElem?_set_self (List.getElem?_eq_some_iff.1 hv).1, if_pos rfl, Option.some.injEq]
  · rw [List.getElem?_set_ne (Ne.symm hu), if_neg hu]

theorem WorkerStep.lineKept (hp : p.LineKept) (hv : p.workers[w]? = some v)
    (h : WorkerStep p w m v v' q) : (q.setWorker w v').LineKept := by
  have hworkers : (q.setWorker w v').workers = p.workers.set w v' := by
    rw [setWorker, h.workers_eq]
  have outside (hline : q.line = p.line) (hv₀ : v ≠ .lined) (hv' : v' ≠ .lined) :
      (q.setWorker w v').LineKept := by
    refine ⟨hline ▸ hp.nodup, fun u => ?_⟩
    rw [show (q.setWorker w v').line = p.line from hline, hworkers, getElem?_set_lined hv,
      hp.mem_iff]
    split
    case isTrue hu =>
      subst hu
      rw [hv, Option.some.injEq]
      exact iff_of_false hv₀ hv'
    case isFalse => rfl
  have leaves {line : List Nat} (hl : p.line = w :: line) (hline : q.line = line)
      (hv' : v' ≠ .lined) : (q.setWorker w v').LineKept := by
    have hn := hp.nodup
    rw [hl, List.nodup_cons] at hn
    refine ⟨hline ▸ hn.2, fun u => ?_⟩
    have hu := hp.mem_iff u
    rw [hl, List.mem_cons] at hu
    rw [show (q.setWorker w v').line = line from hline, hworkers, getElem?_set_lined hv]
    split
    case isTrue huw =>
      subst huw
      exact iff_of_false hn.1 hv'
    case isFalse huw => rw [← hu, or_iff_right huw]
  cases h with
  | lineUp =>
    have hw : w ∉ p.line := by
      intro hw
      rw [hp.mem_iff, hv] at hw
      cases hw
    constructor
    · refine List.nodup_append.2 ⟨hp.nodup, List.nodup_singleton w, ?_⟩
      rintro a ha b hb rfl
      exact hw (List.mem_singleton.1 hb ▸ ha)
    · intro u
      change u ∈ p.line ++ [w] ↔ _
      rw [hworkers, getElem?_set_lined hv, List.mem_append, List.mem_singleton, hp.mem_iff]
      split
      case isTrue hu => simp [hu]
      case isFalse hu => simp [hu]
  | takeTask hl => exact leaves hl rfl (by simp)
  | takeStop hl => exact leaves hl rfl (by simp)
  | findOver hl => exact leaves hl rfl (by simp)
  | _ => exact outside rfl (by simp) (by simp)

theorem Run.lineKept (h : Run config ms p) : p.LineKept := by
  induction h with
  | start h =>
    rw [(start_eq h).2]
    exact ⟨.nil, fun w => by simp [List.getElem?_replicate]⟩
  | @move ms p m p' _ hm ih =>
    cases step_of_move? hm with
    | client _ hs hc =>
      exact ⟨hc.line_eq ▸ ih.nodup, fun w => by
        simpa only [setClient, hc.line_eq, hc.workers_eq] using ih.mem_iff w⟩
    | worker hv hw => exact hw.lineKept ih hv
    | _ => exact ⟨ih.nodup, ih.mem_iff⟩

/-! ## Sleep -/

/-- The worker is about to announce that the pool is idle. -/
def Announces (p : Pool) (w : Nat) : Prop :=
  p.workers[w]? = some (.acknowledged true) ∨ p.workers[w]? = some (.stopAcknowledged true)

/-- While a call sleeps that has heard nothing, something is outstanding or is about to be announced
as idle. -/
def Wakeful (p : Pool) : Prop :=
  ∀ i : Nat, p.clients[i]? = some (.asleep false) → 0 < p.outstanding ∨ ∃ w, p.Announces w

theorem Announces.set {u : Nat} (hu : p.Announces u) (hv : p.workers[w]? = some v)
    (h : v ≠ .acknowledged true ∧ v ≠ .stopAcknowledged true) (hq : q.workers = p.workers) :
    (q.setWorker w v').Announces u := by
  have huw : u ≠ w := by
    rintro rfl
    rcases hu with hu | hu <;> rw [hu] at hv <;> cases hv
    · exact h.1 rfl
    · exact h.2 rfl
  unfold Announces at *
  rwa [setWorker, hq, List.getElem?_set_ne huw.symm]

/-- Nobody sleeps unheard after an announcement. -/
theorem not_asleep_hear {xs : List ClientStage} :
    (xs.map ClientStage.hear)[i]? ≠ some (.asleep false) := by
  intro h
  rw [List.getElem?_map, Option.map_eq_some_iff] at h
  obtain ⟨s, -, hs⟩ := h
  cases s <;> cases hs

theorem ClientStep.wakeful (h : ClientStep p i s s' q) (hp : p.Wakeful) {j : Nat}
    (hj : p.clients[j]? = some (.asleep false))
    (hj' : q.clients[j]? = some (.asleep false)) : 0 < q.outstanding ∨ ∃ w, q.Announces w := by
  have heard : p.uncount.clients[j]? = some (.asleep false) →
      0 < p.outstanding - 1 ∨ ∃ w, p.Announces w := by
    intro hu
    rcases hp j hj with ho | hw
    · by_cases hone : p.outstanding = 1
      · rw [uncount, if_pos hone] at hu
        exact absurd hu not_asleep_hear
      · exact .inl (by omega)
    · exact .inr hw
  cases h with
  | findNobody | loseStop => exact heard hj'
  | count | countStop => exact .inl (Nat.succ_pos _)
  | _ => exact hp j hj

theorem WorkerStep.wakeful (hv : p.workers[w]? = some v) (h : WorkerStep p w m v v' q)
    (hp : p.Wakeful) {j : Nat} (hj : p.clients[j]? = some (.asleep false))
    (hj' : q.clients[j]? = some (.asleep false)) :
    0 < q.outstanding ∨ ∃ u, (q.setWorker w v').Announces u := by
  have hlt := (List.getElem?_eq_some_iff.1 hv).1
  have others (hq : q.workers = p.workers) (ho : q.outstanding = p.outstanding)
      (hv₀ : v ≠ .acknowledged true ∧ v ≠ .stopAcknowledged true) :
      0 < q.outstanding ∨ ∃ u, (q.setWorker w v').Announces u := by
    rw [ho]
    exact (hp j hj).imp_right fun ⟨u, hu⟩ => ⟨u, hu.set hv hv₀ hq⟩
  have last (hq : q.workers = p.workers) (ho : q.outstanding = p.outstanding - 1)
      (hv₀ : v ≠ .acknowledged true ∧ v ≠ .stopAcknowledged true)
      (hone : p.outstanding = 1 → v' = .acknowledged true ∨ v' = .stopAcknowledged true) :
      0 < q.outstanding ∨ ∃ u, (q.setWorker w v').Announces u := by
    rcases hp j hj with hpos | ⟨u, hu⟩
    · by_cases h1 : p.outstanding = 1
      · refine .inr ⟨w, ?_⟩
        unfold Announces
        rw [setWorker, hq, List.getElem?_set_self hlt, Option.some.injEq, Option.some.injEq]
        exact hone h1
      · exact .inl (by omega)
    · exact .inr ⟨u, hu.set hv hv₀ hq⟩
  cases h with
  | acknowledge => exact last rfl rfl (by simp) fun h => .inl (by simp [h])
  | acknowledgeStop => exact last rfl rfl (by simp) fun h => .inr (by simp [h])
  | announce | announceStop => exact absurd hj' not_asleep_hear
  | _ => exact others rfl rfl (by simp)

theorem Step.wakeful (h : Step p m p') (hp : p.Wakeful) : p'.Wakeful := by
  intro j hj'
  rcases h.client_cases hj' with ⟨s, hj, hs | hs⟩ | ⟨s, q, -, hc, rfl, -⟩ | ⟨request, -, -, -, hs⟩
  · subst hs
    cases h with
    | @client i s s' q _ _ hs hc =>
      by_cases hij : i = j
      · subst hij
        rw [hs, Option.some.injEq] at hj
        subst hj
        cases hc
      · rw [setClient, List.getElem?_set_ne hij] at hj'
        rcases hc.wakeful hp hj hj' with ho | ⟨w, hw⟩
        · exact .inl ho
        · exact .inr ⟨w, hw⟩
    | worker hv hw => exact hw.wakeful hv hp hj hj'
    | _ => exact hp j hj
  · cases s <;> cases hs
  · cases hc with
    | sleep ho => exact .inl ho
  · cases request <;> cases hs

theorem Run.wakeful (h : Run config ms p) : p.Wakeful := by
  induction h with
  | start h =>
    rw [(start_eq h).2]
    exact fun i hi => nomatch hi
  | move _ hm ih => exact (step_of_move? hm).wakeful ih

end FaultDrill.Pool
