import Mathlib.Algebra.Order.BigOperators.Group.List
import FaultDrill.Proofs.Source.Streams
import FaultDrill.Proofs.Store.Holding

/-! # The stock of a drill

Objects that were written before are kept by some streams, which read them back, and removed by
others. As long as the sources see to it that nobody else touches the objects that are kept, a
read finds them as they were written, and no request fails but for a store that is down.
-/

namespace FaultDrill

/-- What a driver was told to do, and the source that it was given. -/
structure Role where
  plan : DriverPlan
  source : Source

namespace Role

/-- The driver plays this role. -/
def Plays (role : Role) (d : Driver) : Prop := ∃ pulled, Driver.Run role.plan role.source pulled d

variable {role : Role} {d d' : Driver} {p p' : Pool} {m : Pool.Move} {around : Surroundings}
  {emission : Emission}

theorem Plays.own (h : role.Plays d) (hd : d.step? around = some (d', emission)) :
    role.Plays d' := by
  obtain ⟨pulled, hrun⟩ := h
  exact ⟨_, hrun.own around hd⟩

theorem Plays.pool (h : role.Plays d) (hp : d.pool = some p) (hi : m.isInternal = true)
    (hm : p.move? m = some p') : role.Plays { d with pool := some p' } := by
  obtain ⟨pulled, hrun⟩ := h
  exact ⟨pulled, hrun.pool m hp hi hm⟩

end Role

/-- Objects that one source writes: those that are kept, and the places of those that are not. -/
structure Stock where
  origin : Source
  kept : List StoredObject := []
  doomed : List ObjectRef := []
  puts : ∀ o ∈ kept, origin.Puts o := by simp
  spared : ∀ o ∈ kept, o.target ∉ doomed := by simp

namespace Stock

/-- An operation that does no harm to what is kept: it reads some of it back, deletes what is not
kept, or writes elsewhere. -/
inductive Allows (stock : Stock) : Operation → Prop
  | verify {o : StoredObject} : o ∈ stock.kept → Allows stock (.verify o)
  | delete {target : ObjectRef} : target ∈ stock.doomed → Allows stock (.delete target)
  | write {op : Operation} {payload : Payload} : op.kind = .write → op.payload = some payload →
      payload.size.toNat < Payload.sizeLimit →
      (∀ o, stock.origin.Puts o → op.target = o.target → payload.checksum = .ok o.checksum) →
      Allows stock op

/-- Whoever plays the role does no harm. -/
structure Admits (stock : Stock) (role : Role) : Prop where
  handler : role.plan.handler = .storage
  fits : ∀ n op, role.source.Gives n op → op.Fits
  allows : ∀ n op, n + 1 < UInt64.size → role.source.Gives n op → stock.Allows op

variable {stock : Stock} {op : Operation} {o : StoredObject} {s : Store}

theorem Allows.spares (h : stock.Allows op) (hputs : stock.origin.Puts o)
    (hspared : o.target ∉ stock.doomed) : op.Spares o := by
  cases h with
  | verify => exact ⟨nofun, nofun, nofun⟩
  | delete hdoomed =>
    refine ⟨nofun, ?_, nofun⟩
    rintro - rfl
    exact hspared hdoomed
  | write hk hp _ hsame =>
    refine ⟨?_, ?_, ?_⟩
    · intro hk'
      cases hk.symm.trans hk'
    · intro hk'
      cases hk.symm.trans hk'
    · intro _ ht payload hp'
      cases hp.symm.trans hp'
      exact hsame o hputs ht

theorem Allows.can (h : stock.Allows op) (hheld : ∀ o ∈ stock.kept, s.Holds o) : s.Can op := by
  cases h with
  | verify ho => exact .verify (hheld _ ho)
  | delete => exact .delete _
  | write hk hp hsize => exact .write hk hp hsize

/-! ### The roles that do no harm -/

variable {plan : DriverPlan} {objects : List StoredObject} {targets : List ObjectRef}
  {w w₀ : WriteSource}

theorem admits_reads (hplan : plan.handler = .storage) (hobjects : objects ⊆ stock.kept) :
    stock.Admits ⟨plan, .read objects 0⟩ where
  handler := hplan
  fits n op hgives := by
    obtain ⟨o, -, rfl⟩ := Source.Gives.verifies hgives
    exact nofun
  allows n op _ hgives := by
    obtain ⟨o, ho, rfl⟩ := Source.Gives.verifies hgives
    exact .verify (hobjects ho)

theorem admits_deletes (hplan : plan.handler = .storage) (htargets : targets ⊆ stock.doomed) :
    stock.Admits ⟨plan, .delete targets⟩ where
  handler := hplan
  fits n op hgives := by
    obtain ⟨t, -, rfl⟩ := Source.Gives.deletes hgives
    exact nofun
  allows n op _ hgives := by
    obtain ⟨t, ht, rfl⟩ := Source.Gives.deletes hgives
    exact .delete (htargets ht)

/-- Writes do no harm if they go elsewhere, or put there what is there already. -/
theorem admits_writes (hplan : plan.handler = .storage) (hw : w.Bounded)
    (hsame : ∀ n op payload o, n + 1 < UInt64.size → (Source.write w).Gives n op →
      w.Writes (.ofIndex n) op payload → stock.origin.Puts o → op.target = o.target →
      payload.checksum = .ok o.checksum) : stock.Admits ⟨plan, .write w⟩ where
  handler := hplan
  fits n op hgives := by
    intro _ payload hp
    obtain ⟨payload', hwrites⟩ := Source.Gives.writes hgives hw
    cases hp.symm.trans hwrites.payload_eq
    exact Nat.lt_of_le_of_lt hwrites.size hw.limit
  allows n op hn hgives := by
    obtain ⟨payload, hwrites⟩ := Source.Gives.writes hgives hw
    exact .write hwrites.kind hwrites.payload_eq (Nat.lt_of_le_of_lt hwrites.size hw.limit)
      fun o hputs ht => hsame n op payload o hn hgives hwrites hputs ht

theorem admits_origin (hplan : plan.handler = .storage) (horigin : stock.origin = .write w)
    (hw : w.Bounded) : stock.Admits ⟨plan, .write w⟩ := by
  refine admits_writes hplan hw ?_
  intro n op payload o hn hgives hwrites hputs ht
  rw [horigin] at hputs
  exact hputs.checksum_eq hgives hn hw ht hwrites.payload_eq

theorem admits_apart (hplan : plan.handler = .storage) (horigin : stock.origin = .write w₀)
    (hw₀ : w₀.Bounded) (hw : w.Bounded) (hkeys : ∀ id id', w.key id ≠ w₀.key id') :
    stock.Admits ⟨plan, .write w⟩ := by
  refine admits_writes hplan hw ?_
  intro n op payload o _ _ hwrites hputs ht
  rw [horigin] at hputs
  obtain ⟨id, hkey⟩ := hputs.key hw₀
  rw [← ht, hwrites.key] at hkey
  exact (hkeys _ _ hkey).elim

end Stock

/-! ## The store between two steps -/

/-- The stores hold the same, reject the same and have counted the same. -/
structure Store.Alike (s s' : Store) : Prop where
  objects : s'.objects = s.objects
  failNext : s'.failNext = s.failNext
  operationsTotal : s'.operationsTotal = s.operationsTotal

namespace Store

variable {s s' : Store} {o : StoredObject}

theorem Alike.refl (s : Store) : s.Alike s := ⟨rfl, rfl, rfl⟩

theorem Alike.holds (h : s.Alike s') (ho : s.Holds o) : s'.Holds o := by
  unfold Holds
  rw [h.objects]
  exact ho

theorem Alike.markDegraded (component : String) (s : Store) :
    s.Alike (s.markDegraded component) := by
  unfold Store.markDegraded
  split <;> exact ⟨rfl, rfl, rfl⟩

end Store

/-- An injection touches no object. -/
theorem Injector.alike_begin (i : Injector) (s : Store) : s.Alike (i.begin s).2 := by
  cases i with
  | podFailure component transition =>
    unfold begin
    dsimp only
    split <;> exact ⟨rfl, rfl, rfl⟩
  | fixed => exact .refl s

theorem Injector.alike_finish (i : Injector) (s : Store) : s.Alike (i.finish s).2 := by
  cases i with
  | podFailure component transition =>
    obtain ⟨ho, hf, ht⟩ := Store.Alike.markDegraded component s.endDisruption
    exact ⟨ho, hf, ht⟩
  | fixed => exact .refl s

theorem Injector.alike_restore (i : Injector) (record : FaultRecord) (s : Store) :
    s.Alike (i.restore record s).2 := by
  cases i with
  | podFailure component transition =>
    unfold restore Store.restoreComponent
    dsimp only
    split <;> rename_i h <;> obtain ⟨-, rfl⟩ := Prod.mk.inj h <;> exact ⟨rfl, rfl, rfl⟩
  | fixed => exact .refl s

theorem FaultRun.Turn.alike {f f' : FaultRun} {timer : Nat} {now : Duration}
    {scene scene' : Scene} {event : Option Event}
    (h : f.Turn timer now scene f' scene' event) : scene.store.Alike scene'.store := by
  cases h with
  | begins _ hbegin | fails _ hbegin =>
    have halike := f.injector.alike_begin scene.store
    rwa [hbegin] at halike
  | ends _ _ hfinish =>
    have halike := f.injector.alike_finish scene.store
    rwa [hfinish] at halike
  | _ => exact .refl _

namespace World

/-- What the workers of all drivers have answers for. -/
def load (w : World) : Nat := (w.drivers.map Driver.answers).sum

/-- A step leaves the store as it is for all that is read from it, or one handler acts on it. -/
inductive Touch (w w' : World) : Prop
  | rest : w.store.Alike w'.store → w'.load = w.load → Touch w w'
  | act {i j : Nat} {d : Driver} {p : Pool} {task : Task} {phase : WindowPhase} {t : Duration}
      {wake : Nat} : w.drivers[i]? = some d → d.pool = some p →
      p.workers[j]? = some (.running task phase t wake) →
      w'.store = (d.plan.handler.act task w.store).2 → w'.load = w.load + 1 → Touch w w'

/-- The drivers play these roles, and what they have done to the store and what the store has
answered them does no harm. -/
structure Stocked (stock : Stock) (roles : List Role) (w : World) : Prop where
  plays : List.Forall₂ Role.Plays roles w.drivers
  admits : ∀ role ∈ roles, stock.Admits role
  origin : ∀ role, roles[0]? = some role → role.source = stock.origin
  failNext : w.store.failNext = []
  total : w.store.operationsTotal.toNat ≤ w.load
  kept : ∀ o ∈ stock.kept, w.store.Holds o
  /-- What the first driver has written is there. -/
  written : ∀ d, w.drivers[0]? = some d → ∀ r o, d.Recorded r → r.written = some o →
    o.target ∉ stock.doomed → w.store.Holds o
  fine : w.store.HasCount → ∀ d ∈ w.drivers, ∀ r, d.Recorded r → r.outcome.IsFine

variable {stock : Stock} {roles : List Role} {role : Role} {w w' : World} {d d' : Driver}
  {p : Pool} {i j : Nat} {task : Task} {phase : WindowPhase} {t : Duration} {wake : Nat}
  {r : OperationResult} {o : StoredObject}

theorem load_set {n : Nat} (hd : w.drivers[i]? = some d) (ha : d'.answers = d.answers + n) :
    ((w.drivers.set i d').map Driver.answers).sum = w.load + n := by
  have hset := sum_set (getElem?_map_eq Driver.answers hd) d'.answers
  rw [List.map_set]
  unfold load
  omega

theorem Stocked.cast (h : w.Stocked stock roles) (hd : w.drivers[i]? = some d) :
    ∃ role, roles[i]? = some role ∧ role.Plays d ∧ stock.Admits role := by
  obtain ⟨role, hrole, hplays⟩ := forall₂_getElem? h.plays hd
  exact ⟨role, hrole, hplays, h.admits role (List.mem_of_getElem? hrole)⟩

theorem Step.plays (hs : w.Step w') (h : List.Forall₂ Role.Plays roles w.drivers) :
    List.Forall₂ Role.Plays roles w'.drivers := by
  cases hs with
  | driver hd hstep =>
    obtain ⟨role, hrole, hplays⟩ := forall₂_getElem? h hd
    exact forall₂_set_right h hrole (hplays.own hstep)
  | client hd hp hm =>
    obtain ⟨role, hrole, hplays⟩ := forall₂_getElem? h hd
    exact forall₂_set_right h hrole (hplays.pool hp rfl hm)
  | worker hd hp hwork hm =>
    obtain ⟨role, hrole, hplays⟩ := forall₂_getElem? h hd
    exact forall₂_set_right h hrole (hplays.pool hp hwork.isInternal hm)
  | fault | collection => exact h

/-! ## One step -/

theorem Stocked.touch (h : w.Stocked stock roles) (hs : w.Step w') : w.Touch w' := by
  cases hs with
  | driver hd hstep =>
    obtain ⟨role, -, ⟨pulled, hrun⟩, hadmits⟩ := h.cast hd
    exact .rest (.refl _) (load_set (n := 0) hd (hrun.answers_own hadmits.fits hstep))
  | client hd hp hm =>
    obtain ⟨role, -, ⟨pulled, hrun⟩, hadmits⟩ := h.cast hd
    exact .rest (.refl _) (load_set hd (hrun.answers_pool hadmits.fits hp rfl hm))
  | worker hd hp hwork hm =>
    obtain ⟨role, -, ⟨pulled, hrun⟩, hadmits⟩ := h.cast hd
    have hload := load_set hd (hrun.answers_pool hadmits.fits hp hwork.isInternal hm)
    cases hwork with
    | begin | goOn => exact .rest (.refl _) hload
    | act hw => exact .act hd hp hw rfl hload
  | fault hf hstep => exact .rest (FaultRun.turn_of_step? hstep).alike rfl
  | collection => exact .rest (.refl _) rfl

/-- A task that is executed does no harm. -/
theorem Stocked.allows (h : w.Stocked stock roles) (hd : w.drivers[i]? = some d)
    (hp : d.pool = some p) (hw : p.workers[j]? = some (.running task phase t wake)) :
    d.plan.handler = .storage ∧ stock.Allows task.operation := by
  obtain ⟨role, -, ⟨pulled, hrun⟩, hadmits⟩ := h.cast hd
  obtain ⟨ms, hs⟩ := hrun.supplied hp
  obtain ⟨n, hn, op, hgives, rfl⟩ := hs.running hadmits.fits hw
  rw [hrun.plan_eq]
  exact ⟨hadmits.handler, hadmits.allows n op hn hgives⟩

/-- What the first driver has written its source gave to the task. -/
theorem Stocked.wrote (h : w.Stocked stock roles) (hd : w.drivers[0]? = some d)
    (hr : d.Recorded r) (ho : r.written = some o) : ∃ n op payload, r.taskId = .ofIndex n ∧
      n + 1 < UInt64.size ∧ stock.origin.Gives n op ∧ op.target = o.target ∧
        op.payload = some payload ∧ payload.checksum = .ok o.checksum := by
  obtain ⟨role, hrole, ⟨pulled, hrun⟩, hadmits⟩ := h.cast hd
  obtain ⟨p, hp, hr⟩ := hr
  obtain ⟨ms, hs⟩ := hrun.supplied hp
  obtain ⟨n, task, outcome, startedAt, finishedAt, phase, ⟨hn, op, hgives, rfl⟩, ha⟩ :=
    hs.recorded hadmits.fits hr
  obtain ⟨-, -, payload, hpayload, hsum, ht⟩ := OperationResult.of_written ha ho
  obtain ⟨written, rfl⟩ := OperationResult.assemble_eq_ok ha
  rw [h.origin role hrole] at hgives
  exact ⟨n, op, payload, rfl, hn, hgives, ht, hpayload, hsum⟩

theorem Stocked.puts (h : w.Stocked stock roles) (hd : w.drivers[0]? = some d)
    (hr : d.Recorded r) (ho : r.written = some o) : stock.origin.Puts o := by
  obtain ⟨n, op, payload, -, hputs⟩ := h.wrote hd hr ho
  exact ⟨n, op, payload, hputs⟩

/-- What is kept stays as it was written. -/
theorem Stocked.holds (h : w.Stocked stock roles) (ht : w.Touch w') (hputs : stock.origin.Puts o)
    (hspared : o.target ∉ stock.doomed) (ho : w.store.Holds o) : w'.store.Holds o := by
  cases ht with
  | rest halike => exact halike.holds ho
  | act hd hp hw hstore =>
    obtain ⟨hhandler, hallows⟩ := h.allows hd hp hw
    rw [hstore, hhandler, Handler.storage_store]
    exact ho.apply (hallows.spares hputs hspared)

theorem Stocked.counts (h : w.Stocked stock roles) (ht : w.Touch w') :
    w.store.operationsTotal.toNat ≤ w'.store.operationsTotal.toNat ∧
      w'.store.operationsTotal.toNat ≤ w'.load ∧ w'.store.failNext = [] := by
  have htotal := h.total
  cases ht with
  | rest halike hload =>
    rw [halike.operationsTotal, halike.failNext, hload]
    exact ⟨Nat.le_refl _, htotal, h.failNext⟩
  | act hd hp hw hstore hload =>
    obtain ⟨hhandler, -⟩ := h.allows hd hp hw
    have hsize : w.store.operationsTotal.toNat < UInt64.size := UInt64.toNat_lt _
    rw [hstore, hhandler, Handler.storage_store, Store.apply_operationsTotal, hload]
    exact ⟨by omega, by omega, Store.apply_failNext h.failNext⟩

theorem Stocked.hasCount_mono (h : w.Stocked stock roles) (hs : w.Step w')
    (hroom : w'.store.HasCount) : w.store.HasCount :=
  Nat.lt_of_le_of_lt (Nat.succ_le_succ (h.counts (h.touch hs)).1) hroom

/-- A step of a process does no harm. -/
theorem Stocked.step (h : w.Stocked stock roles) (hs : w.Step w') : w'.Stocked stock roles := by
  have ht := h.touch hs
  obtain ⟨-, htotal, hfail⟩ := h.counts ht
  have hrun : ∀ d ∈ w.drivers, ∃ source pulled, Driver.Run d.plan source pulled d := by
    intro d hd
    obtain ⟨i, hi⟩ := List.mem_iff_getElem?.1 hd
    obtain ⟨role, -, ⟨pulled, hrun⟩, -⟩ := h.cast hi
    exact ⟨role.source, pulled, hrun.plan_eq ▸ hrun⟩
  refine ⟨hs.plays h.plays, h.admits, h.origin, hfail, htotal, ?_, ?_, ?_⟩
  · intro o ho
    exact h.holds ht (stock.puts o ho) (stock.spared o ho) (h.kept o ho)
  · intro d' hd' r o hr ho hspared
    obtain ⟨d, hd, -, hr | ⟨⟨p, j, task, phase, startedAt, wake, hp, hw, ha, hstore⟩, -⟩⟩ :=
      hs.recorded_cases hrun hd' hr
    · exact h.holds ht (h.puts hd hr ho) hspared (h.written d hd r o hr ho hspared)
    · obtain ⟨hhandler, -⟩ := h.allows hd hp hw
      rw [hhandler] at ha hstore
      rw [hstore]
      exact Handler.holds_of_written ha ho
  · intro hroom d' hd' r hr
    have hbefore := h.hasCount_mono hs hroom
    obtain ⟨i, hi⟩ := List.mem_iff_getElem?.1 hd'
    obtain ⟨d, hd, -, hr | ⟨⟨p, j, task, phase, startedAt, wake, hp, hw, ha, -⟩, -⟩⟩ :=
      hs.recorded_cases hrun hi hr
    · exact h.fine hbefore d (List.mem_of_getElem? hd) r hr
    · obtain ⟨hhandler, hallows⟩ := h.allows hd hp hw
      obtain ⟨written, rfl⟩ := OperationResult.assemble_eq_ok ha
      rw [hhandler]
      exact Handler.isFine (hallows.can h.kept) hbefore h.failNext

/-! ## From outside -/

/-- Nobody has done anything to the store. -/
theorem Stocked.of_fresh (hd : w.drivers = []) (hf : w.store.failNext = [])
    (ht : w.store.operationsTotal = 0) (hkept : stock.kept = []) : w.Stocked stock [] where
  plays := by rw [hd]; exact .nil
  admits := by simp
  origin := by simp
  failNext := hf
  total := by simp [ht]
  kept := by simp [hkept]
  written := by simp [hd]
  fine := by simp [hd]

theorem Stocked.of_same (h : w.Stocked stock roles) (hd : w'.drivers = w.drivers)
    (hs : w.store.Alike w'.store) : w'.Stocked stock roles where
  plays := hd ▸ h.plays
  admits := h.admits
  origin := h.origin
  failNext := hs.failNext.trans h.failNext
  total := by
    rw [load, hs.operationsTotal, hd]
    exact h.total
  kept o ho := hs.holds (h.kept o ho)
  written d hd' r o hr ho hspared := hs.holds (h.written d (hd ▸ hd') r o hr ho hspared)
  fine hroom d hd' := h.fine (by rwa [Store.HasCount, ← hs.operationsTotal]) d (hd ▸ hd')

theorem not_recorded_of_launch {plan : DriverPlan} {source : Source} :
    ¬ ({ plan, source } : Driver).Recorded r := by
  rintro ⟨p, hp, -⟩
  cases hp

theorem Stocked.launch (h : w.Stocked stock roles) (hadmits : stock.Admits role)
    (horigin : roles = [] → role.source = stock.origin) :
    (w.control (.launch role.plan role.source)).Stocked stock (roles ++ [role]) where
  plays := List.rel_append h.plays (.cons ⟨[], .start⟩ .nil)
  admits := by
    intro role' hrole'
    rcases List.mem_append.1 hrole' with hrole' | hrole'
    · exact h.admits role' hrole'
    · rw [List.mem_singleton.1 hrole']
      exact hadmits
  origin := by
    intro role' hrole'
    cases hroles : roles with
    | nil =>
      rw [hroles] at hrole'
      cases hrole'
      exact horigin hroles
    | cons first rest =>
      rw [hroles] at hrole'
      exact h.origin role' (hroles ▸ hrole')
  failNext := h.failNext
  total := by
    have hload : (w.control (.launch role.plan role.source)).load = w.load := by
      simp [load, World.control, Driver.answers]
    rw [hload]
    exact h.total
  kept := h.kept
  written := by
    intro d hd r o hr ho hspared
    simp only [World.control, List.getElem?_append] at hd
    split at hd
    case isTrue => exact h.written d hd r o hr ho hspared
    case isFalse =>
      rw [List.mem_singleton.1 (List.mem_of_getElem? hd)] at hr
      exact (not_recorded_of_launch hr).elim
  fine := by
    intro hroom d hd r hr
    rcases List.mem_append.1 hd with hd | hd
    · exact h.fine hroom d hd r hr
    · rw [List.mem_singleton.1 hd] at hr
      exact (not_recorded_of_launch hr).elim

/-- What is kept may change, as long as it was written and nobody does it any harm. -/
theorem Stocked.restock {stock' : Stock} (h : w.Stocked stock roles)
    (horigin : stock'.origin = stock.origin) (hdoomed : stock.doomed ⊆ stock'.doomed)
    (hadmits : ∀ role ∈ roles, stock'.Admits role) (hkept : ∀ o ∈ stock'.kept, w.store.Holds o) :
    w.Stocked stock' roles where
  plays := h.plays
  admits := hadmits
  origin role hrole := (h.origin role hrole).trans horigin.symm
  failNext := h.failNext
  total := h.total
  kept := hkept
  written d hd r o hr ho hspared :=
    h.written d hd r o hr ho fun hmem => hspared (hdoomed hmem)
  fine := h.fine

end World

/-! ## Room to count -/

/-- No list of this many results can be held. -/
def Pool.resultLimit : Nat := Payload.sizeLimit / 8

/-- As long as a few drivers hold all their results, the requests can be counted. -/
theorem World.Stocked.hasCount {stock : Stock} {roles : List Role} {w : World}
    (h : w.Stocked stock roles) (hfew : roles.length ≤ 4)
    (hmemory : ∀ d ∈ w.drivers, ∀ p, d.pool = some p → p.results.length < Pool.resultLimit) :
    w.store.HasCount := by
  have hanswers : ∀ n ∈ w.drivers.map Driver.answers, n ≤ Pool.resultLimit + Pool.workerLimit := by
    intro n hn
    obtain ⟨d, hd, rfl⟩ := List.mem_map.1 hn
    obtain ⟨i, hi⟩ := List.mem_iff_getElem?.1 hd
    obtain ⟨role, -, ⟨pulled, hrun⟩, -⟩ := h.cast hi
    cases hp : d.pool with
    | none => simp [Driver.answers, hp]
    | some p =>
      obtain ⟨ms, hs⟩ := hrun.supplied hp
      have hworkers := hs.run.workers_lt
      have hresults := hmemory d hd p hp
      have hle := p.answers_le
      rw [Driver.answers_of_pool hp]
      omega
  have hload := List.sum_le_card_nsmul _ _ hanswers
  rw [List.length_map, ← h.plays.length_eq, smul_eq_mul] at hload
  have htotal : w.store.operationsTotal.toNat ≤
      roles.length * (Pool.resultLimit + Pool.workerLimit) := Nat.le_trans h.total hload
  have hbound : roles.length * (Pool.resultLimit + Pool.workerLimit) ≤
      4 * (Pool.resultLimit + Pool.workerLimit) := Nat.mul_le_mul_right _ hfew
  have hlimit : 4 * (Pool.resultLimit + Pool.workerLimit) + 1 < UInt64.size := by decide
  exact Nat.lt_of_le_of_lt (Nat.succ_le_succ (Nat.le_trans htotal hbound)) hlimit

end FaultDrill
