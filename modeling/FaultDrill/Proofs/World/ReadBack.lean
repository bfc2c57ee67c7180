import FaultDrill.Proofs.Store.Latest
import FaultDrill.Proofs.World.Alone

/-! # What was written is read back

One driver writes, and when it has its report another one reads what it has written, over and over.
The report lists every write that succeeded, so that there may be several entries for one object.
The store holds the latest; a read of an entry with other content finds the object corrupted. So all
reads pass if the entries for one object agree, and one of them fails if they do not.
-/

namespace FaultDrill

/-- Entries for one object have the same content. -/
def Agree (written : List StoredObject) : Prop :=
  ∀ o ∈ written, ∀ o' ∈ written, o.target = o'.target → o.checksum = o'.checksum

instance (written : List StoredObject) : Decidable (Agree written) :=
  inferInstanceAs (Decidable (∀ o ∈ written, ∀ o' ∈ written, o.target = o'.target → _))

/-! ## The reads -/

namespace Source

variable {objects : List StoredObject} {cursor k n i : Nat} {ops : List Operation} {s : Source}
  {op : Operation}

/-- The reads go around the objects. -/
theorem GivesFrom.reads (h : GivesFrom k (.read objects cursor) ops s) (hop : ops[i]? = some op) :
    ∃ o, objects[(cursor + i) % objects.length]? = some o ∧ op = .verify o := by
  induction i generalizing k cursor ops with
  | zero =>
    cases h with
    | nil => cases hop
    | cons hfirst =>
      cases hop
      simp only [Source.next] at hfirst
      split at hfirst
      case h_1 => cases hfirst
      case h_2 o ho => cases hfirst; exact ⟨o, ho, rfl⟩
  | succ i ih =>
    cases h with
    | nil => cases hop
    | cons hfirst hrest =>
      simp only [Source.next] at hfirst
      split at hfirst
      case h_1 => cases hfirst
      case h_2 =>
        cases hfirst
        have := ih hrest hop
        rwa [Nat.add_assoc, Nat.add_comm 1 i] at this

theorem Gives.reads (h : (read objects 0).Gives n op) :
    ∃ o, objects[n % objects.length]? = some o ∧ op = .verify o := by
  obtain ⟨ops, s, hgives, hop⟩ := h
  simpa only [Nat.zero_add] using hgives.reads hop

/-- There is no end of reads as long as there is an object. -/
theorem gives_reads (hobjects : objects ≠ []) (count k cursor : Nat) :
    ∃ ops s, GivesFrom k (.read objects cursor) ops s ∧ ops.length = count := by
  induction count generalizing k cursor with
  | zero => exact ⟨[], _, .nil, rfl⟩
  | succ count ih =>
    obtain ⟨ops, s, hgives, hlength⟩ := ih (k + 1) (cursor + 1)
    have hlt : cursor % objects.length < objects.length :=
      Nat.mod_lt _ (List.length_pos_of_ne_nil hobjects)
    refine ⟨.verify objects[cursor % objects.length] :: ops, s, .cons ?_ hgives,
      congrArg (· + 1) hlength⟩
    simp only [Source.next, List.getElem?_eq_getElem hlt]

end Source

/-! ## The report of the writes -/

/-- Of results that all passed and came in order the report lists what they wrote. -/
theorem DriverReport.writtenObjects_ofResults {stream : String} {submitted : UInt64}
    {results : List OperationResult} (hpassed : ∀ r ∈ results, r.isSuccess = true)
    (hsorted : results.Pairwise fun a b => a.taskId.seq ≤ b.taskId.seq) :
    (ofResults stream submitted results).writtenObjects =
      results.filterMap OperationResult.written := by
  have hsort : sortedByTask (results.filter OperationResult.isSuccess) = results := by
    rw [List.filter_eq_self.2 hpassed]
    exact List.mergeSort_of_pairwise (by simpa using hsorted)
  exact congrArg (List.filterMap OperationResult.written) hsort

namespace Driver

variable {plan : DriverPlan} {source : Source} {pulled : List (Option Operation)} {d : Driver}
  {report : DriverReport} {done : List (Task × Outcome)} {o : StoredObject}

/-- The operations of a report are what the source gave. -/
theorem Run.performed (h : Run plan source pulled d) (hd : d.outcome? = some (.ok report)) :
    ∃ ops s, Source.GivesFrom 0 source ops s ∧ report.submitted.toNat = ops.length := by
  have hstage := outcome?_eq_some_iff.1 hd
  obtain ⟨ops, hhalted⟩ := h.halted (by rw [hstage]; rfl)
  obtain ⟨p, -, -, rfl⟩ := h.reported (stage_outcome? hd)
  obtain ⟨s, hgives, -⟩ := hhalted.reason
  exact ⟨ops, s, hgives, hhalted.submitted⟩

theorem Run.isOver (h : Run plan source pulled d) (hd : d.outcome? = some (.ok report)) :
    d.IsOver where
  done := ⟨_, hd⟩
  exited p hp := by
    obtain ⟨q, hq, hexited, -⟩ := h.reported (stage_outcome? hd)
    rwa [Option.some.inj (hp.symm.trans hq)]

/-- The report lists what was written, and nothing else. -/
theorem Accounts.mem_writtenObjects (h : d.Accounts plan source done)
    (hd : d.outcome? = some (.ok report)) :
    o ∈ report.writtenObjects ↔ ∃ e ∈ done, Wrote e o := by
  obtain ⟨pulled, hrun⟩ := h.run
  obtain ⟨ops, s, hgives, hsubmitted⟩ := hrun.performed hd
  have hreport := stage_outcome? hd
  have hresults {r : OperationResult} := h.mem_results hgives hreport hsubmitted (r := r)
  constructor
  · intro ho
    obtain ⟨r, hr, hwritten⟩ := List.mem_filterMap.1 ho
    obtain ⟨e, he, hdone⟩ := hresults.1 (List.mem_map_of_mem (List.mem_append_left _ hr))
    exact ⟨e, he, r.timeless, hdone, hwritten⟩
  · rintro ⟨e, he, r, hdone, hwritten⟩
    obtain ⟨r', hr', rfl⟩ := List.mem_map.1 (hresults.2 ⟨e, he, hdone⟩)
    refine List.mem_filterMap.2 ⟨r', ?_, hwritten⟩
    have hsuccess : r'.isSuccess = true := by
      obtain ⟨-, hsuccess, -⟩ := OperationResult.of_written hdone hwritten
      obtain ⟨written, hr⟩ := OperationResult.assemble_eq_ok hdone
      rw [OperationResult.isSuccess, show r'.outcome = e.2 from congrArg (·.outcome) hr, hsuccess]
    rcases List.mem_append.1 hr' with hpassed | hfailed
    · exact hpassed
    · cases hsuccess.symm.trans ((hrun.exact hreport).failed r' hfailed)

/-- Tasks of one source of writes write to objects of their own. -/
theorem Accounts.agree {writes : WriteSource} (h : d.Accounts plan (.write writes) done)
    (hd : d.outcome? = some (.ok report)) : Agree report.writtenObjects := by
  intro o ho o' ho' htarget
  obtain ⟨e, he, hwrote⟩ := (h.mem_writtenObjects hd).1 ho
  obtain ⟨e', he', hwrote'⟩ := (h.mem_writtenObjects hd).1 ho'
  obtain ⟨n, hn, op, hop, htask⟩ := h.supplies e he
  obtain ⟨n', hn', op', hop', htask'⟩ := h.supplies e' he'
  obtain ⟨-, -, payload, hp, hsum, ht⟩ := hwrote.spec
  obtain ⟨-, -, payload', hp', hsum', ht'⟩ := hwrote'.spec
  rw [htask] at hp ht
  rw [htask'] at hp' ht'
  have hkey : writes.key (.ofIndex n) = writes.key (.ofIndex n') := by
    have hsame : op.target = op'.target := ht.trans (htarget.trans ht'.symm)
    rw [← hop.key.2, ← hop'.key.2, hsame]
  have hnumber := congrArg (·.seq.toNat) (WriteSource.key_inj hkey)
  rw [TaskId.toNat_ofIndex hn, TaskId.toNat_ofIndex hn', Nat.add_right_cancel_iff] at hnumber
  subst hnumber
  obtain rfl := hop.eq hop'
  obtain rfl := Option.some.inj (hp.symm.trans hp')
  exact Except.ok.inj (hsum.symm.trans hsum')

end Driver

namespace World

variable {plan plan' : DriverPlan} {source source' : Source} {s₀ : Store}
  {done : List (Task × Outcome)} {w w₀ w₁ w₂ : World} {n : Nat} {d : Driver}
  {report report' : DriverReport} {o : StoredObject} {r : OperationResult}

/-- A driver that is launched when all the others are over has the store to itself. -/
theorem Relay.launch (h : w.Relay n plan source s₀ done) (hd : w.drivers[n]? = some d)
    (hover : d.IsOver) (plan' : DriverPlan) (source' : Source) :
    (w.control (.launch plan' source')).Relay (n + 1) plan' source' w.store [] := by
  obtain ⟨⟨gone, e, hdrivers, rfl, hgone, -⟩, -, hcalm⟩ := h
  obtain rfl : e = d := by
    rw [hdrivers, List.getElem?_concat_length] at hd
    exact Option.some.inj hd
  refine ⟨⟨gone ++ [e], _, congrArg (· ++ _) hdrivers, by simp, fun g hg => ?_,
    Driver.accounts_start⟩, .nil, hcalm⟩
  rcases List.mem_append.1 hg with hg | hg
  · exact hgone g hg
  · rwa [List.mem_singleton.1 hg]

/-- One driver writes to a store that is up, until it has this report; then another one reads what
the first one has written, and so far the requests could be counted. Nobody else does anything to
the store. -/
structure ReadsBack (plan plan' : DriverPlan) (source : Source) (report : DriverReport)
    (w₀ w₁ w₂ : World) : Prop where
  drivers : w₀.drivers = [{ plan, source }]
  calm : w₀.IsCalm
  isUp : w₀.store.IsUp
  handler : plan.handler = .storage
  writes : ∀ n op, source.Gives n op → op.kind = .write
  writing : ReachableBy Move.IsSolo w₀ w₁
  reported : w₁.Ends (.ok report)
  handler' : plan'.handler = .storage
  reading : ReachableBy Move.IsSolo
    (w₁.control (.launch plan' (.read report.writtenObjects 0))) w₂
  room : w₂.store.HasCount

/-- The driver that writes has performed these tasks. -/
theorem ReadsBack.written (h : ReadsBack plan plan' source report w₀ w₁ w₂) :
    ∃ done d, w₁.Relay 0 plan source w₀.store done ∧ w₁.drivers[0]? = some d ∧
      d.Accounts plan source done ∧ d.outcome? = some (.ok report) := by
  obtain ⟨done, halone⟩ := h.writing.alone h.drivers h.calm h.isUp h.handler
  have hrelay := alone_iff.1 halone
  obtain ⟨⟨d, hdrivers, haccounts⟩, -, -⟩ := halone
  obtain ⟨e, hdrivers', ho⟩ := h.reported
  obtain rfl : d = e := List.head_eq_of_cons_eq (hdrivers.symm.trans hdrivers')
  exact ⟨done, d, hrelay, congrArg (·[0]?) hdrivers, haccounts, ho⟩

/-- Of the entries for each object, the store holds one. -/
theorem ReadsBack.holds_entry (h : ReadsBack plan plan' source report w₀ w₁ w₂)
    (ho : o ∈ report.writtenObjects) :
    ∃ o' ∈ report.writtenObjects, o'.target = o.target ∧ w₁.store.Holds o' := by
  obtain ⟨done, d, hrelay, -, haccounts, hd⟩ := h.written
  have hwrites (e : Task × Outcome) (he : e ∈ done) : e.1.operation.kind = .write := by
    obtain ⟨n, -, op, hop, htask⟩ := haccounts.supplies e he
    rw [htask]
    exact h.writes n op hop
  obtain ⟨e, he, hwrote⟩ := (haccounts.mem_writtenObjects hd).1 ho
  obtain ⟨earlier, e', later, o', rfl, hwrote', htarget, -, hholds⟩ :=
    hrelay.serial.holds_latest hwrites he hwrote
  have he' : e' ∈ earlier ++ e' :: later := List.mem_append_right _ List.mem_cons_self
  exact ⟨o', (haccounts.mem_writtenObjects hd).2 ⟨e', he', hwrote'⟩, htarget, hholds⟩

/-- The driver that reads has performed these tasks. -/
theorem ReadsBack.read (h : ReadsBack plan plan' source report w₀ w₁ w₂) :
    ∃ done d, w₂.Relay 1 plan' (.read report.writtenObjects 0) w₁.store done ∧
      w₂.drivers[1]? = some d ∧ d.Accounts plan' (.read report.writtenObjects 0) done ∧
      w₁.store.IsUp := by
  obtain ⟨done, d, hrelay, hd, haccounts, ho⟩ := h.written
  obtain ⟨pulled, hrun⟩ := haccounts.run
  have hup : w₁.store.IsUp := hrelay.serial.isUp h.isUp
  obtain ⟨done', hrelay'⟩ :=
    h.reading.relay (hrelay.launch hd (hrun.isOver ho) _ _) hup h.handler'
  obtain ⟨gone, d', hdrivers, hlength, -, haccounts'⟩ := hrelay'.driver
  have hd' : w₂.drivers[0 + 1]? = some d' := by
    rw [hdrivers, ← hlength, List.getElem?_concat_length]
  exact ⟨done', d', hrelay', hd', haccounts', hup⟩

/-- A read passes if the store holds what it expects, and else it finds the object corrupted. -/
inductive Reads (s : Store) (o : StoredObject) (outcome : Outcome) : Prop
  | passes : s.Holds o → outcome.isSuccess = true → Reads s o outcome
  | alarms : ¬ s.Holds o → outcome.failureKind? = some .corruption → Reads s o outcome

/-- What becomes of each read. -/
theorem ReadsBack.reads {done : List (Task × Outcome)} {e : Task × Outcome}
    (h : ReadsBack plan plan' source report w₀ w₁ w₂) (hup : w₁.store.IsUp)
    (hrelay : w₂.Relay 1 plan' (.read report.writtenObjects 0) w₁.store done)
    (haccounts : d.Accounts plan' (.read report.writtenObjects 0) done) (he : e ∈ done) :
    ∃ n o, n + 1 < UInt64.size ∧ e.1 = ⟨.ofIndex n, plan'.stream, .verify o⟩ ∧
      report.writtenObjects[n % report.writtenObjects.length]? = some o ∧
      Reads w₁.store o e.2 := by
  have what (e : Task × Outcome) (he : e ∈ done) : ∃ n o, n + 1 < UInt64.size ∧
      e.1 = ⟨.ofIndex n, plan'.stream, .verify o⟩ ∧
      report.writtenObjects[n % report.writtenObjects.length]? = some o := by
    obtain ⟨n, hn, op, hop, htask⟩ := haccounts.supplies e he
    obtain ⟨o, ho, rfl⟩ := hop.reads
    exact ⟨n, o, hn, htask, ho⟩
  obtain ⟨n, o, hn, htask, ho⟩ := what e he
  obtain ⟨earlier, before, hserial, hsub, houtcome, hle⟩ := hrelay.serial.performed he
  have hobjects : before.objects = w₁.store.objects := by
    refine hserial.objects_of_reads fun e he => ?_
    obtain ⟨n, o, -, htask, -⟩ := what e (hsub he)
    rw [htask]
    rfl
  have hcount : before.HasCount := Nat.lt_of_le_of_lt (Nat.succ_le_succ hle) h.room
  have hthere : (before.objects[o.target]?).isSome = true := by
    obtain ⟨o', -, htarget, content, hcontent, -⟩ := h.holds_entry (List.mem_of_getElem? ho)
    rw [hobjects, ← htarget, hcontent]
    rfl
  refine ⟨n, o, hn, htask, ho, ?_⟩
  have hop : e.1.operation = .verify o := by rw [htask]
  rcases Store.verify_cases (hserial.isUp hup) hcount hop hthere with
    ⟨hholds, hsuccess⟩ | ⟨hnot, hfailure⟩
  · exact .passes ((Store.holds_congr hobjects).1 hholds) (houtcome ▸ hsuccess)
  · exact .alarms (fun hholds => hnot ((Store.holds_congr hobjects).2 hholds))
      (houtcome ▸ hfailure)

theorem ReadsBack.recorded {done : List (Task × Outcome)}
    (h : ReadsBack plan plan' source report w₀ w₁ w₂) (hup : w₁.store.IsUp)
    (hrelay : w₂.Relay 1 plan' (.read report.writtenObjects 0) w₁.store done)
    (haccounts : d.Accounts plan' (.read report.writtenObjects 0) done) (hr : d.Recorded r) :
    ∃ o, report.writtenObjects[(r.taskId.seq.toNat - 1) % report.writtenObjects.length]? = some o ∧
      r.target = o.target ∧ Reads w₁.store o r.outcome := by
  obtain ⟨e, he, hdone⟩ := haccounts.recorded r hr
  obtain ⟨n, o, hn, htask, ho, hreads⟩ := h.reads hup hrelay haccounts he
  obtain ⟨written, hresult⟩ := OperationResult.assemble_eq_ok hdone
  have hid : r.taskId = .ofIndex n := (congrArg (·.taskId) hresult).trans (by rw [htask])
  have htarget : r.target = o.target := (congrArg (·.target) hresult).trans (by rw [htask]; rfl)
  have houtcome : r.outcome = e.2 := congrArg (·.outcome) hresult
  refine ⟨o, ?_, htarget, houtcome ▸ hreads⟩
  rwa [hid, TaskId.toNat_ofIndex hn, Nat.add_sub_cancel]

/-- Where the entries agree, the store holds all of them. -/
theorem ReadsBack.holds (h : ReadsBack plan plan' source report w₀ w₁ w₂)
    (hagree : Agree report.writtenObjects) (ho : o ∈ report.writtenObjects) :
    w₁.store.Holds o := by
  obtain ⟨o', ho', htarget, content, hcontent, hsum⟩ := h.holds_entry ho
  exact ⟨content, htarget ▸ hcontent, hsum.trans (hagree o' ho' o ho htarget)⟩

theorem Reads.isSuccess_iff {s : Store} {outcome : Outcome} (h : Reads s o outcome) :
    outcome.isSuccess = true ↔ s.Holds o := by
  cases h with
  | passes hholds hsuccess => exact iff_of_true hsuccess hholds
  | alarms hnot hfailure =>
    refine iff_of_false (fun hsuccess => ?_) hnot
    cases outcome with
    | success => cases hfailure
    | failure => cases hsuccess

/-- A driver that has read every entry has a failure to report if the store does not hold them
all. -/
theorem ReadsBack.holds_of_passed {done : List (Task × Outcome)}
    (h : ReadsBack plan plan' source report w₀ w₁ w₂) (hup : w₁.store.IsUp)
    (hrelay : w₂.Relay 1 plan' (.read report.writtenObjects 0) w₁.store done)
    (haccounts : d.Accounts plan' (.read report.writtenObjects 0) done)
    (hd : d.outcome? = some (.ok report'))
    (hlength : report.writtenObjects.length ≤ report'.submitted.toNat)
    (hpassed : report'.failed = []) (ho : o ∈ report.writtenObjects) : w₁.store.Holds o := by
  obtain ⟨n, hn⟩ := List.mem_iff_getElem?.1 ho
  have hlt : n < report.writtenObjects.length := (List.getElem?_eq_some_iff.1 hn).1
  obtain ⟨pulled, hrun⟩ := haccounts.run
  obtain ⟨ops, s, hgives, hsubmitted⟩ := hrun.performed hd
  have hreport := Driver.stage_outcome? hd
  have hop : ops[n]? = some ops[n] := List.getElem?_eq_getElem (by omega)
  obtain ⟨r, hr, e, -, htask, hdone⟩ := haccounts.result hgives hreport hsubmitted hop
  obtain ⟨o', ho', -, hreads⟩ := h.recorded hup hrelay haccounts (hrun.recorded hreport hr)
  have hid : r.taskId = .ofIndex n := by
    rw [← r.taskId_timeless, OperationResult.taskId_ofDone hdone, htask]
  have hsize : report'.submitted.toNat < UInt64.size := report'.submitted.toNat_lt
  rw [hid, TaskId.toNat_ofIndex (by omega), Nat.add_sub_cancel, Nat.mod_eq_of_lt hlt, hn] at ho'
  obtain rfl := Option.some.inj ho'
  refine hreads.isSuccess_iff.1 ((hrun.exact hreport).passed r ?_)
  rwa [DriverReport.results, hpassed, List.append_nil] at hr

/-- If all those reads passed, the entries agree: the store cannot hold two contents of one
object. -/
theorem ReadsBack.agree_of_passed {done : List (Task × Outcome)}
    (h : ReadsBack plan plan' source report w₀ w₁ w₂) (hup : w₁.store.IsUp)
    (hrelay : w₂.Relay 1 plan' (.read report.writtenObjects 0) w₁.store done)
    (haccounts : d.Accounts plan' (.read report.writtenObjects 0) done)
    (hd : d.outcome? = some (.ok report'))
    (hlength : report.writtenObjects.length ≤ report'.submitted.toNat)
    (hpassed : report'.failed = []) : Agree report.writtenObjects := by
  have hholds (o : StoredObject) (ho : o ∈ report.writtenObjects) : w₁.store.Holds o :=
    h.holds_of_passed hup hrelay haccounts hd hlength hpassed ho
  intro o ho o' ho' htarget
  obtain ⟨content, hcontent, hsum⟩ := hholds o ho
  obtain ⟨content', hcontent', hsum'⟩ := hholds o' ho'
  rw [← htarget, hcontent, Option.some.injEq] at hcontent'
  rw [← hsum, ← hsum', hcontent']

/-- Whoever reads back what was written finds each object as one of its entries has it, and takes
each entry that has it otherwise for a corruption. So no read raises a false alarm if the entries
for one object agree, as those of a source of writes do; and if they do not, a driver that reads all
of them has failures to report. A driver that reads so many times comes to its end. -/
theorem read_back_law (h : ReadsBack plan plan' source report w₀ w₁ w₂) :
    (∀ o ∈ report.writtenObjects,
      ∃ o' ∈ report.writtenObjects, o'.target = o.target ∧ w₁.store.Holds o') ∧
    (∀ writes, source = .write writes → Agree report.writtenObjects) ∧
    ∃ d, w₂.drivers[1]? = some d ∧
      (∀ r, d.Recorded r → ∃ o,
        report.writtenObjects[(r.taskId.seq.toNat - 1) % report.writtenObjects.length]? = some o ∧
          r.target = o.target ∧ Reads w₁.store o r.outcome) ∧
      (Agree report.writtenObjects → ∀ r, d.Recorded r → r.isSuccess = true) ∧
      (∀ report', d.outcome? = some (.ok report') →
        (Agree report.writtenObjects → report'.failed = []) ∧
        (report.writtenObjects.length ≤ report'.submitted.toNat → report'.failed = [] →
          Agree report.writtenObjects)) ∧
      (∀ limit, plan'.stop = .count limit → limit.toNat + 1 < UInt64.size →
        report.writtenObjects ≠ [] → (∃ p, Pool.start plan'.stream plan'.pool = .ok p) →
        w₂.AtRest → ∃ report', d.outcome? = some (.ok report') ∧ report'.submitted = limit) := by
  obtain ⟨done, d, hrelay, hd, haccounts, hup⟩ := h.read
  obtain ⟨pulled, hrun⟩ := haccounts.run
  have hpasses (hagree : Agree report.writtenObjects) (r : OperationResult) (hr : d.Recorded r) :
      r.isSuccess = true := by
    obtain ⟨o, ho, -, hreads⟩ := h.recorded hup hrelay haccounts hr
    exact hreads.isSuccess_iff.2 (h.holds hagree (List.mem_of_getElem? ho))
  refine ⟨fun o ho => h.holds_entry ho, ?_, d, hd, fun r hr => h.recorded hup hrelay haccounts hr,
    hpasses, fun report' hreport => ⟨fun hagree => ?_, fun hlength hpassed => ?_⟩, ?_⟩
  · rintro writes rfl
    obtain ⟨done, d, -, -, haccounts, hd⟩ := h.written
    exact haccounts.agree hd
  · have hstage := Driver.stage_outcome? hreport
    refine List.eq_nil_iff_forall_not_mem.2 fun r hr => ?_
    have hfailed := (hrun.exact hstage).failed r hr
    rw [hpasses hagree r (hrun.recorded hstage (List.mem_append_right _ hr))] at hfailed
    cases hfailed
  · exact h.agree_of_passed hup hrelay haccounts hreport hlength hpassed
  · intro limit hstop hlimit hwritten ⟨p, hstart⟩ hrest
    obtain ⟨ops, s, hgives, hlength⟩ := Source.gives_reads hwritten limit.toNat 0 0
    obtain ⟨e, outcome, he, ho⟩ := hrelay.ends hrest
    obtain rfl := Option.some.inj (he.symm.trans hd)
    obtain ⟨report', rfl, hsubmitted⟩ := hrun.reports
      (.counted hstop hlength.symm hgives) (by omega) hstart haccounts.noneLost ho
    exact ⟨report', ho, UInt64.toNat_inj.1 (hsubmitted.trans hlength)⟩

/-! ## Two writes to one object -/

/-- What the workers of a driver have delivered. -/
def results (w : World) (i : Nat) : List OperationResult :=
  ((w.drivers[i]?.bind Driver.pool).map Pool.results).getD []

theorem results_eq {p : Pool} (hd : w.drivers[n]? = some d) (hp : d.pool = some p) :
    w.results n = p.results := by
  rw [results, hd, Option.bind_some, hp]
  rfl

theorem recorded_of_results (hr : r ∈ w.results n) :
    ∃ d, w.drivers[n]? = some d ∧ d.Recorded r := by
  cases hd : w.drivers[n]? with
  | none => simp [results, hd] at hr
  | some d =>
    cases hp : d.pool with
    | none => simp [results, hd, hp] at hr
    | some p => exact ⟨d, rfl, p, hp, .inl (results_eq hd hp ▸ hr)⟩

/-- Two operations, one after the other, and nothing in the background. -/
def relayPlan : DriverPlan := { soloPlan 1 0 with stop := .count 2 }

/-- First nothing is written to the object, and then so many bytes. -/
def relayOps (size : UInt64) : List Operation :=
  [.write ⟨"bucket", "key"⟩ ⟨0, 0⟩, .write ⟨"bucket", "key"⟩ ⟨size, 0⟩]

def relayStart (size : UInt64) : World :=
  { drivers := [{ plan := relayPlan, source := .scripted (relayOps size) }] }

/-- The driver with the number runs from its start to its end. -/
def relayMoves (d : Nat) : List Move :=
  soloSteps [(2, .driver d), (5, .client d 0), (2, .driver d), (5, .client d 1), (2, .driver d),
    (16, .worker d 0), (4, .client d 2), (4, .worker d 0), (6, .client d 2), (2, .driver d)]

def relayWritten (size : UInt64) : World := ((relayStart size).moves? (relayMoves 0)).getD {}

def relayObjects (size : UInt64) : List StoredObject :=
  ((relayWritten size).results 0).filterMap OperationResult.written

def relayLaunched (size : UInt64) : World :=
  (relayWritten size).control (.launch relayPlan (.read (relayObjects size) 0))

def relayRead (size : UInt64) : World := ((relayLaunched size).moves? (relayMoves 1)).getD {}

theorem readsBack_relay (size : UInt64)
    (hwritten : ((relayStart size).moves? (relayMoves 0)).isSome = true)
    (hended : (((relayWritten size).drivers[0]?.bind Driver.outcome?).bind
      Except.toOption).isSome = true)
    (hpassed : ∀ r ∈ (relayWritten size).results 0, r.isSuccess = true)
    (hsorted : ((relayWritten size).results 0).Pairwise fun a b => a.taskId.seq ≤ b.taskId.seq)
    (hread : ((relayLaunched size).moves? (relayMoves 1)).isSome = true)
    (hroom : (relayRead size).store.HasCount) :
    ∃ report, ReadsBack relayPlan relayPlan (.scripted (relayOps size)) report (relayStart size)
      (relayWritten size) (relayRead size) ∧ report.writtenObjects = relayObjects size := by
  have hmoves : (relayStart size).moves? (relayMoves 0) = some (relayWritten size) := by
    rw [relayWritten, ← Option.some_get hwritten, Option.getD_some]
  have hmoves' : (relayLaunched size).moves? (relayMoves 1) = some (relayRead size) := by
    rw [relayRead, ← Option.some_get hread, Option.getD_some]
  have hreach : ReachableBy Move.IsSolo (relayStart size) (relayWritten size) :=
    ReachableBy.refl.of_moves? (fun m hm => mem_soloSteps hm) hmoves
  obtain ⟨done, ⟨d, hdrivers, haccounts⟩, -, -⟩ :=
    hreach.alone rfl (List.forall_mem_nil _) ⟨rfl, rfl⟩ rfl
  obtain ⟨pulled, hrun⟩ := haccounts.run
  have hd : (relayWritten size).drivers[0]? = some d := congrArg (·[0]?) hdrivers
  obtain ⟨report, hreport⟩ : ∃ report, d.outcome? = some (.ok report) := by
    rw [hd, Option.bind_some] at hended
    obtain ⟨report, hreport⟩ := Option.isSome_iff_exists.1 hended
    obtain ⟨outcome, ho, houtcome⟩ := Option.bind_eq_some_iff.1 hreport
    cases outcome with
    | error => cases houtcome
    | ok => exact ⟨_, ho⟩
  obtain ⟨p, hp, -, rfl⟩ := hrun.reported (Driver.stage_outcome? hreport)
  have hobjects : (d.report p).writtenObjects = relayObjects size := by
    rw [relayObjects, results_eq hd hp]
    rw [results_eq hd hp] at hpassed hsorted
    exact DriverReport.writtenObjects_ofResults hpassed hsorted
  refine ⟨_, ⟨rfl, List.forall_mem_nil _, ⟨rfl, rfl⟩, rfl, ?_, hreach, ⟨d, hdrivers, hreport⟩, rfl,
    ?_, hroom⟩, hobjects⟩
  · intro n op hop
    have hmem := hop.mem_scripted
    rw [relayOps, List.mem_pair] at hmem
    rcases hmem with rfl | rfl <;> rfl
  · rw [hobjects]
    exact ReachableBy.refl.of_moves? (fun m hm => mem_soloSteps hm) hmoves'

/-- Two writes of nothing to one object: both entries are read back. -/
theorem read_back_law_trial : ∃ report d report',
    ReadsBack relayPlan relayPlan (.scripted (relayOps 0)) report (relayStart 0) (relayWritten 0)
      (relayRead 0) ∧ report.writtenObjects.length = 2 ∧ Agree report.writtenObjects ∧
      (relayRead 0).AtRest ∧ (relayRead 0).drivers[1]? = some d ∧
      d.outcome? = some (.ok report') ∧ report'.submitted = 2 ∧ report'.failed = [] := by
  obtain ⟨report, h, hobjects⟩ := readsBack_relay 0 (by decide +kernel)
    (by decide +kernel) (by decide +kernel) (by decide +kernel) (by decide +kernel)
    (by decide +kernel)
  have hlength : report.writtenObjects.length = 2 := by
    rw [hobjects]
    decide +kernel
  have hagree : Agree report.writtenObjects := by
    rw [hobjects]
    decide +kernel
  have hrest : (relayRead 0).AtRest := atRest_of_over (by decide +kernel) (by decide +kernel)
  obtain ⟨-, -, d, hd, -, -, hreport, hends⟩ := read_back_law h
  obtain ⟨report', ho, hsubmitted⟩ := hends 2 rfl (by decide)
    (List.ne_nil_of_length_pos (by omega)) ⟨_, rfl⟩ hrest
  exact ⟨report, d, report', h, hlength, hagree, hrest, hd, ho, hsubmitted,
    (hreport report' ho).1 hagree⟩

/-- A write of nothing and then one of a byte to the same object: both succeed, the report lists
both, and the reader takes what the second one has put there for corruption. -/
theorem read_back_alarms : ∃ report d r,
    ReadsBack relayPlan relayPlan (.scripted (relayOps 1)) report (relayStart 1) (relayWritten 1)
      (relayRead 1) ∧ report.writtenObjects.length = 2 ∧ (relayRead 1).drivers[1]? = some d ∧
      d.Recorded r ∧ r.outcome.failureKind? = some .corruption := by
  obtain ⟨report, h, hobjects⟩ := readsBack_relay 1 (by decide +kernel)
    (by decide +kernel) (by decide +kernel) (by decide +kernel) (by decide +kernel)
    (by decide +kernel)
  have hlength : report.writtenObjects.length = 2 := by
    rw [hobjects]
    decide +kernel
  obtain ⟨r, hr, hfailure⟩ : ∃ r ∈ (relayRead 1).results 1,
      r.outcome.failureKind? = some .corruption := by decide +kernel
  obtain ⟨d, hd, hrecorded⟩ := recorded_of_results hr
  exact ⟨report, d, r, h, hlength, hd, hrecorded, hfailure⟩

end World

end FaultDrill
