import FaultDrill.Proofs.Aggregate
import FaultDrill.Proofs.Collection
import FaultDrill.Proofs.World.Stock

/-! # The reports of a drill

A collection receives what drivers reported that have ended. If nobody does any harm to the
stock, and a fault inside its window is all that takes the store down, the report that the
collection makes of them is clean: what failed found the store down, and every policy excuses it.
-/

namespace FaultDrill

namespace Collection

/-- What a collection comes to in one step: it receives a report, makes one of all of them, or
ends without. -/
inductive Step (policy : Policy) (bounds : Option WindowBounds) (mailbox : Mailbox)
    (c : Collection) : Collection → Mailbox → Prop
  | receive {report : DriverReport} {mailbox' : Mailbox} : c.ended = none →
      .final report ∈ mailbox.arrived → mailbox'.arrived = mailbox.arrived →
      Step policy bounds mailbox c { c with received := c.received ++ [report] } mailbox'
  | conclude {report : AggregateReport} :
      AggregateReport.classify c.received bounds policy = .ok report →
      Step policy bounds mailbox c { c with ended := some (.report report) } mailbox
  | giveUp {ended : CollectionEnd} {mailbox' : Mailbox} : (∀ report, ended ≠ .report report) →
      mailbox'.arrived = mailbox.arrived →
      Step policy bounds mailbox c { c with ended := some ended } mailbox'

theorem step_of_step? {policy : Policy} {bounds : Option WindowBounds} {timer : Nat}
    {mailbox mailbox' : Mailbox} {c c' : Collection} {event : Option Event}
    (h : c.step? policy bounds timer mailbox = some (c', mailbox', event)) :
    c.Step policy bounds mailbox c' mailbox' := by
  obtain ⟨hgoes, hturn⟩ := turn_of_step? h
  cases hturn with
  | receive _ hnext => exact .receive hgoes (List.mem_of_getElem? hnext) rfl
  | conclude _ hc => exact .conclude hc
  | abort | crash | giveUp => exact .giveUp nofun rfl

end Collection

/-- The results of a report were recorded by the driver that made it. -/
theorem Driver.Run.recorded {plan : DriverPlan} {source : Source}
    {pulled : List (Option Operation)} {d : Driver} {report : DriverReport} {r : OperationResult}
    (h : Run plan source pulled d) (hreport : d.stage.outcome? = some (.ok report))
    (hr : r ∈ report.results) : d.Recorded r := by
  obtain ⟨p, hp, -, rfl⟩ := h.reported hreport
  exact ⟨p, hp, .inl (DriverReport.ofResults_perm.mem_iff.1 hr)⟩

namespace World

/-- A driver has ended with this report. -/
def HasReport (w : World) (report : DriverReport) : Prop :=
  ∃ d ∈ w.drivers, d.stage.outcome? = some (.ok report)

variable {stock : Stock} {roles : List Role} {w w' w₀ : World} {report : DriverReport}
  {reports : List DriverReport} {r : OperationResult} {i : Nat} {d d' : Driver}

/-- A driver that has ended stays as it ended. -/
theorem Step.hasReport (hs : w.Step w') (h : w.HasReport report) : w'.HasReport report := by
  obtain ⟨d, hd, hreport⟩ := h
  obtain ⟨i, hi⟩ := List.mem_iff_getElem?.1 hd
  obtain ⟨d', hd', hreport'⟩ :=
    hs.keeps (P := fun e => e.stage.outcome? = some (.ok report)) hi hreport
      (fun _ _ _ _ hstep ho => Driver.outcome?_step ho hstep) (fun _ _ => id)
  exact ⟨d', List.mem_of_getElem? hd', hreport'⟩

theorem Stocked.recorded (h : w.Stocked stock roles) (hreport : w.HasReport report)
    (hr : r ∈ report.results) : ∃ d ∈ w.drivers, d.Recorded r := by
  obtain ⟨d, hd, hreport⟩ := hreport
  obtain ⟨i, hi⟩ := List.mem_iff_getElem?.1 hd
  obtain ⟨role, -, ⟨pulled, hrun⟩, -⟩ := h.cast hi
  exact ⟨d, hd, hrun.recorded hreport hr⟩

theorem Stocked.isBalanced (h : w.Stocked stock roles) (hreport : w.HasReport report) :
    report.IsBalanced := by
  obtain ⟨d, hd, hreport⟩ := hreport
  obtain ⟨i, hi⟩ := List.mem_iff_getElem?.1 hd
  obtain ⟨role, -, ⟨pulled, hrun⟩, -⟩ := h.cast hi
  exact (hrun.exact hreport).submitted

/-- The report on all that the drivers have done is clean. -/
theorem Stocked.clean {policy : Policy} {report : AggregateReport} (h : w.Stocked stock roles)
    (hw : ReachableBy Move.IsBracketed w₀ w) (h₀ : w₀.Fresh) (hroom : w.store.HasCount)
    (hreports : ∀ report ∈ reports, w.HasReport report)
    (hc : AggregateReport.classify reports w.window.bounds policy = .ok report) :
    report.Clean := by
  refine (AggregateReport.covers_of_classify hc).clean ?_ ?_
  · exact (DriverReport.length_delivered fun report hmem => h.isBalanced (hreports _ hmem)).symm
  · intro r hr
    obtain ⟨report, hmem, hr⟩ := List.mem_flatMap.1 hr
    obtain ⟨d, hd, hr⟩ := h.recorded (hreports report hmem) hr
    rcases h.fine hroom d hd r hr with hsuccess | hu
    · cases ho : r.outcome with
      | success => simp [Policy.classify, ho, Outcome.failureKind?]
      | failure => rw [ho] at hsuccess; cases hsuccess
    · have hordered := (hw.bracketed h₀).dated.ordered
      have hagrees := hw.reachable.agrees h₀ hd hr
      have hmeets := (hw.touches h₀ d hd r hr hu).meets hagrees hordered policy.grace
      obtain ⟨reason, hreason⟩ := hu
      have hkind : r.outcome.failureKind? = some .transport := by rw [hreason]; rfl
      exact policy.not_unexpected hagrees.lasted hordered hmeets hkind (by decide)

/-- The reports that were sent and those that were received are those of drivers, and what a
collection made of them is clean. -/
structure Posted (w : World) : Prop where
  mailed : ∀ report, .final report ∈ w.mailbox.arrived → w.HasReport report
  received : ∀ c, w.collection = some c → ∀ report ∈ c.received, w.HasReport report
  clean : ∀ c report, w.collection = some c → c.ended = some (.report report) →
    w.store.HasCount → report.Clean

theorem mem_arrived_post {message : Option Message} {m : Message}
    (h : m ∈ (w.post message).mailbox.arrived) : m ∈ w.mailbox.arrived ∨ message = some m := by
  cases message with
  | none => exact .inl h
  | some sent =>
    change m ∈ (w.mailbox.send sent).arrived at h
    unfold Mailbox.send at h
    split at h
    · rcases List.mem_append.1 h with h | h
      · exact .inl h
      · exact .inr (congrArg some (List.mem_singleton.1 h).symm)
    · exact .inl h

/-- A driver sends no report but the one that it ends with. -/
theorem outcome?_of_message {plan : DriverPlan} {source : Source}
    {pulled : List (Option Operation)} {around : Surroundings} {emission : Emission}
    (hrun : Driver.Run plan source pulled d) (hd : d.step? around = some (d', emission))
    (hm : emission.message = some (.final report)) : d'.stage.outcome? = some (.ok report) := by
  cases Driver.advance_step hd with
  | goOn _ _ hnone => cases hnone.symm.trans hm
  | giveUp | finish | announce => cases hm
  | send hs =>
    cases hm
    rw [hrun.sending hs]
    rfl

/-- Who leaves the collection alone and puts nothing into the mailbox but reports of drivers. -/
theorem Posted.keep (h : w.Posted) (hkeep : ∀ report, w.HasReport report → w'.HasReport report)
    (hroom : w'.store.HasCount → w.store.HasCount)
    (hmail : ∀ report, .final report ∈ w'.mailbox.arrived →
      .final report ∈ w.mailbox.arrived ∨ w'.HasReport report)
    (hcollection : w'.collection = w.collection) : w'.Posted := by
  refine ⟨?_, ?_, ?_⟩
  · intro report hreport
    rcases hmail report hreport with hreport | hreport
    · exact hkeep report (h.mailed report hreport)
    · exact hreport
  · intro c hc report hreport
    rw [hcollection] at hc
    exact hkeep report (h.received c hc report hreport)
  · intro c report hc hended hcount
    rw [hcollection] at hc
    exact h.clean c report hc hended (hroom hcount)

theorem Posted.step (h : w.Posted) (hstock : w.Stocked stock roles)
    (hw : ReachableBy Move.IsBracketed w₀ w) (h₀ : w₀.Fresh) (hs : w.Step w') : w'.Posted := by
  have hroom := hstock.hasCount_mono hs
  have hkeep (report : DriverReport) : w.HasReport report → w'.HasReport report := hs.hasReport
  cases hs with
  | @driver i d d' emission hd hstep =>
    refine h.keep hkeep hroom ?_ rfl
    intro report hreport
    rcases mem_arrived_post hreport with hreport | hsent
    · exact .inl hreport
    · obtain ⟨role, -, ⟨pulled, hrun⟩, -⟩ := hstock.cast hd
      have hlt : i < w.drivers.length := (List.getElem?_eq_some_iff.1 hd).1
      exact .inr ⟨d', List.mem_of_getElem? (List.getElem?_set_self hlt),
        outcome?_of_message hrun hstep hsent⟩
  | client | worker | fault => exact h.keep hkeep hroom (fun _ => .inl) rfl
  | @collection c c' mailbox event hc hstep =>
    have hreceived := h.received c hc
    have hmailed (harrived : mailbox.arrived = w.mailbox.arrived) (report : DriverReport)
        (hreport : .final report ∈ mailbox.arrived) :=
      hkeep report (h.mailed report (harrived ▸ hreport))
    cases Collection.step_of_step? hstep with
    | receive hgoes hmem harrived =>
      refine ⟨hmailed harrived, ?_, ?_⟩
      · intro c₁ hc₁ report hreport
        cases hc₁
        rcases List.mem_append.1 hreport with hreport | hreport
        · exact hkeep report (hreceived report hreport)
        · rw [List.mem_singleton.1 hreport]
          exact hkeep _ (h.mailed _ hmem)
      · intro c₁ report hc₁ hended
        cases hc₁
        cases hgoes.symm.trans hended
    | conclude hclassify =>
      refine ⟨hmailed rfl, ?_, ?_⟩
      · intro c₁ hc₁ report hreport
        cases hc₁
        exact hkeep report (hreceived report hreport)
      · intro c₁ report hc₁ hended hcount
        cases hc₁
        cases hended
        exact hstock.clean hw h₀ hcount hreceived hclassify
    | giveUp hother harrived =>
      refine ⟨hmailed harrived, ?_, ?_⟩
      · intro c₁ hc₁ report hreport
        cases hc₁
        exact hkeep report (hreceived report hreport)
      · intro c₁ report hc₁ hended
        cases hc₁
        cases hended
        exact (hother report rfl).elim

/-! ## Whatever happens -/

/-- A drill in which nobody does any harm. -/
structure Fair (stock : Stock) (roles : List Role) (w₀ w : World) : Prop where
  reachable : ReachableBy Move.IsBracketed w₀ w
  stocked : w.Stocked stock roles
  posted : w.Posted

variable {role : Role}

theorem Fair.step {process : Process} (h : Fair stock roles w₀ w) (h₀ : w₀.Fresh)
    (hm : w.step? process = some w') : Fair stock roles w₀ w' := by
  have hs := step_of_step? hm
  exact ⟨h.reachable.move (.step process) trivial hm, h.stocked.step hs,
    h.posted.step h.stocked h.reachable h₀ hs⟩

theorem Fair.pass (h : Fair stock roles w₀ w) (timer : Nat) (wall : Duration) :
    Fair stock roles w₀ (w.pass timer wall) :=
  ⟨h.reachable.move (.pass timer wall) trivial rfl, h.stocked.of_same rfl (.refl _),
    h.posted.keep (fun _ => id) id (fun _ => .inl) rfl⟩

/-- Nothing is done from outside that a driver, a reader of the store or the collector sees. -/
theorem Fair.control {c : Control} (h : Fair stock roles w₀ w)
    (hok : Move.IsBracketed (.control c)) (hd : (w.control c).drivers = w.drivers)
    (hs : w.store.Alike (w.control c).store) (hm : (w.control c).mailbox = w.mailbox)
    (hc : (w.control c).collection = w.collection) : Fair stock roles w₀ (w.control c) := by
  refine ⟨h.reachable.move (.control c) hok rfl, h.stocked.of_same hd hs, ?_⟩
  refine h.posted.keep ?_ ?_ ?_ hc
  · intro report hreport
    rwa [HasReport, hd]
  · intro hroom
    rwa [Store.HasCount, ← hs.operationsTotal]
  · intro report hreport
    exact .inl (hm ▸ hreport)

theorem Fair.log (h : Fair stock roles w₀ w) (event : Event) :
    Fair stock roles w₀ (w.control (.log event)) := h.control trivial rfl (.refl _) rfl rfl

theorem Fair.startFault (h : Fair stock roles w₀ w) (injector : Injector) :
    Fair stock roles w₀ (w.control (.startFault injector true)) :=
  h.control rfl rfl (.refl _) rfl rfl

theorem Fair.restoreFault (h : Fair stock roles w₀ w) (injector : Injector) (record : FaultRecord) :
    Fair stock roles w₀ (w.control (.restoreFault injector record)) :=
  h.control trivial rfl (injector.alike_restore record w.store) rfl rfl

theorem Fair.collect (h : Fair stock roles w₀ w) (expected : UInt64) (timeout : Duration) :
    Fair stock roles w₀ (w.control (.collect expected timeout)) := by
  refine ⟨h.reachable.move (.control (.collect expected timeout)) trivial rfl,
    h.stocked.of_same rfl (.refl _), ?_⟩
  refine ⟨h.posted.mailed, ?_, ?_⟩
  · rintro c hc report hreport
    cases hc
    cases hreport
  · rintro c report hc hended
    cases hc
    simp only [Collection.start] at hended
    split at hended <;> cases hended

theorem Fair.launch (h : Fair stock roles w₀ w) (hadmits : stock.Admits role)
    (horigin : roles = [] → role.source = stock.origin) :
    Fair stock (roles ++ [role]) w₀ (w.control (.launch role.plan role.source)) := by
  refine ⟨h.reachable.move (.control (.launch role.plan role.source)) hadmits.handler rfl,
    h.stocked.launch hadmits horigin, ?_⟩
  refine h.posted.keep ?_ id (fun _ => .inl) rfl
  rintro report ⟨d, hd, hreport⟩
  exact ⟨d, List.mem_append_left _ hd, hreport⟩

theorem Fair.restock {stock' : Stock} (h : Fair stock roles w₀ w)
    (horigin : stock'.origin = stock.origin) (hdoomed : stock.doomed ⊆ stock'.doomed)
    (hadmits : ∀ role ∈ roles, stock'.Admits role) (hkept : ∀ o ∈ stock'.kept, w.store.Holds o) :
    Fair stock' roles w₀ w :=
  ⟨h.reachable, h.stocked.restock horigin hdoomed hadmits hkept, h.posted⟩

end World

end FaultDrill
