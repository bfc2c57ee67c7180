import FaultDrill.Proofs.Outage.Overlap

/-! # The deletion of a pod

An injector is called to delete a pod or to bring it back. Which components are down is told by the
calls that have returned: those that were deleted and not brought back since. A fault that deletes a
pod makes such a call; it takes several steps over it, and the call returns with the last of them.
-/

namespace FaultDrill

/-! ## The store -/

/-- The store is down, and its components are, as before. -/
def Store.SameHealth (s s' : Store) : Prop :=
  s'.disrupted = s.disrupted ∧ s'.degraded = s.degraded

theorem Store.apply_degraded (op : Operation) (s : Store) :
    (s.apply op).2.degraded = s.degraded := by
  have happ := apply_applied op s
  generalize (s.apply op).1 = came at happ
  generalize (s.apply op).2 = s' at happ
  cases happ with
  | exhausted | unavailable | rejected | crashed => rfl
  | served _ _ _ hserved => cases hserved <;> rfl

/-- The handler takes nothing down and brings nothing back. -/
def Handler.SparesHealth (h : Handler) : Prop :=
  ∀ task store, Store.SameHealth store (h.act task store).2

theorem Handler.sparesHealth_storage : storage.SparesHealth := by
  intro task store
  rw [storage_store]
  exact ⟨store.apply_disrupted _, store.apply_degraded _⟩

namespace Injector

variable {i : Injector} {record : FaultRecord} {s : Store}

theorem eq_podFailure (h : i.deletesPod = true) :
    ∃ component transition, i = podFailure component transition := by
  cases i with
  | podFailure component transition => exact ⟨component, transition, rfl⟩
  | fixed => cases h

variable {component : String} {transition : Nat}

theorem begin_refused (hc : component ∈ s.degraded) : (podFailure component transition).begin s =
    (.error (.injectFailed component "already degraded"), s) := by
  simp [begin, hc]

theorem begin_disrupts (hc : component ∉ s.degraded) : (podFailure component transition).begin s =
    (.ok transition, s.disrupt (component ++ " terminating")) := by
  simp [begin, hc]

theorem restore_degraded (h : i.deletesPod = true) (hc : record.component ∈ s.degraded) :
    i.restore record s = (.ok (),
      { s with degraded := s.degraded.filter (· ≠ record.component) }) := by
  obtain ⟨component, transition, rfl⟩ := eq_podFailure h
  simp [restore, Store.restoreComponent, hc]

theorem restore_refused (h : i.deletesPod = true) (hc : record.component ∉ s.degraded) :
    i.restore record s =
      (.error (.restoreFailed record.component "component is not degraded"), s) := by
  obtain ⟨component, transition, rfl⟩ := eq_podFailure h
  have hsame : s.degraded.filter (· ≠ record.component) = s.degraded :=
    List.filter_eq_self.2 fun c hmem => decide_eq_true (ne_of_mem_of_not_mem hmem hc)
  simp only [restore, Store.restoreComponent, hsame, List.contains_eq_mem, hc, decide_false]

end Injector

/-! ## Calls that have returned -/

/-- A call of an injector that deletes a pod, with what it returned. -/
inductive Call
  | inject (component : String) (transition : Nat) (injected : Except FaultError FaultRecord)
  | restore (record : FaultRecord) (restored : Except FaultError Unit)

namespace Call

/-- The component that the call took down. -/
def deleted? : Call → Option String
  | inject component _ (.ok _) => some component
  | _ => none

/-- The component that the call brought back. -/
def restored? : Call → Option String
  | restore record (.ok _) => some record.component
  | _ => none

/-- What was deleted and not brought back since, in the order of the deletions. -/
def gone : List Call → List String
  | [] => []
  | call :: later =>
    call.deleted?.toList.filter (fun component => some component ∉ later.map restored?) ++
      gone later

/-- What a call returns while these components are down. -/
def Answers (down : List String) : Call → Prop
  | inject component transition injected => injected =
    if component ∈ down then .error (.injectFailed component "already degraded")
    else .ok (Injector.podRecord component transition)
  | restore record restored => restored =
    if record.component ∈ down then .ok ()
    else .error (.restoreFailed record.component "component is not degraded")

/-- Every call returned what it does while what was gone by then is down. -/
def Answered (calls : List Call) : Prop :=
  ∀ earlier call later, calls = earlier ++ call :: later → call.Answers (gone earlier)

variable {calls : List Call} {call : Call} {component : String}

theorem mem_gone : component ∈ gone calls ↔ ∃ earlier call later,
    calls = earlier ++ call :: later ∧ call.deleted? = some component ∧
      some component ∉ later.map restored? := by
  induction calls with
  | nil => simp [gone]
  | cons first rest ih =>
    rw [gone, List.mem_append, List.mem_filter, Option.mem_toList, decide_eq_true_iff, ih]
    constructor
    · rintro (hfirst | ⟨earlier, call, later, rfl, hcall⟩)
      · exact ⟨[], first, rest, rfl, hfirst⟩
      · exact ⟨first :: earlier, call, later, rfl, hcall⟩
    · rintro ⟨earlier, call, later, heq, hcall⟩
      cases earlier with
      | nil =>
        obtain ⟨rfl, rfl⟩ := List.cons.inj heq
        exact .inl hcall
      | cons _ earlier =>
        obtain ⟨rfl, rfl⟩ := List.cons.inj heq
        exact .inr ⟨earlier, call, later, rfl, hcall⟩

/-- A component that was brought back is not down any more. -/
theorem gone_snoc_restored (h : call.restored? = some component) :
    gone (calls ++ [call]) = (gone calls).filter (· ≠ component) := by
  have hdeleted : call.deleted? = none := by
    cases call with
    | inject => cases h
    | restore => rfl
  induction calls with
  | nil => simp [gone, hdeleted]
  | cons first rest ih =>
    rw [List.cons_append, gone, gone, ih, List.filter_append, List.filter_filter]
    simp [h, and_comm]

theorem gone_snoc (h : call.restored? = none) :
    gone (calls ++ [call]) = gone calls ++ call.deleted?.toList := by
  induction calls with
  | nil => simp [gone]
  | cons first rest ih =>
    rw [List.cons_append, gone, gone, ih, List.append_assoc]
    simp [h]

theorem Answered.snoc (h : Answered calls) (hcall : call.Answers (gone calls)) :
    Answered (calls ++ [call]) := by
  intro earlier call' later heq
  rcases List.eq_nil_or_concat later with rfl | ⟨later, last, rfl⟩
  · obtain ⟨rfl, hsame⟩ := List.append_inj' heq rfl
    exact (List.cons.inj hsame).1 ▸ hcall
  · rw [List.concat_eq_append, ← List.cons_append, ← List.append_assoc] at heq
    exact h earlier call' later (List.append_inj' heq rfl).1

end Call

/-! ## One fault -/

namespace FaultRun

/-- The injection has not returned. -/
def isPending (f : FaultRun) : Bool :=
  match f.stage with
  | .starting | .opened | .injecting | .transitioning _ => true
  | .closing _ | .closed _ | .done _ => false

/-- What the injection has returned. -/
def injection? (f : FaultRun) : Option (Except FaultError FaultRecord) :=
  match f.stage with
  | .closing injected | .closed injected => some injected
  | .done (.ok record) => some (.ok record)
  | .done (.error (.fault e)) => some (.error e)
  | _ => none

/-- The call that returned by the step that led to the second fault. -/
def returned? (f f' : FaultRun) : Option Call :=
  match f.isPending, f'.injector, f'.injection? with
  | true, .podFailure component transition, some injected =>
    some (.inject component transition injected)
  | _, _, _ => none

/-- What a step of the deletion of a pod does to the store, and the call that returns by it. -/
inductive Deletion (f : FaultRun) (s : Store) : FaultRun → Store → Option Call → Prop
  | still {f' : FaultRun} : f.isDisrupting = false → f'.isDisrupting = false →
      (f'.isPending = true → f.isPending = true) → Deletion f s f' s none
  | begins {f' : FaultRun} {component : String} {transition : Nat} :
      f.injector = .podFailure component transition → f.isPending = true →
      component ∉ s.degraded → f'.isDisrupting = true →
      Deletion f s f' (s.disrupt (component ++ " terminating")) none
  | fails {f' : FaultRun} {component : String} {transition : Nat} :
      f.injector = .podFailure component transition → f.isPending = true →
      f.isDisrupting = false → component ∈ s.degraded → f'.isPending = false →
      Deletion f s f' s
        (some (.inject component transition (.error (.injectFailed component "already degraded"))))
  | ends {f' : FaultRun} {component : String} {transition : Nat} :
      f.injector = .podFailure component transition → f.isDisrupting = true →
      f'.isPending = false →
      Deletion f s f' (s.endDisruption.markDegraded component)
        (some (.inject component transition (.ok (Injector.podRecord component transition))))

variable {f f' : FaultRun} {timer : Nat} {now : Duration} {scene scene' : Scene}
  {event : Option Event} {injected : Except FaultError FaultRecord}

theorem isPending_of_isDisrupting (h : f.isDisrupting = true) : f.isPending = true := by
  unfold isDisrupting at h
  unfold isPending
  split at h <;> simp_all

theorem isDisrupting_of_not_isPending (h : f.isPending = false) : f.isDisrupting = false := by
  cases hgoes : f.isDisrupting with
  | false => rfl
  | true => cases h.symm.trans (isPending_of_isDisrupting hgoes)

theorem Deletion.isPending {s s' : Store} {call : Option Call} (h : f.Deletion s f' s' call)
    (hp : f'.isPending = true) : f.isPending = true := by
  cases h with
  | still _ _ hstill => exact hstill hp
  | begins _ hpending => exact hpending
  | fails _ hpending => exact hpending
  | ends _ hgoes => exact isPending_of_isDisrupting hgoes

/-- An injection that returns was under way, and is not any more. -/
theorem Deletion.of_returns {s s' : Store} {call : Call} (h : f.Deletion s f' s' (some call)) :
    f.isPending = true ∧ f'.isPending = false := by
  cases h with
  | fails _ hpending _ _ hover => exact ⟨hpending, hover⟩
  | ends _ hgoes hover => exact ⟨isPending_of_isDisrupting hgoes, hover⟩

theorem isPending_injected : (f.injected injected).1.isPending = false := by
  unfold FaultRun.injected
  split <;> rfl

theorem injection?_injected : (f.injected injected).1.injection? = some injected := by
  unfold FaultRun.injected
  split
  case isTrue => rfl
  case isFalse => cases injected <;> rfl

theorem returned?_injected {component : String} {transition : Nat}
    (hi : f.injector = .podFailure component transition) (hp : f.isPending = true) :
    f.returned? (f.injected injected).1 = some (.inject component transition injected) := by
  simp only [returned?, hp, injector_injected, hi, injection?_injected]

theorem returned?_of_isPending (h : f'.isPending = true) : f.returned? f' = none := by
  have hnone : f'.injection? = none := by
    unfold isPending at h
    unfold injection?
    split at h <;> simp_all
  simp [returned?, hnone]

theorem returned?_of_not_isPending (h : f.isPending = false) : f.returned? f' = none := by
  simp [returned?, h]

theorem deletion_step (hpod : f.injector.deletesPod = true)
    (h : f.step? timer now scene = some (f', scene', event)) :
    f.Deletion scene.store f' scene'.store (f.returned? f') := by
  obtain ⟨component, transition, hi⟩ := Injector.eq_podFailure hpod
  cases turn_of_step? h with
  | opens hs | starts hs | tells hs =>
    rw [returned?_of_isPending rfl]
    exact .still (by simp [isDisrupting, hs]) rfl fun _ => by simp [isPending, hs]
  | closes hs | late hs | returns hs =>
    rw [returned?_of_not_isPending (by simp [isPending, hs])]
    exact .still (by simp [isDisrupting, hs]) rfl fun hp => absurd hp Bool.false_ne_true
  | @refused e hs _ hw =>
    -- the window has no error that an injector returns
    have hnone : injection? { f with stage := .done (.error e) } = none := by
      unfold Window.signalOpen at hw
      split at hw
      case h_1 => cases hw
      case h_2 => cases hw; rfl
    rw [show f.returned? { f with stage := .done (.error e) } = none by simp [returned?, hnone]]
    exact .still (by simp [isDisrupting, hs]) rfl fun hp => absurd hp Bool.false_ne_true
  | @begins _ store hs hbegin =>
    rw [returned?_of_isPending rfl]
    have hpending : f.isPending = true := by simp [isPending, hs]
    by_cases hc : component ∈ scene.store.degraded
    · rw [hi, Injector.begin_refused hc] at hbegin
      cases hbegin
    · rw [hi, Injector.begin_disrupts hc] at hbegin
      cases hbegin
      exact .begins hi hpending hc hpod
  | @fails e store hs hbegin =>
    have hpending : f.isPending = true := by simp [isPending, hs]
    by_cases hc : component ∈ scene.store.degraded
    · rw [hi, Injector.begin_refused hc] at hbegin
      cases hbegin
      rw [returned?_injected hi hpending]
      exact .fails hi hpending (by simp [isDisrupting, hs]) hc isPending_injected
    · rw [hi, Injector.begin_disrupts hc] at hbegin
      cases hbegin
  | @ends wake injected store hs hwake hfinish =>
    have hpending : f.isPending = true := by simp [isPending, hs]
    rw [hi] at hfinish
    cases hfinish
    rw [returned?_injected hi hpending]
    exact .ends hi (by simp [isDisrupting, hs, hpod]) isPending_injected

end FaultRun

end FaultDrill
