import Mathlib.Data.List.Induction
import Mathlib.Logic.Function.Iterate
import FaultDrill.Proofs.Store.Step

/-! # What a store remembers

A store that began with nothing is read by its history: an object has the content that the last
request to change it gave it, spoiled as often as it was since, and an upload has the parts that
were sent to it. Requests that fail leave no trace in either.
-/

namespace FaultDrill

namespace Store

/-- What can be done to a store. -/
inductive Deed
  | request (op : Operation)
  | disrupt (reason : String)
  | endDisruption
  | rejectNext (detail : String)
  | markDegraded (component : String)
  | restoreComponent (component : String)
  | corrupt (target : ObjectRef)
  deriving DecidableEq

namespace Deed

def result : Deed → Store → Store
  | request op, s => (s.apply op).2
  | disrupt reason, s => s.disrupt reason
  | endDisruption, s => s.endDisruption
  | rejectNext detail, s => s.rejectNext detail
  | markDegraded component, s => s.markDegraded component
  | restoreComponent component, s => (s.restoreComponent component).2
  | corrupt target, s => (s.corrupt target).2

def isRequest : Deed → Bool
  | request _ => true
  | _ => false

end Deed

/-- A store with nothing in it. -/
def fresh (latency : Nat) : Store := { latency }

def after (s : Store) (history : List Deed) : Store :=
  history.foldl (fun s deed => deed.result s) s

/-- Each deed of a history with the store that it met. -/
def met (s : Store) : List Deed → List (Store × Deed)
  | [] => []
  | deed :: later => (s, deed) :: (deed.result s).met later

/-- The store does what is asked. -/
def Succeeds (s : Store) (op : Operation) : Prop :=
  ∃ response, (s.apply op).1 = .ok (.ok response) ∧ response.success = true

/-- The deed gives the object this content. -/
inductive Puts (s : Store) (k : ObjectRef) (content : ByteArray) : Deed → Prop
  | write {op payload} : s.Succeeds op → op.kind = .write → op.target = k →
      op.payload = some payload → payload.bytes = .ok content → Puts s k content (.request op)
  | copy {op} : s.Succeeds op → op.kind = .copy → op.destination = some k →
      s.objects[op.target]? = some content → Puts s k content (.request op)

/-- The deed removes the object, which is there. -/
inductive Removes (s : Store) (k : ObjectRef) : Deed → Prop
  | delete {op} : s.Succeeds op → op.kind = .delete → op.target = k → s.contains k = true →
      Removes s k (.request op)

inductive Uploads (s : Store) (k : ObjectRef) (part : UInt32) : Deed → Prop
  | part {op} : s.Succeeds op → op.kind = .multipartPart → op.target = k →
      op.partNumber = some part → Uploads s k part (.request op)

/-- The deed is a request that successfully changes the object. -/
def Alters (s : Store) (k : ObjectRef) (deed : Deed) : Prop :=
  (∃ content, s.Puts k content deed) ∨ s.Removes k deed

/-- The last request of the history to change the object gave it a content that is this one
after the object was spoiled as often as it was since. -/
def Origin (s : Store) (history : List Deed) (k : ObjectRef) (content : ByteArray) : Prop :=
  ∃ before deed later original, history = before ++ deed :: later ∧
    (s.after before).Puts k original deed ∧
    (∀ e ∈ (s.after (before ++ [deed])).met later, ¬ e.1.Alters k e.2) ∧
    content = spoil^[later.count (.corrupt k)] original

/-- Whatever was put into the object was removed since. -/
def Absent (s : Store) (history : List Deed) (k : ObjectRef) : Prop :=
  ∀ before deed later content, history = before ++ deed :: later →
    (s.after before).Puts k content deed →
    ∃ e ∈ (s.after (before ++ [deed])).met later, e.1.Removes k e.2

variable {s s' : Store} {op : Operation} {k : ObjectRef} {deed : Deed} {history later : List Deed}
  {content : ByteArray} {part : UInt32} {latency : Nat} {response : Response}

/-! ## One deed after another -/

@[simp] theorem after_nil : s.after [] = s := rfl

theorem after_snoc : s.after (history ++ [deed]) = deed.result (s.after history) := by
  simp [after]

theorem after_append : s.after (history ++ later) = (s.after history).after later := by
  simp [after]

theorem met_snoc : s.met (history ++ [deed]) = s.met history ++ [(s.after history, deed)] := by
  induction history generalizing s with
  | nil => rfl
  | cons first rest ih => simp only [List.cons_append, met, ih]; rfl

/-! ## What one deed does -/

/-- Only requests touch the parts and the counter. -/
theorem result_idle (hd : deed.isRequest = false) : (deed.result s).parts = s.parts ∧
    (deed.result s).operationsTotal = s.operationsTotal := by
  cases deed with
  | request => cases hd
  | corrupt target => simp only [Deed.result, corrupt]; split <;> exact ⟨rfl, rfl⟩
  | markDegraded component => simp only [Deed.result, markDegraded]; split <;> exact ⟨rfl, rfl⟩
  | disrupt | endDisruption | rejectNext | restoreComponent => exact ⟨rfl, rfl⟩

/-- What a deed makes of the content of one object. -/
inductive Effect (s : Store) (k : ObjectRef) (deed : Deed) : Option ByteArray → Prop
  | put {content : ByteArray} : s.Puts k content deed → Effect s k deed (some content)
  | remove : s.Removes k deed → Effect s k deed none
  | keep : ¬ s.Alters k deed →
      Effect s k deed (s.objects[k]?.map spoil^[[deed].count (.corrupt k)])

theorem alters_request (h : s.Alters k (.request op)) : s.Succeeds op ∧
    (op.kind = .write ∧ op.target = k ∨ op.kind = .copy ∧ op.destination = some k ∨
      op.kind = .delete ∧ op.target = k ∧ s.contains k = true) := by
  rcases h with ⟨content, ⟨ho, hk, ht⟩ | ⟨ho, hk, hd⟩⟩ | ⟨ho, hk, ht, hc⟩
  · exact ⟨ho, .inl ⟨hk, ht⟩⟩
  · exact ⟨ho, .inr (.inl ⟨hk, hd⟩)⟩
  · exact ⟨ho, .inr (.inr ⟨hk, ht, hc⟩)⟩

theorem not_alters (hd : deed.isRequest = false) : ¬ s.Alters k deed := by
  rintro (⟨content, hput⟩ | hremove)
  · cases hput <;> cases hd
  · cases hremove
    cases hd

theorem Puts.not_removes (h : s.Puts k content deed) : ¬ s.Removes k deed := by
  rintro ⟨-, hdelete⟩
  cases h with
  | write _ hk => cases hk.symm.trans hdelete
  | copy _ hk => cases hk.symm.trans hdelete

theorem getElem?_insert {objects : Objects} {target : ObjectRef} :
    (objects.insert target content)[k]? = if target = k then some content else objects[k]? := by
  simp [Std.TreeMap.getElem?_insert, Std.LawfulEqCmp.compare_eq_iff_eq]

theorem getElem?_erase {objects : Objects} {target : ObjectRef} :
    (objects.erase target)[k]? = if target = k then none else objects[k]? := by
  simp [Std.TreeMap.getElem?_erase, Std.LawfulEqCmp.compare_eq_iff_eq]

theorem request_effect (s : Store) (k : ObjectRef) (op : Operation) :
    s.Effect k (.request op) (s.apply op).2.objects[k]? := by
  obtain ⟨came, s', hc, happ⟩ : ∃ came s', s.apply op = (came, s') ∧ Applied op s came s' :=
    ⟨_, _, rfl, apply_applied op s⟩
  rw [hc]
  have idle (hn : ¬ s.Alters k (.request op)) (ho : s'.objects[k]? = s.objects[k]?) :
      s.Effect k (.request op) s'.objects[k]? := by
    have hkeep := Effect.keep hn
    simpa [ho] using hkeep
  have done {response : Response} (hr : came = .ok (.ok response)) (hs : response.success = true) :
      s.Succeeds op := ⟨response, by rw [hc, hr], hs⟩
  cases happ with
  | exhausted | unavailable | rejected | crashed =>
    have hfails : ¬ s.Succeeds op := by simp [Succeeds, hc, Response.rejected]
    exact idle (fun ha => hfails (alters_request ha).1) rfl
  | served _ _ _ hserved =>
    cases hserved with
    | write hk hp hb =>
      by_cases ht : op.target = k
      · simp only [getElem?_insert, if_pos ht]
        exact .put (.write (done rfl rfl) hk ht hp hb)
      · refine idle (fun ha => ?_) (by simp [getElem?_insert, ht, counted])
        simpa [hk, ht] using (alters_request ha).2
    | copy hk hd ho =>
      by_cases ht : op.destination = some k
      · obtain rfl := Option.some.inj (hd.symm.trans ht)
        simp only [getElem?_insert, if_true]
        exact .put (.copy (done rfl rfl) hk hd ho)
      · refine idle (fun ha => ?_) ?_
        · simpa [hk, ht] using (alters_request ha).2
        · rw [hd, Option.some.injEq] at ht
          simp [getElem?_insert, ht, counted]
    | delete hk hthere =>
      by_cases ht : op.target = k
      · simp only [getElem?_erase, if_pos ht]
        exact .remove (.delete (done rfl rfl) hk ht (ht ▸ hthere))
      · refine idle (fun ha => ?_) (by simp [getElem?_erase, ht, counted])
        simpa [hk, ht] using (alters_request ha).2
    | deleteAbsent hk ho =>
      refine idle (fun ha => ?_) rfl
      obtain ⟨rfl, hthere⟩ : op.target = k ∧ s.contains k = true := by
        simpa [hk] using (alters_request ha).2
      rw [contains, Std.TreeMap.contains_eq_isSome_getElem?] at hthere
      rw [counted] at ho
      simp [ho] at hthere
    | read hk | part hk =>
      refine idle (fun ha => ?_) rfl
      simpa [hk] using (alters_request ha).2
    | missing | invalid =>
      have hfails : ¬ s.Succeeds op := by simp [Succeeds, hc, noSuchKey, Response.rejected]
      exact idle (fun ha => hfails (alters_request ha).1) rfl

theorem corrupt_objects (s : Store) (target k : ObjectRef) :
    (s.corrupt target).2.objects[k]?
      = s.objects[k]?.map spoil^[[Deed.corrupt target].count (.corrupt k)] := by
  unfold corrupt
  by_cases ht : target = k
  · subst ht
    cases ho : s.objects[target]? <;> simp [ho]
  · cases ho : s.objects[target]? <;> simp [getElem?_insert, ht]

theorem result_effect (s : Store) (k : ObjectRef) (deed : Deed) :
    s.Effect k deed (deed.result s).objects[k]? := by
  have idle (hd : deed.isRequest = false)
      (ho : (deed.result s).objects[k]?
        = s.objects[k]?.map spoil^[[deed].count (.corrupt k)]) :
      s.Effect k deed (deed.result s).objects[k]? := ho ▸ .keep (not_alters hd)
  cases deed with
  | request op => exact request_effect s k op
  | corrupt target => exact idle rfl (corrupt_objects s target k)
  | markDegraded component =>
    have hs : (s.markDegraded component).objects = s.objects := by
      unfold markDegraded
      split <;> rfl
    exact idle rfl (by simp [Deed.result, hs])
  | disrupt | endDisruption | rejectNext | restoreComponent =>
    exact idle rfl
      (by simp [Deed.result, disrupt, endDisruption, rejectNext, restoreComponent])

/-- Without a request that changes it, an object is spoiled at most. -/
theorem objects_of_not_alters (h : ¬ s.Alters k deed) :
    (deed.result s).objects[k]? = s.objects[k]?.map spoil^[[deed].count (.corrupt k)] := by
  have heffect := result_effect s k deed
  generalize (deed.result s).objects[k]? = content at heffect
  cases heffect with
  | put hput => exact (h (.inl ⟨_, hput⟩)).elim
  | remove hremove => exact (h (.inr hremove)).elim
  | keep => rfl

/-! ## The content of an object -/

/-- A deed of a longer history is the last one, or a deed of the history before. -/
theorem snoc_eq_split {last : Deed} {before : List Deed}
    (h : history ++ [last] = before ++ deed :: later) :
    before = history ∧ deed = last ∧ later = [] ∨
      ∃ middle, later = middle ++ [last] ∧ history = before ++ deed :: middle := by
  rcases List.eq_nil_or_concat later with rfl | ⟨middle, last', rfl⟩
  · obtain ⟨rfl, hlast⟩ := List.append_inj' h rfl
    cases hlast
    exact .inl ⟨rfl, rfl, rfl⟩
  · rw [List.concat_eq_append, ← List.cons_append, ← List.append_assoc] at h
    obtain ⟨hhistory, hlast⟩ := List.append_inj' h rfl
    cases hlast
    exact .inr ⟨middle, List.concat_eq_append, hhistory⟩

/-- An object that holds nothing had everything removed that was put into it. -/
theorem absent_of_none (h : (s.after history).objects[k]? = none) : s.Absent history k := by
  induction history using List.reverseRecOn with
  | nil =>
    intro before deed later content hsplit
    simp at hsplit
  | append_singleton history last ih =>
    intro before deed later content hsplit hput
    have heffect := result_effect (s.after history) k last
    rw [← after_snoc, h] at heffect
    generalize hc : none = c at heffect
    cases heffect with
    | put => cases hc
    | remove hremove =>
      rcases snoc_eq_split hsplit with ⟨rfl, rfl, -⟩ | ⟨middle, rfl, rfl⟩
      · exact (hput.not_removes hremove).elim
      · rw [met_snoc, ← after_append]
        exact ⟨_, List.mem_append_right _ (List.mem_singleton_self _), by simpa using hremove⟩
    | keep hn =>
      rcases snoc_eq_split hsplit with ⟨rfl, rfl, -⟩ | ⟨middle, rfl, hhistory⟩
      · exact (hn (.inl ⟨_, hput⟩)).elim
      · obtain ⟨e, he, hremove⟩ := ih (by simpa using hc.symm) _ _ _ _ hhistory hput
        exact ⟨e, by simp [met_snoc, he], hremove⟩

/-- What an object holds has its origin in the history. -/
theorem origin_of_some {latency : Nat}
    (h : ((fresh latency).after history).objects[k]? = some content) :
    (fresh latency).Origin history k content := by
  induction history using List.reverseRecOn generalizing content with
  | nil => simp [fresh] at h
  | append_singleton history last ih =>
    have heffect := result_effect ((fresh latency).after history) k last
    rw [after_snoc] at h
    rw [h] at heffect
    generalize hc : some content = c at heffect
    cases heffect with
    | put hput =>
      cases hc
      exact ⟨history, last, [], content, rfl, hput, by simp [met], rfl⟩
    | remove => cases hc
    | keep hn =>
      obtain ⟨content', ho, rfl⟩ := Option.map_eq_some_iff.1 hc.symm
      obtain ⟨before, deed, later, original, rfl, hput, hlater, rfl⟩ := ih ho
      refine ⟨before, deed, later ++ [last], original, by simp, hput, ?_, ?_⟩
      · rw [met_snoc, List.forall_mem_append]
        refine ⟨hlater, ?_⟩
        simpa [← after_append] using hn
      · rw [List.count_append, Nat.add_comm, Function.iterate_add_apply]

theorem getElem?_eq_none_iff :
    ((fresh latency).after history).objects[k]? = none ↔ (fresh latency).Absent history k := by
  refine ⟨absent_of_none, fun habsent => ?_⟩
  cases ho : ((fresh latency).after history).objects[k]? with
  | none => rfl
  | some content =>
    obtain ⟨before, deed, later, original, hsplit, hput, hlater, -⟩ := origin_of_some ho
    obtain ⟨e, he, hremove⟩ := habsent _ _ _ _ hsplit hput
    exact (hlater e he (.inr hremove)).elim

/-! ## The parts of an upload -/

theorem mem_uploadedParts : part ∈ s.uploadedParts k ↔ (k, part) ∈ s.parts := by
  simp only [uploadedParts, List.mem_filterMap, Std.TreeMap.mem_keys, Prod.exists,
    Option.ite_none_right_eq_some, Option.some.injEq]
  constructor
  · rintro ⟨_, _, hmem, rfl, rfl⟩
    exact hmem
  · exact fun hmem => ⟨_, _, hmem, rfl, rfl⟩

theorem uploadedParts_sorted (s : Store) (k : ObjectRef) :
    (s.uploadedParts k).Pairwise (· < ·) := by
  refine List.Pairwise.filterMap _ ?_ s.parts.ordered_keys
  rintro ⟨object, n⟩ ⟨object', n'⟩ hlt b hb b' hb'
  simp only [Option.ite_none_right_eq_some, Option.some.injEq] at hb hb'
  obtain ⟨rfl, rfl⟩ := hb
  obtain ⟨rfl, rfl⟩ := hb'
  have hparts : compare n n' = .lt := by simpa [PartKey.order, compareLex, compareOn] using hlt
  exact compareOfLessAndEq_eq_lt.1 hparts

theorem uploads_request : s.Uploads k part (.request op) ↔
    s.Succeeds op ∧ op.kind = .multipartPart ∧ op.target = k ∧ op.partNumber = some part := by
  constructor
  · rintro ⟨ho, hk, ht, hn⟩
    exact ⟨ho, hk, ht, hn⟩
  · rintro ⟨ho, hk, ht, hn⟩
    exact .part ho hk ht hn

theorem mem_apply_parts : (k, part) ∈ (s.apply op).2.parts ↔
    (k, part) ∈ s.parts ∨ s.Uploads k part (.request op) := by
  obtain ⟨came, s', hc, happ⟩ : ∃ came s', s.apply op = (came, s') ∧ Applied op s came s' :=
    ⟨_, _, rfl, apply_applied op s⟩
  rw [uploads_request, hc]
  have idle (hn : ¬ (s.Succeeds op ∧ op.kind = .multipartPart)) (hs : s'.parts = s.parts) :
      (k, part) ∈ s'.parts ↔ (k, part) ∈ s.parts ∨
        s.Succeeds op ∧ op.kind = .multipartPart ∧ op.target = k ∧ op.partNumber = some part := by
    rw [hs]
    tauto
  cases happ with
  | exhausted | unavailable | rejected | crashed =>
    exact idle (by simp [Succeeds, hc, Response.rejected]) rfl
  | served _ _ _ hserved =>
    cases hserved with
    | part hk hn =>
      have ho : s.Succeeds op := ⟨_, by rw [hc], rfl⟩
      simp [Std.TreeMap.mem_insert, Std.LawfulEqCmp.compare_eq_iff_eq, ho, hk, hn, counted,
        or_comm]
    | write hk | copy hk | delete hk | deleteAbsent hk | read hk => exact idle (by simp [hk]) rfl
    | missing | invalid =>
      exact idle (by simp [Succeeds, hc, noSuchKey, Response.rejected]) rfl

/-- A deed adds the part that it uploads and keeps the others. -/
theorem mem_result_parts :
    (k, part) ∈ (deed.result s).parts ↔ (k, part) ∈ s.parts ∨ s.Uploads k part deed := by
  cases hd : deed.isRequest with
  | true =>
    cases deed with
    | request op => exact mem_apply_parts
    | _ => cases hd
  | false =>
    have hn : ¬ s.Uploads k part deed := by
      rintro ⟨-⟩
      cases hd
    rw [(result_idle hd).1, or_iff_left hn]

theorem mem_parts_iff : (k, part) ∈ ((fresh latency).after history).parts ↔
    ∃ e ∈ (fresh latency).met history, e.1.Uploads k part e.2 := by
  induction history using List.reverseRecOn with
  | nil => simp [fresh, met]
  | append_singleton history last ih =>
    rw [after_snoc, mem_result_parts, ih, met_snoc]
    simp [or_and_right, exists_or]

/-! ## The number of requests -/

theorem apply_operationsTotal : (s.apply op).2.operationsTotal.toNat
    = min (s.operationsTotal.toNat + 1) (UInt64.size - 1) := by
  have hsize : s.operationsTotal.toNat < UInt64.size := s.operationsTotal.toNat_lt
  have hcounted (hroom : s.HasCount) :
      s.counted.operationsTotal.toNat = min (s.operationsTotal.toNat + 1) (UInt64.size - 1) := by
    unfold HasCount at hroom
    have hadd : s.counted.operationsTotal.toNat = (s.operationsTotal.toNat + 1) % UInt64.size :=
      UInt64.toNat_add _ _
    rw [hadd, Nat.mod_eq_of_lt hroom]
    omega
  obtain ⟨came, s', hc, happ⟩ : ∃ came s', s.apply op = (came, s') ∧ Applied op s came s' :=
    ⟨_, _, rfl, apply_applied op s⟩
  rw [hc]
  cases happ with
  | exhausted hfull =>
    unfold HasCount at hfull
    dsimp only
    omega
  | unavailable hroom | rejected hroom | crashed hroom => exact hcounted hroom
  | served hroom _ _ hserved => cases hserved <;> exact hcounted hroom

/-- Requests are counted as long as the counter has room. -/
theorem operationsTotal_after : ((fresh latency).after history).operationsTotal.toNat
    = min (history.countP Deed.isRequest) (UInt64.size - 1) := by
  induction history using List.reverseRecOn with
  | nil => simp [fresh]
  | append_singleton history last ih =>
    rw [after_snoc, List.countP_append, List.countP_singleton]
    cases hd : last.isRequest with
    | true =>
      cases last with
      | request op =>
        rw [Deed.result, apply_operationsTotal, ih, if_pos rfl]
        omega
      | _ => cases hd
    | false => rw [(result_idle hd).2, ih, if_neg (by simp), Nat.add_zero]

/-! ## What the answers say -/

/-- A read that succeeds tells the checksum of what the object holds. -/
theorem checksum_of_read (hk : op.kind = .read) (ho : (s.apply op).1 = .ok (.ok response))
    (hs : response.success = true) :
    ∃ content, s.objects[op.target]? = some content ∧
      response.checksum = some (checksum content) := by
  have happ := apply_applied op s
  rw [ho] at happ
  generalize (s.apply op).2 = s' at happ
  cases happ with
  | rejected => cases hs
  | served _ _ _ hserved =>
    cases hserved with
    | read _ hc => exact ⟨_, hc, rfl⟩
    | missing => cases hs
    | write hk' | delete hk' | deleteAbsent hk' | copy hk' | part hk' => cases hk.symm.trans hk'

/-- A store that serves requests answers a read as long as it can count it, and it says that
there is no such object if there is none. -/
theorem read_answers (hk : op.kind = .read) (hd : s.disrupted = none) (hf : s.failNext = []) :
    ((∃ answer, (s.apply op).1 = .ok answer) ↔ s.HasCount) ∧
      ∀ answer, (s.apply op).1 = .ok answer →
        (answer = .ok (noSuchKey op.target) ↔ s.objects[op.target]? = none) := by
  have happ := apply_applied op s
  generalize (s.apply op).1 = came at happ
  generalize (s.apply op).2 = s' at happ
  cases happ with
  | exhausted hfull => simp [hfull]
  | unavailable _ hdown => cases hd.symm.trans hdown
  | rejected _ _ hreject => cases hf.symm.trans hreject
  | crashed _ hk' => simp [hk] at hk'
  | served hroom _ _ hserved =>
    refine ⟨⟨fun _ => hroom, fun _ => ⟨_, rfl⟩⟩, ?_⟩
    rintro answer hanswer
    cases hanswer
    cases hserved with
    | read _ hc =>
      rw [counted] at hc
      simp [noSuchKey, Response.ok, Response.rejected, hc]
    | missing _ hc => exact iff_of_true rfl hc
    | invalid _ hk' => exact (hk' hk).elim
    | write hk' | delete hk' | deleteAbsent hk' | copy hk' | part hk' => cases hk.symm.trans hk'

/-- The checksum that a successful read tells is that of the content with its origin in the
history; a store that serves requests knows no object exactly if the history left none; and the
parts of an upload are those that were sent to it, each once and in order. -/
theorem history_law (latency : Nat) (history : List Deed) (k : ObjectRef) :
    let s := (fresh latency).after history
    (∀ op response, op.kind = .read → op.target = k → (s.apply op).1 = .ok (.ok response) →
      response.success = true →
      ∃ content, (fresh latency).Origin history k content ∧
        response.checksum = some (checksum content)) ∧
    (∀ op, op.kind = .read → op.target = k → s.disrupted = none → s.failNext = [] →
      ((∃ answer, (s.apply op).1 = .ok answer) ↔
        history.countP Deed.isRequest + 1 < UInt64.size) ∧
      ∀ answer, (s.apply op).1 = .ok answer →
        (answer = .ok (noSuchKey k) ↔ (fresh latency).Absent history k)) ∧
    (s.uploadedParts k).Pairwise (· < ·) ∧
      ∀ part, part ∈ s.uploadedParts k ↔
        ∃ e ∈ (fresh latency).met history, e.1.Uploads k part e.2 := by
  refine ⟨?_, ?_, uploadedParts_sorted _ k, fun part => ?_⟩
  · rintro op response hk rfl ho hs
    obtain ⟨content, hc, hsum⟩ := checksum_of_read hk ho hs
    exact ⟨content, origin_of_some hc, hsum⟩
  · rintro op hk rfl hd hf
    obtain ⟨hroom, hanswer⟩ := read_answers hk hd hf
    refine ⟨hroom.trans ?_, fun answer ho => (hanswer answer ho).trans getElem?_eq_none_iff⟩
    rw [HasCount, operationsTotal_after]
    omega
  · rw [mem_uploadedParts, mem_parts_iff]

def trialOriginal : ObjectRef := ⟨"bucket", "a"⟩

def trialCopy : ObjectRef := ⟨"bucket", "b"⟩

/-- The copy is spoiled once; it outlives a delete that fails and the loss of its source. -/
def trialPast : List Deed :=
  [.request (.write trialOriginal ⟨4, 7⟩), .request (.copy trialOriginal trialCopy),
    .corrupt trialCopy, .disrupt "outage", .request (.delete trialCopy), .endDisruption,
    .request (.delete trialOriginal)]

theorem history_law_trial : ∃ response content,
    (((fresh 0).after trialPast).apply (.read trialCopy none)).1 = .ok (.ok response) ∧
      (fresh 0).Origin trialPast trialCopy content ∧
      response.checksum = some (checksum content) ∧
      (fresh 0).Absent trialPast trialOriginal := by
  have hcopy := (history_law 0 trialPast trialCopy).1
  have hsource := (history_law 0 trialPast trialOriginal).2.1
  obtain ⟨content, horigin, hsum⟩ := hcopy (.read trialCopy none) _ rfl rfl rfl rfl
  have habsent := ((hsource (.read trialOriginal none) rfl rfl rfl rfl).2 _ rfl).1 rfl
  exact ⟨_, content, rfl, horigin, hsum, habsent⟩

end Store

end FaultDrill
