import Mathlib.Algebra.Ring.Parity
import Mathlib.Dynamics.PeriodicPts.Defs
import FaultDrill.Proofs.Store.Latest

/-! # Objects that are spoiled more than once

Spoiling inverts the first byte of a content, so that the second time brings the content back.
Content that was empty grows by a byte and is never empty again. An object that was spoiled, and
not written or removed since, is therefore intact exactly if it was not empty and has been spoiled
an even number of times; a verifying read passes then, and finds the corruption at all other times.
-/

namespace FaultDrill.Store

variable {content : ByteArray} {s : Store} {k : ObjectRef} {since : List Deed} {n : Nat}

/-! ## Spoiled content -/

theorem spoil_mk {bytes : Array UInt8} (h : 0 < bytes.size) :
    spoil ⟨bytes⟩ = ⟨bytes.set 0 (bytes[0] ^^^ 0xff)⟩ := dif_pos h

theorem size_spoil_pos (content : ByteArray) : 0 < (spoil content).size := by
  by_cases h : 0 < content.size
  · obtain ⟨bytes⟩ := content
    rw [spoil_mk h]
    simpa [ByteArray.size] using h
  · rw [spoil, dif_neg h, ByteArray.size_push]
    exact Nat.succ_pos _

theorem spoil_ne (content : ByteArray) : spoil content ≠ content := by
  intro hsame
  by_cases h : 0 < content.size
  · obtain ⟨bytes⟩ := content
    have hbytes : 0 < bytes.size := h
    rw [spoil_mk hbytes, ByteArray.mk.injEq] at hsame
    have hget : (bytes.set 0 (bytes[0] ^^^ 0xff))[0]? = bytes[0]? := by rw [hsame]
    rw [Array.getElem?_set_self hbytes, Array.getElem?_eq_getElem hbytes] at hget
    have hfirst : bytes[0] ^^^ (0xff : UInt8) = bytes[0] := Option.some.inj hget
    cases (UInt8.xor_right_inj bytes[0]).1 (hfirst.trans UInt8.xor_zero.symm)
  · exact h (hsame ▸ size_spoil_pos content)

/-- A byte that is inverted twice is as it was. -/
theorem spoil_spoil (h : 0 < content.size) : spoil (spoil content) = content := by
  obtain ⟨bytes⟩ := content
  have hbytes : 0 < bytes.size := h
  rw [spoil_mk hbytes, spoil_mk (by simpa using hbytes)]
  simp only [Array.getElem_set_self, UInt8.xor_assoc, UInt8.xor_self, UInt8.xor_zero, Array.set_set,
    Array.set_getElem_self]

/-- Content is as it was after it was spoiled so often if it had a first byte, and if that was
inverted an even number of times. -/
theorem iterate_spoil_eq_self_iff :
    spoil^[n] content = content ↔ n = 0 ∨ 0 < content.size ∧ Even n := by
  by_cases h : 0 < content.size
  · have hperiod : Function.IsPeriodicPt spoil 2 content := spoil_spoil h
    rw [← hperiod.iterate_mod_apply]
    rcases Nat.even_or_odd n with heven | hodd
    · rw [Nat.even_iff.1 heven]
      exact iff_of_true rfl (.inr ⟨h, heven⟩)
    · rw [Nat.odd_iff.1 hodd]
      refine iff_of_false (spoil_ne content) ?_
      rintro (rfl | ⟨-, heven⟩)
      · simp at hodd
      · exact Nat.not_even_iff_odd.2 hodd heven
  · cases n with
    | zero => simp
    | succ n =>
      rw [Function.iterate_succ_apply']
      refine iff_of_false (fun hsame => h (hsame ▸ size_spoil_pos _)) ?_
      simp [h]

/-! ## Objects that are not changed otherwise -/

/-- What can be spoiled is there. -/
theorem exists_of_corrupt (h : (s.corrupt k).1 = true) :
    ∃ content, s.objects[k]? = some content := by
  unfold corrupt at h
  split at h
  case h_1 content hcontent => exact ⟨content, hcontent⟩
  case h_2 => cases h

/-- An object that no request changes is spoiled as often as that is asked for. -/
theorem objects_of_kept (h : ∀ e ∈ s.met since, ¬ e.1.Alters k e.2) :
    (s.after since).objects[k]? = s.objects[k]?.map spoil^[since.count (.corrupt k)] := by
  induction since generalizing s with
  | nil => simp
  | cons deed since ih =>
    rw [met, List.forall_mem_cons] at h
    obtain ⟨hfirst, hrest⟩ := h
    calc
      (s.after (deed :: since)).objects[k]?
        = (deed.result s).objects[k]?.map spoil^[since.count (.corrupt k)] := ih hrest
      _ = s.objects[k]?.map
          (spoil^[since.count (.corrupt k)] ∘ spoil^[[deed].count (.corrupt k)]) := by
        rw [objects_of_not_alters hfirst, Option.map_map]
      _ = s.objects[k]?.map spoil^[(deed :: since).count (.corrupt k)] := by
        rw [← Function.iterate_add, Nat.add_comm, ← List.count_append, List.singleton_append]

/-- An object that was spoiled, and not changed by a request since, holds another content than
before exactly if it was empty or has been spoiled an odd number of times in all. A read that
expects the content from before, and that the store serves, finds a corruption exactly then, and
passes if the content is back. -/
theorem corruption_law (hspoiled : (s.corrupt k).1 = true)
    (hkept : ∀ e ∈ (s.corrupt k).2.met since, ¬ e.1.Alters k e.2) :
    let s' := (s.corrupt k).2.after since
    ∃ content held, s.objects[k]? = some content ∧ s'.objects[k]? = some held ∧
      (held ≠ content ↔ content.size = 0 ∨ Even (since.count (.corrupt k))) ∧
      ((checksum held = checksum content → held = content) → ∀ task : Task,
        task.operation.Verifies k (checksum content) → s'.IsUp → s'.HasCount →
          ((Handler.storage.act task s').1.failureKind? = some .corruption ↔ held ≠ content) ∧
          ((Handler.storage.act task s').1.isSuccess = true ↔ held = content)) := by
  intro s'
  obtain ⟨content, hcontent⟩ := exists_of_corrupt hspoiled
  have hheld : s'.objects[k]? = some (spoil^[since.count (.corrupt k) + 1] content) := by
    rw [objects_of_kept hkept, corrupt_objects, hcontent]
    simp
  have hdiffers : spoil^[since.count (.corrupt k) + 1] content ≠ content ↔
      content.size = 0 ∨ Even (since.count (.corrupt k)) := by
    rw [Ne, iterate_spoil_eq_self_iff, Nat.even_add_one]
    simp [or_iff_not_imp_left, Nat.pos_iff_ne_zero]
  refine ⟨content, _, hcontent, hheld, hdiffers, fun hcollision task hverifies hup hroom => ?_⟩
  rw [storage_verify hup hroom hverifies hheld]
  by_cases hsame : spoil^[since.count (.corrupt k) + 1] content = content
  · rw [if_pos (congrArg checksum hsame)]
    exact ⟨iff_of_false nofun (not_not_intro hsame), iff_of_true rfl hsame⟩
  · rw [if_neg (hsame ∘ hcollision)]
    exact ⟨iff_of_true rfl hsame, iff_of_false nofun hsame⟩

/-- A store with one object, of one byte. -/
def trialSmall : Store := (fresh 0).after [.request (.write trialOriginal ⟨1, 0⟩)]

/-- The object is copied, it is spoiled two more times, and a delete fails. -/
def trialSince : List Deed :=
  [.request (.copy trialOriginal trialCopy), .corrupt trialOriginal, .disrupt "outage",
    .request (.delete trialOriginal), .endDisruption, .corrupt trialOriginal]

theorem corruption_law_trial : (trialSmall.corrupt trialOriginal).1 = true ∧
    (∀ e ∈ (trialSmall.corrupt trialOriginal).2.met trialSince, ¬ e.1.Alters trialOriginal e.2) ∧
    ∃ content, trialSmall.objects[trialOriginal]? = some content ∧
      (Handler.storage.act ⟨.first, "trial", .read trialOriginal (some (checksum content))⟩
        ((trialSmall.corrupt trialOriginal).2.after trialSince)).1.failureKind? =
          some .corruption := by
  have hspoiled : (trialSmall.corrupt trialOriginal).1 = true := rfl
  have hkept : ∀ e ∈ (trialSmall.corrupt trialOriginal).2.met trialSince,
      ¬ e.1.Alters trialOriginal e.2 := by
    simp only [trialSince, met, List.forall_mem_cons]
    refine ⟨fun hcopy => ?_, not_alters rfl, not_alters rfl, fun hdelete => ?_, not_alters rfl,
      not_alters rfl, List.forall_mem_nil _⟩
    · have hinto := (alters_request hcopy).2
      simp [Operation.copy, trialOriginal, trialCopy] at hinto
    · obtain ⟨response, hanswer, -⟩ := (alters_request hdelete).1
      cases hanswer
  obtain ⟨content, held, hcontent, hheld, hdiffers, hreads⟩ := corruption_law hspoiled hkept
  refine ⟨hspoiled, hkept, content, hcontent, ?_⟩
  have hdistinct : checksum held ≠ checksum content := by
    cases hcontent
    cases hheld
    decide +kernel
  exact (hreads (absurd · hdistinct) _ ⟨rfl, rfl, rfl⟩ ⟨rfl, rfl⟩ (by decide +kernel)).1.2
    (hdiffers.2 (.inr (by decide)))

/-- Spoiled twice, the object is as it was written, and a verifying read passes. -/
theorem corruption_masked : (trialSmall.corrupt trialOriginal).1 = true ∧
    ((trialSmall.corrupt trialOriginal).2.corrupt trialOriginal).1 = true ∧
    ∃ content, trialSmall.objects[trialOriginal]? = some content ∧
      (trialSmall.after [.corrupt trialOriginal, .corrupt trialOriginal]).objects[trialOriginal]? =
        some content ∧
      (Handler.storage.act ⟨.first, "trial", .read trialOriginal (some (checksum content))⟩
        (trialSmall.after [.corrupt trialOriginal, .corrupt trialOriginal])).1 =
          .success "1 bytes" := by
  obtain ⟨content, hcontent⟩ := exists_of_corrupt (s := trialSmall) (k := trialOriginal) rfl
  have hsize : content.size = 1 := by
    cases hcontent
    decide +kernel
  have hkept : ∀ e ∈ trialSmall.met [.corrupt trialOriginal, .corrupt trialOriginal],
      ¬ e.1.Alters trialOriginal e.2 := by
    simp only [met, List.forall_mem_cons]
    exact ⟨not_alters rfl, not_alters rfl, List.forall_mem_nil _⟩
  have hback : (trialSmall.after [.corrupt trialOriginal, .corrupt trialOriginal]).objects[
      trialOriginal]? = some content := by
    rw [objects_of_kept hkept, hcontent]
    exact congrArg some (spoil_spoil (hsize ▸ Nat.one_pos))
  refine ⟨rfl, rfl, content, hcontent, hback, ?_⟩
  rw [storage_verify ⟨rfl, rfl⟩ (by decide +kernel) ⟨rfl, rfl, rfl⟩ hback, if_pos rfl, hsize]
  rfl

end FaultDrill.Store
