import Mathlib
import SparseProduct.Proofs.Multiply.Call
import SparseProduct.Proofs.Reference

/-!
# The product computes the reference values

Whatever the values of C and the workspace held, a product ends with the values that the reference
computes over the pattern of C. The pattern is arbitrary: it may store positions that no product reaches,
and leave out positions that one does.
-/

namespace SparseProduct

variable {L R O : Type}

/-- A product over a pattern succeeds, and its values are those of the reference. -/
theorem multiply_eq_reference {s : SemiringOps L R O} (total : s.Total) {c : Pattern}
    {a : SparseMatrix L} {b : SparseMatrix R} (accepted : Accepted c a.pattern b.pattern none)
    (ha : a.values.size = a.pattern.entryCount) (hb : b.values.size = b.pattern.entryCount)
    (occupied : ∀ j, c.Occupied j → b.pattern.Occupied j) {before : Buffers O}
    (hc : before.values.size = c.entryCount) (hroom : c.nRows ≤ before.slots.size)
    (settings : Settings) :
    ∃ counters after, multiply s c a b none settings before = .ok counters after ∧
      Reference.values s a b c = .ok after.values := by
  have wf := accepted.wellFormed settings.search
  obtain ⟨value, hvalue⟩ := wf.exists_columnValues total ha hb
  obtain ⟨counters, after, hrun, hsize, -, hfilled⟩ :=
    multiply_filled total accepted ha hb occupied hc hroom settings hvalue
  obtain ⟨result, hresult, hsize', hvalues⟩ :=
    Reference.values_eq wf ha hb fun slot _ => hvalue (c.slotColumn slot)
  refine ⟨counters, after, hrun, ?_⟩
  have heq : result = after.values := by
    refine Array.ext_getElem? fun p => ?_
    by_cases hp : p < c.entryCount
    · obtain ⟨slot, hslot, hmem⟩ := wf.c.exists_slot hp
      rw [hvalues slot hslot p hmem, hfilled (c.slotColumn slot) p
        (by rwa [wf.c.columnSpan_slotColumn hslot])]
      rfl
    · have hsize' : result.size = c.entryCount := hsize'
      rw [Array.getElem?_eq_none (by omega), Array.getElem?_eq_none (by omega)]
  rw [← heq]
  exact hresult

theorem multiply_eq_reference_leftFold :
    ∃ counters after, multiply Sample.leftFold Sample.c Sample.a Sample.b none (.standard 1)
        ⟨#[70, 71, 72, 73, 74], #[90, 91, 92, 93]⟩ = .ok counters after ∧
      after.values = #[-11, -3, 1, -1, 0] := by
  obtain ⟨counters, after, hrun, hreference⟩ := multiply_eq_reference Sample.total_leftFold
    (Sample.accepted_of_mask nofun) rfl rfl Sample.occupied
    (show (Buffers.mk #[70, 71, 72, 73, 74] #[90, 91, 92, 93]).values.size = 5 from rfl)
    (show 3 ≤ 4 by decide) (.standard 1)
  have hvalues : Reference.values Sample.leftFold Sample.a Sample.b Sample.c =
      .ok #[-11, -3, 1, -1, 0] := by cbv
  exact ⟨counters, after, hrun, Except.ok.inj (hreference.symm.trans hvalues)⟩

end SparseProduct
