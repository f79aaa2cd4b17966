import Mathlib
import SparseProduct.Proofs.Multiply.Call

/-!
# Masked products

Under a mask, a product writes the same values as without one where the mask admits the position, and the
identity everywhere else.
-/

namespace SparseProduct

variable {L R O : Type}

/-- A masked product succeeds. Where marking a position differs from being complemented an odd number of
times, it writes what the product writes without the mask, and the identity elsewhere. -/
theorem multiply_masked {s : SemiringOps L R O} (total : s.Total) {c : Pattern} {a : SparseMatrix L}
    {b : SparseMatrix R} {m : Mask}
    (plain : (∃ pattern, m = .structural pattern) ∨ ∃ pattern flags, m = .valued pattern flags) (n : Nat)
    (accepted : Accepted c a.pattern b.pattern (some (m.complementedTimes n)))
    (ha : a.values.size = a.pattern.entryCount) (hb : b.values.size = b.pattern.entryCount)
    (occupied : ∀ j, c.Occupied j → b.pattern.Occupied j) {before before' : Buffers O}
    (hc : before.values.size = c.entryCount) (hroom : c.nRows ≤ before.slots.size)
    (hc' : before'.values.size = c.entryCount) (hroom' : c.nRows ≤ before'.slots.size)
    (settings settings' : Settings) :
    ∃ counters masked counters' unmasked,
      multiply s c a b (some (m.complementedTimes n)) settings before = .ok counters masked ∧
      multiply s c a b none settings' before' = .ok counters' unmasked ∧
      masked.values.size = c.entryCount ∧ unmasked.values.size = c.entryCount ∧
      ∀ p i j, c.Stores p i j →
        (¬ (m.Marks i j ↔ n % 2 = 1) → masked.values[p]? = unmasked.values[p]?) ∧
        ((m.Marks i j ↔ n % 2 = 1) → masked.values[p]? = some s.identity) := by
  have hcomplement : m.complement = false := by
    rcases plain with ⟨pattern, rfl⟩ | ⟨pattern, flags, rfl⟩ <;> rfl
  have wfMask : m.pattern.WellFormed := by
    have hcheck := (accepted.mask _ rfl).2
    rw [Mask.pattern_complementedTimes] at hcheck
    exact Pattern.wellFormed_of_check hcheck
  have accepted' : Accepted c a.pattern b.pattern none := { accepted with mask := nofun }
  have wf := accepted.wellFormed settings.search
  obtain ⟨value, hvalue⟩ := wf.exists_columnValues total ha hb
  obtain ⟨counters, masked, hmasked, hsize, -, hfilled⟩ :=
    multiply_filled total accepted ha hb occupied hc hroom settings hvalue
  obtain ⟨counters', unmasked, hunmasked, hsize', -, hfilled'⟩ :=
    multiply_filled total accepted' ha hb occupied hc' hroom' settings' hvalue
  refine ⟨counters, masked, counters', unmasked, hmasked, hunmasked, hsize, hsize',
    fun p i j hp => ?_⟩
  obtain ⟨hmem, rfl⟩ := wf.c.stores_iff.1 hp
  have hadmits := Mask.admitsAt_complementedTimes wfMask hcomplement n (i := c.rowAt p) (j := j)
  rw [hfilled j p hmem, hfilled' j p hmem]
  constructor
  · intro hdiffers
    rw [Operands.entryValue, Operands.admits, Option.elim_some, if_pos (hadmits.2 hdiffers)]
    rfl
  · intro hagrees
    have hrejects : ¬ (m.complementedTimes n).admitsAt (c.rowAt p) j = true := fun h =>
      hadmits.1 h hagrees
    rw [Operands.entryValue, Operands.admits, Option.elim_some, if_neg hrejects]

/-- Entry 0 of the sample is not marked, entry 4 is, and the mask is complemented three times. -/
theorem multiply_masked_leftFold :
    ∃ counters masked counters' unmasked,
      multiply Sample.leftFold Sample.c Sample.a Sample.b (some (Sample.mask.complementedTimes 3))
        (.standard 1) ⟨#[70, 71, 72, 73, 74], #[90, 91, 92, 93]⟩ = .ok counters masked ∧
      multiply Sample.leftFold Sample.c Sample.a Sample.b none (.standard 1)
        ⟨#[0, 0, 0, 0, 0], #[0, 0, 0]⟩ = .ok counters' unmasked ∧
      masked.values[0]? = unmasked.values[0]? ∧ masked.values[4]? = some 1 ∧
      unmasked.values = #[-11, -3, 1, -1, 0] := by
  obtain ⟨counters, masked, counters', unmasked, hmasked, hunmasked, -, -, hvalues⟩ :=
    multiply_masked Sample.total_leftFold (m := Sample.mask) (Or.inr ⟨_, _, rfl⟩) 3
      (Sample.accepted_of_mask fun m hm => by cases hm; exact ⟨rfl, rfl⟩) rfl rfl Sample.occupied
      (show (Buffers.mk #[70, 71, 72, 73, 74] #[90, 91, 92, 93]).values.size = 5 from rfl)
      (show 3 ≤ 4 by decide) (show (Buffers.mk #[0, 0, 0, 0, 0] #[0, 0, 0]).values.size = 5 from rfl)
      (show 3 ≤ 3 by decide) (.standard 1) (.standard 1)
  have wfMask : Sample.mask.pattern.WellFormed :=
    Pattern.wellFormed_of_check (show Sample.mask.pattern.check .mask = .ok () from rfl)
  have wfC : Sample.c.WellFormed :=
    Pattern.wellFormed_of_check (show Sample.c.check .c = .ok () from rfl)
  have hfirst : Sample.c.Stores 0 0 0 := wfC.stores_iff.2 (by decide +kernel)
  have hlast : Sample.c.Stores 4 2 3 := wfC.stores_iff.2 (by decide +kernel)
  have hproduct : multiply Sample.leftFold Sample.c Sample.a Sample.b none (.standard 1)
      ⟨#[0, 0, 0, 0, 0], #[0, 0, 0]⟩ =
        .ok ⟨3, 1, 6, 5, 8, 5⟩ ⟨#[-11, -3, 1, -1, 0], #[-9, -1, 0]⟩ := by cbv
  refine ⟨counters, masked, counters', unmasked, hmasked, hunmasked, ?_, ?_, ?_⟩
  · refine (hvalues 0 0 0 hfirst).1 fun h => ?_
    have hmarks := (Mask.holdsAt_iff wfMask).2 (h.2 rfl)
    exact absurd hmarks (by decide +kernel)
  · refine (hvalues 4 2 3 hlast).2 ⟨fun _ => rfl, fun _ => ?_⟩
    exact (Mask.holdsAt_iff wfMask).1 (by decide +kernel)
  · cases hproduct.symm.trans hunmasked
    rfl

end SparseProduct
