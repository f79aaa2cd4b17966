import Mathlib
import SparseProduct.Proofs.Multiply.Call

/-!
# What is left of the old values

A product is meant to overwrite every value of C. It visits the columns that B has slots for, and these it
overwrites: with the values of the product, and with the identity where no product reaches. A column of C
that B has no slot for is not visited. No check asks for such a slot, so its values stay what they were,
though the product completes.
-/

namespace SparseProduct

variable {L R O : Type}

namespace Operands

theorem mem_columnsOf_iff {op : Operands} (wf : op.b.WellFormed) {j : Nat} :
    j ∈ op.columnsOf ⟨0, op.b.slotCount⟩ ↔ op.b.slotOf j ≠ none := by
  rw [columnsOf, List.mem_map, Option.ne_none_iff_exists']
  refine exists_congr fun slot => ?_
  rw [Span.mem_positions, wf.slotOf_eq_some_iff]
  exact and_congr_left fun _ => ⟨fun h => h.2, fun h => ⟨Nat.zero_le _, h⟩⟩

theorem unreached_of_stores {op : Operands} (wf : op.WellFormed) {i j : Nat}
    (h : ∀ k left right, op.a.Stores left i k → ¬ op.b.Stores right k j) :
    ∀ pair ∈ op.pairs j, op.a.rowAt pair.1 ≠ i := by
  intro pair hpair hrow
  obtain ⟨hright, hleft⟩ := mem_pairs.1 hpair
  exact h (op.b.rowAt pair.2) pair.1 pair.2 (wf.a.stores_iff.2 ⟨hleft, hrow⟩)
    (wf.b.stores_iff.2 ⟨hright, rfl⟩)

theorem entryValue_of_unreached {op : Operands} (wf : op.WellFormed) {s : SemiringOps L R O}
    {left : Array L} {right : Array R} {value : Nat → Nat → O} {i j : Nat}
    (hvalue : op.columnValues s left right j = .ok (value j))
    (h : (∃ m ∈ op.mask, m.admitsAt i j = false) ∨
      ∀ k left right, op.a.Stores left i k → ¬ op.b.Stores right k j) :
    op.entryValue s.identity value i j = s.identity := by
  unfold entryValue
  split
  · next hadmits =>
    rcases h with ⟨m, hm, hrejects⟩ | hnone
    · rw [admits, Option.mem_def.1 hm, Option.elim_some, hrejects] at hadmits
      cases hadmits
    · exact columnValues_of_unreached hvalue (unreached_of_stores wf hnone)
  · rfl

end Operands

theorem Filled.kept {op : Operands} (wf : op.WellFormed) {entry : Nat → Nat → O}
    {before after : Array O} (h : Filled op entry 0 (op.columnsOf ⟨0, op.b.slotCount⟩) before after)
    {p j : Nat} (hp : p ∈ (op.c.columnSpan j).positions) (hslot : op.b.slotOf j = none) :
    after[p]? = before[p]? := by
  refine h.outside p fun k hk hpk => ?_
  -- an entry lies in one column only, and this one is not among those visited
  rw [wf.c.column_unique hpk hp] at hk
  exact (Operands.mem_columnsOf_iff wf.b).1 hk hslot

/-- Whenever a product completes, so does the same product on any other values and workspace, with the same
counters. It leaves the same values in every column that B has a slot for, and the identity where the
mask rejects the position or nothing contributes to it. In a column that B has no slot for, each of the
two keeps the values it was given. -/
theorem multiply_overwrites {s : SemiringOps L R O} (total : s.Total) {c : Pattern}
    {a : SparseMatrix L} {b : SparseMatrix R} {mask : Option Mask} {settings : Settings}
    (checking : settings.checkPatterns = true) {before after : Buffers O} {counters : Counters}
    (h : multiply s c a b mask settings before = .ok counters after) (before' : Buffers O)
    (hvalues : before'.values.size = before.values.size) (hroom : c.nRows ≤ before'.slots.size) :
    ∃ after', multiply s c a b mask settings before' = .ok counters after' ∧
      ∀ p i j, c.Stores p i j →
        (b.pattern.slotOf j ≠ none → after.values[p]? = after'.values[p]? ∧
          ((∃ m ∈ mask, m.admitsAt i j = false) ∨
            (∀ k left right, a.pattern.Stores left i k → ¬ b.pattern.Stores right k j) →
            after.values[p]? = some s.identity)) ∧
        (b.pattern.slotOf j = none → after.values[p]? = before.values[p]? ∧
          after'.values[p]? = before'.values[p]?) := by
  have hcall := multiply_eq_multiplySlots s c a mask settings (size_colPtr_of_multiply h)
  rw [hcall] at h ⊢
  obtain ⟨hcheck, accepted, covered⟩ := multiplySlots_covered total checking h
  have hcheck' : checkCall c a b mask ⟨0, b.pattern.slotCount⟩ settings before'.values.size
      before'.slots.size = .ok () := by
    obtain ⟨hproduct, hslots, -⟩ := checkCall_eq_ok.1 hcheck
    rw [hvalues]
    exact checkCall_eq_ok.2 ⟨hproduct, hslots, hroom⟩
  obtain ⟨hleft, hright, -, -⟩ := checkProduct_eq_ok.1 (checkCall_eq_ok.1 hcheck).1
  have wf := accepted.wellFormed settings.search
  obtain ⟨value, hvalue⟩ := wf.exists_columnValues total hleft hright
  obtain ⟨last, hrun, hfilled, -⟩ := multiplySlots_of_covered total wf hcheck hvalue covered
  obtain ⟨after', hrun', hfilled', -⟩ := multiplySlots_of_covered total wf hcheck' hvalue covered
  cases h.symm.trans hrun
  refine ⟨after', hrun', fun p i j hp => ?_⟩
  obtain ⟨hmem, rfl⟩ := wf.c.stores_iff.1 hp
  refine ⟨fun hslot => ?_, fun hslot => ⟨hfilled.kept wf hmem hslot, hfilled'.kept wf hmem hslot⟩⟩
  have hvisited : j ∈ (Operands.ofCall c a b mask settings).columnsOf ⟨0, b.pattern.slotCount⟩ :=
    (Operands.mem_columnsOf_iff wf.b).2 hslot
  have hvalueAt := hfilled.inside j hvisited p hmem
  refine ⟨hvalueAt.trans (hfilled'.inside j hvisited p hmem).symm, fun hunreached => ?_⟩
  rw [Operands.entryValue_of_unreached wf (hvalue j) hunreached] at hvalueAt
  exact hvalueAt

/-! ### A column that is not visited

B has slots for columns 0 and 2, and C for columns 0 and 1. -/

namespace Sample

def gate : SparseMatrix Bool := ⟨⟨1, 1, #[0, 1], none, #[0], true⟩, #[true]⟩

def twoSlots : SparseMatrix Bool := ⟨⟨1, 3, #[0, 1, 1], some #[0, 2], #[0], true⟩, #[true]⟩

def otherSlots : Pattern := ⟨1, 3, #[0, 1, 2], some #[0, 1], #[0, 0], true⟩

theorem multiply_otherSlots :
    multiply .lorLand otherSlots gate twoSlots none (.standard 1) ⟨#[true, true], #[false]⟩ =
      .ok ⟨1, 1, 1, 1, 1, 1⟩ ⟨#[true, true], #[true]⟩ := by cbv

end Sample

/-- Entry 0 comes out the same for any old value, and entry 1 keeps the old one. -/
theorem multiply_overwrites_lorLand :
    ∃ after, multiply .lorLand Sample.otherSlots Sample.gate Sample.twoSlots none (.standard 1)
        ⟨#[false, false], #[false]⟩ = .ok ⟨1, 1, 1, 1, 1, 1⟩ after ∧
      after.values[0]? = some true ∧ after.values[1]? = some false := by
  obtain ⟨after, hrun, hvalues⟩ := multiply_overwrites ⟨fun _ _ => ⟨_, rfl⟩, fun _ _ => ⟨_, rfl⟩⟩ rfl
    Sample.multiply_otherSlots ⟨#[false, false], #[false]⟩ rfl (Nat.le_refl 1)
  have hfirst : Sample.otherSlots.Stores 0 0 0 := ⟨⟨0, 1⟩, by cbv, by decide, rfl⟩
  have hsecond : Sample.otherSlots.Stores 1 0 1 := ⟨⟨1, 2⟩, by cbv, by decide, rfl⟩
  have hvisited : Sample.twoSlots.pattern.slotOf 0 ≠ none := by decide +kernel
  have hunvisited : Sample.twoSlots.pattern.slotOf 1 = none := by decide +kernel
  exact ⟨after, hrun, ((hvalues 0 0 0 hfirst).1 hvisited).1.symm,
    ((hvalues 1 0 1 hsecond).2 hunvisited).2⟩

/-- Two products that differ only in the old values of C complete with different values. -/
theorem multiply_keeps_unvisited :
    multiply .lorLand Sample.otherSlots Sample.gate Sample.twoSlots none (.standard 1)
        ⟨#[true, true], #[false]⟩ = .ok ⟨1, 1, 1, 1, 1, 1⟩ ⟨#[true, true], #[true]⟩ ∧
      multiply .lorLand Sample.otherSlots Sample.gate Sample.twoSlots none (.standard 1)
        ⟨#[true, false], #[false]⟩ = .ok ⟨1, 1, 1, 1, 1, 1⟩ ⟨#[true, false], #[true]⟩ :=
  ⟨Sample.multiply_otherSlots, by cbv⟩

end SparseProduct
