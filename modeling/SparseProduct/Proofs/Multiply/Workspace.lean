import Mathlib
import SparseProduct.Proofs.Multiply.Call

/-!
# What a call leaves in the workspace

A call writes the slots of the rows that C stores and the mask admits, and no others, if C stores every
admitted position of the product. The slot of such a row keeps what was copied from it to C last. All
other slots are what they were before, those beyond the rows of C in every case.
-/

namespace SparseProduct

variable {L R O : Type}

/-- C stores an admitted entry of a row in the column of a slot of B. -/
def Gathers (c b : Pattern) (mask : Option Mask) (slot i p : Nat) : Prop :=
  ∃ j, b.vectorId slot = .ok j ∧ c.Stores p i j ∧ Admitted mask i j

/-- A workspace slot holds the value that was gathered from it last, and what it held before if none
was. -/
structure Residue (c b : Pattern) (mask : Option Mask) (slots : Span) (before after : Buffers O) :
    Prop where
  size : after.slots.size = before.slots.size
  gathered : ∀ slot ∈ slots.positions, ∀ i p, Gathers c b mask slot i p →
    (∀ later ∈ slots.positions, slot < later → ∀ q, ¬ Gathers c b mask later i q) →
    ∃ x, after.values[p]? = some x ∧ after.slots[i]? = some x
  kept : ∀ i, (∀ slot ∈ slots.positions, ∀ p, ¬ Gathers c b mask slot i p) →
    after.slots[i]? = before.slots[i]?

variable {s : SemiringOps L R O} {c : Pattern} {a : SparseMatrix L} {b : SparseMatrix R}
  {mask : Option Mask} {settings : Settings}

theorem gathers_iff (wf : (Operands.ofCall c a b mask settings).WellFormed) {slot i p : Nat}
    (hslot : slot < b.pattern.slotCount) :
    Gathers c b.pattern mask slot i p ↔
      (Operands.ofCall c a b mask settings).admits i (b.pattern.slotColumn slot) = true ∧
        p ∈ (c.columnSpan (b.pattern.slotColumn slot)).positions ∧ c.rowAt p = i := by
  rw [Gathers, wf.b.vectorId_eq hslot, wf.admits_iff, ← wf.c.stores_iff]
  constructor
  · rintro ⟨j, hj, hstores, hadmitted⟩
    cases hj
    exact ⟨hadmitted, hstores⟩
  · exact fun ⟨hadmitted, hstores⟩ => ⟨_, rfl, hstores, hadmitted⟩

theorem named_slotColumn_iff (wf : (Operands.ofCall c a b mask settings).WellFormed) {slot i : Nat}
    (hslot : slot < b.pattern.slotCount) :
    (Operands.ofCall c a b mask settings).Named (b.pattern.slotColumn slot) i ↔
      ∃ p, Gathers c b.pattern mask slot i p := by
  simp only [gathers_iff wf hslot, Operands.Named, exists_and_left]

/-- A call leaves in the workspace what it gathered last. -/
theorem multiplySlots_residue (total : s.Total) (accepted : Accepted c a.pattern b.pattern mask)
    (ha : a.values.size = a.pattern.entryCount) (hb : b.values.size = b.pattern.entryCount)
    (occupied : ∀ j, c.Occupied j → b.pattern.Occupied j)
    (stores : StoresProduct c a.pattern b.pattern mask) {slots : Span}
    (hslots : slots.start ≤ slots.stop ∧ slots.stop ≤ b.pattern.slotCount) {before : Buffers O}
    (hc : before.values.size = c.entryCount) (hroom : c.nRows ≤ before.slots.size)
    (settings : Settings) :
    ∃ counters after, multiplySlots s c a b mask slots settings before = .ok counters after ∧
      Residue c b.pattern mask slots before after := by
  have wf := accepted.wellFormed settings.search
  have htouched : ∀ {slot i : Nat}, slot ∈ slots.positions →
      ((Operands.ofCall c a b mask settings).Touched (b.pattern.slotColumn slot) i ↔
        ∃ p, Gathers c b.pattern mask slot i p) := by
    intro slot i hslot
    have hlt := Nat.lt_of_lt_of_le (Span.mem_positions.1 hslot).2 hslots.2
    rw [wf.touched_iff_named stores, named_slotColumn_iff wf hlt]
  obtain ⟨value, hvalue⟩ := wf.exists_columnValues total ha hb
  have hcheck : checkCall c a b mask slots settings before.values.size before.slots.size = .ok () :=
    checkCall_eq_ok.2 ⟨checkProduct_eq_ok.2 ⟨ha, hb, hc, accepted.checkOperands_eq _⟩,
      (checkSlots_eq_ok wf.b.size_colPtr_pos).2 hslots, hroom⟩
  obtain ⟨after, hrun, hfilled, hsettled⟩ := multiplySlots_of_covered total wf hcheck hvalue
    fun j _ => Operands.covered_of_occupied wf occupied j
  refine ⟨_, after, hrun, hsettled.size, ?_, ?_⟩
  · intro slot hslot i p hgathers hlast
    obtain ⟨earlier, later, hcolumns, -, hlater⟩ :=
      (Operands.ofCall c a b mask settings).columnsOf_split hslot
    have hlt := Nat.lt_of_lt_of_le (Span.mem_positions.1 hslot).2 hslots.2
    have hnamed := (named_slotColumn_iff wf hlt).2 ⟨p, hgathers⟩
    obtain ⟨hadmits, hp, rfl⟩ := (gathers_iff wf hlt).1 hgathers
    refine ⟨value (b.pattern.slotColumn slot) (c.rowAt p), ?_, ?_⟩
    · have hin := hfilled.inside (b.pattern.slotColumn slot) (List.mem_map_of_mem hslot) p hp
      rwa [Operands.entryValue, if_pos hadmits] at hin
    · refine hsettled.last _ _ _ hcolumns _ hnamed ?_
      intro k hk hwritten
      obtain ⟨next, hnext, rfl⟩ := List.mem_map.1 hk
      obtain ⟨hafter, hmem⟩ := hlater next hnext
      obtain ⟨q, hq⟩ := (htouched hmem).1 hwritten
      exact hlast next hmem hafter q hq
  · intro i hnone
    refine hsettled.kept i ?_
    intro j hj hwritten
    obtain ⟨slot, hslot, rfl⟩ := List.mem_map.1 hj
    obtain ⟨p, hp⟩ := (htouched hslot).1 hwritten
    exact hnone slot hslot p hp

theorem multiplySlots_beyond (total : s.Total) (accepted : Accepted c a.pattern b.pattern mask)
    {slots : Span} {before after : Buffers O}
    (h : (∃ counters, multiplySlots s c a b mask slots settings before = .ok counters after) ∨
      ∃ e, multiplySlots s c a b mask slots settings before = .error e after)
    {i : Nat} (hi : c.nRows ≤ i) : after.slots[i]? = before.slots[i]? := by
  have wf := accepted.wellFormed settings.search
  rcases multiplySlots_ended total accepted h with rfl | ⟨value, columns, -, -, hsettled⟩
  · rfl
  · exact hsettled.kept i fun j _ hwritten => Nat.not_lt.2 hi (wf.lt_of_touched hwritten)

/-- A call on some slots of B completes, and so does a product, which is the call on all of them. Each leaves
in the slot of a row the value that it gathered from it last, and every slot that it gathered nothing from
as it was. However a call ends, slots beyond the rows of C are what they were. -/
theorem multiply_residue (total : s.Total) (accepted : Accepted c a.pattern b.pattern mask)
    (ha : a.values.size = a.pattern.entryCount) (hb : b.values.size = b.pattern.entryCount)
    (occupied : ∀ j, c.Occupied j → b.pattern.Occupied j)
    (stores : StoresProduct c a.pattern b.pattern mask) (settings : Settings) :
    (∀ before : Buffers O, before.values.size = c.entryCount → c.nRows ≤ before.slots.size →
      (∀ slots : Span, slots.start ≤ slots.stop ∧ slots.stop ≤ b.pattern.slotCount →
        ∃ counters after, multiplySlots s c a b mask slots settings before = .ok counters after ∧
          Residue c b.pattern mask slots before after) ∧
      ∃ counters after, multiply s c a b mask settings before = .ok counters after ∧
        Residue c b.pattern mask ⟨0, b.pattern.slotCount⟩ before after) ∧
    ∀ slots (before after : Buffers O),
      (∃ counters, multiplySlots s c a b mask slots settings before = .ok counters after) ∨
        (∃ e, multiplySlots s c a b mask slots settings before = .error e after) →
      ∀ i, c.nRows ≤ i → after.slots[i]? = before.slots[i]? := by
  have wf := accepted.wellFormed settings.search
  constructor
  · intro before hc hroom
    constructor
    · intro slots hslots
      exact multiplySlots_residue total accepted ha hb occupied stores hslots hc hroom settings
    · rw [multiply_eq_multiplySlots s c a mask settings wf.b.size_colPtr_pos]
      exact multiplySlots_residue total accepted ha hb occupied stores
        ⟨Nat.zero_le _, Nat.le_refl _⟩ hc hroom settings
  · intro slots before after h i hi
    exact multiplySlots_beyond total accepted h hi

/-! ### A call whose mask rejects the last entry of a row -/

namespace Sample

/-- Marks (0, 0), (1, 0), (0, 2) and (2, 3). -/
def thinned : Mask := .structural ⟨3, 4, #[0, 2, 2, 3, 4], none, #[0, 1, 0, 2], true⟩

theorem accepted_thinned : Accepted Sample.c Sample.a.pattern Sample.b.pattern (some thinned) :=
  accepted_of_mask fun m hm => by cases hm; exact ⟨rfl, rfl⟩

theorem storesProduct_thinned :
    StoresProduct Sample.c Sample.a.pattern Sample.b.pattern (some thinned) :=
  ((accepted_thinned.wellFormed .trimmed).storesProduct_of_pairs (by decide +kernel) :)

instance (op : Operands) (j i : Nat) : Decidable (op.Named j i) :=
  inferInstanceAs (Decidable (_ ∧ ∃ entry ∈ (op.c.columnSpan j).positions, op.c.rowAt entry = i))

end Sample

/-- Row 0 was gathered last in column 2, row 1 in column 0, and row 2 not at all. -/
theorem multiply_residue_leftFold :
    ∃ counters after, multiplySlots Sample.leftFold Sample.c Sample.a Sample.b (some Sample.thinned)
        ⟨0, 3⟩ (.standard 1) ⟨#[70, 71, 72, 73, 74], #[90, 91, 92, 93]⟩ = .ok counters after ∧
      after.slots[0]? = after.values[2]? ∧ after.slots[1]? = after.values[1]? ∧
      after.slots[2]? = some 92 ∧ after.slots[3]? = some 93 ∧
      after.values = #[-11, -3, 1, 73, 74] := by
  have wf : (Operands.ofCall Sample.c Sample.a Sample.b (some Sample.thinned)
      (.standard 1)).WellFormed := Sample.accepted_thinned.wellFormed _
  obtain ⟨hcomplete, hbeyond⟩ := multiply_residue Sample.total_leftFold Sample.accepted_thinned rfl rfl
    Sample.occupied Sample.storesProduct_thinned (.standard 1)
  obtain ⟨counters, after, hrun, -, hgathered, hkept⟩ :=
    (hcomplete ⟨#[70, 71, 72, 73, 74], #[90, 91, 92, 93]⟩ rfl (by decide)).1 ⟨0, 3⟩ (by decide)
  have hnone : ∀ {slot i : Nat}, slot < Sample.b.pattern.slotCount ∧
      ¬ (Operands.ofCall Sample.c Sample.a Sample.b (some Sample.thinned) (.standard 1)).Named
        (Sample.b.pattern.slotColumn slot) i →
      ∀ p, ¬ Gathers Sample.c Sample.b.pattern (some Sample.thinned) slot i p :=
    fun h p hp => h.2 ((named_slotColumn_iff wf h.1).2 ⟨p, hp⟩)
  have hlast : ∀ later ∈ (Span.mk 0 3).positions, 0 < later →
      ∀ p, ¬ Gathers Sample.c Sample.b.pattern (some Sample.thinned) later 1 p :=
    fun later hlater hlt => hnone (by revert later; decide +kernel)
  have hproduct : multiplySlots Sample.leftFold Sample.c Sample.a Sample.b (some Sample.thinned) ⟨0, 3⟩
      (.standard 1) ⟨#[70, 71, 72, 73, 74], #[90, 91, 92, 93]⟩ =
        .ok ⟨2, 1, 3, 3, 2, 3⟩ ⟨#[-11, -3, 1, 73, 74], #[1, -3, 92, 93]⟩ := by cbv
  refine ⟨counters, after, hrun, ?_, ?_, ?_, ?_, ?_⟩
  · obtain ⟨x, hvalue, hslot⟩ := hgathered 2 (by decide) 0 2
      ((gathers_iff wf (by decide)).2 (by decide +kernel)) fun later hlater hlt =>
        absurd (Span.mem_positions.1 hlater).2 (Nat.not_lt.2 hlt)
    rw [hvalue, hslot]
  · obtain ⟨x, hvalue, hslot⟩ := hgathered 0 (by decide) 1 1
      ((gathers_iff wf (by decide)).2 (by decide +kernel)) hlast
    rw [hvalue, hslot]
  · exact hkept 2 fun slot hslot => hnone (by revert slot; decide +kernel)
  · exact hbeyond _ _ _ (Or.inl ⟨counters, hrun⟩) 3 (by decide)
  · cases hproduct.symm.trans hrun
    rfl

end SparseProduct
