import Mathlib
import SparseProduct.Proofs.Multiply.Call
import SparseProduct.Proofs.Reference

/-!
# Arithmetic that fails

The operations of a semiring may fail, as those of whole numbers do when a result does not fit. Over a
pattern that stores the whole product, a product makes the same steps on the same elements as the
reference, one column after another, and no step reads a slot that was not cleared before. So both fail in
the first column that cannot be computed, in the same way, or none does and they give the same values.
-/

namespace SparseProduct

variable {L R O : Type}

namespace Operands

variable {op : Operands} {s : SemiringOps L R O} {left : Array L} {right : Array R}

theorem columnValues_cases (op : Operands) (s : SemiringOps L R O) (left : Array L) (right : Array R) :
    (∀ j, op.columnValues s left right j = .ok (op.columnAt s left right j)) ∨
      ∃ j e, op.columnValues s left right j = .error e ∧
        ∀ k < j, op.columnValues s left right k = .ok (op.columnAt s left right k) := by
  by_cases hall : ∃ j e, op.columnValues s left right j = .error e
  · classical
    obtain ⟨e, he⟩ := Nat.find_spec hall
    exact Or.inr ⟨Nat.find hall, e, he, fun k hlt =>
      columnValues_of_not_error fun e' hk => Nat.find_min hall hlt ⟨e', hk⟩⟩
  · exact Or.inl fun j => columnValues_of_not_error fun e hj => hall ⟨j, e, hj⟩

theorem WellFormed.safe_of_storesProduct (wf : op.WellFormed)
    (stores : StoresProduct op.c op.a op.b op.mask) (unmasked : op.mask = none) (j : Nat) :
    op.Safe s j := by
  refine Or.inr fun pair hpair => wf.named_of_pair stores hpair ?_
  rw [admits, unmasked]
  rfl

theorem WellFormed.occupied_of_error (wf : op.WellFormed)
    (stores : StoresProduct op.c op.a op.b op.mask) (unmasked : op.mask = none) {j : Nat} {e : Failure}
    (h : op.columnValues s left right j = .error e) : op.c.Occupied j ∧ op.b.Occupied j := by
  cases hpairs : op.pairs j with
  | nil =>
    rw [columnValues, hpairs] at h
    cases h
  | cons pair pairs =>
    have hpair : pair ∈ op.pairs j := hpairs ▸ List.mem_cons_self
    obtain ⟨-, p, hp, -⟩ := wf.named_of_pair stores hpair (by rw [admits, unmasked]; rfl)
    exact ⟨wf.c.occupied_of_mem hp, wf.b.occupied_of_mem (mem_pairs.1 hpair).1⟩

end Operands

namespace Reference

variable {op : Operands} {s : SemiringOps L R O} {left : Array L} {right : Array R}

theorem values_filled (wf : op.WellFormed) (hleft : left.size = op.a.entryCount)
    (hright : right.size = op.b.entryCount) (unmasked : op.mask = none) {value : Nat → Nat → O}
    (hvalue : ∀ j, op.columnValues s left right j = .ok (value j)) (columns : List Nat) :
    ∃ result, values s ⟨op.a, left⟩ ⟨op.b, right⟩ op.c = .ok result ∧
      result.size = op.c.entryCount ∧
      Filled op (op.entryValue s.identity value) 0 columns result result := by
  obtain ⟨result, hresult, hsize, hvalues⟩ :=
    values_eq wf hleft hright fun slot _ => hvalue (op.c.slotColumn slot)
  refine ⟨result, hresult, hsize, rfl, fun j _ p hp => ?_, fun _ _ => rfl⟩
  obtain ⟨slot, hslot, rfl, hmem⟩ := wf.c.exists_slot_of_mem hp
  rw [Operands.entryValue, Operands.admits, unmasked]
  exact hvalues slot hslot p hmem

theorem values_error_of_first (wf : op.WellFormed) (hleft : left.size = op.a.entryCount)
    (hright : right.size = op.b.entryCount) {j : Nat} (occupied : op.c.Occupied j) {e : Failure}
    (herror : op.columnValues s left right j = .error e) {value : Nat → Nat → O}
    (hvalue : ∀ k < j, op.columnValues s left right k = .ok (value k)) :
    values s ⟨op.a, left⟩ ⟨op.b, right⟩ op.c = .error e := by
  obtain ⟨slot, hslot, rfl⟩ := wf.c.exists_slot_of_occupied occupied
  exact values_error wf hleft hright hslot
    (fun earlier hlt => hvalue _ (wf.c.slotColumn_lt_slotColumn hlt hslot)) herror

end Reference

section Product

variable {s : SemiringOps L R O} {c : Pattern} {a : SparseMatrix L} {b : SparseMatrix R}
  (accepted : Accepted c a.pattern b.pattern none) (ha : a.values.size = a.pattern.entryCount)
  (hb : b.values.size = b.pattern.entryCount) (occupied : ∀ j, c.Occupied j → b.pattern.Occupied j)
  (stores : StoresProduct c a.pattern b.pattern none) {before : Buffers O}
  (hc : before.values.size = c.entryCount) (hroom : c.nRows ≤ before.slots.size) (settings : Settings)
include accepted ha hb occupied stores hc hroom

theorem multiply_of_columnValues {value : Nat → Nat → O}
    (hvalue : ∀ j, (Operands.ofCall c a b none settings).columnValues s a.values b.values j =
      .ok (value j)) :
    ∃ counters after, multiply s c a b none settings before = .ok counters after ∧
      Reference.values s a b c = .ok after.values := by
  have wf := accepted.wellFormed settings.search
  have covered := Operands.covered_of_occupied wf occupied
  obtain ⟨after, hrun, hfilled, -⟩ := Kernel.run_typed wf ha hb ⟨0, b.pattern.slotCount⟩
    (Nat.le_refl _) (fun j _ => wf.safe_of_storesProduct stores rfl j) (fun j _ => hvalue j) 0 hroom
    fun j _ p hp => wf.entry_lt hc hp
  rw [Task.report_eq fun j _ => covered j] at hrun
  rw [List.takeWhile_eq_self_iff.2 fun j _ => covered j] at hfilled
  obtain ⟨result, hresult, hsize, hreference⟩ := Reference.values_filled wf ha hb rfl hvalue _
  have hsame : after.values = result :=
    hfilled.unique_of_occupied wf.c hreference hc hsize fun j hj =>
      have hmem := Operands.mem_columnsOf wf (occupied j hj)
      ⟨hmem, hmem⟩
  refine ⟨_, after, (multiply_eq_run accepted ha hb hc hroom settings).trans hrun, ?_⟩
  rw [hsame]
  exact hresult

/-- A product and the reference both fail as the first column does that cannot be computed. -/
theorem multiply_of_error {j : Nat} {e : Failure}
    (herror : (Operands.ofCall c a b none settings).columnValues s a.values b.values j = .error e)
    {value : Nat → Nat → O}
    (hvalue : ∀ k < j, (Operands.ofCall c a b none settings).columnValues s a.values b.values k =
      .ok (value k)) :
    (∃ after, multiply s c a b none settings before = .error e after) ∧
      Reference.values s a b c = .error e := by
  have wf := accepted.wellFormed settings.search
  obtain ⟨hstored, hvisited⟩ := wf.occupied_of_error stores rfl herror
  refine ⟨?_, Reference.values_error_of_first wf ha hb hstored herror hvalue⟩
  obtain ⟨slot, hslot, rfl⟩ := wf.b.exists_slot_of_occupied hvisited
  have hmem : slot ∈ (Span.mk 0 b.pattern.slotCount).positions :=
    Span.mem_positions.2 ⟨Nat.zero_le slot, hslot⟩
  obtain ⟨earlier, later, hcolumns, hless, -⟩ :=
    (Operands.ofCall c a b none settings).columnsOf_split hmem
  have hearlier : ∀ k ∈ earlier.map b.pattern.slotColumn, k < b.pattern.slotColumn slot := by
    intro k hk
    obtain ⟨first, hfirst, rfl⟩ := List.mem_map.1 hk
    exact wf.b.slotColumn_lt_slotColumn (hless first hfirst) hslot
  rw [multiply_eq_run accepted ha hb hc hroom settings]
  exact Kernel.run_typed_error wf ha hb (Nat.le_refl _)
    (fun k _ => Operands.covered_of_occupied wf occupied k) hcolumns
    (fun k _ => wf.safe_of_storesProduct stores rfl k) (fun k hk => hvalue k (hearlier k hk)) herror 0
    hroom fun k _ p hp => wf.entry_lt hc hp

end Product

/-- Over a pattern that stores the whole product, a product fails exactly when the reference does and in
the same way, and completes exactly with its values, whatever the operations of the semiring can do and
whatever the buffers held before. -/
theorem multiply_iff_reference {s : SemiringOps L R O} {c : Pattern} {a : SparseMatrix L}
    {b : SparseMatrix R} (accepted : Accepted c a.pattern b.pattern none)
    (ha : a.values.size = a.pattern.entryCount) (hb : b.values.size = b.pattern.entryCount)
    (occupied : ∀ j, c.Occupied j → b.pattern.Occupied j)
    (stores : StoresProduct c a.pattern b.pattern none) {before : Buffers O}
    (hc : before.values.size = c.entryCount) (hroom : c.nRows ≤ before.slots.size)
    (settings : Settings) :
    (∀ e, (∃ after, multiply s c a b none settings before = .error e after) ↔
      Reference.values s a b c = .error e) ∧
    ∀ values, (∃ counters after, multiply s c a b none settings before = .ok counters after ∧
      after.values = values) ↔ Reference.values s a b c = .ok values := by
  rcases (Operands.ofCall c a b none settings).columnValues_cases s a.values b.values with
    hvalue | ⟨j, e, herror, hvalue⟩
  · obtain ⟨counters, after, hrun, hreference⟩ :=
      multiply_of_columnValues accepted ha hb occupied stores hc hroom settings hvalue
    simp [hrun, hreference]
  · obtain ⟨⟨after, hrun⟩, hreference⟩ :=
      multiply_of_error accepted ha hb occupied stores hc hroom settings herror hvalue
    simp [hrun, hreference]

/-! ### Sums that leave eight bits -/

namespace Sample

def ofInts (pattern : Pattern) (values : Array Int) : SparseMatrix (Whole Int8Kind) :=
  ⟨pattern, values.map (Whole.wrap Int8Kind)⟩

def corner : Pattern := ⟨2, 2, #[0, 2, 3], none, #[0, 1, 0], true⟩

def full : Pattern := ⟨2, 2, #[0, 2, 4], none, #[0, 1, 0, 1], true⟩

theorem accepted_full : Accepted full corner full none where
  finalized := ⟨rfl, rfl, rfl⟩
  rows := rfl
  columns := rfl
  inner := rfl
  vectors := by decide
  a_check := rfl
  b_check := rfl
  c_check := rfl
  mask := nofun

theorem storesProduct_full : StoresProduct full corner full none :=
  ((accepted_full.wellFormed .trimmed).storesProduct_of_pairs (by decide +kernel) :)

end Sample

/-- The slots hold 127, to which nothing positive can be added. Row 0 takes 100 - 100, and then 100 + 100
in column 1. -/
theorem multiply_iff_reference_int8 :
    (∃ counters after, multiply .plusTimes Sample.full (Sample.ofInts Sample.corner #[100, 1, 100])
        (Sample.ofInts Sample.full #[1, -1, 0, 1]) none (.standard 1)
        ⟨Array.replicate 4 Numeric.top, Array.replicate 3 Numeric.top⟩ = .ok counters after ∧
      after.values = #[0, 1, 100, 0].map (Whole.wrap Int8Kind)) ∧
    ∃ after, multiply .plusTimes Sample.full (Sample.ofInts Sample.corner #[100, 1, 100])
        (Sample.ofInts Sample.full #[1, -1, 1, 1]) none (.standard 1)
        ⟨Array.replicate 4 Numeric.top, Array.replicate 3 Numeric.top⟩ =
      .error (.overflow .add) after := by
  have hvalues : (Buffers.mk (Array.replicate 4 (Numeric.top : Whole Int8Kind))
      (Array.replicate 3 Numeric.top)).values.size = 4 := rfl
  constructor
  · refine ((multiply_iff_reference (s := .plusTimes) (c := Sample.full)
      (a := Sample.ofInts Sample.corner #[100, 1, 100]) (b := Sample.ofInts Sample.full #[1, -1, 0, 1])
      Sample.accepted_full (by cbv) (by cbv) (fun _ h => h) Sample.storesProduct_full hvalues
      (by decide) (.standard 1)).2 _).2 ?_
    cbv
  · refine ((multiply_iff_reference (s := .plusTimes) (c := Sample.full)
      (a := Sample.ofInts Sample.corner #[100, 1, 100]) (b := Sample.ofInts Sample.full #[1, -1, 1, 1])
      Sample.accepted_full (by cbv) (by cbv) (fun _ h => h) Sample.storesProduct_full hvalues
      (by decide) (.standard 1)).1 _).2 ?_
    cbv

end SparseProduct
