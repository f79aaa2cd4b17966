import SparseProduct.Proofs.Multiply.Accepted
import SparseProduct.Proofs.Parallel.Run

/-!
# One call on some slots of B

A call makes its checks and then runs the kernel on the slots it was given. The checks look at the
operands and at the sizes of the buffers, never at what the buffers hold, so whether a call is refused
does not depend on that. A call that passes them fills in the columns of its slots, in the order of the
slots, up to the first column that C stores something in and B nothing.
-/

namespace SparseProduct

variable {L R O : Type}

variable {s : SemiringOps L R O} {c : Pattern} {a : SparseMatrix L} {b : SparseMatrix R}
  {mask : Option Mask} {slots : Span} {settings : Settings}

theorem Accepted.of_checking {c a b : Pattern} (checking : settings.checkPatterns = true)
    (h : checkOperands c a b mask settings = .ok ()) : Accepted c a b mask := by
  have hpatterns : checkPatterns c a b mask = .ok () := by
    simp only [checkOperands, checking, if_true, Result.bind_eq_ok] at h
    obtain ⟨_, -, _, -, _, -, h⟩ := h
    cases mask with
    | none => exact h
    | some m =>
      rw [Result.check_bind_eq_ok] at h
      exact h.2
  simp only [checkPatterns, Result.check_bind_eq_ok] at hpatterns
  obtain ⟨ha, hb, hc, hmask⟩ := hpatterns
  refine .of_checkOperands h ha hb hc fun m hm => ?_
  cases hm
  exact hmask

theorem multiplySlots_eq_report (total : s.Total)
    (wf : (Operands.ofCall c a b mask settings).WellFormed) {t : Buffers O}
    (hcheck : checkCall c a b mask slots settings t.values.size t.slots.size = .ok ())
    {value : Nat → Nat → O}
    (hvalue : ∀ j, (Operands.ofCall c a b mask settings).columnValues s a.values b.values j =
      .ok (value j)) :
    ∃ after, multiplySlots s c a b mask slots settings t =
        Run.ofResult ((Operands.ofCall c a b mask settings).report
          ((Operands.ofCall c a b mask settings).columnsOf slots) .zero) after ∧
      Filled (Operands.ofCall c a b mask settings)
        ((Operands.ofCall c a b mask settings).entryValue s.identity value) 0
        (((Operands.ofCall c a b mask settings).columnsOf slots).takeWhile
          (Operands.ofCall c a b mask settings).covered) t.values after.values ∧
      Settled (Operands.ofCall c a b mask settings) value
        (((Operands.ofCall c a b mask settings).columnsOf slots).takeWhile
          (Operands.ofCall c a b mask settings).covered) t.slots after.slots := by
  obtain ⟨hproduct, hslots, hroom⟩ := checkCall_eq_ok.1 hcheck
  obtain ⟨ha, hb, hc, -⟩ := checkProduct_eq_ok.1 hproduct
  have hstop := ((checkSlots_eq_ok wf.b.size_colPtr_pos).1 hslots).2
  obtain ⟨after, hrun, hfilled⟩ := Kernel.run_typed wf ha hb slots hstop (fun j _ => Or.inl total)
    (fun j _ => hvalue j) 0 hroom fun j _ p hp => wf.entry_lt hc hp
  refine ⟨after, ?_, hfilled⟩
  rw [multiplySlots_eq_checked, hcheck, ← hrun]
  rfl

/-- However a call ends, it has left the buffers alone, or filled in some columns of its slots and settled
them in the workspace. -/
theorem multiplySlots_ended (total : s.Total) (accepted : Accepted c a.pattern b.pattern mask)
    {before after : Buffers O}
    (h : (∃ counters, multiplySlots s c a b mask slots settings before = .ok counters after) ∨
      ∃ e, multiplySlots s c a b mask slots settings before = .error e after) :
    after = before ∨ ∃ (value : Nat → Nat → O) (columns : List Nat),
      (∀ j ∈ columns, ∃ slot ∈ slots.positions, slot < b.pattern.slotCount ∧
        b.pattern.slotColumn slot = j) ∧
      Filled (Operands.ofCall c a b mask settings)
        ((Operands.ofCall c a b mask settings).entryValue s.identity value) 0 columns before.values
        after.values ∧
      Settled (Operands.ofCall c a b mask settings) value columns before.slots after.slots := by
  have wf := accepted.wellFormed settings.search
  cases hcheck : checkCall c a b mask slots settings before.values.size before.slots.size with
  | error e =>
    have hrun : multiplySlots s c a b mask slots settings before =
        Run.ofResult (.error e) before := by
      rw [multiplySlots_eq_checked, hcheck]
      rfl
    rw [hrun] at h
    exact Or.inl (Run.state_ofResult h)
  | ok u =>
    obtain ⟨hproduct, hslots, -⟩ := checkCall_eq_ok.1 hcheck
    obtain ⟨ha, hb, -, -⟩ := checkProduct_eq_ok.1 hproduct
    have hstop := ((checkSlots_eq_ok wf.b.size_colPtr_pos).1 hslots).2
    obtain ⟨value, hvalue⟩ := wf.exists_columnValues total ha hb
    obtain ⟨last, hrun, hfilled, hsettled⟩ := multiplySlots_eq_report total wf hcheck hvalue
    rw [hrun] at h
    rw [Run.state_ofResult h]
    refine Or.inr ⟨value, _, fun j hj => ?_, hfilled, hsettled⟩
    obtain ⟨slot, hslot, rfl⟩ := List.mem_map.1 ((List.takeWhile_sublist _).subset hj)
    exact ⟨slot, hslot, Nat.lt_of_lt_of_le (Span.mem_positions.1 hslot).2 hstop, rfl⟩

theorem multiplySlots_of_covered (total : s.Total)
    (wf : (Operands.ofCall c a b mask settings).WellFormed) {t : Buffers O}
    (hcheck : checkCall c a b mask slots settings t.values.size t.slots.size = .ok ())
    {value : Nat → Nat → O}
    (hvalue : ∀ j, (Operands.ofCall c a b mask settings).columnValues s a.values b.values j =
      .ok (value j))
    (covered : ∀ j ∈ (Operands.ofCall c a b mask settings).columnsOf slots,
      (Operands.ofCall c a b mask settings).covered j = true) :
    ∃ after, multiplySlots s c a b mask slots settings t =
        .ok (Task.work (Operands.ofCall c a b mask settings)
          ((Operands.ofCall c a b mask settings).columnsOf slots)) after ∧
      Filled (Operands.ofCall c a b mask settings)
        ((Operands.ofCall c a b mask settings).entryValue s.identity value) 0
        ((Operands.ofCall c a b mask settings).columnsOf slots) t.values after.values ∧
      Settled (Operands.ofCall c a b mask settings) value
        ((Operands.ofCall c a b mask settings).columnsOf slots) t.slots after.slots := by
  obtain ⟨after, hrun, hfilled, hsettled⟩ := multiplySlots_eq_report total wf hcheck hvalue
  rw [Task.report_eq covered] at hrun
  rw [List.takeWhile_eq_self_iff.2 covered] at hfilled hsettled
  exact ⟨after, hrun.trans (congrArg (EStateM.Result.ok · _) (zero_add _)), hfilled, hsettled⟩

/-- A product of accepted operands completes if B stores something in every column that C does, and fills
in the columns that B has slots for. -/
theorem multiply_of_accepted (total : s.Total) (accepted : Accepted c a.pattern b.pattern mask)
    (ha : a.values.size = a.pattern.entryCount) (hb : b.values.size = b.pattern.entryCount)
    (occupied : ∀ j, c.Occupied j → b.pattern.Occupied j) {t : Buffers O}
    (hvalues : t.values.size = c.entryCount) (hroom : c.nRows ≤ t.slots.size) (settings : Settings)
    {value : Nat → Nat → O}
    (hvalue : ∀ j, (Operands.ofCall c a b mask settings).columnValues s a.values b.values j =
      .ok (value j)) :
    ∃ after, multiply s c a b mask settings t =
        .ok (Task.work (Operands.ofCall c a b mask settings)
          ((Operands.ofCall c a b mask settings).columnsOf ⟨0, b.pattern.slotCount⟩)) after ∧
      Filled (Operands.ofCall c a b mask settings)
        ((Operands.ofCall c a b mask settings).entryValue s.identity value) 0
        ((Operands.ofCall c a b mask settings).columnsOf ⟨0, b.pattern.slotCount⟩) t.values
        after.values ∧
      Settled (Operands.ofCall c a b mask settings) value
        ((Operands.ofCall c a b mask settings).columnsOf ⟨0, b.pattern.slotCount⟩) t.slots
        after.slots := by
  have wf := accepted.wellFormed settings.search
  have hcheck : checkCall c a b mask ⟨0, b.pattern.slotCount⟩ settings t.values.size t.slots.size =
      .ok () :=
    checkCall_eq_ok.2 ⟨checkProduct_eq_ok.2 ⟨ha, hb, hvalues, accepted.checkOperands_eq _⟩,
      checkSlots_all wf.b.size_colPtr_pos, hroom⟩
  rw [multiply_eq_multiplySlots s c a mask settings wf.b.size_colPtr_pos]
  exact multiplySlots_of_covered total wf hcheck hvalue fun j _ =>
    Operands.covered_of_occupied wf occupied j

/-- If B stores something in every column that C does, a product writes every entry of C. -/
theorem multiply_filled (total : s.Total) (accepted : Accepted c a.pattern b.pattern mask)
    (ha : a.values.size = a.pattern.entryCount) (hb : b.values.size = b.pattern.entryCount)
    (occupied : ∀ j, c.Occupied j → b.pattern.Occupied j) {t : Buffers O}
    (hc : t.values.size = c.entryCount) (hroom : c.nRows ≤ t.slots.size) (settings : Settings)
    {value : Nat → Nat → O}
    (hvalue : ∀ j, (Operands.ofCall c a b mask settings).columnValues s a.values b.values j =
      .ok (value j)) :
    ∃ counters after, multiply s c a b mask settings t = .ok counters after ∧
      after.values.size = c.entryCount ∧ after.slots.size = t.slots.size ∧
      ∀ j, ∀ p ∈ (c.columnSpan j).positions, after.values[p]? =
        some ((Operands.ofCall c a b mask settings).entryValue s.identity value (c.rowAt p) j) := by
  have wf := accepted.wellFormed settings.search
  obtain ⟨after, hrun, hfilled, hsettled⟩ :=
    multiply_of_accepted total accepted ha hb occupied hc hroom settings hvalue
  refine ⟨_, after, hrun, hfilled.size.trans hc, hsettled.size, fun j p hp => ?_⟩
  exact hfilled.inside j (Operands.mem_columnsOf wf (occupied j (wf.c.occupied_of_mem hp))) p hp

theorem multiply_eq_run (accepted : Accepted c a.pattern b.pattern mask)
    (ha : a.values.size = a.pattern.entryCount) (hb : b.values.size = b.pattern.entryCount)
    {t : Buffers O} (hc : t.values.size = c.entryCount) (hroom : c.nRows ≤ t.slots.size)
    (settings : Settings) :
    multiply s c a b mask settings t = Kernel.run (Accumulator.typed s a.values b.values)
      (Operands.ofCall c a b mask settings) ⟨0, b.pattern.slotCount⟩ 0 t := by
  have wf := accepted.wellFormed settings.search
  rw [multiply_eq_checked wf.b.size_colPtr_pos hroom, checkProduct_eq ha hb hc,
    accepted.checkOperands_eq]
  rfl

theorem size_colPtr_of_multiply {t after : Buffers O} {counters : Counters}
    (h : multiply s c a b mask settings t = .ok counters after) : 0 < b.pattern.colPtr.size := by
  rw [multiply, Run.lift_bind_eq_ok] at h
  obtain ⟨slots, hslots, -⟩ := h
  rw [allSlots, Result.bind_eq_ok] at hslots
  obtain ⟨vectors, hvectors, -⟩ := hslots
  exact (Size.sub_eq_ok.1 hvectors).1

theorem multiplySlots_covered (total : s.Total) (checking : settings.checkPatterns = true)
    {t after : Buffers O} {counters : Counters}
    (h : multiplySlots s c a b mask slots settings t = .ok counters after) :
    checkCall c a b mask slots settings t.values.size t.slots.size = .ok () ∧
      Accepted c a.pattern b.pattern mask ∧
      ∀ j ∈ (Operands.ofCall c a b mask settings).columnsOf slots,
        (Operands.ofCall c a b mask settings).covered j = true := by
  have hcheck : checkCall c a b mask slots settings t.values.size t.slots.size = .ok () := by
    rw [multiplySlots_eq_checked, Run.lift_bind_eq_ok] at h
    obtain ⟨⟨⟩, hcheck, -⟩ := h
    exact hcheck
  obtain ⟨ha, hb, -, hoperands⟩ := checkProduct_eq_ok.1 (checkCall_eq_ok.1 hcheck).1
  have accepted := Accepted.of_checking checking hoperands
  have wf := accepted.wellFormed settings.search
  obtain ⟨value, hvalue⟩ := wf.exists_columnValues total ha hb
  obtain ⟨last, hrun, -⟩ := multiplySlots_eq_report total wf hcheck hvalue
  refine ⟨hcheck, accepted, ?_⟩
  rw [h] at hrun
  generalize hreport : Operands.report _ _ _ = report at hrun
  cases report with
  | error e => cases hrun
  | ok sum => exact Operands.covered_of_report hreport

/-! ### Patterns that store the whole product -/

/-- C stores every admitted position that a product reaches. -/
def StoresProduct (c a b : Pattern) (mask : Option Mask) : Prop :=
  ∀ i j k left right, a.Stores left i k → b.Stores right k j → Admitted mask i j → ∃ p, c.Stores p i j

namespace Operands

variable {op : Operands}

theorem WellFormed.named_of_pair (wf : op.WellFormed)
    (stores : StoresProduct op.c op.a op.b op.mask) {j : Nat} {pair : Nat × Nat}
    (hpair : pair ∈ op.pairs j) (hadmits : op.admits (op.a.rowAt pair.1) j = true) :
    op.Named j (op.a.rowAt pair.1) := by
  obtain ⟨hright, hleft⟩ := mem_pairs.1 hpair
  have hadmitted := wf.admits_iff.1 hadmits
  exact wf.named_iff.2 ⟨hadmitted, stores _ _ _ _ _ (wf.a.stores_iff.2 ⟨hleft, rfl⟩)
    (wf.b.stores_iff.2 ⟨hright, rfl⟩) hadmitted⟩

theorem WellFormed.storesProduct_of_pairs (wf : op.WellFormed)
    (h : ∀ j < op.b.nCols, ∀ pair ∈ op.pairs j, op.admits (op.a.rowAt pair.1) j = true →
      ∃ p ∈ (op.c.columnSpan j).positions, op.c.rowAt p = op.a.rowAt pair.1) :
    StoresProduct op.c op.a op.b op.mask := by
  intro i j k left right hleft hright hadmitted
  obtain ⟨hl, rfl⟩ := wf.a.stores_iff.1 hleft
  obtain ⟨hr, rfl⟩ := wf.b.stores_iff.1 hright
  obtain ⟨p, hp, hrow⟩ := h j (wf.b.lt_of_occupied (wf.b.occupied_of_mem hr)) (left, right)
    (mem_pairs.2 ⟨hr, hl⟩) (wf.admits_iff.2 hadmitted)
  exact ⟨p, wf.c.stores_iff.2 ⟨hp, hrow⟩⟩

theorem WellFormed.touched_iff_named (wf : op.WellFormed)
    (stores : StoresProduct op.c op.a op.b op.mask) {j i : Nat} : op.Touched j i ↔ op.Named j i := by
  refine ⟨?_, Or.inl⟩
  rintro (hnamed | ⟨pair, hpair, hadmits, rfl⟩)
  · exact hnamed
  · exact wf.named_of_pair stores hpair hadmits

end Operands

end SparseProduct
