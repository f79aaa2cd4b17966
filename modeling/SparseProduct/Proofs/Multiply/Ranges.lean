import Mathlib
import SparseProduct.Proofs.Multiply.Call

/-!
# Products in ranges of slots

A call on some slots of B leaves the values of C alone outside the columns that these slots hold, however
it ends. Calls on ranges that together make up all slots of B fill in every column, in whatever order they
are made and whatever workspace one leaves to the next. So they end with the values of one product, and
their counters add up to its counters.
-/

namespace SparseProduct

variable {L R O : Type} {s : SemiringOps L R O} {c : Pattern} {a : SparseMatrix L}
  {b : SparseMatrix R} {mask : Option Mask} {settings : Settings}

theorem multiplySlots_frame (total : s.Total) (accepted : Accepted c a.pattern b.pattern mask)
    (slots : Span) {before after : Buffers O}
    (h : (∃ counters, multiplySlots s c a b mask slots settings before = .ok counters after) ∨
      ∃ e, multiplySlots s c a b mask slots settings before = .error e after)
    {p : Nat} (hp : ∀ slot ∈ slots.positions, ∀ i j, b.pattern.vectorId slot = .ok j →
      ¬ c.Stores p i j) : after.values[p]? = before.values[p]? := by
  have wf := accepted.wellFormed settings.search
  rcases multiplySlots_ended total accepted h with rfl | ⟨value, columns, hcolumns, hfilled, -⟩
  · rfl
  · refine hfilled.outside p fun j hj hmem => ?_
    obtain ⟨slot, hslot, hlt, rfl⟩ := hcolumns j hj
    exact hp slot hslot _ _ (wf.b.vectorId_eq hlt) (wf.c.stores_iff.2 ⟨hmem, rfl⟩)

theorem multiplySlots_mapM (total : s.Total)
    (wf : (Operands.ofCall c a b mask settings).WellFormed)
    {value : Nat → Nat → O}
    (hvalue : ∀ j, (Operands.ofCall c a b mask settings).columnValues s a.values b.values j =
      .ok (value j))
    (covered : ∀ j, (Operands.ofCall c a b mask settings).covered j = true) {ranges : List Span}
    {t : Buffers O}
    (hcheck : ∀ slots ∈ ranges,
      checkCall c a b mask slots settings t.values.size t.slots.size = .ok ()) :
    ∃ after, ranges.mapM (fun slots => multiplySlots s c a b mask slots settings) t =
        .ok (ranges.map fun slots => Task.work (Operands.ofCall c a b mask settings)
          ((Operands.ofCall c a b mask settings).columnsOf slots)) after ∧
      Filled (Operands.ofCall c a b mask settings)
        ((Operands.ofCall c a b mask settings).entryValue s.identity value) 0
        (ranges.flatMap (Operands.ofCall c a b mask settings).columnsOf) t.values
        after.values := by
  induction ranges generalizing t with
  | nil => exact ⟨t, rfl, rfl, nofun, fun _ _ => rfl⟩
  | cons slots ranges ih =>
    obtain ⟨next, hrun, hfilled, hsettled⟩ := multiplySlots_of_covered total wf
      (hcheck slots List.mem_cons_self) hvalue fun j _ => covered j
    obtain ⟨after, hrest, hmore⟩ := ih (t := next) fun slots h => by
      rw [hfilled.size, hsettled.size]
      exact hcheck slots (List.mem_cons_of_mem _ h)
    refine ⟨after, ?_, hfilled.append wf (fun _ _ _ _ => Nat.zero_le _) hmore⟩
    rw [List.mapM_cons, Run.bind_of_ok hrun, Run.bind_of_ok hrest]
    rfl

/-- However a call on some slots ends, it leaves the values of C alone outside the columns that the slots
hold. And calls on ranges that make up all slots of B, made in any order on the same buffers, complete
with the values of one product on any buffers, and with counters that add up to its counters. -/
theorem multiplySlots_compose (total : s.Total) (accepted : Accepted c a.pattern b.pattern mask)
    (ha : a.values.size = a.pattern.entryCount) (hb : b.values.size = b.pattern.entryCount)
    (occupied : ∀ j, c.Occupied j → b.pattern.Occupied j) (settings : Settings) :
    (∀ slots (before after : Buffers O),
      (∃ counters, multiplySlots s c a b mask slots settings before = .ok counters after) ∨
        (∃ e, multiplySlots s c a b mask slots settings before = .error e after) →
      ∀ p, (∀ slot ∈ slots.positions, ∀ i j, b.pattern.vectorId slot = .ok j → ¬ c.Stores p i j) →
        after.values[p]? = before.values[p]?) ∧
    ∀ (ranges : List Span) (before before' : Buffers O),
      (∀ slots ∈ ranges, slots.start ≤ slots.stop ∧ slots.stop ≤ b.pattern.slotCount) →
      (ranges.flatMap Span.positions).Perm (List.range b.pattern.slotCount) →
      before.values.size = c.entryCount → c.nRows ≤ before.slots.size →
      before'.values.size = c.entryCount → c.nRows ≤ before'.slots.size →
      ∃ reports after counters whole,
        ranges.mapM (fun slots => multiplySlots s c a b mask slots settings) before =
          .ok reports after ∧
        multiply s c a b mask settings before' = .ok counters whole ∧
        after.values = whole.values ∧ reports.sum = counters := by
  refine ⟨fun slots before after h p hp => multiplySlots_frame total accepted slots h hp, ?_⟩
  intro ranges before before' hbounds hperm hc hroom hc' hroom'
  have wf := accepted.wellFormed settings.search
  have covered := Operands.covered_of_occupied wf occupied
  obtain ⟨value, hvalue⟩ := wf.exists_columnValues total ha hb
  have hcheck : ∀ slots ∈ ranges,
      checkCall c a b mask slots settings before.values.size before.slots.size = .ok () := by
    intro slots hslots
    exact checkCall_eq_ok.2 ⟨checkProduct_eq_ok.2 ⟨ha, hb, hc, accepted.checkOperands_eq _⟩,
      (checkSlots_eq_ok wf.b.size_colPtr_pos).2 (hbounds slots hslots), hroom⟩
  obtain ⟨after, hrun, hfilled⟩ := multiplySlots_mapM total wf hvalue covered hcheck
  obtain ⟨whole, hwhole, hfilled', -⟩ :=
    multiply_of_accepted total accepted ha hb occupied hc' hroom' settings hvalue
  have hcolumns : (ranges.flatMap (Operands.ofCall c a b mask settings).columnsOf).Perm
      ((Operands.ofCall c a b mask settings).columnsOf ⟨0, b.pattern.slotCount⟩) := by
    have hmap := hperm.map b.pattern.slotColumn
    rw [List.map_flatMap, List.range_eq_range'] at hmap
    exact hmap
  refine ⟨_, after, _, whole, hrun, hwhole, ?_, ?_⟩
  · refine hfilled.unique_of_occupied wf.c hfilled' hc hc' fun j hj => ?_
    have hmem := Operands.mem_columnsOf wf (occupied j hj)
    exact ⟨hcolumns.mem_iff.2 hmem, hmem⟩
  · rw [← Task.work_flatMap]
    exact (hcolumns.map _).sum_eq

/-- The slots of the sample in three ranges, the last of them first, with one empty range between. -/
theorem multiplySlots_compose_leftFold :
    ∃ reports after counters whole,
      [⟨3, 4⟩, ⟨0, 1⟩, ⟨2, 2⟩, ⟨1, 3⟩].mapM
          (fun slots => multiplySlots Sample.leftFold Sample.c Sample.a Sample.b (some Sample.mask)
            slots (.standard 1)) ⟨#[70, 71, 72, 73, 74], #[90, 91, 92, 93]⟩ = .ok reports after ∧
      multiply Sample.leftFold Sample.c Sample.a Sample.b (some Sample.mask) (.standard 1)
        ⟨#[0, 0, 0, 0, 0], #[0, 0, 0]⟩ = .ok counters whole ∧
      after.values = whole.values ∧ reports.sum = counters ∧ whole.values = #[1, -3, 1, 1, 0] := by
  have accepted : Accepted Sample.c Sample.a.pattern Sample.b.pattern (some Sample.mask) :=
    Sample.accepted_of_mask fun m hm => by cases hm; exact ⟨rfl, rfl⟩
  obtain ⟨reports, after, counters, whole, hranges, hwhole, hvalues, hcounters⟩ :=
    (multiplySlots_compose Sample.total_leftFold accepted rfl rfl Sample.occupied (.standard 1)).2
      [⟨3, 4⟩, ⟨0, 1⟩, ⟨2, 2⟩, ⟨1, 3⟩] ⟨#[70, 71, 72, 73, 74], #[90, 91, 92, 93]⟩
      ⟨#[0, 0, 0, 0, 0], #[0, 0, 0]⟩ (by decide) (by decide) rfl (by decide) rfl (by decide)
  have hproduct : multiply Sample.leftFold Sample.c Sample.a Sample.b (some Sample.mask) (.standard 1)
      ⟨#[0, 0, 0, 0, 0], #[0, 0, 0]⟩ =
        .ok ⟨3, 1, 6, 2, 5, 5⟩ ⟨#[1, -3, 1, 1, 0], #[0, -3, 0]⟩ := by cbv
  refine ⟨reports, after, counters, whole, hranges, hwhole, hvalues, hcounters, ?_⟩
  cases hproduct.symm.trans hwhole
  rfl

end SparseProduct
