import Mathlib.Data.List.TakeWhile
import SparseProduct.Proofs.ColumnValues

/-!
# The script of a run on elements

Carried out on arrays of elements, the script of a column computes the column of A · B: the slots of the
rows that C names hold its values when they are copied to the output. Slots of other rows may hold sums
that started from anything, and are never read.
-/

namespace SparseProduct

variable {L R O : Type}

namespace Operands

/-- Rows of column `j` that are stored in C and admitted. -/
def Named (op : Operands) (j i : Nat) : Prop :=
  op.admits i j = true ∧ ∃ entry ∈ (op.c.columnSpan j).positions, op.c.rowAt entry = i

/-- Rows of column `j` whose slots the kernel writes. -/
def Touched (op : Operands) (j i : Nat) : Prop :=
  op.Named j i ∨ ∃ pair ∈ op.pairs j, op.admits (op.a.rowAt pair.1) j = true ∧ op.a.rowAt pair.1 = i

/-- Every product of column `j` can be computed, or every product belongs to a row that is named. -/
def Safe (op : Operands) (s : SemiringOps L R O) (j : Nat) : Prop :=
  s.Total ∨ ∀ pair ∈ op.pairs j, op.Named j (op.a.rowAt pair.1)

theorem not_named_of_isEmpty (op : Operands) {j : Nat} (h : (op.c.columnSpan j).isEmpty = true)
    (i : Nat) : ¬ op.Named j i := by
  rintro ⟨-, p, hp, -⟩
  rw [Span.positions_eq_nil h] at hp
  cases hp

theorem mem_filter_iff_named (op : Operands) (j i : Nat) :
    i ∈ ((op.c.columnSpan j).positions.map op.c.rowAt).filter (op.admits · j) ↔ op.Named j i := by
  rw [List.mem_filter, List.mem_map, and_comm]
  rfl

theorem WellFormed.lt_of_touched {op : Operands} (wf : op.WellFormed) {j i : Nat}
    (h : op.Touched j i) : i < op.c.nRows := by
  rcases h with ⟨-, entry, he, rfl⟩ | ⟨pair, hpair, -, rfl⟩
  · exact wf.c.rowAt_lt he
  · exact (wf.pair_lt hpair).2.2

theorem WellFormed.admits_iff {op : Operands} (wf : op.WellFormed) {i j : Nat} :
    op.admits i j = true ↔ Admitted op.mask i j := by
  unfold admits Admitted
  cases hm : op.mask with
  | none => simp
  | some m => simp [Mask.admitsAt_iff (wf.mask m hm).1]

theorem WellFormed.named_iff {op : Operands} (wf : op.WellFormed) {j i : Nat} :
    op.Named j i ↔ Admitted op.mask i j ∧ ∃ p, op.c.Stores p i j := by
  rw [Named, wf.admits_iff]
  exact and_congr_right fun _ => exists_congr fun p => wf.c.stores_iff.symm

end Operands

namespace Kernel

/-- The slots of named rows hold the values of a column, slots of untouched rows what they held
before. -/
structure Holds (op : Operands) (j : Nat) (before : Buffers O) (column : Nat → O) (t : Buffers O) :
    Prop where
  values : t.values = before.values
  size : t.slots.size = before.slots.size
  named : ∀ i, op.Named j i → t.slots[i]? = some (column i)
  untouched : ∀ i, ¬ op.Touched j i → t.slots[i]? = before.slots[i]?

variable {op : Operands} {s : SemiringOps L R O} {left : Array L} {right : Array R}

theorem perform_clear {row : Nat} {t : Buffers O} (h : row < t.slots.size) :
    (Accumulator.typed s left right).perform (.clear row) t =
      .ok () { t with slots := t.slots.set row s.identity } := Buffers.setSlot_of_lt h

theorem perform_clears {rows : List Nat} {t : Buffers O} (h : ∀ i ∈ rows, i < t.slots.size) :
    ∃ slots, (Accumulator.typed s left right).performAll (rows.map .clear) t =
        .ok () { t with slots } ∧ slots.size = t.slots.size ∧
      (∀ i ∈ rows, slots[i]? = some s.identity) ∧ ∀ i, i ∉ rows → slots[i]? = t.slots[i]? := by
  induction rows generalizing t with
  | nil => exact ⟨t.slots, rfl, rfl, nofun, fun _ _ => rfl⟩
  | cons row rows ih =>
    have hrow := h row List.mem_cons_self
    obtain ⟨slots, hrun, hsize, hin, hout⟩ := ih (t := { t with slots := t.slots.set row s.identity })
      fun i hi => by
        rw [Array.size_set]
        exact h i (List.mem_cons_of_mem _ hi)
    rw [Array.size_set] at hsize
    refine ⟨slots, ?_, hsize, fun i hi => ?_, fun i hi => ?_⟩
    · rw [List.map_cons, Accumulator.performAll, Run.bind_of_ok (perform_clear hrow), hrun]
    · by_cases hmem : i ∈ rows
      · exact hin i hmem
      · rw [hout i hmem]
        rcases List.mem_cons.1 hi with rfl | hi
        · exact Array.getElem?_set_self hrow
        · exact absurd hi hmem
    · rw [List.mem_cons, not_or] at hi
      rw [hout i hi.2]
      exact Array.getElem?_set_ne hrow fun h => hi.1 h.symm

theorem perform_multiplyAdd {row p q : Nat} {t : Buffers O} (hp : p < left.size)
    (hq : q < right.size) (hrow : row < t.slots.size) :
    (Accumulator.typed s left right).perform (.multiplyAdd row p q) t =
      match s.fold left[p] right[q] t.slots[row] with
      | .ok value => .ok () { t with slots := t.slots.set row value }
      | .error e => .error e t := by
  have hslot : fetch t.slots row = .ok t.slots[row] := fetch_of_lt hrow
  simp only [Accumulator.perform, Accumulator.typed, fetch_of_lt hp, fetch_of_lt hq, Run.lift_ok,
    pure_bind, SemiringOps.fold]
  cases s.multiply left[p] right[q] with
  | error e => rfl
  | ok y =>
    simp only [Run.lift_ok, pure_bind, Result.ok_bind, Run.get_bind, hslot]
    cases s.accumulate t.slots[row] y with
    | error e => rfl
    | ok value => exact Buffers.setSlot_of_lt hrow

theorem Holds.skip {j : Nat} {before t : Buffers O} {column : Nat → O} (h : Holds op j before column t)
    {row : Nat} (hrow : ¬ op.Named j row) (value : O) :
    Holds op j before (Function.update column row value) t := by
  refine { h with named := fun i hi => ?_ }
  have hne : i ≠ row := fun heq => hrow (heq ▸ hi)
  rw [Function.update_of_ne hne]
  exact h.named i hi

theorem Holds.fold {j : Nat} {before t : Buffers O} {column : Nat → O} (h : Holds op j before column t)
    {row : Nat} (hrow : row < t.slots.size) (htouched : op.Touched j row) {value result : O}
    (hvalue : op.Named j row → value = result) :
    Holds op j before (Function.update column row value)
      { t with slots := t.slots.set row result } where
  values := h.values
  size := by rw [Array.size_set, h.size]
  named i hi := by
    by_cases heq : i = row
    · subst heq
      rw [Function.update_self, hvalue hi]
      exact Array.getElem?_set_self hrow
    · rw [Function.update_of_ne heq, ← h.named i hi]
      exact Array.getElem?_set_ne hrow (Ne.symm heq)
  untouched i hi := by
    rw [← h.untouched i hi]
    exact Array.getElem?_set_ne hrow fun heq => hi (heq ▸ htouched)

theorem foldPair_follows (wf : op.WellFormed) (hleft : left.size = op.a.entryCount)
    (hright : right.size = op.b.entryCount) {j : Nat} (safe : op.Safe s j) {pair : Nat × Nat}
    (hpair : pair ∈ op.pairs j) {before t : Buffers O} (hroom : op.c.nRows ≤ before.slots.size)
    {column : Nat → O} (h : Holds op j before column t) :
    Run.Follows (Holds op j before) (op.foldPair s left right column pair)
      ((Accumulator.typed s left right).performAll (products op.a (op.admits · j) [pair]) t) := by
  obtain ⟨hl, hr, hlt⟩ := wf.pair_lt hpair
  rw [← hleft] at hl
  rw [← hright] at hr
  have hrow : op.a.rowAt pair.1 < t.slots.size := by
    have := h.size
    omega
  rw [Operands.foldPair_eq hl hr, products_cons]
  by_cases hadmits : op.admits (op.a.rowAt pair.1) j = true
  · have htouched : op.Touched j (op.a.rowAt pair.1) := Or.inr ⟨pair, hpair, hadmits, rfl⟩
    rw [if_pos hadmits, show products op.a (op.admits · j) [] = [] from rfl, Accumulator.performAll,
      Accumulator.performAll, bind_pure_comp, id_map', perform_multiplyAdd hl hr hrow]
    by_cases hnamed : op.Named j (op.a.rowAt pair.1)
    · have hslot : t.slots[op.a.rowAt pair.1] = column (op.a.rowAt pair.1) := by
        have := h.named _ hnamed
        rwa [Array.getElem?_eq_getElem hrow, Option.some.injEq] at this
      rw [hslot]
      cases s.fold left[pair.1] right[pair.2] (column (op.a.rowAt pair.1)) with
      | error e => exact .error e t
      | ok value => exact .ok (h.fold hrow htouched fun _ => rfl)
    · -- nobody reads this slot, so it does not matter what the sum in it started from
      have total := safe.resolve_right fun hall => hnamed (hall pair hpair)
      obtain ⟨value, hvalue⟩ :=
        total.fold_eq_ok left[pair.1] right[pair.2] (column (op.a.rowAt pair.1))
      obtain ⟨result, hresult⟩ :=
        total.fold_eq_ok left[pair.1] right[pair.2] t.slots[op.a.rowAt pair.1]
      rw [hvalue, hresult]
      exact .ok (h.fold hrow htouched fun hn => absurd hn hnamed)
  · have hnamed : ¬ op.Named j (op.a.rowAt pair.1) := fun hn => hadmits hn.1
    have total := safe.resolve_right fun hall => hnamed (hall pair hpair)
    obtain ⟨value, hvalue⟩ :=
      total.fold_eq_ok left[pair.1] right[pair.2] (column (op.a.rowAt pair.1))
    rw [if_neg hadmits, hvalue]
    exact .ok (h.skip hnamed value)

theorem foldPairs_follows (wf : op.WellFormed) (hleft : left.size = op.a.entryCount)
    (hright : right.size = op.b.entryCount) {j : Nat} (safe : op.Safe s j) {pairs : List (Nat × Nat)}
    (hpairs : ∀ pair ∈ pairs, pair ∈ op.pairs j) {before t : Buffers O}
    (hroom : op.c.nRows ≤ before.slots.size) {column : Nat → O} (h : Holds op j before column t) :
    Run.Follows (Holds op j before) (pairs.foldlM (op.foldPair s left right) column)
      ((Accumulator.typed s left right).performAll (products op.a (op.admits · j) pairs) t) := by
  induction pairs generalizing column t with
  | nil => exact .ok h
  | cons pair pairs ih =>
    rw [List.foldlM_cons, ← List.singleton_append, products_append, Accumulator.performAll_append]
    refine (foldPair_follows wf hleft hright safe (hpairs pair List.mem_cons_self) hroom h).bind ?_
    exact fun column t h => ih (fun p hp => hpairs p (List.mem_cons_of_mem _ hp)) h

theorem perform_gather {row position : Nat} {t : Buffers O} (admitted : Bool) {x : O}
    (hposition : position < t.values.size) (hslot : admitted = true → t.slots[row]? = some x) :
    (Accumulator.typed s left right).perform
        (if admitted then .gather position row else .writeIdentity position) t =
      .ok () { t with values := t.values.set position (if admitted then x else s.identity) } := by
  cases admitted with
  | false => exact Buffers.setValue_of_lt hposition
  | true =>
    simp only [if_true, Accumulator.perform, Accumulator.typed, Run.get_bind,
      fetch_eq_ok.2 (hslot rfl), Run.lift_ok, pure_bind]
    exact Buffers.setValue_of_lt hposition

theorem perform_gathers {c : Pattern} (admits : Nat → Bool) (column : Nat → O) {base : Nat}
    {entries : List Nat} {t : Buffers O}
    (hbase : ∀ entry ∈ entries, base ≤ entry ∧ entry < base + t.values.size)
    (hslots : ∀ entry ∈ entries, admits (c.rowAt entry) = true →
      t.slots[c.rowAt entry]? = some (column (c.rowAt entry))) :
    ∃ values, (Accumulator.typed s left right).performAll (gathers c admits base entries) t =
        .ok () { t with values } ∧ values.size = t.values.size ∧
      (∀ entry ∈ entries, values[entry - base]? =
        some (if admits (c.rowAt entry) then column (c.rowAt entry) else s.identity)) ∧
      ∀ q : Nat, q + base ∉ entries → values[q]? = t.values[q]? := by
  induction entries generalizing t with
  | nil => exact ⟨t.values, rfl, rfl, nofun, fun _ _ => rfl⟩
  | cons entry entries ih =>
    obtain ⟨hle, hlt⟩ := hbase entry List.mem_cons_self
    have hposition : entry - base < t.values.size := by omega
    have haction : (Accumulator.typed s left right).perform
        (if admits (c.rowAt entry) then .gather (entry - base) (c.rowAt entry)
          else .writeIdentity (entry - base)) t = _ :=
      perform_gather (admits (c.rowAt entry)) hposition (hslots entry List.mem_cons_self)
    generalize hx : (if admits (c.rowAt entry) then column (c.rowAt entry) else s.identity) = x
      at haction
    obtain ⟨values, hrun, hsize, hin, hout⟩ :=
      ih (t := { t with values := t.values.set (entry - base) x })
        (fun e he => by
          rw [Array.size_set]
          exact hbase e (List.mem_cons_of_mem _ he))
        (fun e he => hslots e (List.mem_cons_of_mem _ he))
    rw [Array.size_set] at hsize
    refine ⟨values, ?_, hsize, fun e he => ?_, fun q hq => ?_⟩
    · rw [gathers, List.map_cons, Accumulator.performAll, Run.bind_of_ok haction]
      exact hrun
    · by_cases hmem : e ∈ entries
      · exact hin e hmem
      · rcases List.mem_cons.1 he with rfl | he
        · rw [hout _ (by rwa [Nat.sub_add_cancel hle]), hx]
          exact Array.getElem?_set_self hposition
        · exact absurd he hmem
    · rw [List.mem_cons, not_or] at hq
      rw [hout q hq.2]
      exact Array.getElem?_set_ne hposition (by omega)

end Kernel

/-- The values at the entries of some columns are given by row and column, all others are what they were
before. The values are those from position `base` on. -/
structure Filled (op : Operands) (entry : Nat → Nat → O) (base : Nat) (columns : List Nat)
    (before after : Array O) : Prop where
  size : after.size = before.size
  inside : ∀ j ∈ columns, ∀ p ∈ (op.c.columnSpan j).positions,
    after[p - base]? = some (entry (op.c.rowAt p) j)
  outside : ∀ q : Nat, (∀ j ∈ columns, q + base ∉ (op.c.columnSpan j).positions) →
    after[q]? = before[q]?

theorem Filled.append {op : Operands} (wf : op.WellFormed) {entry : Nat → Nat → O} {base : Nat}
    {columns more : List Nat}
    (hbase : ∀ j ∈ columns, ∀ p ∈ (op.c.columnSpan j).positions, base ≤ p)
    {first second third : Array O} (h : Filled op entry base columns first second)
    (hmore : Filled op entry base more second third) :
    Filled op entry base (columns ++ more) first third where
  size := hmore.size.trans h.size
  inside j hj p hp := by
    by_cases hlater : j ∈ more
    · exact hmore.inside j hlater p hp
    · have hin := (List.mem_append.1 hj).resolve_right hlater
      rw [hmore.outside, h.inside j hin p hp]
      intro k hk hpk
      rw [Nat.sub_add_cancel (hbase j hin p hp)] at hpk
      rw [wf.c.column_unique hp hpk] at hlater
      exact hlater hk
  outside q hq := by
    rw [hmore.outside q fun j hj => hq j (List.mem_append_right _ hj),
      h.outside q fun j hj => hq j (List.mem_append_left _ hj)]

theorem Filled.congr {op : Operands} {entry other : Nat → Nat → O} {base : Nat} {columns : List Nat}
    {before after : Array O} (h : Filled op entry base columns before after)
    (heq : ∀ j ∈ columns, ∀ i, entry i j = other i j) : Filled op other base columns before after :=
  { h with inside := fun j hj p hp => heq j hj _ ▸ h.inside j hj p hp }

theorem Filled.unique {op : Operands} {entry : Nat → Nat → O} {columns others : List Nat}
    {before first second : Array O} (h : Filled op entry 0 columns before first)
    (hother : Filled op entry 0 others before second) (hsame : ∀ j, j ∈ columns ↔ j ∈ others) :
    first = second := by
  refine Array.ext_getElem? fun q => ?_
  by_cases hin : ∃ j ∈ columns, q ∈ (op.c.columnSpan j).positions
  · obtain ⟨j, hj, hq⟩ := hin
    exact (h.inside j hj q hq).trans (hother.inside j ((hsame j).1 hj) q hq).symm
  · have hout : ∀ j ∈ columns, q + 0 ∉ (op.c.columnSpan j).positions := fun j hj hq => hin ⟨j, hj, hq⟩
    rw [h.outside q hout, hother.outside q fun j hj => hout j ((hsame j).2 hj)]

theorem Filled.unique_of_occupied {op : Operands} (wf : op.c.WellFormed) {entry : Nat → Nat → O}
    {columns others : List Nat} {before before' first second : Array O}
    (h : Filled op entry 0 columns before first) (h' : Filled op entry 0 others before' second)
    (hsize : before.size = op.c.entryCount) (hsize' : before'.size = op.c.entryCount)
    (hall : ∀ j, op.c.Occupied j → j ∈ columns ∧ j ∈ others) : first = second := by
  refine Array.ext_getElem? fun q => ?_
  by_cases hq : q < op.c.entryCount
  · obtain ⟨slot, hslot, hmem⟩ := wf.exists_slot hq
    rw [← wf.columnSpan_slotColumn hslot] at hmem
    obtain ⟨hfirst, hsecond⟩ := hall _ (wf.occupied_of_mem hmem)
    exact (h.inside _ hfirst q hmem).trans (h'.inside _ hsecond q hmem).symm
  · have := h.size
    have := h'.size
    rw [Array.getElem?_eq_none (by omega), Array.getElem?_eq_none (by omega)]

/-- The slot of a row holds the value of the last column that names it, unless a later one wrote it again.
Slots that no column writes are what they were before. -/
structure Settled (op : Operands) (value : Nat → Nat → O) (columns : List Nat)
    (before after : Array O) : Prop where
  size : after.size = before.size
  last : ∀ earlier j later, columns = earlier ++ j :: later → ∀ i, op.Named j i →
    (∀ k ∈ later, ¬ op.Touched k i) → after[i]? = some (value j i)
  kept : ∀ i, (∀ j ∈ columns, ¬ op.Touched j i) → after[i]? = before[i]?

/-- What belongs at a position of C: the value of the product if the position is admitted, the identity
if not. -/
def Operands.entryValue (op : Operands) (identity : O) (value : Nat → Nat → O) (i j : Nat) : O :=
  if op.admits i j then value j i else identity

namespace Kernel

variable {op : Operands} {s : SemiringOps L R O} {left : Array L} {right : Array R}

theorem exists_columnValues_of_isEmpty (wf : op.WellFormed) (hleft : left.size = op.a.entryCount)
    (hright : right.size = op.b.entryCount) {j : Nat} (safe : op.Safe s j)
    (hempty : (op.c.columnSpan j).isEmpty = true) :
    ∃ column, op.columnValues s left right j = .ok column := by
  rcases safe with total | hall
  · obtain ⟨value, hvalue⟩ := wf.exists_columnValues total hleft hright
    exact ⟨value j, hvalue j⟩
  · have hnil : op.pairs j = [] := List.eq_nil_iff_forall_not_mem.2 fun pair hpair =>
      op.not_named_of_isEmpty hempty _ (hall pair hpair)
    exact ⟨_, by rw [Operands.columnValues, hnil]; rfl⟩

/-- The script of a column follows the column of A · B: it leaves the values of the column at its entries
and in the slots of its named rows. -/
theorem column_follows (wf : op.WellFormed) (hleft : left.size = op.a.entryCount)
    (hright : right.size = op.b.entryCount) {j : Nat} (safe : op.Safe s j) {base : Nat} {t : Buffers O}
    (hroom : op.c.nRows ≤ t.slots.size)
    (hbase : ∀ p ∈ (op.c.columnSpan j).positions, base ≤ p ∧ p < base + t.values.size) :
    Run.Follows
      (fun column after => Filled op (op.entryValue s.identity fun _ => column) base [j] t.values
        after.values ∧ Holds op j { t with values := after.values } column after)
      (op.columnValues s left right j)
      ((Accumulator.typed s left right).performAll (op.script base j) t) := by
  unfold Operands.script
  cases hempty : (op.c.columnSpan j).isEmpty with
  | true =>
    obtain ⟨column, hcolumn⟩ := exists_columnValues_of_isEmpty wf hleft hright safe hempty
    rw [hcolumn]
    refine .ok ⟨⟨rfl, fun k hk p hp => ?_, fun _ _ => rfl⟩, rfl, rfl,
      fun i hi => absurd hi (op.not_named_of_isEmpty hempty i), fun _ _ => rfl⟩
    rw [List.mem_singleton.1 hk, Span.positions_eq_nil hempty] at hp
    cases hp
  | false =>
    have hrows := op.mem_filter_iff_named j
    obtain ⟨slots, hclear, hsize, hin, hout⟩ := perform_clears (s := s) (t := t)
      fun i hi => Nat.lt_of_lt_of_le (wf.lt_of_touched (Or.inl ((hrows i).1 hi))) hroom
    have hstart : Holds op j t (fun _ => s.identity) { t with slots } :=
      ⟨rfl, hsize, fun i hi => hin i ((hrows i).2 hi), fun i hi => hout i fun hmem =>
        hi (Or.inl ((hrows i).1 hmem))⟩
    rw [if_neg Bool.false_ne_true, List.append_assoc, Accumulator.performAll_append, clears,
      Run.bind_of_ok hclear, Accumulator.performAll_append, ← bind_pure (op.columnValues s left right j)]
    refine (foldPairs_follows wf hleft hright safe (fun _ h => h) hroom hstart).bind
      fun column after h => ?_
    have hslots : ∀ p ∈ (op.c.columnSpan j).positions, op.admits (op.c.rowAt p) j = true →
        after.slots[op.c.rowAt p]? = some (column (op.c.rowAt p)) :=
      fun p hp hadmits => h.named _ ⟨hadmits, p, hp, rfl⟩
    obtain ⟨values, hgather, hsame, hfilled, hkept⟩ :=
      perform_gathers (s := s) (op.admits · j) column (fun p hp => h.values ▸ hbase p hp) hslots
    rw [hgather, ← h.values]
    refine .ok ⟨⟨hsame, fun k hk p hp => ?_, fun q hq => ?_⟩, rfl, h.size, h.named, h.untouched⟩
    · rw [List.mem_singleton] at hk
      subst hk
      exact hfilled p hp
    · exact hkept q (hq j (List.mem_singleton_self j))

theorem Holds.settled {j : Nat} {before next : Buffers O} {value : Nat → Nat → O}
    (h : Holds op j before (value j) next) {columns : List Nat} {after : Array O}
    (hmore : Settled op value columns next.slots after) :
    Settled op value (j :: columns) before.slots after where
  size := hmore.size.trans h.size
  last earlier k later heq i hnamed hlater := by
    rcases List.cons_eq_append_iff.1 heq with ⟨rfl, hcons⟩ | ⟨earlier', rfl, hcolumns⟩
    · obtain ⟨rfl, rfl⟩ := List.cons.inj hcons
      rw [hmore.kept i hlater]
      exact h.named i hnamed
    · exact hmore.last earlier' k later hcolumns i hnamed hlater
  kept i hi := by
    rw [hmore.kept i fun k hk => hi k (List.mem_cons_of_mem _ hk)]
    exact h.untouched i (hi j List.mem_cons_self)

theorem perform_columns (wf : op.WellFormed) (hleft : left.size = op.a.entryCount)
    (hright : right.size = op.b.entryCount) {columns : List Nat} (safe : ∀ j ∈ columns, op.Safe s j)
    {value : Nat → Nat → O} (hvalue : ∀ j ∈ columns, op.columnValues s left right j = .ok (value j))
    {base : Nat} {t : Buffers O} (hroom : op.c.nRows ≤ t.slots.size)
    (hbase : ∀ j ∈ columns, ∀ p ∈ (op.c.columnSpan j).positions,
      base ≤ p ∧ p < base + t.values.size) :
    ∃ after, (Accumulator.typed s left right).performAll (columns.flatMap (op.script base)) t =
        .ok () after ∧ Filled op (op.entryValue s.identity value) base columns t.values after.values ∧
      Settled op value columns t.slots after.slots := by
  induction columns generalizing t with
  | nil => exact ⟨t, rfl, ⟨rfl, nofun, fun _ _ => rfl⟩, rfl, by simp, fun _ _ => rfl⟩
  | cons j columns ih =>
    have hj := List.mem_cons_self (a := j) (l := columns)
    obtain ⟨next, hrun, hfilled, hholds⟩ :=
      (column_follows wf hleft hright (safe j hj) hroom (hbase j hj)).exists_ok (hvalue j hj)
    obtain ⟨after, hrest, hmore, hsettled⟩ := ih (t := next)
      (fun k hk => safe k (List.mem_cons_of_mem _ hk))
      (fun k hk => hvalue k (List.mem_cons_of_mem _ hk)) (by rw [hholds.size]; exact hroom)
      (fun k hk => hfilled.size ▸ hbase k (List.mem_cons_of_mem _ hk))
    refine ⟨after, ?_, ?_, hholds.settled hsettled⟩
    · rw [List.flatMap_cons, Accumulator.performAll_append, Run.bind_of_ok hrun, hrest]
    · rw [← List.singleton_append]
      refine Filled.append wf (fun k hk p hp => ?_) (hfilled.congr fun k hk i => ?_) hmore
      · rw [List.mem_singleton.1 hk] at hp
        exact (hbase j hj p hp).1
      · rw [List.mem_singleton.1 hk]
        rfl

theorem perform_columns_error (wf : op.WellFormed) (hleft : left.size = op.a.entryCount)
    (hright : right.size = op.b.entryCount) {earlier : List Nat} {j : Nat} (later : List Nat)
    (safe : ∀ k ∈ earlier ++ [j], op.Safe s k) {value : Nat → Nat → O}
    (hvalue : ∀ k ∈ earlier, op.columnValues s left right k = .ok (value k)) {e : Failure}
    (herror : op.columnValues s left right j = .error e) {base : Nat} {t : Buffers O}
    (hroom : op.c.nRows ≤ t.slots.size)
    (hbase : ∀ k ∈ earlier ++ [j], ∀ p ∈ (op.c.columnSpan k).positions,
      base ≤ p ∧ p < base + t.values.size) :
    ∃ after, (Accumulator.typed s left right).performAll
        ((earlier ++ j :: later).flatMap (op.script base)) t = .error e after := by
  have hj : j ∈ earlier ++ [j] := List.mem_append_right _ (List.mem_singleton_self j)
  obtain ⟨next, hrun, hfilled, hsettled⟩ := perform_columns wf hleft hright
    (fun k hk => safe k (List.mem_append_left _ hk)) hvalue hroom
    fun k hk => hbase k (List.mem_append_left _ hk)
  obtain ⟨after, hfail⟩ := (column_follows (t := next) wf hleft hright (safe j hj)
    (by rw [hsettled.size]; exact hroom) (hfilled.size ▸ hbase j hj)).exists_error herror
  refine ⟨after, ?_⟩
  rw [List.flatMap_append, List.flatMap_cons, Accumulator.performAll_append, Run.bind_of_ok hrun,
    Accumulator.performAll_append, Run.bind_of_error hfail]

/-- A run over slots of B fills in the columns they hold, up to the first that is not covered,
and settles them in the slots. -/
theorem run_typed (wf : op.WellFormed) (hleft : left.size = op.a.entryCount)
    (hright : right.size = op.b.entryCount) (slots : Span) (hslots : slots.stop ≤ op.b.slotCount)
    (safe : ∀ j ∈ op.columnsOf slots, op.Safe s j) {value : Nat → Nat → O}
    (hvalue : ∀ j ∈ op.columnsOf slots, op.columnValues s left right j = .ok (value j))
    (base : Nat) {t : Buffers O} (hroom : op.c.nRows ≤ t.slots.size)
    (hbase : ∀ j ∈ op.columnsOf slots, ∀ p ∈ (op.c.columnSpan j).positions,
      base ≤ p ∧ p < base + t.values.size) :
    ∃ after, run (Accumulator.typed s left right) op slots base t =
        Run.ofResult (op.report (op.columnsOf slots) .zero) after ∧
      Filled op (op.entryValue s.identity value) base ((op.columnsOf slots).takeWhile op.covered)
        t.values after.values ∧
      Settled op value ((op.columnsOf slots).takeWhile op.covered) t.slots after.slots := by
  have hmem : ∀ j ∈ (op.columnsOf slots).takeWhile op.covered, j ∈ op.columnsOf slots :=
    fun j hj => (List.takeWhile_sublist _).subset hj
  obtain ⟨after, hrun, hfilled⟩ := perform_columns wf hleft hright (fun j hj => safe j (hmem j hj))
    (fun j hj => hvalue j (hmem j hj)) hroom fun j hj => hbase j (hmem j hj)
  refine ⟨after, ?_, hfilled⟩
  rw [run_eq _ wf hslots fun j hj p hp => (hbase j hj p hp).1]
  exact Run.bind_of_ok hrun

/-- A run over slots of B whose columns are covered fails as the first column does that cannot be
computed. -/
theorem run_typed_error (wf : op.WellFormed) (hleft : left.size = op.a.entryCount)
    (hright : right.size = op.b.entryCount) {slots : Span} (hslots : slots.stop ≤ op.b.slotCount)
    (covered : ∀ k ∈ op.columnsOf slots, op.covered k = true) {earlier later : List Nat} {j : Nat}
    (hcolumns : op.columnsOf slots = earlier ++ j :: later)
    (safe : ∀ k ∈ op.columnsOf slots, op.Safe s k) {value : Nat → Nat → O}
    (hvalue : ∀ k ∈ earlier, op.columnValues s left right k = .ok (value k)) {e : Failure}
    (herror : op.columnValues s left right j = .error e) (base : Nat) {t : Buffers O}
    (hroom : op.c.nRows ≤ t.slots.size)
    (hbase : ∀ k ∈ op.columnsOf slots, ∀ p ∈ (op.c.columnSpan k).positions,
      base ≤ p ∧ p < base + t.values.size) :
    ∃ after, run (Accumulator.typed s left right) op slots base t = .error e after := by
  have hmem : ∀ k ∈ earlier ++ [j], k ∈ op.columnsOf slots := by
    rw [hcolumns]
    simp +contextual [or_imp]
  obtain ⟨after, hrun⟩ := perform_columns_error wf hleft hright later
    (fun k hk => safe k (hmem k hk)) hvalue herror hroom fun k hk => hbase k (hmem k hk)
  refine ⟨after, ?_⟩
  rw [run_eq _ wf hslots fun k hk p hp => (hbase k hk p hp).1, Operands.scriptAll,
    List.takeWhile_eq_self_iff.2 covered, hcolumns]
  exact Run.bind_of_error hrun

end Kernel

end SparseProduct
