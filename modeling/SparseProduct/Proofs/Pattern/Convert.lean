import Mathlib.Algebra.GroupWithZero.Nat
import SparseProduct.Pattern.Convert
import SparseProduct.Proofs.Pattern.Checked

/-!
# Changing the storage of a well-formed pattern

Changing the storage numbers the slots anew and leaves every entry in its column. In either storage the
slot of a column holds the entries from those before the column up to those before the next one. That is
all a conversion has to get right, and it is shown for both by following their loops.
-/

namespace SparseProduct

theorem Span.positions_congr {s t : Span} (h : ∀ p, p ∈ s.positions ↔ p ∈ t.positions) :
    s.positions = t.positions := by
  have hcases : (s.start = t.start ∧ s.length = t.length) ∨ (s.length = 0 ∧ t.length = 0) := by
    have hs := h s.start
    have hs' := h (s.stop - 1)
    have ht := h t.start
    have ht' := h (t.stop - 1)
    simp only [mem_positions] at hs hs' ht ht'
    unfold length
    omega
  unfold positions
  rcases hcases with ⟨hstart, hlength⟩ | ⟨hempty, hempty'⟩
  · rw [hstart, hlength]
  · rw [hempty, hempty', List.range'_zero, List.range'_zero]

theorem Span.isEmpty_iff {s : Span} : s.isEmpty = true ↔ s.positions = [] := by
  refine ⟨positions_eq_nil, fun h => ?_⟩
  simp only [isEmpty, Bool.not_eq_true', decide_eq_false_iff_not]
  intro hlt
  have hmem : s.start ∈ s.positions := mem_positions.2 ⟨Nat.le_refl _, hlt⟩
  rw [h] at hmem
  cases hmem

namespace Size

theorem prefixSumsFrom_eq {counts : List Nat} (sums : Array Nat) {total : Nat}
    (h : total + counts.sum < limit) :
    ∃ all, prefixSumsFrom sums total counts = .ok all ∧ all.size = sums.size + counts.length ∧
      (∀ i < sums.size, all[i]? = sums[i]?) ∧
      ∀ i < counts.length, all[sums.size + i]? = some (total + (counts.take (i + 1)).sum) := by
  induction counts generalizing sums total with
  | nil => exact ⟨sums, rfl, rfl, fun _ _ => rfl, nofun⟩
  | cons count counts ih =>
    rw [List.sum_cons, ← Nat.add_assoc] at h
    obtain ⟨all, hall, hsize, hold, hnew⟩ := ih (sums.push (total + count)) h
    rw [Array.size_push] at hsize hold hnew
    refine ⟨all, ?_, ?_, fun i hi => ?_, fun i hi => ?_⟩
    · rw [prefixSumsFrom, add_of_lt (Nat.lt_of_le_of_lt (Nat.le_add_right _ _) h), Result.ok_bind,
        hall]
    · rw [hsize, List.length_cons]
      omega
    · rw [hold i (Nat.lt_succ_of_lt hi), Array.getElem?_push_lt hi, ← Array.getElem?_eq_getElem]
    · cases i with
      | zero =>
        rw [Nat.add_zero, hold _ (Nat.lt_succ_self _), Array.getElem?_push_size, List.take_succ_cons,
          List.take_zero, List.sum_singleton]
      | succ i =>
        rw [List.length_cons] at hi
        rw [show sums.size + (i + 1) = sums.size + 1 + i by omega, hnew i (by omega),
          List.take_succ_cons, List.sum_cons, Nat.add_assoc]

theorem lt_of_prefixSumsFrom {counts : List Nat} {sums all : Array Nat} {total : Nat}
    (htotal : total < limit) (h : prefixSumsFrom sums total counts = .ok all) :
    total + counts.sum < limit := by
  induction counts generalizing sums total with
  | nil => rwa [List.sum_nil, Nat.add_zero]
  | cons count counts ih =>
    rw [prefixSumsFrom, Result.bind_eq_ok] at h
    obtain ⟨next, hnext, h⟩ := h
    unfold add at hnext
    split at hnext
    · next hlt =>
      cases hnext
      rw [List.sum_cons, ← Nat.add_assoc]
      exact ih hlt h
    · cases hnext

end Size

namespace Pattern

/-! ### The entries of a column, counted from the first -/

namespace WellFormed

variable {p : Pattern} (wf : p.WellFormed)
include wf

theorem entriesBefore_zero : p.entriesBefore 0 = 0 := by
  have hslots : p.slotsBefore 0 = 0 := by
    refine Nat.eq_zero_of_not_pos fun hpos => ?_
    have hslot := Nat.lt_of_lt_of_le hpos (wf.slotsBefore_le (Nat.zero_le _))
    exact Nat.not_lt_zero _ ((wf.lt_slotsBefore_iff hslot).1 hpos)
  rw [entriesBefore, hslots, wf.first_pointer, Option.getD_some]

theorem entriesBefore_nCols : p.entriesBefore p.nCols = p.entryCount := by
  have hslots : p.slotsBefore p.nCols = p.slotCount := by
    refine Nat.le_antisymm (wf.slotsBefore_le (Nat.le_refl _)) (Nat.le_of_not_lt fun hlt => ?_)
    exact Nat.lt_irrefl _ ((wf.lt_slotsBefore_iff hlt).2 (wf.slotColumn_lt hlt))
  rw [entriesBefore, hslots, wf.last_pointer_eq]

theorem mem_columnSpan_iff {j entry : Nat} (hj : j < p.nCols) :
    entry ∈ (p.columnSpan j).positions ↔
      p.entriesBefore j ≤ entry ∧ entry < p.entriesBefore (j + 1) := by
  have hnext : j + 1 ≤ p.nCols := hj
  constructor
  · intro h
    have hbefore := wf.lt_entriesBefore_iff (Nat.le_of_lt hj) h
    have hthrough := wf.lt_entriesBefore_iff hnext h
    omega
  · rintro ⟨hle, hlt⟩
    obtain ⟨slot, hslot, hmem⟩ :=
      wf.exists_slot (Nat.lt_of_lt_of_le hlt (wf.entriesBefore_le hnext))
    rw [← wf.columnSpan_slotColumn hslot] at hmem
    have hbefore := wf.lt_entriesBefore_iff (Nat.le_of_lt hj) hmem
    have hthrough := wf.lt_entriesBefore_iff hnext hmem
    rwa [show j = p.slotColumn slot by omega]

theorem positions_columnSpan {j : Nat} (hj : j < p.nCols) :
    (p.columnSpan j).positions =
      (Span.mk (p.entriesBefore j) (p.entriesBefore (j + 1))).positions := by
  apply Span.positions_congr
  intro entry
  rw [wf.mem_columnSpan_iff hj, Span.mem_positions]

theorem occupied_iff_entriesBefore {j : Nat} (hj : j < p.nCols) : p.Occupied j ↔
    (Span.mk (p.entriesBefore j) (p.entriesBefore (j + 1))).isEmpty = false := by
  rw [wf.occupied_iff, Bool.eq_false_iff, Bool.eq_false_iff, ne_eq, ne_eq, Span.isEmpty_iff,
    Span.isEmpty_iff, wf.positions_columnSpan hj]

theorem positions_of_not_occupied {j : Nat} (h : ¬ p.Occupied j) : (p.columnSpan j).positions = [] := by
  rwa [wf.occupied_iff, Bool.not_eq_false, Span.isEmpty_iff] at h

end WellFormed

theorem rowsIn_eq {p : Pattern} {range : Span} (hstop : range.stop ≤ p.rowIdx.size) :
    p.rowsIn range = range.positions.map p.rowAt := by
  apply List.ext_getElem?
  intro i
  rw [rowsIn, Array.getElem?_toList, Array.getElem?_extract, List.getElem?_map, Span.positions]
  by_cases hi : i < range.length
  · have hlt : range.start + i < p.rowIdx.size := by
      unfold Span.length at hi
      omega
    rw [if_pos (by unfold Span.length at hi; omega), List.getElem?_range' hi, Option.map_some, rowAt,
      Nat.one_mul, Array.getElem?_eq_getElem hlt, Option.getD_some]
  · rw [if_neg (by unfold Span.length at hi; omega), List.getElem?_eq_none (by
      rw [List.length_range']
      exact Nat.not_lt.1 hi), Option.map_none]

/-! ### Patterns that store the same -/

/-- Two patterns store the same entries in the same columns, in whatever slots. -/
structure SameEntries (p q : Pattern) : Prop where
  nRows : q.nRows = p.nRows
  nCols : q.nCols = p.nCols
  rowIdx : q.rowIdx = p.rowIdx
  finalized : q.finalized = p.finalized
  positions : ∀ j, (q.columnSpan j).positions = (p.columnSpan j).positions

namespace SameEntries

variable {p q : Pattern}

theorem refl (p : Pattern) : p.SameEntries p := ⟨rfl, rfl, rfl, rfl, fun _ => rfl⟩

variable (h : p.SameEntries q)
include h

theorem entryCount : q.entryCount = p.entryCount := congrArg Array.size h.rowIdx

theorem rowAt : q.rowAt = p.rowAt := by
  funext entry
  rw [Pattern.rowAt, h.rowIdx]
  rfl

theorem isEmpty (j : Nat) : (q.columnSpan j).isEmpty = (p.columnSpan j).isEmpty := by
  rw [Bool.eq_iff_iff, Span.isEmpty_iff, Span.isEmpty_iff, h.positions j]

theorem length (j : Nat) : (q.columnSpan j).length = (p.columnSpan j).length := by
  have hlength := congrArg List.length (h.positions j)
  rwa [Span.positions, Span.positions, List.length_range', List.length_range'] at hlength

theorem occupied_iff (wf : p.WellFormed) (wf' : q.WellFormed) {j : Nat} :
    q.Occupied j ↔ p.Occupied j := by
  rw [wf'.occupied_iff, h.isEmpty, wf.occupied_iff]

end SameEntries

/-- The slots of `q` hold what `p` stores in their columns. -/
structure LaysOut (p q : Pattern) : Prop where
  nRows : q.nRows = p.nRows
  nCols : q.nCols = p.nCols
  rowIdx : q.rowIdx = p.rowIdx
  finalized : q.finalized = p.finalized
  first_pointer : q.colPtr[0]? = some 0
  last_pointer : q.colPtr.back? = some q.rowIdx.size
  vector_count : q.colPtr.size = q.colIds.elim q.nCols Array.size + 1
  ids_increasing : ∀ ids ∈ q.colIds, ids.toList.Pairwise (· < ·)
  column_lt : ∀ slot < q.slotCount, q.slotColumn slot < p.nCols
  slot_span : ∀ slot < q.slotCount, q.slotSpan slot =
    ⟨p.entriesBefore (q.slotColumn slot), p.entriesBefore (q.slotColumn slot + 1)⟩

namespace LaysOut

variable {p q : Pattern} (wf : p.WellFormed) (h : p.LaysOut q)
include wf h

theorem rowsIn_slotSpan {slot : Nat} (hslot : slot < q.slotCount) :
    q.rowsIn (q.slotSpan slot) = p.rowsIn (p.columnSpan (q.slotColumn slot)) := by
  have hj := h.column_lt slot hslot
  have hstop : (q.slotSpan slot).stop ≤ q.rowIdx.size := by
    rw [h.slot_span slot hslot, h.rowIdx]
    exact wf.entriesBefore_le (Nat.succ_le_of_lt hj)
  have hrowAt : q.rowAt = p.rowAt := by
    funext entry
    rw [rowAt, h.rowIdx]
    rfl
  rw [rowsIn_eq hstop, rowsIn_eq (wf.columnSpan_stop_le _), wf.positions_columnSpan hj,
    h.slot_span slot hslot, hrowAt]

theorem wellFormed : q.WellFormed where
  first_pointer := h.first_pointer
  last_pointer := h.last_pointer
  vector_count := h.vector_count
  ids_increasing := h.ids_increasing
  ids_bounded ids hids j hj := by
    obtain ⟨slot, hlt, rfl⟩ := Array.mem_iff_getElem.1 hj
    have hcount := h.vector_count
    rw [Option.mem_def.1 hids, Option.elim_some] at hcount
    have hslot := h.column_lt slot (by
      unfold slotCount
      omega)
    rwa [slotColumn, Option.mem_def.1 hids, Option.elim_some, Array.getElem?_eq_getElem hlt,
      Option.getD_some, ← h.nCols] at hslot
  pointers_monotone := by
    refine pairwise_le_of_neighbours fun slot hi => ?_
    rw [Array.length_toList] at hi
    have hslot : slot < q.slotCount := Nat.lt_sub_of_add_lt hi
    have hle : (q.slotSpan slot).start ≤ (q.slotSpan slot).stop := by
      rw [h.slot_span slot hslot]
      exact wf.entriesBefore_mono (Nat.le_succ _) (Nat.succ_le_of_lt (h.column_lt slot hslot))
    rw [slotSpan, Array.getElem?_eq_getElem (by omega), Array.getElem?_eq_getElem hi] at hle
    exact hle
  rows_increasing slot range hrange := by
    have hslot : slot < q.slotCount :=
      Nat.lt_sub_of_add_lt (Array.getElem?_eq_some_iff.1 (vectorRange_eq_ok.1 hrange).2).1
    rw [vectorRange_eq hslot] at hrange
    cases hrange
    rw [h.rowsIn_slotSpan wf hslot]
    exact wf.pairwise_rowsIn _
  rows_bounded slot range hrange i hi := by
    have hslot : slot < q.slotCount :=
      Nat.lt_sub_of_add_lt (Array.getElem?_eq_some_iff.1 (vectorRange_eq_ok.1 hrange).2).1
    rw [vectorRange_eq hslot] at hrange
    cases hrange
    rw [h.rowsIn_slotSpan wf hslot, rowsIn_eq (wf.columnSpan_stop_le _)] at hi
    obtain ⟨entry, hentry, rfl⟩ := List.mem_map.1 hi
    rw [h.nRows]
    exact wf.rowAt_lt hentry

theorem sameEntries : p.SameEntries q where
  nRows := h.nRows
  nCols := h.nCols
  rowIdx := h.rowIdx
  finalized := h.finalized
  positions j := by
    have wfq := h.wellFormed wf
    have hin : ∀ slot < q.slotCount, ∀ entry, entry ∈ (q.slotSpan slot).positions ↔
        entry ∈ (p.columnSpan (q.slotColumn slot)).positions := by
      intro slot hslot entry
      rw [h.slot_span slot hslot, wf.positions_columnSpan (h.column_lt slot hslot)]
    apply Span.positions_congr
    intro entry
    constructor
    · intro he
      obtain ⟨slot, hslot, rfl, hmem⟩ := wfq.exists_slot_of_mem he
      exact (hin slot hslot entry).1 hmem
    · intro he
      -- the entry lies in some slot of `q`, and in no other column of `p`
      have hstored : entry < q.entryCount := by
        rw [Pattern.entryCount, h.rowIdx]
        exact wf.lt_of_mem_columnSpan he
      obtain ⟨slot, hslot, hmem⟩ := wfq.exists_slot hstored
      rw [wf.column_unique he ((hin slot hslot entry).1 hmem), wfq.columnSpan_slotColumn hslot]
      exact hmem

end LaysOut

/-! ### To hypersparse storage -/

/-- What has been found once the columns before `n` have been visited. -/
structure StoredColumns.Through (p : Pattern) (n : Nat) (found : StoredColumns) : Prop where
  size : found.pointers.size = found.ids.size + 1
  first : found.pointers[0]? = some 0
  last : found.pointers[found.ids.size]? = some (p.entriesBefore n)
  increasing : found.ids.toList.Pairwise (· < ·)
  mem_ids : ∀ j, j ∈ found.ids ↔ j < n ∧ p.Occupied j
  spans : ∀ slot j, found.ids[slot]? = some j →
    found.pointers[slot]? = some (p.entriesBefore j) ∧
      found.pointers[slot + 1]? = some (p.entriesBefore (j + 1))

section ToHypersparse

variable {p : Pattern} (wf : p.WellFormed) (hnone : p.colIds = none)
include wf hnone

theorem vectorRange_sparse {j : Nat} (hj : j < p.nCols) :
    p.vectorRange j = .ok ⟨p.entriesBefore j, p.entriesBefore (j + 1)⟩ := by
  have hcount := wf.slotCount_eq
  rw [hnone, Option.elim_none] at hcount
  rw [vectorRange_eq (by omega), slotSpan]
  unfold entriesBefore slotsBefore
  rw [hnone]
  rfl

theorem visit_eq {n : Nat} (hn : n < p.nCols) {found : StoredColumns}
    (h : StoredColumns.Through p n found) :
    ∃ next, StoredColumns.visit p found n = .ok next ∧ StoredColumns.Through p (n + 1) next := by
  have hle := wf.entriesBefore_mono (Nat.le_succ n) hn
  rw [StoredColumns.visit, vectorRange_sparse wf hnone hn, Result.ok_bind]
  refine ⟨_, rfl, ?_⟩
  by_cases hempty : (Span.mk (p.entriesBefore n) (p.entriesBefore (n + 1))).isEmpty = true
  · rw [if_pos hempty]
    simp only [Span.isEmpty, Bool.not_eq_true', decide_eq_false_iff_not] at hempty
    have hsame : p.entriesBefore n = p.entriesBefore (n + 1) := Nat.le_antisymm hle (by omega)
    exact { h with
      last := hsame ▸ h.last
      mem_ids := fun j => by
        rw [h.mem_ids]
        refine ⟨fun hj => ⟨Nat.lt_succ_of_lt hj.1, hj.2⟩, fun hj => ⟨?_, hj.2⟩⟩
        refine Nat.lt_of_le_of_ne (Nat.le_of_lt_succ hj.1) fun heq => ?_
        have hfull := (wf.occupied_iff_entriesBefore hn).1 (heq ▸ hj.2)
        simp only [Span.isEmpty, Bool.not_eq_false', decide_eq_true_eq] at hfull
        omega }
  · rw [if_neg hempty]
    have hsize := h.size
    have hoccupied := (wf.occupied_iff_entriesBefore hn).2 (Bool.eq_false_iff.2 hempty)
    exact {
      size := by rw [Array.size_push, Array.size_push, hsize]
      first := by rw [Array.getElem?_push_lt (by omega), ← Array.getElem?_eq_getElem, h.first]
      last := by rw [Array.size_push, ← hsize, Array.getElem?_push_size]
      increasing := by
        rw [Array.toList_push, List.pairwise_append]
        refine ⟨h.increasing, List.pairwise_singleton _ _, fun j hj k hk => ?_⟩
        rw [List.mem_singleton.1 hk]
        exact ((h.mem_ids j).1 (Array.mem_toList_iff.1 hj)).1
      mem_ids := fun j => by
        rw [Array.mem_push, h.mem_ids]
        constructor
        · rintro (hj | rfl)
          · exact ⟨Nat.lt_succ_of_lt hj.1, hj.2⟩
          · exact ⟨Nat.lt_succ_self _, hoccupied⟩
        · rintro ⟨hlt, hj⟩
          rcases Nat.lt_succ_iff_lt_or_eq.1 hlt with hlt | rfl
          · exact Or.inl ⟨hlt, hj⟩
          · exact Or.inr rfl
      spans := fun slot j hj => by
        rw [Array.getElem?_push] at hj
        split at hj
        · next hslot =>
          -- the new slot starts where the last one ended
          cases hj
          rw [hslot]
          refine ⟨?_, ?_⟩
          · rw [Array.getElem?_push_lt (by omega), ← Array.getElem?_eq_getElem, h.last]
          · rw [← hsize, Array.getElem?_push_size]
        · next hslot =>
          have hlt := (Array.getElem?_eq_some_iff.1 hj).1
          obtain ⟨hstart, hstop⟩ := h.spans slot j hj
          rw [Array.getElem?_push_lt (by omega), ← Array.getElem?_eq_getElem, hstart,
            Array.getElem?_push_lt (by omega), ← Array.getElem?_eq_getElem, hstop]
          exact ⟨rfl, rfl⟩ }

theorem visits_eq {n : Nat} (hn : n ≤ p.nCols) :
    ∃ found, (List.range' 0 n).foldlM (StoredColumns.visit p) ⟨#[], #[0]⟩ = .ok found ∧
      StoredColumns.Through p n found := by
  induction n with
  | zero =>
    refine ⟨_, rfl, rfl, rfl, ?_, List.Pairwise.nil, fun j => ?_, nofun⟩
    · rw [wf.entriesBefore_zero]
      rfl
    · exact ⟨nofun, fun h => absurd h.1 (Nat.not_lt_zero j)⟩
  | succ n ih =>
    obtain ⟨found, hfound, hthrough⟩ := ih (Nat.le_of_succ_le hn)
    obtain ⟨next, hnext, hthrough⟩ := visit_eq wf hnone hn hthrough
    refine ⟨next, ?_, hthrough⟩
    rw [List.range'_1_concat, List.foldlM_append, hfound, Result.ok_bind, Nat.zero_add,
      List.foldlM_cons, hnext]
    rfl

/-- The change to hypersparse storage succeeds. The columns with entries get slots, which hold what their
columns held. -/
theorem toHypersparse_eq :
    ∃ q ids, p.toHypersparse = .ok q ∧ q.colIds = some ids ∧ (∀ j, j ∈ ids ↔ p.Occupied j) ∧
      p.LaysOut q := by
  obtain ⟨found, hfound, h⟩ := visits_eq wf hnone (Nat.le_refl _)
  have hlast : fetch found.pointers found.ids.size = .ok p.rowIdx.size := by
    rw [fetch_eq_ok, h.last, wf.entriesBefore_nCols]
    rfl
  refine ⟨⟨p.nRows, p.nCols, found.pointers, some found.ids, p.rowIdx, p.finalized⟩, found.ids, ?_,
    rfl, fun j => ?_, ?_⟩
  · unfold toHypersparse
    simp only [hnone, Span.foldM_eq, Span.positions, Span.length, Nat.sub_zero, hfound, Result.ok_bind,
      ofHyperPointers, h.size, hlast, ne_eq, not_true, if_false]
    rfl
  · rw [h.mem_ids]
    exact ⟨And.right, fun hj => ⟨wf.lt_of_occupied hj, hj⟩⟩
  · have hcount : slotCount ⟨p.nRows, p.nCols, found.pointers, some found.ids, p.rowIdx,
        p.finalized⟩ = found.ids.size := by
      rw [slotCount, h.size, Nat.add_sub_cancel]
    exact {
      nRows := rfl
      nCols := rfl
      rowIdx := rfl
      finalized := rfl
      first_pointer := h.first
      last_pointer := by
        rw [Array.back?, h.size, Nat.add_sub_cancel, h.last, wf.entriesBefore_nCols]
        rfl
      vector_count := h.size
      ids_increasing := fun ids hids => by
        cases hids
        exact h.increasing
      column_lt := fun slot hslot => by
        rw [hcount] at hslot
        rw [slotColumn, Option.elim_some, Array.getElem?_eq_getElem hslot, Option.getD_some]
        exact ((h.mem_ids _).1 (Array.getElem_mem hslot)).1
      slot_span := fun slot hslot => by
        rw [hcount] at hslot
        obtain ⟨hstart, hstop⟩ := h.spans slot _ (Array.getElem?_eq_getElem hslot)
        rw [slotSpan, slotColumn, Option.elim_some, Array.getElem?_eq_getElem hslot, hstart, hstop]
        rfl }

end ToHypersparse

/-! ### To sparse storage -/

section ToSparse

variable {p : Pattern} (wf : p.WellFormed)
include wf

theorem sum_lengths {j : Nat} (hj : j ≤ p.nCols) :
    ((List.range j).map fun k => (p.columnSpan k).length).sum = p.entriesBefore j := by
  induction j with
  | zero => rw [wf.entriesBefore_zero, List.range_zero, List.map_nil, List.sum_nil]
  | succ j ih =>
    have hlength : (p.columnSpan j).length = p.entriesBefore (j + 1) - p.entriesBefore j := by
      have hpositions := congrArg List.length (wf.positions_columnSpan hj)
      rwa [Span.positions, Span.positions, List.length_range', List.length_range'] at hpositions
    rw [List.range_succ, List.map_append, List.sum_append, ih (Nat.le_of_succ_le hj),
      List.map_singleton, List.sum_singleton, hlength,
      Nat.add_sub_cancel' (wf.entriesBefore_mono (Nat.le_succ j) hj)]

variable {ids : Array Nat} (hids : p.colIds = some ids) (hcols : p.nCols + 1 < Size.limit)
include hids hcols

theorem placeLength_eq {slot : Nat} (hslot : slot < p.slotCount) {lengths : Array Nat}
    (hsize : lengths.size = p.nCols) :
    p.placeLength ids lengths slot =
      .ok (lengths.set (p.slotColumn slot) (p.columnSpan (p.slotColumn slot)).length
        (hsize ▸ wf.slotColumn_lt hslot)) := by
  have hj := wf.slotColumn_lt hslot
  rw [placeLength, fetch_eq_ok.2 (wf.getElem_ids hids hslot), Result.ok_bind, vectorRange_eq hslot,
    Result.ok_bind, Size.add_of_lt (by omega), Result.ok_bind, wf.columnSpan_slotColumn hslot,
    store_of_lt]

theorem placeLengths_eq {slots : List Nat} (hslots : ∀ slot ∈ slots, slot < p.slotCount)
    {lengths : Array Nat} (hsize : lengths.size = p.nCols) :
    ∃ placed, slots.foldlM (p.placeLength ids) lengths = .ok placed ∧ placed.size = p.nCols ∧
      (∀ slot ∈ slots, placed[p.slotColumn slot]? =
        some (p.columnSpan (p.slotColumn slot)).length) ∧
      ∀ j, (∀ slot ∈ slots, p.slotColumn slot ≠ j) → placed[j]? = lengths[j]? := by
  induction slots generalizing lengths with
  | nil => exact ⟨lengths, rfl, hsize, nofun, fun _ _ => rfl⟩
  | cons slot slots ih =>
    have hslot := hslots slot List.mem_cons_self
    have hj : p.slotColumn slot < lengths.size := hsize ▸ wf.slotColumn_lt hslot
    have hset : (lengths.set (p.slotColumn slot) (p.columnSpan (p.slotColumn slot)).length hj).size =
        p.nCols := by rw [Array.size_set, hsize]
    obtain ⟨placed, hplaced, hsize', hin, hout⟩ :=
      ih (fun k hk => hslots k (List.mem_cons_of_mem _ hk)) hset
    refine ⟨placed, ?_, hsize', fun k hk => ?_, fun j hne => ?_⟩
    · rw [List.foldlM_cons, placeLength_eq wf hids hcols hslot hsize, Result.ok_bind, hplaced]
    · rcases List.mem_cons.1 hk with rfl | hk
      · by_cases hlater : ∃ later ∈ slots, p.slotColumn later = p.slotColumn k
        · obtain ⟨later, hmem, heq⟩ := hlater
          rw [← heq]
          exact hin later hmem
        · rw [hout _ fun later hmem heq => hlater ⟨later, hmem, heq⟩]
          exact Array.getElem?_set_self hj
      · exact hin k hk
    · rw [hout j fun k hk => hne k (List.mem_cons_of_mem _ hk)]
      exact Array.getElem?_set_ne hj (hne slot List.mem_cons_self)

theorem lengths_eq :
    ∃ lengths, Span.foldM ⟨0, ids.size⟩ (p.placeLength ids) (Array.replicate p.nCols 0) =
        .ok lengths ∧
      lengths.toList = (List.range p.nCols).map fun j => (p.columnSpan j).length := by
  have hcount := wf.slotCount_eq
  rw [hids, Option.elim_some] at hcount
  have hslots : ∀ slot ∈ (Span.mk 0 ids.size).positions, slot < p.slotCount := fun slot h =>
    hcount ▸ (Span.mem_positions.1 h).2
  obtain ⟨lengths, hlengths, hsize, hin, hout⟩ :=
    placeLengths_eq wf hids hcols hslots Array.size_replicate
  refine ⟨lengths, (Span.foldM_eq _ _ _).trans hlengths, ?_⟩
  apply List.ext_getElem?
  intro j
  rw [Array.getElem?_toList, List.getElem?_map]
  by_cases hj : j < p.nCols
  · rw [List.getElem?_range hj, Option.map_some]
    by_cases hslot : ∃ slot < p.slotCount, p.slotColumn slot = j
    · obtain ⟨slot, hlt, rfl⟩ := hslot
      exact hin slot (Span.mem_positions.2 ⟨Nat.zero_le _, hcount ▸ hlt⟩)
    · have hspan : p.columnSpan j = .empty := by
        unfold columnSpan
        cases hfind : p.slotOf j with
        | none => rfl
        | some slot => exact absurd ⟨slot, wf.slotOf_eq_some_iff.1 hfind⟩ hslot
      rw [hspan, hout j fun slot hmem heq =>
        hslot ⟨slot, hcount ▸ (Span.mem_positions.1 hmem).2, heq⟩, Array.getElem?_replicate, if_pos hj]
      rfl
  · rw [Array.getElem?_eq_none (by omega), List.getElem?_eq_none (by
      rw [List.length_range]
      exact Nat.not_lt.1 hj), Option.map_none]

/-- The change to sparse storage succeeds if the number of columns and one more, and the number of
entries, are sizes. Its slots hold what their columns held. -/
theorem toSparse_eq (hentries : p.entryCount < Size.limit) :
    ∃ q, p.toSparse = .ok q ∧ q.colIds = none ∧ p.LaysOut q := by
  obtain ⟨lengths, hlengths, heq⟩ := lengths_eq wf hids hcols
  have hsum : 0 + lengths.toList.sum < Size.limit := by
    rw [heq, sum_lengths wf (Nat.le_refl _), wf.entriesBefore_nCols, Nat.zero_add]
    exact hentries
  obtain ⟨pointers, hpointers, hsize, hfirst, hnext⟩ := Size.prefixSumsFrom_eq #[0] hsum
  have hlength : lengths.toList.length = p.nCols := by rw [heq, List.length_map, List.length_range]
  have hsize : pointers.size = p.nCols + 1 := by
    rw [hsize, hlength, Nat.add_comm]
    rfl
  have hpointer : ∀ j ≤ p.nCols, pointers[j]? = some (p.entriesBefore j) := by
    intro j hj
    cases j with
    | zero =>
      rw [wf.entriesBefore_zero]
      exact hfirst 0 Nat.one_pos
    | succ j =>
      have hsucc := hnext j (by omega)
      rw [Nat.zero_add, heq, ← List.map_take, List.take_range, Nat.min_eq_left hj,
        sum_lengths wf hj] at hsucc
      rw [← hsucc, Nat.add_comm]
      rfl
  have hlast : fetch pointers p.nCols = .ok p.rowIdx.size := by
    rw [fetch_eq_ok, hpointer _ (Nat.le_refl _), wf.entriesBefore_nCols]
    rfl
  refine ⟨⟨p.nRows, p.nCols, pointers, none, p.rowIdx, p.finalized⟩, ?_, rfl, ?_⟩
  · unfold toSparse
    simp only [hids, Size.add_of_lt hcols, Result.ok_bind, hlengths, Size.prefixSums, hpointers,
      ofPointers, hsize, hlast, ne_eq, not_true, if_false]
    rfl
  · have hcount : slotCount ⟨p.nRows, p.nCols, pointers, none, p.rowIdx, p.finalized⟩ = p.nCols := by
      rw [slotCount, hsize, Nat.add_sub_cancel]
    exact {
      nRows := rfl
      nCols := rfl
      rowIdx := rfl
      finalized := rfl
      first_pointer := (hpointer 0 (Nat.zero_le _)).trans (congrArg some wf.entriesBefore_zero)
      last_pointer := by
        rw [Array.back?, hsize, Nat.add_sub_cancel]
        exact fetch_eq_ok.1 hlast
      vector_count := hsize
      ids_increasing := fun ids hids => by cases hids
      column_lt := fun slot hslot => hcount ▸ hslot
      slot_span := fun slot hslot => by
        rw [hcount] at hslot
        rw [slotSpan, slotColumn, hpointer slot (Nat.le_of_lt hslot), hpointer (slot + 1) hslot]
        rfl }

omit hcols in
theorem lt_of_toSparse {q : Pattern} (h : p.toSparse = .ok q) :
    p.nCols + 1 < Size.limit ∧ p.entryCount < Size.limit := by
  unfold toSparse at h
  simp only [hids, Result.bind_eq_ok] at h
  obtain ⟨columns, hcolumns, lengths, hlengths, pointers, hpointers, -⟩ := h
  have hcols : p.nCols + 1 < Size.limit := by
    unfold Size.add at hcolumns
    split at hcolumns
    · next hlt => exact hlt
    · cases hcolumns
  obtain ⟨lengths', hlengths', heq⟩ := lengths_eq wf hids hcols
  rw [hlengths] at hlengths'
  cases hlengths'
  have hsum := Size.lt_of_prefixSumsFrom (by decide) hpointers
  rw [heq, sum_lengths wf (Nat.le_refl _), wf.entriesBefore_nCols, Nat.zero_add] at hsum
  exact ⟨hcols, hsum⟩

end ToSparse

/-! ### A choice of storage -/

def withStorage (p : Pattern) : Option StorageMode → Result Pattern
  | none => .ok p
  | some .sparse => p.toSparse
  | some .hypersparse => p.toHypersparse

theorem toSparse_sparse {p : Pattern} (h : p.colIds = none) : p.toSparse = .ok p := by
  unfold toSparse
  rw [h]

theorem toHypersparse_hypersparse {p : Pattern} (h : p.colIds ≠ none) :
    p.toHypersparse = .ok p := by
  unfold toHypersparse
  split
  · rfl
  · next hnone => exact absurd hnone h

section WithStorage

variable {p : Pattern} (wf : p.WellFormed)
include wf

theorem of_withStorage {storage : Option StorageMode} {q : Pattern}
    (h : p.withStorage storage = .ok q) :
    q = p ∨ q.storageMode ≠ p.storageMode ∧ p.LaysOut q := by
  have hmode : ∀ r : Pattern, r.storageMode = .hypersparse ↔ r.colIds ≠ none := by
    intro r
    unfold storageMode isHypersparse
    cases r.colIds <;> simp
  match storage, h with
  | none, h =>
    cases h
    exact Or.inl rfl
  | some .sparse, h =>
    cases hids : p.colIds with
    | none =>
      cases (toSparse_sparse hids).symm.trans h
      exact Or.inl rfl
    | some ids =>
      obtain ⟨hcols, hentries⟩ := lt_of_toSparse wf hids h
      obtain ⟨q', hq', hnone, hlaid⟩ := toSparse_eq wf hids hcols hentries
      cases hq'.symm.trans h
      refine Or.inr ⟨fun heq => ?_, hlaid⟩
      have hhyper := (hmode p).2 (by rw [hids]; nofun)
      exact (hmode q).1 (heq.trans hhyper) hnone
  | some .hypersparse, h =>
    cases hids : p.colIds with
    | some ids =>
      cases (toHypersparse_hypersparse (by rw [hids]; nofun)).symm.trans h
      exact Or.inl rfl
    | none =>
      obtain ⟨q', ids, hq', hsome, -, hlaid⟩ := toHypersparse_eq wf hids
      cases hq'.symm.trans h
      refine Or.inr ⟨fun heq => ?_, hlaid⟩
      have hhyper := (hmode q).2 (by rw [hsome]; nofun)
      exact (hmode p).1 (heq.symm.trans hhyper) hids

theorem sameEntries_of_withStorage {storage : Option StorageMode} {q : Pattern}
    (h : p.withStorage storage = .ok q) : q.WellFormed ∧ p.SameEntries q := by
  rcases of_withStorage wf h with rfl | ⟨-, hlaid⟩
  · exact ⟨wf, .refl q⟩
  · exact ⟨hlaid.wellFormed wf, hlaid.sameEntries wf⟩

theorem exists_withStorage (storage : Option StorageMode) (hcols : p.nCols + 1 < Size.limit)
    (hentries : p.entryCount < Size.limit) : ∃ q, p.withStorage storage = .ok q := by
  match storage with
  | none => exact ⟨p, rfl⟩
  | some .sparse =>
    cases hids : p.colIds with
    | none => exact ⟨p, toSparse_sparse hids⟩
    | some ids =>
      obtain ⟨q, hq, -⟩ := toSparse_eq wf hids hcols hentries
      exact ⟨q, hq⟩
  | some .hypersparse =>
    cases hids : p.colIds with
    | some ids => exact ⟨p, toHypersparse_hypersparse (by rw [hids]; nofun)⟩
    | none =>
      obtain ⟨q, -, hq, -⟩ := toHypersparse_eq wf hids
      exact ⟨q, hq⟩

end WithStorage

end Pattern

end SparseProduct
