import SparseProduct.Proofs.Entries
import SparseProduct.Proofs.Pattern.Checked

/-!
# Deleting stored entries

Entries can be deleted from a matrix by their values. The rows and values of the others move together and
each pointer drops by the number of entries deleted before it, so a slot stays even if it loses all its
entries. What is left of a column is its entries that were kept, in their order.
-/

namespace SparseProduct

/-! ### Parts of a filtered list -/

section Slices

variable {α : Type} (keep : α → Bool) (xs : List α)

theorem filter_eq_take_append_drop (n : Nat) :
    xs.filter keep = (xs.take n).filter keep ++ (xs.drop n).filter keep := by
  rw [← List.filter_append, List.take_append_drop]

theorem take_filter (n : Nat) :
    (xs.filter keep).take ((xs.take n).countP keep) = (xs.take n).filter keep := by
  rw [filter_eq_take_append_drop keep xs n, List.countP_eq_length_filter]
  simp

theorem drop_filter (n : Nat) :
    (xs.filter keep).drop ((xs.take n).countP keep) = (xs.drop n).filter keep := by
  rw [filter_eq_take_append_drop keep xs n, List.countP_eq_length_filter]
  simp

theorem slice_filter {start stop : Nat} (h : start ≤ stop) :
    ((xs.filter keep).take ((xs.take stop).countP keep)).drop ((xs.take start).countP keep) =
      ((xs.take stop).drop start).filter keep := by
  have hdrop := drop_filter keep (xs.take stop) start
  rw [List.take_take, Nat.min_eq_left h] at hdrop
  rw [take_filter, hdrop]

theorem countP_take_le {m n : Nat} (h : m ≤ n) :
    (xs.take m).countP keep ≤ (xs.take n).countP keep :=
  ((List.take_sublist_take_left h).countP_le)

end Slices

namespace SparseMatrix

variable {α : Type}

/-- The number of entries before a position that are kept. -/
def keptBefore (m : SparseMatrix α) (keep : α → Bool) (position : Nat) : Nat :=
  (m.stored.take position).countP (keep ·.2)

/-- The matrix without the entries whose values fail a test. -/
def filter (m : SparseMatrix α) (keep : α → Bool) : SparseMatrix α where
  pattern := { m.pattern with
    colPtr := m.pattern.colPtr.map (m.keptBefore keep)
    rowIdx := ((m.stored.filter (keep ·.2)).map Prod.fst).toArray }
  values := ((m.stored.filter (keep ·.2)).map Prod.snd).toArray

def without [DecidableEq α] (m : SparseMatrix α) (z : α) : SparseMatrix α := m.filter (· ≠ z)

theorem stored_filter (m : SparseMatrix α) (keep : α → Bool) :
    (m.filter keep).stored = m.stored.filter (keep ·.2) := (List.zip_of_prod rfl rfl).symm

theorem size_filter (m : SparseMatrix α) (keep : α → Bool) :
    (m.filter keep).values.size = (m.filter keep).pattern.entryCount := by
  simp [filter, Pattern.entryCount]

theorem slotSpan_filter (m : SparseMatrix α) (keep : α → Bool) (slot : Nat) :
    (m.filter keep).pattern.slotSpan slot =
      ⟨m.keptBefore keep (m.pattern.slotSpan slot).start,
        m.keptBefore keep (m.pattern.slotSpan slot).stop⟩ := by
  have hpointer : ∀ i : Nat, (m.filter keep).pattern.colPtr[i]?.getD 0 =
      m.keptBefore keep (m.pattern.colPtr[i]?.getD 0) := by
    intro i
    simp only [filter, Array.getElem?_map]
    cases m.pattern.colPtr[i]? with
    | none => simp [keptBefore]
    | some n => rfl
  rw [Pattern.slotSpan, hpointer, hpointer]
  rfl

theorem columnSpan_filter (m : SparseMatrix α) (keep : α → Bool) (j : Nat) :
    (m.filter keep).pattern.columnSpan j =
      ⟨m.keptBefore keep (m.pattern.columnSpan j).start,
        m.keptBefore keep (m.pattern.columnSpan j).stop⟩ := by
  have hslot : (m.filter keep).pattern.slotOf j = m.pattern.slotOf j := rfl
  rw [Pattern.columnSpan, Pattern.columnSpan, hslot]
  cases m.pattern.slotOf j with
  | none => simp [Span.empty, keptBefore]
  | some slot => exact slotSpan_filter m keep slot

theorem entriesAt_filter {m : SparseMatrix α} (wf : m.pattern.WellFormed) (keep : α → Bool) (j : Nat) :
    (m.filter keep).entriesAt j = (m.entriesAt j).filter (keep ·.2) := by
  rw [entriesAt, columnSpan_filter, stored_filter]
  exact slice_filter _ _ (wf.columnSpan_le j)

theorem rowsIn_filter_sublist {m : SparseMatrix α} (hvalues : m.values.size = m.pattern.entryCount)
    (keep : α → Bool) {start stop : Nat} (h : start ≤ stop) :
    ((m.filter keep).pattern.rowsIn ⟨m.keptBefore keep start, m.keptBefore keep stop⟩).Sublist
      (m.pattern.rowsIn ⟨start, stop⟩) := by
  have hrows : ∀ (p : Pattern) (start stop : Nat),
      p.rowsIn ⟨start, stop⟩ = (p.rowIdx.toList.take stop).drop start := by
    intro p start stop
    rw [Pattern.rowsIn, Array.toList_extract, List.extract_eq_take_drop, List.drop_take]
  rw [hrows, hrows, ← map_fst_stored hvalues, ← map_fst_stored (size_filter m keep), stored_filter,
    ← List.map_take, ← List.map_drop, ← List.map_take, ← List.map_drop]
  apply List.Sublist.map
  rw [keptBefore, keptBefore, slice_filter _ _ h]
  exact List.filter_sublist

theorem vectorRange_filter {m : SparseMatrix α} (wf : m.pattern.WellFormed)
    (hvalues : m.values.size = m.pattern.entryCount) {keep : α → Bool} {slot : Nat} {range : Span}
    (h : (m.filter keep).pattern.vectorRange slot = .ok range) :
    ∃ full, m.pattern.vectorRange slot = .ok full ∧
      ((m.filter keep).pattern.rowsIn range).Sublist (m.pattern.rowsIn full) := by
  obtain ⟨hstart, hstop⟩ := Pattern.vectorRange_eq_ok.1 h
  simp only [filter, Array.getElem?_map, Option.map_eq_some_iff] at hstart hstop
  obtain ⟨start, hstart, hfirst⟩ := hstart
  obtain ⟨stop, hstop, hlast⟩ := hstop
  have hle : start ≤ stop := by
    have hslot : slot + 1 ≤ m.pattern.slotCount := by
      have := (Array.getElem?_eq_some_iff.1 hstop).1
      have := wf.size_colPtr
      omega
    have := wf.pointer_le_pointer (Nat.le_succ slot) hslot
    rwa [hstart, hstop] at this
  have hsublist := rowsIn_filter_sublist hvalues keep hle
  rw [hfirst, hlast] at hsublist
  exact ⟨⟨start, stop⟩, Pattern.vectorRange_eq_ok.2 ⟨hstart, hstop⟩, hsublist⟩

/-- Deleting entries of a well-formed pattern leaves a well-formed one. -/
theorem wellFormed_filter {m : SparseMatrix α} (wf : m.pattern.WellFormed)
    (hvalues : m.values.size = m.pattern.entryCount) (keep : α → Bool) :
    (m.filter keep).pattern.WellFormed where
  first_pointer := by simp [filter, wf.first_pointer, keptBefore]
  pointers_monotone := by
    simp only [filter, Array.toList_map, List.pairwise_map]
    exact wf.pointers_monotone.imp fun h => countP_take_le _ _ h
  last_pointer := by
    -- all entries lie before the last pointer, so it counts all that are kept
    have hlength : m.stored.length = m.pattern.rowIdx.size := length_stored hvalues
    simp only [filter, Array.back?_map, wf.last_pointer, Option.map_some, keptBefore, List.size_toArray,
      List.length_map, List.take_of_length_le (Nat.le_of_eq hlength), List.countP_eq_length_filter]
  vector_count := by
    rw [filter, Array.size_map]
    exact wf.vector_count
  ids_increasing := wf.ids_increasing
  ids_bounded := wf.ids_bounded
  rows_increasing := by
    intro slot range h
    obtain ⟨full, hfull, hsublist⟩ := vectorRange_filter wf hvalues h
    exact (wf.rows_increasing slot full hfull).sublist hsublist
  rows_bounded := by
    intro slot range h i hi
    obtain ⟨full, hfull, hsublist⟩ := vectorRange_filter wf hvalues h
    exact wf.rows_bounded slot full hfull i (hsublist.subset hi)

end SparseMatrix

end SparseProduct
