import Mathlib.Algebra.BigOperators.Group.List.Lemmas
import Mathlib.Algebra.GroupWithZero.Nat
import SparseProduct.Proofs.Entries
import SparseProduct.Proofs.Pattern.Checked

/-!
# Matrices laid out column by column

Columns are laid end to end, and each pointer counts the entries of the columns before it. What lies between
two neighbouring pointers is a column as it was given, so the matrix is well formed if in each column the
rows increase and are rows.
-/

namespace SparseProduct

namespace Pattern

variable {α : Type}

/-- The number of entries in the first columns. -/
def laidBefore (columns : Array (Array α)) (n : Nat) : Nat :=
  ((columns.toList.map Array.size).take n).sum

theorem length_columnEnds (start : Nat) (columns : List (Array α)) :
    (columnEnds start columns).length = columns.length := by
  induction columns generalizing start with
  | nil => rfl
  | cons column columns ih => rw [columnEnds, List.length_cons, ih, List.length_cons]

theorem getElem?_columnEnds {start n : Nat} {columns : List (Array α)} (h : n < columns.length) :
    (columnEnds start columns)[n]? = some (start + ((columns.map Array.size).take (n + 1)).sum) := by
  induction columns generalizing start n with
  | nil => exact absurd h (Nat.not_lt_zero n)
  | cons column columns ih =>
    rw [columnEnds, List.map_cons, List.take_succ_cons, List.sum_cons, ← Nat.add_assoc]
    cases n with
    | zero => rw [List.getElem?_cons_zero, List.take_zero, List.sum_nil, Nat.add_zero]
    | succ n => rw [List.getElem?_cons_succ, ih (Nat.lt_of_succ_lt_succ h)]

section Pointers

variable {columns : Array (Array α)}

theorem size_pointersOf : (pointersOf columns).size = columns.size + 1 := by
  rw [pointersOf, List.size_toArray, List.length_cons, length_columnEnds, Array.length_toList]

theorem getElem?_pointersOf {n : Nat} (h : n ≤ columns.size) :
    (pointersOf columns)[n]? = some (laidBefore columns n) := by
  rw [pointersOf, List.getElem?_toArray]
  cases n with
  | zero => rfl
  | succ n =>
    rw [List.getElem?_cons_succ, getElem?_columnEnds (by rwa [Array.length_toList]), Nat.zero_add]
    rfl

theorem laidBefore_mono {m n : Nat} (h : m ≤ n) : laidBefore columns m ≤ laidBefore columns n := by
  obtain ⟨k, rfl⟩ := Nat.exists_eq_add_of_le h
  rw [laidBefore, laidBefore, List.take_add, List.sum_append]
  exact Nat.le_add_right _ _

theorem pairwise_pointersOf : (pointersOf columns).toList.Pairwise (· ≤ ·) := by
  have hpointer : ∀ n (hn : n < (pointersOf columns).size),
      (pointersOf columns)[n] = laidBefore columns n := by
    intro n hn
    have hle : n ≤ columns.size := by
      rw [size_pointersOf] at hn
      exact Nat.le_of_lt_succ hn
    exact (Array.getElem?_eq_some_iff.1 (getElem?_pointersOf hle)).2
  apply List.pairwise_iff_getElem.2
  intro m n hm hn hlt
  rw [Array.getElem_toList, Array.getElem_toList, hpointer, hpointer]
  exact laidBefore_mono (Nat.le_of_lt hlt)

theorem laidBefore_size : laidBefore columns columns.size = columns.flatten.size := by
  rw [laidBefore, List.take_of_length_le (by simp), Array.size_flatten, ← Array.sum_toList,
    Array.toList_map]

end Pointers

end Pattern

namespace SparseMatrix

variable {α : Type}

/-- In each column the rows increase and are rows. -/
structure Ordered (nRows : Nat) (columns : Array (Array (Nat × α))) : Prop where
  increasing : ∀ column ∈ columns, (column.toList.map Prod.fst).Pairwise (· < ·)
  bounded : ∀ column ∈ columns, ∀ entry ∈ column, entry.1 < nRows

/-- Columns laid end to end. -/
def laidOut (nRows : Nat) (columns : Array (Array (Nat × α))) : SparseMatrix α where
  pattern := ⟨nRows, columns.size, Pattern.pointersOf columns, none, columns.flatten.map (·.1), true⟩
  values := columns.flatten.map (·.2)

variable {nRows : Nat} {columns : Array (Array (Nat × α))}

theorem size_laidOut :
    (laidOut nRows columns).values.size = (laidOut nRows columns).pattern.entryCount := by
  rw [laidOut, Pattern.entryCount, Array.size_map, Array.size_map]

theorem checkRows_eq_ok {rows : List Nat} (h : ∀ row ∈ rows, row < nRows) :
    checkRows nRows rows = .ok () := by
  induction rows with
  | nil => rfl
  | cons row rows ih =>
    rw [checkRows, if_pos (h row List.mem_cons_self)]
    exact ih fun other hother => h other (List.mem_cons_of_mem _ hother)

theorem ofPointers_eq {nCols : Nat} {colPtr rowIdx : Array Nat} {values : Array α}
    (hcols : nCols + 1 < Size.limit) (hrows : ∀ row ∈ rowIdx, row < nRows)
    (hvalues : values.size = rowIdx.size) (hsize : colPtr.size = nCols + 1)
    (hlast : colPtr[nCols]? = some rowIdx.size) : ofPointers nRows nCols colPtr rowIdx values =
      .ok ⟨⟨nRows, nCols, colPtr, none, rowIdx, true⟩, values⟩ := by
  have hchecked : checkRows nRows rowIdx.toList = .ok () :=
    checkRows_eq_ok fun row hrow => hrows row (Array.mem_toList_iff.1 hrow)
  rw [ofPointers, if_neg (not_not.2 hvalues.symm), hchecked, Result.ok_bind, Pattern.ofPointers,
    Size.add_of_lt hcols, Result.ok_bind, if_neg (not_not.2 hsize), fetch_eq_ok.2 hlast,
    Result.ok_bind, if_neg (not_not.2 rfl)]
  rfl

theorem ofColumns_eq (hsize : columns.size + 1 < Size.limit)
    (hbounded : ∀ column ∈ columns, ∀ entry ∈ column, entry.1 < nRows) :
    ofColumns nRows columns = .ok (laidOut nRows columns) := by
  have hlast : (Pattern.pointersOf columns)[columns.size]? = some (columns.flatten.map (·.1)).size := by
    rw [Pattern.getElem?_pointersOf (Nat.le_refl _), Pattern.laidBefore_size, Array.size_map]
  refine ofPointers_eq hsize (fun row hrow => ?_) ?_ Pattern.size_pointersOf hlast
  · simp only [Array.mem_map, Array.mem_flatten] at hrow
    obtain ⟨entry, ⟨column, hcolumn, hentry⟩, rfl⟩ := hrow
    exact hbounded column hcolumn entry hentry
  · rw [Array.size_map, Array.size_map]

theorem slotSpan_laidOut {j : Nat} (hj : j < columns.size) :
    (laidOut nRows columns).pattern.slotSpan j =
      ⟨Pattern.laidBefore columns j, Pattern.laidBefore columns (j + 1)⟩ := by
  rw [Pattern.slotSpan, laidOut, Pattern.getElem?_pointersOf (Nat.le_of_lt hj),
    Pattern.getElem?_pointersOf hj]
  rfl

theorem columnSpan_laidOut {j : Nat} (hj : j < columns.size) :
    (laidOut nRows columns).pattern.columnSpan j = (laidOut nRows columns).pattern.slotSpan j := by
  rw [Pattern.columnSpan, Pattern.slotOf]
  simp only [laidOut, hj, if_true]

theorem entriesAt_laidOut {j : Nat} (hj : j < columns.size) :
    (laidOut nRows columns).entriesAt j = columns[j].toList := by
  have hstored : (laidOut nRows columns).stored = (columns.toList.map Array.toList).flatten := by
    rw [stored, laidOut, Array.toList_map, Array.toList_map, ← Array.toList_flatten]
    exact (List.zip_of_prod rfl rfl).symm
  have hsizes : columns.toList.map Array.size = (columns.toList.map Array.toList).map List.length := by
    simp [Function.comp_def]
  rw [entriesAt, columnSpan_laidOut hj, slotSpan_laidOut hj, hstored]
  simp only [Pattern.laidBefore, hsizes]
  rw [List.drop_take_succ_flatten_eq_getElem _ _ (by simpa using hj)]
  simp

theorem slotCount_laidOut : (laidOut nRows columns).pattern.slotCount = columns.size := by
  rw [Pattern.slotCount, laidOut, Pattern.size_pointersOf, Nat.add_sub_cancel]

theorem rowsIn_slotSpan_laidOut {slot : Nat} (hslot : slot < columns.size) :
    (laidOut nRows columns).pattern.rowsIn ((laidOut nRows columns).pattern.slotSpan slot) =
      columns[slot].toList.map Prod.fst := by
  rw [← columnSpan_laidOut hslot, ← map_fst_entriesAt size_laidOut, entriesAt_laidOut hslot]

theorem rowsIn_laidOut {slot : Nat} {range : Span}
    (h : (laidOut nRows columns).pattern.vectorRange slot = .ok range) : ∃ column ∈ columns,
      (laidOut nRows columns).pattern.rowsIn range = column.toList.map Prod.fst := by
  have hsize : (laidOut nRows columns).pattern.colPtr.size = columns.size + 1 := Pattern.size_pointersOf
  have hslot : slot < columns.size := by
    have := (Array.getElem?_eq_some_iff.1 (Pattern.vectorRange_eq_ok.1 h).2).1
    omega
  have hspan : (laidOut nRows columns).pattern.vectorRange slot = .ok _ :=
    Pattern.vectorRange_eq (slotCount_laidOut.symm ▸ hslot)
  cases hspan.symm.trans h
  exact ⟨columns[slot], Array.getElem_mem hslot, rowsIn_slotSpan_laidOut hslot⟩

/-- Columns whose rows increase are laid out in a well-formed pattern. -/
theorem wellFormed_laidOut (h : Ordered nRows columns) :
    (laidOut nRows columns).pattern.WellFormed where
  first_pointer := Pattern.getElem?_pointersOf (Nat.zero_le _)
  pointers_monotone := Pattern.pairwise_pointersOf
  last_pointer := by
    have hlast := Pattern.getElem?_pointersOf (Nat.le_refl columns.size)
    rw [Pattern.laidBefore_size] at hlast
    rw [Array.back?, laidOut, Pattern.size_pointersOf, Nat.add_sub_cancel, Array.size_map]
    exact hlast
  vector_count := Pattern.size_pointersOf
  ids_increasing := nofun
  ids_bounded := nofun
  rows_increasing := by
    intro slot range hrange
    obtain ⟨column, hcolumn, hrows⟩ := rowsIn_laidOut hrange
    exact hrows ▸ h.increasing column hcolumn
  rows_bounded := by
    intro slot range hrange i hi
    obtain ⟨column, hcolumn, hrows⟩ := rowsIn_laidOut hrange
    rw [hrows, List.mem_map] at hi
    obtain ⟨entry, hentry, rfl⟩ := hi
    exact h.bounded column hcolumn entry (Array.mem_toList_iff.1 hentry)

/-- The matrix is in sparse storage, passes its check and has a value for each entry. -/
structure IsSparse (m : SparseMatrix α) (nRows nCols : Nat) : Prop where
  mode : m.pattern.storageMode = .sparse
  rows : m.pattern.nRows = nRows
  columns : m.pattern.nCols = nCols
  finalized : m.pattern.finalized = true
  check : ∀ operand, m.pattern.check operand = .ok ()
  values : m.values.size = m.pattern.entryCount

theorem isSparse_laidOut (h : Ordered nRows columns) :
    (laidOut nRows columns).IsSparse nRows columns.size where
  mode := rfl
  rows := rfl
  columns := rfl
  finalized := rfl
  check _ := Pattern.check_eq_ok_iff.2 (wellFormed_laidOut h)
  values := size_laidOut

theorem exists_of_stores_laidOut (h : Ordered nRows columns) {p i j : Nat}
    (hp : (laidOut nRows columns).pattern.Stores p i j) :
    ∃ x column, (laidOut nRows columns).values[p]? = some x ∧ columns[j]? = some column ∧
      (i, x) ∈ column := by
  have wf := wellFormed_laidOut h
  have hj : j < columns.size := (wf.stores_lt hp).2
  obtain ⟨x, hx⟩ := exists_value wf size_laidOut hp
  have hmem := (mem_entriesAt wf size_laidOut).2 ⟨p, hp, hx⟩
  rw [entriesAt_laidOut hj] at hmem
  exact ⟨x, columns[j], hx, Array.getElem?_eq_getElem hj, Array.mem_toList_iff.1 hmem⟩

theorem stores_laidOut (h : Ordered nRows columns) {i j : Nat} {x : α} {column : Array (Nat × α)}
    (hcolumn : columns[j]? = some column) (hmem : (i, x) ∈ column) :
    ∃ p, (laidOut nRows columns).pattern.Stores p i j ∧ (laidOut nRows columns).values[p]? = some x := by
  obtain ⟨hj, rfl⟩ := Array.getElem?_eq_some_iff.1 hcolumn
  apply (mem_entriesAt (wellFormed_laidOut h) size_laidOut).1
  rw [entriesAt_laidOut hj]
  exact Array.mem_toList_iff.2 hmem

/-! ### Columns in any order

The rows of a column need not increase for it to be laid out and read again. -/

theorem columnRange_laidOut {j : Nat} (hj : j < columns.size) :
    (laidOut nRows columns).pattern.columnRange j =
      .ok ((laidOut nRows columns).pattern.columnSpan j) := by
  have hslot : (laidOut nRows columns).pattern.slotOf j = some j := if_pos hj
  rw [Pattern.columnRange, Pattern.columnSpan, hslot]
  exact Pattern.vectorRange_eq (slotCount_laidOut.symm ▸ hj)

theorem column_laidOut {j : Nat} (hj : j < columns.size) :
    (laidOut nRows columns).column j = .ok columns[j] := by
  have hspan : (laidOut nRows columns).pattern.columnSpan j = _ :=
    (columnSpan_laidOut hj).trans (slotSpan_laidOut hj)
  rw [column_eq_of_columnRange size_laidOut hj (columnRange_laidOut hj), entriesAt_laidOut hj,
    Array.toArray_toList]
  · rw [hspan]
    exact Pattern.laidBefore_mono (Nat.le_succ j)
  · rw [hspan, laidOut, Array.size_map, ← Pattern.laidBefore_size]
    exact Pattern.laidBefore_mono hj

/-- Among columns of rows, those pass the check in which the rows increase. -/
theorem check_laidOut_iff (hbounded : ∀ column ∈ columns, ∀ entry ∈ column, entry.1 < nRows)
    (operand : Operand) : (laidOut nRows columns).pattern.check operand = .ok () ↔
      ∀ column ∈ columns, (column.toList.map Prod.fst).Pairwise (· < ·) := by
  rw [Pattern.check_eq_ok_iff]
  constructor
  · intro wf column hcolumn
    obtain ⟨j, hj, rfl⟩ := Array.getElem_of_mem hcolumn
    rw [← rowsIn_slotSpan_laidOut hj]
    exact wf.rows_increasing j _ (Pattern.vectorRange_eq (slotCount_laidOut.symm ▸ hj))
  · intro increasing
    exact wellFormed_laidOut ⟨increasing, hbounded⟩

theorem checkRows_eq_error {rows : List Nat} {row : Nat} (h : rows.find? (nRows ≤ ·) = some row) :
    checkRows nRows rows = .error (.promise (.rowBound row nRows)) := by
  induction rows with
  | nil => cases h
  | cons first rows ih =>
    rw [List.find?_cons] at h
    by_cases hfirst : first < nRows
    · rw [decide_eq_false (Nat.not_le.2 hfirst)] at h
      rw [checkRows, if_pos hfirst, ih h]
    · rw [decide_eq_true (Nat.not_lt.1 hfirst), Option.some.injEq] at h
      rw [checkRows, if_neg hfirst, h]

theorem ofColumns_eq_error {row : Nat}
    (h : (columns.flatten.toList.map Prod.fst).find? (nRows ≤ ·) = some row) :
    ofColumns nRows columns = .error (.promise (.rowBound row nRows)) := by
  have hcounts : (columns.flatten.map (·.1)).size = (columns.flatten.map (·.2)).size := by
    rw [Array.size_map, Array.size_map]
  rw [ofColumns, ofPointers, if_neg (not_not.2 hcounts), Array.toList_map, checkRows_eq_error h]
  rfl

/-- Any columns of rows can be laid out, and each of them is read as it was given; the matrix passes its
check exactly if the rows increase in every column. Among columns with a number that is no row, the first
such number is refused. -/
theorem ofColumns_columns (nRows : Nat) (columns : Array (Array (Nat × α)))
    (hsize : columns.size + 1 < Size.limit) :
    ((∀ column ∈ columns, ∀ entry ∈ column, entry.1 < nRows) →
      ∃ m, ofColumns nRows columns = .ok m ∧
        m.pattern.nRows = nRows ∧ m.pattern.nCols = columns.size ∧
        (∀ (j : Nat) (hj : j < columns.size), m.column j = .ok columns[j]) ∧
        ∀ operand, m.pattern.check operand = .ok () ↔
          ∀ column ∈ columns, (column.toList.map Prod.fst).Pairwise (· < ·)) ∧
    ((∃ column ∈ columns, ∃ entry ∈ column, nRows ≤ entry.1) →
      ∃ row, (columns.flatten.toList.map Prod.fst).find? (nRows ≤ ·) = some row ∧
        ofColumns nRows columns = .error (.promise (.rowBound row nRows))) := by
  constructor
  · intro hbounded
    exact ⟨laidOut nRows columns, ofColumns_eq hsize hbounded, rfl, rfl, fun _ hj => column_laidOut hj,
      check_laidOut_iff hbounded⟩
  · rintro ⟨column, hcolumn, entry, hentry, hrow⟩
    have hmem : entry.1 ∈ columns.flatten.toList.map Prod.fst :=
      List.mem_map_of_mem (Array.mem_toList_iff.2 (Array.mem_flatten.2 ⟨column, hcolumn, hentry⟩))
    have hsome : ((columns.flatten.toList.map Prod.fst).find? (nRows ≤ ·)).isSome :=
      List.find?_isSome.2 ⟨entry.1, hmem, decide_eq_true hrow⟩
    obtain ⟨row, hfind⟩ := Option.isSome_iff_exists.1 hsome
    exact ⟨row, hfind, ofColumns_eq_error hfind⟩

/-- The rows of column 0 decrease, and column 1 is empty; in a matrix of one row, row 1 is refused. -/
theorem ofColumns_columns_unsorted :
    (∃ m, ofColumns 2 #[#[(1, true), (0, false)], #[], #[(0, true)]] = .ok m ∧
      m.column 0 = .ok #[(1, true), (0, false)] ∧ m.column 1 = .ok #[] ∧
      ¬ m.pattern.check .a = .ok ()) ∧
    ofColumns 1 #[#[(0, true)], #[(1, false), (3, true)]] =
      .error (.promise (.rowBound 1 1)) := by
  constructor
  · obtain ⟨m, hm, -, -, hcolumn, hcheck⟩ :=
      (ofColumns_columns 2 #[#[(1, true), (0, false)], #[], #[(0, true)]] (by decide)).1 (by decide)
    exact ⟨m, hm, hcolumn 0 (by decide), hcolumn 1 (by decide), fun h =>
      absurd ((hcheck .a).1 h) (by decide)⟩
  · obtain ⟨row, hrow, hrefused⟩ :=
      (ofColumns_columns 1 #[#[(0, true)], #[(1, false), (3, true)]] (by decide)).2 (by decide)
    cases hrow
    exact hrefused

end SparseMatrix

end SparseProduct
