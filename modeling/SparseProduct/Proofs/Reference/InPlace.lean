import SparseProduct.Proofs.Growing
import SparseProduct.Proofs.Lockstep
import SparseProduct.Reference.InPlace

/-!
# The reference in place is the reference

Folding products in keeps the places of a dense column, so resetting it gives the same column as laying out a
new one. Scanning it appends what reading it off would collect. The loops in place therefore run in lockstep
with those that make a new column each time and keep the columns apart.
-/

namespace SparseProduct

variable {L R O : Type} {s : SemiringOps L R O} {a : SparseMatrix L} {b : SparseMatrix R}

namespace DenseColumn

variable {column next : DenseColumn O} {nRows : Nat}

/-- The column has a place for each row. -/
structure HasRows (column : DenseColumn O) (nRows : Nat) : Prop where
  values : column.values.size = nRows
  touched : column.touched.size = nRows

theorem hasRows_untouched (s : SemiringOps L R O) (nRows : Nat) : (untouched s nRows).HasRows nRows :=
  ⟨Array.size_replicate, Array.size_replicate⟩

namespace HasRows

theorem reset_eq (h : column.HasRows nRows) (s : SemiringOps L R O) :
    column.reset s = untouched s nRows := by
  rw [reset, untouched, Array.map_const', Array.map_const', h.values, h.touched]

theorem addEntry {y : R} {entry : Nat × L} (h : column.HasRows nRows)
    (hnext : addEntry s y column entry = .ok next) : next.HasRows nRows := by
  simp only [DenseColumn.addEntry, Result.bind_eq_ok, Result.pure_eq_ok, store_eq_ok] at hnext
  obtain ⟨t, -, existing, -, value, -, values, ⟨_, rfl⟩, touched, ⟨_, rfl⟩, rfl⟩ := hnext
  exact ⟨by rw [Array.size_set, h.values], by rw [Array.size_set, h.touched]⟩

theorem addColumn {entry : Nat × R} (h : column.HasRows nRows)
    (hnext : addColumn s a column entry = .ok next) : next.HasRows nRows := by
  obtain ⟨left, -, hnext⟩ := Result.bind_eq_ok.1 hnext
  exact Result.foldlM_preserves (fun _ _ _ h hnext => addEntry h hnext) h hnext

end HasRows

theorem hasRows_product {j : Nat} (hnext : product s a b j = .ok next) : next.HasRows a.pattern.nRows := by
  obtain ⟨right, -, hnext⟩ := Result.bind_eq_ok.1 hnext
  exact Result.foldlM_preserves (P := fun column => column.HasRows a.pattern.nRows)
    (fun _ _ _ h hnext => h.addColumn hnext) (hasRows_untouched s _) hnext

theorem HasRows.compute_eq (h : column.HasRows a.pattern.nRows) (j : Nat) :
    compute s a b column j = product s a b j := by
  rw [compute, product, h.reset_eq]

/-! ### Scanning a column -/

/-- What a product has left in row `i`. -/
def reached (column : DenseColumn O) (i : Nat) : Option (Nat × O) :=
  if column.touched[i]? = some true then column.values[i]?.map fun v => (i, v) else none

theorem entries_eq (column : DenseColumn O) :
    column.entries = ((List.range column.values.size).filterMap column.reached).toArray := by
  apply Array.toList_inj.1
  rw [entries, Array.toList_filterMap, Array.toList_range]
  rfl

end DenseColumn

namespace Reference

open GrowingMatrix (laid)

variable {column : DenseColumn O} {nRows : Nat}

theorem appendRow_eq (h : column.HasRows nRows) {i : Nat} (hi : i < nRows) (g : GrowingMatrix O) :
    appendRow column g i =
      .ok ((column.reached i).elim g fun entry => g.pushEntry entry.1 entry.2) := by
  have htouched : i < column.touched.size := h.touched.symm ▸ hi
  have hvalue : i < column.values.size := h.values.symm ▸ hi
  rw [appendRow, fetch_of_lt htouched, fetch_of_lt hvalue, DenseColumn.reached,
    Array.getElem?_eq_getElem htouched, Array.getElem?_eq_getElem hvalue]
  cases column.touched[i] <;> simp

theorem appendRows_laid (h : column.HasRows nRows) (closed : Array (Array (Nat × O))) {rows : List Nat}
    (hrows : ∀ i ∈ rows, i < nRows) (entries : Array (Nat × O)) :
    rows.foldlM (appendRow column) (laid closed entries) =
      .ok (laid closed (entries ++ (rows.filterMap column.reached).toArray)) := by
  induction rows generalizing entries with
  | nil => simp [pure, Except.pure]
  | cons i rows ih =>
    have ih := ih fun row hrow => hrows row (List.mem_cons_of_mem _ hrow)
    rw [List.foldlM_cons, appendRow_eq h (hrows i List.mem_cons_self), Result.ok_bind,
      List.filterMap_cons]
    cases column.reached i with
    | none => exact ih entries
    | some entry =>
      rw [Option.elim_some, GrowingMatrix.pushEntry_laid, ih]
      simp

theorem appendColumn_laid (h : column.HasRows nRows) (closed : Array (Array (Nat × O))) :
    Span.foldM ⟨0, nRows⟩ (appendRow column) (laid closed #[]) = .ok (laid closed column.entries) := by
  rw [Span.foldM_eq, Span.positions, Span.length, Nat.sub_zero, ← List.range_eq_range',
    appendRows_laid h closed (fun i => List.mem_range.1), Array.empty_append,
    DenseColumn.entries_eq, h.values]

/-! ### The loops -/

/-- What has been filled so far is the same, and the dense column can be filled again. -/
def Agree {α β : Type} (Q : α → β → Prop) (nRows : Nat) (state : DenseColumn O × α) (filled : β) : Prop :=
  state.1.HasRows nRows ∧ Q state.2 filled

theorem agree_untouched {α β : Type} {Q : α → β → Prop} {x : α} {y : β} (h : Q x y)
    (s : SemiringOps L R O) (nRows : Nat) : Agree Q nRows (.untouched s nRows, x) y :=
  ⟨DenseColumn.hasRows_untouched s nRows, h⟩

theorem appendColumn_related {state : DenseColumn O × GrowingMatrix O}
    {columns : Array (Array (Nat × O))}
    (h : Agree (fun g columns => g = laid columns #[]) a.pattern.nRows state columns) (j : Nat) :
    Result.Related (Agree (fun g columns => g = laid columns #[]) a.pattern.nRows)
      (appendColumn s a b state j) (pushColumn s a b columns j) := by
  rw [appendColumn, pushColumn, h.1.compute_eq]
  cases hproduct : DenseColumn.product s a b j with
  | error e => exact .error e
  | ok column =>
    have hrows := DenseColumn.hasRows_product hproduct
    rw [Result.ok_bind, Result.ok_bind, h.2, appendColumn_laid hrows, Result.ok_bind]
    exact .ok ⟨hrows, GrowingMatrix.closeColumn_laid columns column.entries⟩

theorem size_of_pushColumns {js : List Nat} {columns filled : Array (Array (Nat × O))}
    (h : js.foldlM (pushColumn s a b) columns = .ok filled) :
    filled.size = columns.size + js.length := by
  induction js generalizing columns with
  | nil =>
    cases h
    rfl
  | cons j js ih =>
    rw [List.foldlM_cons, Result.bind_eq_ok] at h
    obtain ⟨next, hnext, h⟩ := h
    obtain ⟨column, -, hpush⟩ := Result.bind_eq_ok.1 hnext
    cases hpush
    rw [ih h, Array.size_push, List.length_cons]
    omega

/-- The product put together in place is the product. -/
theorem productInPlace_eq (s : SemiringOps L R O) (a : SparseMatrix L) (b : SparseMatrix R) :
    productInPlace s a b = product s a b := by
  have hloop : (do
      let filled ← (List.range b.pattern.nCols).foldlM (appendColumn s a b)
        (.untouched s a.pattern.nRows, .start)
      filled.2.finish a.pattern.nRows b.pattern.nCols) = (do
      let columns ← (List.range b.pattern.nCols).foldlM (pushColumn s a b) #[]
      SparseMatrix.ofColumns a.pattern.nRows columns) := by
    have hrelated := Result.Related.foldlM_same
      (fun state columns h j => appendColumn_related (s := s) (a := a) (b := b) h j)
      (List.range b.pattern.nCols) (agree_untouched GrowingMatrix.start_eq_laid s a.pattern.nRows)
    cases hcolumns : (List.range b.pattern.nCols).foldlM (pushColumn s a b) #[] with
    | error e =>
      rw [hrelated.eq_error hcolumns]
      rfl
    | ok columns =>
      obtain ⟨filled, hfilled, -, hlaid⟩ := hrelated.exists_ok hcolumns
      have hsize : columns.size = b.pattern.nCols := by
        simpa using size_of_pushColumns hcolumns
      rw [hfilled, Result.ok_bind, Result.ok_bind, hlaid, GrowingMatrix.finish_laid hsize]
  simp only [productInPlace, product, Span.foldM_eq, Span.positions, Span.length, Nat.sub_zero,
    ← List.range_eq_range', hloop]

theorem appendValues_related {c : Pattern} {state : DenseColumn O × Array O} {values : Array O}
    (h : Agree Eq a.pattern.nRows state values) (slot : Nat) :
    Result.Related (Agree Eq a.pattern.nRows) (appendValues s a b c state slot)
      (pushValues s a b c values slot) := by
  rw [appendValues, pushValues, h.2]
  cases c.vectorId slot with
  | error e => exact .error e
  | ok j =>
    rw [Result.ok_bind, Result.ok_bind, h.1.compute_eq]
    cases hproduct : DenseColumn.product s a b j with
    | error e => exact .error e
    | ok column =>
      rw [Result.ok_bind, Result.ok_bind]
      cases c.vectorRange slot with
      | error e => exact .error e
      | ok range =>
        rw [Result.ok_bind, Result.ok_bind]
        generalize (range.foldM _ values : Result (Array O)) = more
        cases more with
        | error e => exact .error e
        | ok more => exact .ok ⟨DenseColumn.hasRows_product hproduct, rfl⟩

/-- The values computed in one dense column are the values. -/
theorem valuesInPlace_eq (s : SemiringOps L R O) (a : SparseMatrix L) (b : SparseMatrix R) (c : Pattern) :
    valuesInPlace s a b c = values s a b c := by
  have hloop : ∀ count, (do
      let filled ← (List.range count).foldlM (appendValues s a b c) (.untouched s a.pattern.nRows, #[])
      return filled.2) = (List.range count).foldlM (pushValues s a b c) #[] := by
    intro count
    have hrelated := Result.Related.foldlM_same
      (fun state values h slot => appendValues_related (s := s) (a := a) (b := b) (c := c) h slot)
      (List.range count) (agree_untouched (Eq.refl #[]) s a.pattern.nRows)
    cases hvalues : (List.range count).foldlM (pushValues s a b c) #[] with
    | error e =>
      rw [hrelated.eq_error hvalues]
      rfl
    | ok values =>
      obtain ⟨filled, hfilled, -, rfl⟩ := hrelated.exists_ok hvalues
      rw [hfilled]
      rfl
  simp only [valuesInPlace, values, Span.foldM_eq, Span.positions, Span.length, Nat.sub_zero,
    ← List.range_eq_range', hloop]

end Reference

end SparseProduct
