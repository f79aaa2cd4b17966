import Mathlib
import SparseProduct.Proofs.Columns
import SparseProduct.Proofs.Multiply.Accepted
import SparseProduct.Proofs.Reference

/-!
# The structure of the reference product

A row of the dense column is marked once a product falls into it, whatever its value, and the marked rows
are read off from the first to the last. So the reference stores a position exactly where a stored row of A
meets a stored column of B, and what it holds there is folded from the products of that position alone, by
increasing inner index.
-/

namespace SparseProduct

variable {L R O : Type} {s : SemiringOps L R O}

namespace DenseColumn

/-! ### Marked rows -/

theorem touched_of_addTerm {dense next : DenseColumn O} {term : Term L R}
    (h : addTerm s dense term = .ok next) (i : Nat) :
    next.touched[i]? = some true ↔ dense.touched[i]? = some true ∨ term.row = i := by
  simp only [addTerm, addEntry, Result.bind_eq_ok, Result.pure_eq_ok, store_eq_ok] at h
  obtain ⟨t, -, existing, -, value, -, values, -, touched, ⟨hrow, rfl⟩, rfl⟩ := h
  by_cases heq : term.row = i
  · subst heq
    simp [hrow]
  · simp [heq]

theorem touched_of_foldlM {ts : List (Term L R)} {dense last : DenseColumn O}
    (h : ts.foldlM (addTerm s) dense = .ok last) (i : Nat) :
    last.touched[i]? = some true ↔ dense.touched[i]? = some true ∨ ∃ term ∈ ts, term.row = i := by
  induction ts generalizing dense with
  | nil =>
    cases h
    simp
  | cons term ts ih =>
    rw [List.foldlM_cons, Result.bind_eq_ok] at h
    obtain ⟨next, hnext, h⟩ := h
    rw [ih h, touched_of_addTerm hnext, List.exists_mem_cons_iff, or_assoc]

/-! ### Reading a column off -/

theorem mem_entries {dense : DenseColumn O} {i : Nat} {x : O} :
    (i, x) ∈ dense.entries ↔ dense.touched[i]? = some true ∧ dense.values[i]? = some x := by
  simp only [entries, Array.mem_filterMap, Array.mem_range, Option.ite_none_right_eq_some,
    Option.map_eq_some_iff, Prod.mk.injEq]
  constructor
  · rintro ⟨row, -, htouched, value, hvalue, rfl, rfl⟩
    exact ⟨htouched, hvalue⟩
  · rintro ⟨htouched, hvalue⟩
    exact ⟨i, (Array.getElem?_eq_some_iff.1 hvalue).1, htouched, x, hvalue, rfl, rfl⟩

theorem pairwise_entries (dense : DenseColumn O) :
    (dense.entries.toList.map Prod.fst).Pairwise (· < ·) := by
  rw [entries, Array.toList_filterMap, List.pairwise_map, Array.toList_range]
  refine List.pairwise_lt_range.filterMap _ fun i i' hlt entry hentry entry' hentry' => ?_
  simp only [Option.ite_none_right_eq_some, Option.map_eq_some_iff] at hentry hentry'
  obtain ⟨-, value, -, rfl⟩ := hentry
  obtain ⟨-, value', -, rfl⟩ := hentry'
  exact hlt

section Factors

variable {a : SparseMatrix L} {b : SparseMatrix R} (h : Factors a b) {j : Nat}
  (hj : j < b.pattern.nCols)
include h hj

theorem exists_product (total : s.Total) : ∃ dense, product s a b j = .ok dense := by
  obtain ⟨last, hlast⟩ := total.foldlM_foldTerm (terms a b j) fun _ => s.identity
  obtain ⟨dense, hdense, -⟩ := (product_related h hj).exists_ok hlast
  exact ⟨dense, hdense⟩

theorem mem_entries_product {dense : DenseColumn O} (hdense : product s a b j = .ok dense) :
    ∃ last : Nat → O, (∀ i, s.dot (meetings a b i j) = .ok (last i)) ∧ ∀ i x, (i, x) ∈ dense.entries ↔
      (∃ k p q, a.pattern.Stores p i k ∧ b.pattern.Stores q k j) ∧ last i = x := by
  have hfold := hdense
  rw [product_eq_terms h hj] at hfold
  have htouched : ∀ i, dense.touched[i]? = some true ↔ ∃ term ∈ terms a b j, term.row = i := by
    intro i
    rw [touched_of_foldlM hfold, untouched, Array.getElem?_replicate]
    simp
  have hrelated := product_related (s := s) h hj
  rw [hdense] at hrelated
  generalize hlast : (terms a b j).foldlM (foldTerm s) (fun _ => s.identity) = outcome at hrelated
  cases hrelated with
  | @ok _ last hshows =>
    refine ⟨last, fun i => h.pairsOfRow_terms i j ▸ foldPairs_of_foldlM hlast i, fun i x => ?_⟩
    rw [mem_entries, htouched, ← h.exists_term_iff]
    refine and_congr_right ?_
    rintro ⟨term, hterm, rfl⟩
    rw [hshows.getElem _ (h.row_lt hterm), Option.some.injEq]

end Factors

end DenseColumn

namespace Reference

/-- The matrix is A · B: it stores a position exactly where entries of A and B meet, with the accumulation
of what meets there. -/
structure IsProduct (s : SemiringOps L R O) (a : SparseMatrix L) (b : SparseMatrix R)
    (m : SparseMatrix O) : Prop where
  isSparse : m.IsSparse a.pattern.nRows b.pattern.nCols
  stores : ∀ i j, (∃ p, m.pattern.Stores p i j) ↔
    ∃ k p q, a.pattern.Stores p i k ∧ b.pattern.Stores q k j
  value : ∀ p i j, m.pattern.Stores p i j →
    ∃ x, m.values[p]? = some x ∧ s.dot (meetings a b i j) = .ok x

def columnsOf (column : Nat → DenseColumn O) (n : Nat) : Array (Array (Nat × O)) :=
  ((List.range n).map fun j => (column j).entries).toArray

theorem size_columnsOf (column : Nat → DenseColumn O) (n : Nat) : (columnsOf column n).size = n := by
  simp [columnsOf]

theorem getElem?_columnsOf {column : Nat → DenseColumn O} {n j : Nat} {entries : Array (Nat × O)} :
    (columnsOf column n)[j]? = some entries ↔ j < n ∧ (column j).entries = entries := by
  rw [columnsOf, List.getElem?_toArray, List.getElem?_map]
  by_cases hj : j < n
  · simp [hj]
  · rw [List.getElem?_eq_none (by rw [List.length_range]; omega)]
    simp [hj]

section Factors

variable {a : SparseMatrix L} {b : SparseMatrix R} {column : Nat → DenseColumn O}

theorem pushColumns_eq {n : Nat} (hcolumn : ∀ j < n, DenseColumn.product s a b j = .ok (column j)) :
    (List.range n).foldlM (pushColumn s a b) #[] = .ok (columnsOf column n) := by
  induction n with
  | zero => simp [columnsOf]
  | succ n ih =>
    rw [List.range_succ, List.foldlM_append, ih fun j hj => hcolumn j (Nat.lt_succ_of_lt hj),
      Result.ok_bind, List.foldlM_cons, pushColumn, hcolumn n (Nat.lt_succ_self n), columnsOf, columnsOf,
      List.range_succ, List.map_append, List.map_cons, List.map_nil, ← List.push_toArray]
    rfl

variable (h : Factors a b)
include h

section Columns

variable (hcolumn : ∀ j < b.pattern.nCols, DenseColumn.product s a b j = .ok (column j))
include hcolumn

theorem ordered_columnsOf :
    SparseMatrix.Ordered a.pattern.nRows (columnsOf column b.pattern.nCols) where
  increasing := by
    intro entries hentries
    obtain ⟨j, hentries⟩ := Array.getElem?_of_mem hentries
    obtain ⟨-, rfl⟩ := getElem?_columnsOf.1 hentries
    exact DenseColumn.pairwise_entries _
  bounded := by
    rintro entries hentries ⟨i, x⟩ hentry
    obtain ⟨j, hentries⟩ := Array.getElem?_of_mem hentries
    obtain ⟨hj, rfl⟩ := getElem?_columnsOf.1 hentries
    obtain ⟨last, -, hmem⟩ := DenseColumn.mem_entries_product h hj (hcolumn j hj)
    obtain ⟨⟨k, p, q, hp, -⟩, -⟩ := (hmem i x).1 hentry
    exact (h.a_wellFormed.stores_lt hp).1

/-- The columns of a product, laid out, are the product. -/
theorem isProduct_columnsOf :
    IsProduct s a b (SparseMatrix.laidOut a.pattern.nRows (columnsOf column b.pattern.nCols)) := by
  have ordered := ordered_columnsOf h hcolumn
  have isSparse := SparseMatrix.isSparse_laidOut ordered
  rw [size_columnsOf] at isSparse
  refine ⟨isSparse, fun i j => ⟨?_, ?_⟩, fun p i j hp => ?_⟩
  · rintro ⟨p, hp⟩
    obtain ⟨x, entries, -, hentries, hmem⟩ := SparseMatrix.exists_of_stores_laidOut ordered hp
    obtain ⟨hj, rfl⟩ := getElem?_columnsOf.1 hentries
    obtain ⟨last, -, hlist⟩ := DenseColumn.mem_entries_product h hj (hcolumn j hj)
    exact ((hlist i x).1 hmem).1
  · intro hmeet
    have hj : j < b.pattern.nCols := by
      obtain ⟨k, p, q, -, hq⟩ := hmeet
      exact (h.b_wellFormed.stores_lt hq).2
    obtain ⟨last, -, hlist⟩ := DenseColumn.mem_entries_product h hj (hcolumn j hj)
    obtain ⟨p, hp, -⟩ := SparseMatrix.stores_laidOut ordered (getElem?_columnsOf.2 ⟨hj, rfl⟩)
      ((hlist i (last i)).2 ⟨hmeet, rfl⟩)
    exact ⟨p, hp⟩
  · obtain ⟨x, entries, hx, hentries, hmem⟩ := SparseMatrix.exists_of_stores_laidOut ordered hp
    obtain ⟨hj, rfl⟩ := getElem?_columnsOf.1 hentries
    obtain ⟨last, hlast, hlist⟩ := DenseColumn.mem_entries_product h hj (hcolumn j hj)
    exact ⟨x, hx, ((hlist i x).1 hmem).2 ▸ hlast i⟩

end Columns

theorem IsProduct.values_eq_of_columns
    (hcolumns : ∀ j, ∃ last, (terms a b j).foldlM (foldTerm s) (fun _ => s.identity) = .ok last)
    {m : SparseMatrix O} (hm : IsProduct s a b m) : values s a b m.pattern = .ok m.values := by
  have wf : (Operands.mk a.pattern b.pattern m.pattern none .trimmed).WellFormed := {
    a := h.a_wellFormed
    b := h.b_wellFormed
    c := Pattern.wellFormed_of_check (hm.isSparse.check .c)
    rows := hm.isSparse.rows
    columns := hm.isSparse.columns
    inner := h.inner
    mask := nofun }
  refine (values_eq_ok_iff wf h.a_values h.b_values).2 ⟨hm.isSparse.values, fun slot hslot => ?_⟩
  rw [columnValues_eq_terms wf h.a_values h.b_values]
  obtain ⟨last, hlast⟩ := hcolumns (m.pattern.slotColumn slot)
  refine ⟨last, hlast, fun p hp => ?_⟩
  rw [← wf.c.columnSpan_slotColumn hslot] at hp
  obtain ⟨x, hx, hdot⟩ := hm.value p _ _ (wf.c.stores_iff.2 ⟨hp, rfl⟩)
  have hrow := foldPairs_of_foldlM hlast (m.pattern.rowAt p)
  rw [h.pairsOfRow_terms] at hrow
  rw [hx]
  exact congrArg some (Except.ok.inj (hdot.symm.trans hrow))

theorem IsProduct.values_eq (total : s.Total) {m : SparseMatrix O} (hm : IsProduct s a b m) :
    values s a b m.pattern = .ok m.values :=
  hm.values_eq_of_columns h fun j => total.foldlM_foldTerm (terms a b j) fun _ => s.identity

end Factors

end Reference

/-- The reference product of two matrices has the structure of their product, and its values. -/
theorem reference_product (total : s.Total) {a : SparseMatrix L} {b : SparseMatrix R} (h : Factors a b)
    (hcolumns : b.pattern.nCols + 1 < Size.limit) :
    ∃ m, Reference.product s a b = .ok m ∧ Reference.IsProduct s a b m ∧
      Reference.values s a b m.pattern = .ok m.values := by
  have hexists : ∀ j, ∃ column, j < b.pattern.nCols → DenseColumn.product s a b j = .ok column := by
    intro j
    by_cases hj : j < b.pattern.nCols
    · obtain ⟨column, hcolumn⟩ := DenseColumn.exists_product h hj total
      exact ⟨column, fun _ => hcolumn⟩
    · exact ⟨DenseColumn.untouched s 0, fun hlt => absurd hlt hj⟩
  obtain ⟨column, hcolumn⟩ := Classical.axiomOfChoice hexists
  have ordered := Reference.ordered_columnsOf h hcolumn
  have isProduct := Reference.isProduct_columnsOf h hcolumn
  refine ⟨_, ?_, isProduct, isProduct.values_eq h total⟩
  rw [Reference.product, if_neg (not_not.2 h.inner), Size.add_of_lt hcolumns, Result.ok_bind,
    Span.foldM_eq, Span.positions, ← List.range_eq_range', Span.length, Nat.sub_zero,
    Reference.pushColumns_eq hcolumn, Result.ok_bind]
  apply SparseMatrix.ofColumns_eq
  · rwa [Reference.size_columnsOf]
  · exact ordered.bounded

theorem reference_product_leftFold :
    Reference.IsProduct Sample.leftFold Sample.a Sample.b
      ⟨⟨3, 4, #[0, 3, 3, 3, 6], none, #[0, 1, 2, 0, 1, 2], true⟩, #[-11, -3, -6, -9, -1, 0]⟩ := by
  have factors : Factors Sample.a Sample.b := ⟨rfl, rfl, rfl, rfl, rfl⟩
  obtain ⟨m, hm, isProduct, -⟩ := reference_product Sample.total_leftFold factors (by decide)
  have hrun : Reference.product Sample.leftFold Sample.a Sample.b = .ok
      ⟨⟨3, 4, #[0, 3, 3, 3, 6], none, #[0, 1, 2, 0, 1, 2], true⟩, #[-11, -3, -6, -9, -1, 0]⟩ := by cbv
  cases hm.symm.trans hrun
  exact isProduct

end SparseProduct
