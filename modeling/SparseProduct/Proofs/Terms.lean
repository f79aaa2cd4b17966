import Mathlib.Data.Option.NAry
import SparseProduct.Proofs.ColumnValues
import SparseProduct.Proofs.Entries
import SparseProduct.Proofs.Pattern.Checked

/-!
# The products of a column

Column `j` of A · B is folded from one list of products: each entry of B in the column, with each entry of
the column of A that it meets. Products of different rows stand side by side in the list and do not touch
each other. Those of row `i` are what A holds in the row against what B holds in the column, by increasing
inner index.
-/

namespace SparseProduct

variable {L R O : Type}

/-- A product: the row it belongs to, an element of A and an element of B. -/
structure Term (L R : Type) where
  row : Nat
  left : L
  right : R

/-- The products of a column in the order in which they are folded in. -/
def terms (a : SparseMatrix L) (b : SparseMatrix R) (j : Nat) : List (Term L R) :=
  (b.entriesAt j).flatMap fun right =>
    (a.entriesAt right.1).map fun left => ⟨left.1, left.2, right.2⟩

def foldTerm (s : SemiringOps L R O) (column : Nat → O) (term : Term L R) : Result (Nat → O) := do
  let value ← s.fold term.left term.right (column term.row)
  return Function.update column term.row value

/-- What row `i` of A and column `j` of B hold at the same inner index, by increasing index. -/
def meetings (a : SparseMatrix L) (b : SparseMatrix R) (i j : Nat) : List (L × R) :=
  (List.range a.pattern.nCols).filterMap fun k => Option.map₂ Prod.mk (a.get? i k) (b.get? k j)

/-- Folds the products of pairs into an element, from the first pair to the last. -/
def SemiringOps.foldPairs (s : SemiringOps L R O) (start : O) (pairs : List (L × R)) : Result O :=
  pairs.foldlM (fun z pair => s.fold pair.1 pair.2 z) start

section Terms

variable {a : SparseMatrix L} {b : SparseMatrix R}

theorem mem_terms {j : Nat} {term : Term L R} :
    term ∈ terms a b j ↔
      ∃ k, (k, term.right) ∈ b.entriesAt j ∧ (term.row, term.left) ∈ a.entriesAt k := by
  simp only [terms, List.mem_flatMap, List.mem_map]
  constructor
  · rintro ⟨right, hright, left, hleft, rfl⟩
    exact ⟨right.1, hright, hleft⟩
  · rintro ⟨k, hright, hleft⟩
    exact ⟨(k, term.right), hright, (term.row, term.left), hleft, rfl⟩

end Terms

section Pairs

variable {op : Operands} {s : SemiringOps L R O} {left : Array L} {right : Array R}

theorem pairs_terms (wf : op.WellFormed) (hleft : left.size = op.a.entryCount)
    (hright : right.size = op.b.entryCount) (j : Nat) :
    List.Forall₂ (fun pair term => op.a.rowAt pair.1 = term.row ∧ left[pair.1]? = some term.left ∧
      right[pair.2]? = some term.right) (op.pairs j) (terms ⟨op.a, left⟩ ⟨op.b, right⟩ j) := by
  refine List.rel_flatMap (SparseMatrix.positions_entriesAt (m := ⟨op.b, right⟩) wf.b hright j) ?_
  rintro q ⟨k, y⟩ ⟨hrow, hy⟩
  subst hrow
  refine List.rel_map ?_
    (SparseMatrix.positions_entriesAt (m := ⟨op.a, left⟩) wf.a hleft (op.b.rowAt q))
  rintro p ⟨i, x⟩ ⟨hrow, hx⟩
  exact ⟨hrow, hx, hy⟩

theorem columnValues_eq_terms (wf : op.WellFormed) (hleft : left.size = op.a.entryCount)
    (hright : right.size = op.b.entryCount) (j : Nat) :
    op.columnValues s left right j =
      (terms ⟨op.a, left⟩ ⟨op.b, right⟩ j).foldlM (foldTerm s) fun _ => s.identity := by
  refine Result.Related.eq_iff.1 (Result.Related.foldlM ?_ (pairs_terms wf hleft hright j) rfl)
  intro column next hsame pair term hpair
  obtain ⟨hrow, hx, hy⟩ := hpair
  apply Result.Related.eq_iff.2
  rw [hsame, Operands.foldPair, fetch_eq_ok.2 hx, fetch_eq_ok.2 hy, foldTerm, hrow, Result.ok_bind,
    Result.ok_bind]

end Pairs

section Fold

variable {s : SemiringOps L R O}

theorem foldTerm_eq_ok {column next : Nat → O} {term : Term L R} :
    foldTerm s column term = .ok next ↔ ∃ t z, s.multiply term.left term.right = .ok t ∧
      s.accumulate (column term.row) t = .ok z ∧ next = Function.update column term.row z := by
  simp only [foldTerm, SemiringOps.fold, Result.bind_eq_ok, Result.pure_eq_ok]
  constructor
  · rintro ⟨z, ⟨t, ht, hz⟩, rfl⟩
    exact ⟨t, z, ht, hz, rfl⟩
  · rintro ⟨t, z, ht, hz, rfl⟩
    exact ⟨z, ⟨t, ht, hz⟩, rfl⟩

theorem SemiringOps.Total.foldlM_foldTerm (total : s.Total) (ts : List (Term L R))
    (column : Nat → O) : ∃ last, ts.foldlM (foldTerm s) column = .ok last := by
  apply Result.foldlM_total
  intro column term _
  obtain ⟨value, hvalue⟩ := total.fold_eq_ok term.left term.right (column term.row)
  exact ⟨_, by rw [foldTerm, hvalue]; rfl⟩

def pairsOfRow (ts : List (Term L R)) (i : Nat) : List (L × R) :=
  (ts.filter fun term => term.row = i).map fun term => (term.left, term.right)

theorem pairsOfRow_cons_self (ts : List (Term L R)) (term : Term L R) :
    pairsOfRow (term :: ts) term.row = (term.left, term.right) :: pairsOfRow ts term.row := by
  simp [pairsOfRow]

theorem pairsOfRow_cons_of_ne (ts : List (Term L R)) {term : Term L R} {i : Nat} (h : term.row ≠ i) :
    pairsOfRow (term :: ts) i = pairsOfRow ts i := by
  simp [pairsOfRow, h]

/-- Folding products into a column folds the products of each row into the value of the row. -/
theorem foldPairs_of_foldlM {ts : List (Term L R)} {column last : Nat → O}
    (h : ts.foldlM (foldTerm s) column = .ok last) (i : Nat) :
    s.foldPairs (column i) (pairsOfRow ts i) = .ok (last i) := by
  induction ts generalizing column with
  | nil =>
    cases h
    rfl
  | cons term ts ih =>
    simp only [List.foldlM_cons, Result.bind_eq_ok, foldTerm, Result.pure_eq_ok] at h
    obtain ⟨next, ⟨value, hvalue, rfl⟩, hrest⟩ := h
    have hrest := ih hrest
    by_cases hrow : term.row = i
    · subst hrow
      rw [Function.update_self] at hrest
      rw [pairsOfRow_cons_self, SemiringOps.foldPairs, List.foldlM_cons, hvalue]
      exact hrest
    · rw [Function.update_of_ne (Ne.symm hrow)] at hrest
      rw [pairsOfRow_cons_of_ne ts hrow]
      exact hrest

theorem exists_foldlM_of_foldPairs {ts : List (Term L R)} {column : Nat → O}
    (h : ∀ i, ∃ z, s.foldPairs (column i) (pairsOfRow ts i) = .ok z) :
    ∃ last, ts.foldlM (foldTerm s) column = .ok last := by
  induction ts generalizing column with
  | nil => exact ⟨column, rfl⟩
  | cons term ts ih =>
    obtain ⟨z, hz⟩ := h term.row
    rw [pairsOfRow_cons_self, SemiringOps.foldPairs, List.foldlM_cons, Result.bind_eq_ok] at hz
    obtain ⟨value, hvalue, hrest⟩ := hz
    rw [List.foldlM_cons, foldTerm, hvalue]
    refine ih fun i => ?_
    by_cases hrow : term.row = i
    · subst hrow
      rw [Function.update_self]
      exact ⟨z, hrest⟩
    · rw [Function.update_of_ne (Ne.symm hrow), ← pairsOfRow_cons_of_ne ts hrow]
      exact h i

end Fold

/-! ### The products of one position -/

/-- Two matrices that can be multiplied: each passes its check, and the sizes fit. -/
structure Factors (a : SparseMatrix L) (b : SparseMatrix R) : Prop where
  a_check : a.pattern.check .a = .ok ()
  b_check : b.pattern.check .b = .ok ()
  a_values : a.values.size = a.pattern.entryCount
  b_values : b.values.size = b.pattern.entryCount
  inner : a.pattern.nCols = b.pattern.nRows

namespace Factors

variable {a : SparseMatrix L} {b : SparseMatrix R} (h : Factors a b)
include h

theorem a_wellFormed : a.pattern.WellFormed := Pattern.wellFormed_of_check h.a_check

theorem b_wellFormed : b.pattern.WellFormed := Pattern.wellFormed_of_check h.b_check

theorem inner_lt {j : Nat} {entry : Nat × R} (hentry : entry ∈ b.entriesAt j) :
    entry.1 < a.pattern.nCols :=
  h.inner ▸ SparseMatrix.lt_of_mem_entriesAt h.b_wellFormed h.b_values hentry

theorem row_lt {j : Nat} {term : Term L R} (hterm : term ∈ terms a b j) :
    term.row < a.pattern.nRows := by
  obtain ⟨k, -, hleft⟩ := mem_terms.1 hterm
  exact SparseMatrix.lt_of_mem_entriesAt h.a_wellFormed h.a_values hleft

theorem pairsOfRow_terms (i j : Nat) : pairsOfRow (terms a b j) i = meetings a b i j := by
  have hrow : ∀ right : Nat × R,
      (((a.entriesAt right.1).map fun left => (⟨left.1, left.2, right.2⟩ : Term L R)).filter
        fun term => term.row = i).map (fun term => (term.left, term.right)) =
      ((a.get? i right.1).map fun x => (x, right.2)).toList := by
    intro right
    have hkey := filter_key (SparseMatrix.pairwise_entriesAt h.a_wellFormed h.a_values right.1) i
    rw [List.filter_map, List.map_map, SparseMatrix.get?_eq_lookup h.a_wellFormed h.a_values]
    simp only [Function.comp_def, hkey]
    cases (a.entriesAt right.1).lookup i <;> rfl
  have hmeet : ∀ k, Option.map₂ Prod.mk (a.get? i k) (b.get? k j) =
      ((b.entriesAt j).lookup k).bind fun y => (a.get? i k).map fun x => (x, y) := by
    intro k
    rw [SparseMatrix.get?_eq_lookup h.b_wellFormed h.b_values]
    cases a.get? i k <;> cases (b.entriesAt j).lookup k <;> rfl
  rw [pairsOfRow, terms, List.filter_flatMap, List.map_flatMap,
    List.flatMap_congr fun right _ => hrow right, ← List.filterMap_eq_flatMap_toList, meetings,
    List.range_eq_range']
  simp only [hmeet]
  rw [filterMap_lookup _ (SparseMatrix.pairwise_entriesAt h.b_wellFormed h.b_values j)]
  intro entry hentry
  rw [Nat.zero_add]
  exact ⟨Nat.zero_le _, h.inner_lt hentry⟩

theorem exists_term_iff {i j : Nat} : (∃ term ∈ terms a b j, term.row = i) ↔
    ∃ k p q, a.pattern.Stores p i k ∧ b.pattern.Stores q k j := by
  simp only [mem_terms, SparseMatrix.mem_entriesAt h.a_wellFormed h.a_values,
    SparseMatrix.mem_entriesAt h.b_wellFormed h.b_values]
  constructor
  · rintro ⟨term, ⟨k, ⟨q, hq, -⟩, p, hp, -⟩, rfl⟩
    exact ⟨k, p, q, hp, hq⟩
  · rintro ⟨k, p, q, hp, hq⟩
    obtain ⟨x, hx⟩ := SparseMatrix.exists_value h.a_wellFormed h.a_values hp
    obtain ⟨y, hy⟩ := SparseMatrix.exists_value h.b_wellFormed h.b_values hq
    exact ⟨⟨i, x, y⟩, ⟨k, ⟨q, hq, hy⟩, p, hp, hx⟩, rfl⟩

theorem meetings_eq_nil_iff {i j : Nat} : meetings a b i j = [] ↔
    ¬ ∃ k p q, a.pattern.Stores p i k ∧ b.pattern.Stores q k j := by
  rw [← h.exists_term_iff, ← h.pairsOfRow_terms, pairsOfRow, List.map_eq_nil_iff,
    List.filter_eq_nil_iff]
  simp

end Factors

end SparseProduct
