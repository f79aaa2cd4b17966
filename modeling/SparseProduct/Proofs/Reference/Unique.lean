import Mathlib
import SparseProduct.Proofs.Multiply.Arithmetic
import SparseProduct.Proofs.Reference.Product
import SparseProduct.Proofs.Triplets.RoundTrip

/-!
# The product of two matrices is one matrix

Two matrices have at most one product: what it stores and where is determined. If they have one, all that
meets at each position can be accumulated, so no column fails to be computed, and the reference finds the
product although the operations of the semiring may fail elsewhere. A run over its pattern fills it in.
-/

namespace SparseProduct

variable {L R O : Type} {s : SemiringOps L R O}

theorem SemiringOps.dot_singleton (s : SemiringOps L R O) (pair : L × R) :
    s.dot [pair] = s.multiply pair.1 pair.2 >>= s.accumulate s.identity := by
  simp [dot]

namespace Reference

section Factors

variable {a : SparseMatrix L} {b : SparseMatrix R} {m : SparseMatrix O} (h : Factors a b)

theorem IsProduct.wellFormed (hm : IsProduct s a b m) : m.pattern.WellFormed :=
  Pattern.wellFormed_of_check (hm.isSparse.check .c)

theorem IsProduct.mem_entriesAt (hm : IsProduct s a b m) {i j : Nat} {x : O} :
    (i, x) ∈ m.entriesAt j ↔ (∃ k p q, a.pattern.Stores p i k ∧ b.pattern.Stores q k j) ∧
      s.dot (meetings a b i j) = .ok x := by
  rw [SparseMatrix.mem_entriesAt hm.wellFormed hm.isSparse.values, ← hm.stores]
  constructor
  · rintro ⟨p, hp, hx⟩
    obtain ⟨y, hy, hdot⟩ := hm.value p i j hp
    cases hx.symm.trans hy
    exact ⟨⟨p, hp⟩, hdot⟩
  · rintro ⟨⟨p, hp⟩, hdot⟩
    obtain ⟨y, hy, hdot'⟩ := hm.value p i j hp
    cases hdot.symm.trans hdot'
    exact ⟨p, hp, hy⟩

/-- Two matrices have at most one product. -/
theorem IsProduct.unique {m' : SparseMatrix O} (hm : IsProduct s a b m) (hm' : IsProduct s a b m') :
    m' = m := by
  have wf := hm.wellFormed
  have wf' := hm'.wellFormed
  have hids : ∀ {n : SparseMatrix O}, IsProduct s a b n → n.pattern.colIds = none :=
    fun hn => Pattern.storageMode_eq_sparse_iff.1 hn.isSparse.mode
  refine SparseMatrix.eq_of_entriesAt wf hm.isSparse.values wf' hm'.isSparse.values
    (hm'.isSparse.columns.trans hm.isSparse.columns.symm) (fun j _ => ?_)
    (hm'.isSparse.rows.trans hm.isSparse.rows.symm) ((hids hm').trans (hids hm).symm)
    (hm'.isSparse.finalized.trans hm.isSparse.finalized.symm)
  refine eq_of_mem_iff (SparseMatrix.pairwise_entriesAt wf' hm'.isSparse.values j)
    (SparseMatrix.pairwise_entriesAt wf hm.isSparse.values j) ?_
  rintro ⟨i, x⟩
  rw [hm.mem_entriesAt, hm'.mem_entriesAt]

include h

theorem IsProduct.exists_dot (hm : IsProduct s a b m) (i j : Nat) :
    ∃ x, s.dot (meetings a b i j) = .ok x := by
  by_cases hmeet : ∃ k p q, a.pattern.Stores p i k ∧ b.pattern.Stores q k j
  · obtain ⟨p, hp⟩ := (hm.stores i j).2 hmeet
    obtain ⟨x, -, hdot⟩ := hm.value p i j hp
    exact ⟨x, hdot⟩
  · rw [h.meetings_eq_nil_iff.2 hmeet]
    exact ⟨s.identity, rfl⟩

theorem IsProduct.exists_column (hm : IsProduct s a b m) (j : Nat) :
    ∃ last, (terms a b j).foldlM (foldTerm s) (fun _ => s.identity) = .ok last := by
  refine exists_foldlM_of_foldPairs fun i => ?_
  rw [h.pairsOfRow_terms]
  exact hm.exists_dot h i j

/-- The reference finds the product of two matrices, if they have one. -/
theorem IsProduct.product_eq (hm : IsProduct s a b m) (hcols : b.pattern.nCols + 1 < Size.limit) :
    product s a b = .ok m := by
  have hexists : ∀ j, ∃ column, j < b.pattern.nCols → DenseColumn.product s a b j = .ok column := by
    intro j
    by_cases hj : j < b.pattern.nCols
    · obtain ⟨last, hlast⟩ := hm.exists_column h j
      obtain ⟨column, hcolumn, -⟩ := (DenseColumn.product_related h hj).exists_ok hlast
      exact ⟨column, fun _ => hcolumn⟩
    · exact ⟨DenseColumn.untouched s 0, fun hlt => absurd hlt hj⟩
  choose column hcolumn using hexists
  rw [← hm.unique (isProduct_columnsOf h hcolumn), product, if_neg (not_not.2 h.inner),
    Size.add_of_lt hcols, Result.ok_bind, Span.foldM_eq, Span.positions, ← List.range_eq_range',
    Span.length, Nat.sub_zero, pushColumns_eq hcolumn, Result.ok_bind]
  exact SparseMatrix.ofColumns_eq (by rwa [size_columnsOf]) (ordered_columnsOf h hcolumn).bounded

end Factors

theorem IsProduct.of_single {a : SparseMatrix L}
    {b : SparseMatrix R} {m : SparseMatrix O} (h : Factors a b)
    (isSparse : m.IsSparse a.pattern.nRows b.pattern.nCols) {pair : O → L × R}
    (hmeet : ∀ i j, meetings a b i j = ((m.get? i j).map pair).toList)
    (hdot : ∀ x, s.dot [pair x] = .ok x) : IsProduct s a b m where
  isSparse := isSparse
  stores i j := by
    have wf := Pattern.wellFormed_of_check (isSparse.check .c)
    rw [SparseMatrix.exists_stores_iff wf isSparse.values, ← not_iff_not, ← h.meetings_eq_nil_iff,
      hmeet]
    cases m.get? i j <;> simp
  value p i j hp := by
    have wf := Pattern.wellFormed_of_check (isSparse.check .c)
    obtain ⟨x, hx⟩ := SparseMatrix.exists_value wf isSparse.values hp
    have hget : m.get? i j = some x :=
      (SparseMatrix.get?_eq_some_iff wf isSparse.values).2 ⟨p, hp, hx⟩
    refine ⟨x, hx, ?_⟩
    rw [hmeet, hget]
    exact hdot x

theorem IsProduct.multiply_eq {a : SparseMatrix L} {b : SparseMatrix R} {m : SparseMatrix O}
    (hm : IsProduct s a b m) (accepted : Accepted m.pattern a.pattern b.pattern none)
    (ha : a.values.size = a.pattern.entryCount) (hb : b.values.size = b.pattern.entryCount)
    (settings : Settings) {before : Buffers O} (hc : before.values.size = m.pattern.entryCount)
    (hroom : m.pattern.nRows ≤ before.slots.size) :
    ∃ counters after, multiply s m.pattern a b none settings before = .ok counters after ∧
      after.values = m.values := by
  have h : Factors a b := ⟨accepted.a_check, accepted.b_check, ha, hb, accepted.inner⟩
  have wf := accepted.wellFormed settings.search
  have occupied : ∀ j, m.pattern.Occupied j → b.pattern.Occupied j := by
    intro j hj
    obtain ⟨p, i, hp⟩ := wf.c.occupied_iff_stores.1 hj
    obtain ⟨k, -, q, -, hq⟩ := (hm.stores i j).1 ⟨p, hp⟩
    exact wf.b.occupied_iff_stores.2 ⟨q, k, hq⟩
  have stores : StoresProduct m.pattern a.pattern b.pattern none :=
    fun i j k left right hleft hright _ => (hm.stores i j).2 ⟨k, left, right, hleft, hright⟩
  choose column hcolumn using hm.exists_column h
  obtain ⟨counters, after, hrun, hreference⟩ := multiply_of_columnValues accepted ha hb occupied
    stores hc hroom settings fun j => (columnValues_eq_terms wf ha hb j).trans (hcolumn j)
  rw [hm.values_eq_of_columns h (hm.exists_column h)] at hreference
  exact ⟨counters, after, hrun, (Except.ok.inj hreference).symm⟩

end Reference

end SparseProduct
