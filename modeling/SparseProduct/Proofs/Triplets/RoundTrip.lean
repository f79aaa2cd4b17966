import Mathlib
import SparseProduct.Proofs.Triplets
import SparseProduct.Proofs.Views

/-!
# From a matrix to its triplets and back

What a matrix stores is its columns one after the other, so matrices with the same columns and the same
column ids are one matrix. No two triplets of a matrix share a position, in whatever order they come. So none
of them is refused, every column gets back the entries that it had, and sorting puts them in the only order
in which their rows increase.
-/

namespace SparseProduct

namespace SparseMatrix

variable {α : Type}

/-! ### A matrix is its columns -/

section Columns

variable {m : SparseMatrix α} (wf : m.pattern.WellFormed)
  (hvalues : m.values.size = m.pattern.entryCount)

include wf in
theorem take_stored {j : Nat} (hj : j ≤ m.pattern.nCols) :
    m.stored.take (m.pattern.entriesBefore j) = (List.range j).flatMap m.entriesAt := by
  induction j with
  | zero => rw [wf.entriesBefore_zero, List.take_zero, List.range_zero, List.flatMap_nil]
  | succ j ih =>
    have hle := wf.entriesBefore_mono (Nat.le_succ j) hj
    rw [List.range_succ, List.flatMap_append, ← ih (Nat.le_of_succ_le hj), List.flatMap_singleton,
      entriesAt_eq_filterMap, wf.positions_columnSpan hj, Span.positions, ← take_drop_eq_filterMap,
      ← List.take_add, Span.length, Nat.add_sub_cancel' hle]

include wf hvalues

theorem stored_eq : m.stored = (List.range m.pattern.nCols).flatMap m.entriesAt := by
  rw [← take_stored wf (Nat.le_refl _), wf.entriesBefore_nCols, ← length_stored hvalues,
    List.take_length]

theorem sum_length_entriesAt {j : Nat} (hj : j ≤ m.pattern.nCols) :
    ((List.range j).map fun k => (m.entriesAt k).length).sum = m.pattern.entriesBefore j := by
  simp only [length_entriesAt wf hvalues]
  exact Pattern.sum_lengths wf hj

variable {m' : SparseMatrix α} (wf' : m'.pattern.WellFormed)
  (hvalues' : m'.values.size = m'.pattern.entryCount) (hcols : m'.pattern.nCols = m.pattern.nCols)
  (h : ∀ j < m.pattern.nCols, m'.entriesAt j = m.entriesAt j)
include wf' hvalues' hcols h

theorem stored_congr : m'.stored = m.stored := by
  rw [stored_eq wf hvalues, stored_eq wf' hvalues', hcols]
  exact List.flatMap_congr fun j hj => h j (List.mem_range.1 hj)

theorem positions_congr (j : Nat) :
    (m'.pattern.columnSpan j).positions = (m.pattern.columnSpan j).positions := by
  have hbefore : ∀ k ≤ m.pattern.nCols, m'.pattern.entriesBefore k = m.pattern.entriesBefore k := by
    intro k hk
    rw [← sum_length_entriesAt wf hvalues hk, ← sum_length_entriesAt wf' hvalues' (hcols ▸ hk)]
    refine congrArg List.sum (List.map_congr_left fun l hl => ?_)
    rw [h l (Nat.lt_of_lt_of_le (List.mem_range.1 hl) hk)]
  by_cases hj : j < m.pattern.nCols
  · rw [wf.positions_columnSpan hj, wf'.positions_columnSpan (hcols ▸ hj),
      hbefore j (Nat.le_of_lt hj), hbefore (j + 1) hj]
  · -- a column that neither matrix has
    rw [wf.positions_of_not_occupied fun hoccupied => hj (wf.lt_of_occupied hoccupied),
      wf'.positions_of_not_occupied fun hoccupied => hj (hcols ▸ wf'.lt_of_occupied hoccupied)]

theorem eq_of_entriesAt (hrows : m'.pattern.nRows = m.pattern.nRows)
    (hids : m'.pattern.colIds = m.pattern.colIds)
    (hfinal : m'.pattern.finalized = m.pattern.finalized) : m' = m := by
  have hstored := stored_congr wf hvalues wf' hvalues' hcols h
  have same : m.pattern.SameEntries m'.pattern := {
    nRows := hrows
    nCols := hcols
    rowIdx := by
      rw [← Array.toList_inj, ← map_fst_stored hvalues, ← map_fst_stored hvalues', hstored]
    finalized := hfinal
    positions := positions_congr wf hvalues wf' hvalues' hcols h }
  have hpattern := same.eq_of_colIds wf wf' hids
  have hvalue : m'.values = m.values := by
    rw [← Array.toList_inj, ← map_snd_stored hvalues, ← map_snd_stored hvalues', hstored]
  cases m
  cases m'
  rw [SparseMatrix.mk.injEq]
  exact ⟨hpattern, hvalue⟩

end Columns

/-! ### Triplets in any order -/

section Reordered

variable {triplets given : List (Nat × Nat × α)} {nRows nCols : Nat}

theorem length_valuesAt_le (distinct : triplets.Pairwise Precedes) (i j : Nat) :
    (valuesAt triplets i j).length ≤ 1 := by
  have hnone : (valuesAt triplets i j).Pairwise fun _ _ => False := by
    rw [valuesAt, List.pairwise_filterMap]
    refine distinct.imp fun hst v hv w hw => ?_
    simp only [Option.ite_none_right_eq_some] at hv hw
    obtain ⟨⟨rfl, rfl⟩, -⟩ := hv
    obtain ⟨⟨hi, hj⟩, -⟩ := hw
    unfold Precedes at hst
    omega
  cases hvalues : valuesAt triplets i j with
  | nil => exact Nat.zero_le 1
  | cons v vs =>
    rw [hvalues] at hnone
    have hnil : vs = [] := List.eq_nil_iff_forall_not_mem.2 fun w => List.rel_of_pairwise_cons hnone
    rw [hnil, List.length_singleton]

theorem not_refused_of_perm (perm : given.Perm triplets) (distinct : triplets.Pairwise Precedes)
    (hin : ∀ t ∈ triplets, t.1 < nRows ∧ t.2.1 < nCols) (e : Failure) :
    ¬ Refused nRows nCols given none e := by
  intro h
  cases h with
  | misplaced h =>
    cases h with
    | row ht hi => exact Nat.not_lt.2 hi (hin _ (perm.mem_iff.1 ht)).1
    | column ht hj => exact Nat.not_lt.2 hj (hin _ (perm.mem_iff.1 ht)).2
  | @duplicate i j hlength =>
    have hperm : (valuesAt given i j).Perm (valuesAt triplets i j) := perm.filterMap _
    have hle := length_valuesAt_le distinct i j
    rw [hperm.length_eq] at hlength
    omega

theorem Assembled.mem_entriesAt {m : SparseMatrix α} (h : Assembled nRows nCols given none m)
    {i j : Nat} {x : α} : (i, x) ∈ m.entriesAt j ↔ (i, j, x) ∈ given := by
  have wf := Pattern.wellFormed_of_check (h.isSparse.check .c)
  have honly : ∀ p, m.pattern.Stores p i j → ∃ v, valuesAt given i j = [v] ∧ m.values[p]? = some v := by
    intro p hp
    obtain ⟨v, vs, x, hvalues, hx, rfl, rfl⟩ := h.value p i j hp
    exact ⟨v, hvalues, hx⟩
  rw [SparseMatrix.mem_entriesAt wf h.isSparse.values, ← mem_valuesAt]
  constructor
  · rintro ⟨p, hp, hx⟩
    obtain ⟨v, hvalues, hv⟩ := honly p hp
    rw [hvalues, Option.some.inj (hx.symm.trans hv)]
    exact List.mem_singleton_self v
  · intro hx
    obtain ⟨p, hp⟩ := (h.stores i j).2 ⟨x, mem_valuesAt.1 hx⟩
    obtain ⟨v, hvalues, hv⟩ := honly p hp
    rw [hvalues, List.mem_singleton] at hx
    exact ⟨p, hp, hx ▸ hv⟩

/-- Where nothing is combined, only one matrix in sparse storage has the triplets as its entries. -/
theorem Assembled.eq_of_mem_entriesAt_iff {m sparse : SparseMatrix α}
    (h : Assembled nRows nCols given none m) (hsparse : sparse.IsSparse nRows nCols)
    (hmem : ∀ i j x, (i, j, x) ∈ given ↔ (i, x) ∈ sparse.entriesAt j) : m = sparse := by
  have wf := Pattern.wellFormed_of_check (h.isSparse.check .c)
  have wf' := Pattern.wellFormed_of_check (hsparse.check .c)
  have hcols : m.pattern.nCols = sparse.pattern.nCols := by
    rw [h.isSparse.columns, hsparse.columns]
  have hentries : ∀ j < sparse.pattern.nCols, m.entriesAt j = sparse.entriesAt j := by
    intro j _
    refine eq_of_mem_iff (pairwise_entriesAt wf h.isSparse.values j)
      (pairwise_entriesAt wf' hsparse.values j) fun entry => ?_
    rw [← hmem, h.mem_entriesAt]
  apply eq_of_entriesAt wf' hsparse.values wf h.isSparse.values hcols hentries
  · rw [h.isSparse.rows, hsparse.rows]
  · rw [Pattern.storageMode_eq_sparse_iff.1 h.isSparse.mode,
      Pattern.storageMode_eq_sparse_iff.1 hsparse.mode]
  · rw [h.isSparse.finalized, hsparse.finalized]

end Reordered

/-- The triplets of a matrix that passes its check and has no pending work give the matrix in sparse
storage, in whatever order they come, if its number of columns and one more, and its number of entries, are
sizes. -/
theorem ofTriplets_triplets {m : SparseMatrix α} {operand : Operand}
    (hcheck : m.pattern.check operand = .ok ()) (hfinal : m.pattern.finalized = true)
    (hvalues : m.values.size = m.pattern.entryCount) (hcols : m.pattern.nCols + 1 < Size.limit)
    (hentries : m.pattern.entryCount < Size.limit) :
    ∃ triplets sparse, m.triplets = .ok triplets ∧ m.toSparse = .ok sparse ∧
      ∀ given : Array (Nat × Nat × α), given.toList.Perm triplets.toList →
        ofTriplets m.pattern.nRows m.pattern.nCols given none = .ok sparse := by
  have wf := Pattern.wellFormed_of_check hcheck
  obtain ⟨q, hq, hmode, wfq, same⟩ := Pattern.exists_toSparse wf hcols hentries
  refine ⟨_, ⟨q, m.values⟩, triplets_eq wf hvalues, by rw [toSparse, hq]; rfl, fun given perm => ?_⟩
  have hends : Result.Ends _ (Refused m.pattern.nRows m.pattern.nCols given.toList none)
      (ofTriplets m.pattern.nRows m.pattern.nCols given none) := ofTriplets_ends hcols given
  have hnot : ∀ e, ¬ Refused m.pattern.nRows m.pattern.nCols given.toList none e :=
    not_refused_of_perm perm (pairwise_triplets wf hvalues _ List.pairwise_lt_range)
      fun _ => lt_of_mem_triplets wf hvalues
  have hsparse : (SparseMatrix.mk q m.values).IsSparse m.pattern.nRows m.pattern.nCols := {
    mode := hmode
    rows := same.nRows
    columns := same.nCols
    finalized := same.finalized.trans hfinal
    check := fun _ => Pattern.check_eq_ok_iff.2 wfq
    values := hvalues.trans same.entryCount.symm }
  cases hresult : ofTriplets m.pattern.nRows m.pattern.nCols given none with
  | error e => exact absurd (hends.of_error hresult) (hnot e)
  | ok r =>
    have assembled := (hends.of_ok hresult).1
    refine congrArg _ (assembled.eq_of_mem_entriesAt_iff hsparse fun i j x => ?_)
    rw [entriesAt_of_sameEntries same, ← mem_triplets wf hvalues]
    exact perm.mem_iff

/-- The triplets of a hypersparse matrix with an empty slot, in another order than its own. -/
theorem ofTriplets_triplets_gapped : ofTriplets 3 4 #[(1, 3, 7), (2, 0, -3), (0, 0, 5)] none =
    .ok (⟨⟨3, 4, #[0, 2, 2, 2, 3], none, #[0, 2, 1], true⟩, #[5, -3, 7]⟩ : SparseMatrix Int) := by
  have hcheck : Sample.gapped.pattern.check .c = .ok () := rfl
  obtain ⟨triplets, sparse, htriplets, hsparse, hgiven⟩ :=
    ofTriplets_triplets hcheck rfl rfl (by decide) (by decide)
  have hread : Sample.gapped.triplets = .ok #[(0, 0, 5), (2, 0, -3), (1, 3, 7)] := by cbv
  have hput : Sample.gapped.toSparse =
      .ok ⟨⟨3, 4, #[0, 2, 2, 2, 3], none, #[0, 2, 1], true⟩, #[5, -3, 7]⟩ := by cbv
  cases htriplets.symm.trans hread
  cases hsparse.symm.trans hput
  exact hgiven _ (by decide)

end SparseMatrix

end SparseProduct
