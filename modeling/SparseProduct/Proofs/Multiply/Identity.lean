import Mathlib
import SparseProduct.Proofs.Identity
import SparseProduct.Proofs.Multiply.Storage
import SparseProduct.Proofs.Reference.Unique

/-!
# Products with the identity

A product with the identity has one pair to multiply where the other factor stores something, and none
elsewhere. One times a number, added to zero, is that number: this never overflows, whatever the number is.
So the product of either order is the other factor in sparse storage.
-/

namespace SparseProduct

namespace Whole

variable {k : IntKind}

theorem dot_one_left (x : Whole k) : SemiringOps.plusTimes.dot [(Numeric.one, x)] = .ok x := by
  rw [SemiringOps.dot_singleton]
  show (checked .multiply (1 * x.val) >>= fun t : Whole k => checked .add (0 + t.val)) = .ok x
  rw [Int.one_mul, checked_val, Result.ok_bind, Int.zero_add, checked_val]

theorem dot_one_right (x : Whole k) : SemiringOps.plusTimes.dot [(x, Numeric.one)] = .ok x := by
  rw [SemiringOps.dot_singleton]
  show (checked .multiply (x.val * 1) >>= fun t : Whole k => checked .add (0 + t.val)) = .ok x
  rw [Int.mul_one, checked_val, Result.ok_bind, Int.zero_add, checked_val]

end Whole

/-! ### The other factor in any storage -/

namespace SparseMatrix

variable {α : Type} {m m' : SparseMatrix α}

/-- The two matrices hold the same entries with the same values, in whatever storage. -/
structure Restored (m m' : SparseMatrix α) : Prop where
  entries : m.pattern.SameEntries m'.pattern
  wellFormed : m'.pattern.WellFormed
  values : m'.values = m.values

theorem Restored.refl (wf : m.pattern.WellFormed) : m.Restored m := ⟨.refl m.pattern, wf, rfl⟩

theorem Restored.of_withStorage (wf : m.pattern.WellFormed) {storage : Option StorageMode}
    (h : m.withStorage storage = .ok m') : m.Restored m' := by
  obtain ⟨hpattern, hvalues⟩ := SparseMatrix.of_withStorage h
  obtain ⟨wf', same⟩ := Pattern.sameEntries_of_withStorage wf hpattern
  exact ⟨same, wf', hvalues⟩

theorem Restored.size (hvalues : m.values.size = m.pattern.entryCount) (h : m.Restored m') :
    m'.values.size = m'.pattern.entryCount := by
  rw [h.values, hvalues, h.entries.entryCount]

section WellFormed

variable (wf : m.pattern.WellFormed) (hvalues : m.values.size = m.pattern.entryCount)
include wf hvalues

theorem Restored.get?_eq (h : m.Restored m') : m'.get? = m.get? := by
  funext i j
  have hentries := congrFun (entriesAt_of_sameEntries h.entries) j
  rw [← h.values] at hentries
  rw [get?_eq_lookup h.wellFormed (h.size hvalues), get?_eq_lookup wf hvalues, ← hentries]

theorem exists_toSparse (hfinal : m.pattern.finalized = true)
    (hcols : m.pattern.nCols + 1 < Size.limit) (hentries : m.pattern.entryCount < Size.limit) :
    ∃ sparse, m.toSparse = .ok sparse ∧ m.Restored sparse ∧
      sparse.IsSparse m.pattern.nRows m.pattern.nCols := by
  obtain ⟨q, hq, hmode, wfq, same⟩ := Pattern.exists_toSparse wf hcols hentries
  have restored : m.Restored ⟨q, m.values⟩ := ⟨same, wfq, rfl⟩
  refine ⟨⟨q, m.values⟩, by rw [toSparse, hq]; rfl, restored, ?_⟩
  exact {
    mode := hmode
    rows := same.nRows
    columns := same.nCols
    finalized := same.finalized.trans hfinal
    check := fun _ => Pattern.check_eq_ok_iff.2 wfq
    values := restored.size hvalues }

end WellFormed

theorem IsSparse.slotCount_eq {nRows nCols : Nat} (h : m.IsSparse nRows nCols) :
    m.pattern.slotCount = nCols := by
  rw [(Pattern.wellFormed_of_check (h.check .c)).slotCount_eq,
    Pattern.storageMode_eq_sparse_iff.1 h.mode, Option.elim_none, h.columns]

end SparseMatrix

section Products

variable {k : IntKind} {m m' e sparse : SparseMatrix (Whole k)} (wf : m.pattern.WellFormed)
  (hvalues : m.values.size = m.pattern.entryCount) (same : m.Restored m')
  (restored : m.Restored sparse) (isSparse : sparse.IsSparse m.pattern.nRows m.pattern.nCols)
include wf hvalues same restored isSparse

/-- However a matrix is stored, the identity times it is the matrix in sparse storage. -/
theorem isProduct_identity_left (he : e.IsIdentity m.pattern.nRows) :
    Factors e m' ∧ Reference.IsProduct .plusTimes e m' sparse := by
  have h : Factors e m' := {
    a_check := he.isSparse.check .a
    b_check := Pattern.check_eq_ok_iff.2 same.wellFormed
    a_values := he.isSparse.values
    b_values := same.size hvalues
    inner := he.isSparse.columns.trans same.entries.nRows.symm }
  refine ⟨h, .of_single h ?_ (fun i j => ?_) Whole.dot_one_left⟩
  · rwa [he.isSparse.rows, same.entries.nCols]
  · rw [he.meetings_left h, same.get?_eq wf hvalues, restored.get?_eq wf hvalues]

theorem isProduct_identity_right (he : e.IsIdentity m.pattern.nCols) :
    Factors m' e ∧ Reference.IsProduct .plusTimes m' e sparse := by
  have h : Factors m' e := {
    a_check := Pattern.check_eq_ok_iff.2 same.wellFormed
    b_check := he.isSparse.check .b
    a_values := same.size hvalues
    b_values := he.isSparse.values
    inner := same.entries.nCols.trans he.isSparse.rows.symm }
  refine ⟨h, .of_single h ?_ (fun i j => ?_) Whole.dot_one_right⟩
  · rwa [he.isSparse.columns, same.entries.nRows]
  · rw [he.meetings_right h, same.get?_eq wf hvalues, restored.get?_eq wf hvalues]

omit wf hvalues restored in
theorem accepted_identity_right (hfinal : m.pattern.finalized = true)
    (he : e.IsIdentity m.pattern.nCols) : Accepted sparse.pattern m'.pattern e.pattern none where
  finalized := ⟨isSparse.finalized, same.entries.finalized.trans hfinal, he.isSparse.finalized⟩
  rows := isSparse.rows.trans same.entries.nRows.symm
  columns := isSparse.columns.trans he.isSparse.columns.symm
  inner := same.entries.nCols.trans he.isSparse.rows.symm
  vectors := by rw [isSparse.slotCount_eq, he.isSparse.slotCount_eq]
  a_check := Pattern.check_eq_ok_iff.2 same.wellFormed
  b_check := he.isSparse.check .b
  c_check := isSparse.check .c
  mask := nofun

end Products

/-- The identity of the number of rows of a matrix times the matrix, and the matrix times the identity of
its number of columns, are the matrix in sparse storage. The reference finds both products, and a run over
the pattern of the product writes the values of the matrix, however the matrix is stored. With the matrix
on the right, its storage may have too few slots for the checks to pass; on the left they always pass. -/
theorem multiply_identity {k : IntKind} {m : SparseMatrix (Whole k)} {operand : Operand}
    (hcheck : m.pattern.check operand = .ok ()) (hfinal : m.pattern.finalized = true)
    (hvalues : m.values.size = m.pattern.entryCount) (hrows : m.pattern.nRows + 1 < Size.limit)
    (hcols : m.pattern.nCols + 1 < Size.limit) (hentries : m.pattern.entryCount < Size.limit) :
    ∃ left right sparse, SparseMatrix.identity m.pattern.nRows = .ok left ∧
      SparseMatrix.identity m.pattern.nCols = .ok right ∧ m.toSparse = .ok sparse ∧
      Reference.product .plusTimes left m = .ok sparse ∧
      Reference.product .plusTimes m right = .ok sparse ∧
      ∀ storage m', m.withStorage storage = .ok m' →
        ∀ (settings : Settings) (before : Buffers (Whole k)),
        before.values.size = m.pattern.entryCount → m.pattern.nRows ≤ before.slots.size →
        (checkOperands sparse.pattern left.pattern m'.pattern none settings = .ok () →
          ∃ counters after, multiply .plusTimes sparse.pattern left m' none settings before =
            .ok counters after ∧ after.values = m.values) ∧
        checkOperands sparse.pattern m'.pattern right.pattern none settings = .ok () ∧
          ∃ counters after, multiply .plusTimes sparse.pattern m' right none settings before =
            .ok counters after ∧ after.values = m.values := by
  have wf := Pattern.wellFormed_of_check hcheck
  obtain ⟨left, hleft, isLeft⟩ := SparseMatrix.exists_identity (α := Whole k) hrows
  obtain ⟨right, hright, isRight⟩ := SparseMatrix.exists_identity (α := Whole k) hcols
  obtain ⟨sparse, hsparse, restored, isSparse⟩ :=
    SparseMatrix.exists_toSparse wf hvalues hfinal hcols hentries
  obtain ⟨h, isProduct⟩ := isProduct_identity_left wf hvalues (.refl wf) restored isSparse isLeft
  obtain ⟨h', isProduct'⟩ := isProduct_identity_right wf hvalues (.refl wf) restored isSparse isRight
  refine ⟨left, right, sparse, hleft, hright, hsparse, isProduct.product_eq h hcols,
    isProduct'.product_eq h' (isRight.isSparse.columns.symm ▸ hcols), ?_⟩
  intro storage m' hm' settings before hsize hroom
  have same := SparseMatrix.Restored.of_withStorage wf hm'
  have hsize' : before.values.size = sparse.pattern.entryCount :=
    hsize.trans restored.entries.entryCount.symm
  have hroom' : sparse.pattern.nRows ≤ before.slots.size := isSparse.rows.symm ▸ hroom
  rw [← restored.values]
  refine ⟨fun hoperands => ?_, ?_⟩
  · obtain ⟨h, isProduct⟩ := isProduct_identity_left wf hvalues same restored isSparse isLeft
    have accepted : Accepted sparse.pattern left.pattern m'.pattern none :=
      .of_checkOperands hoperands h.a_check h.b_check (isSparse.check .c) nofun
    exact isProduct.multiply_eq accepted h.a_values h.b_values settings hsize' hroom'
  · obtain ⟨h, isProduct⟩ := isProduct_identity_right wf hvalues same restored isSparse isRight
    have accepted := accepted_identity_right same isSparse hfinal isRight
    exact ⟨accepted.checkOperands_eq settings,
      isProduct.multiply_eq accepted h.a_values h.b_values settings hsize' hroom'⟩

/-! ### The ends of eight bits

Column 1 has no slot, and column 2 has one without entries. -/

namespace Sample

def ends : SparseMatrix (Whole Int8Kind) :=
  ofInts ⟨3, 4, #[0, 2, 2, 3], some #[0, 2, 3], #[0, 2, 1], true⟩ #[127, -128, 0]

def endsSparse : SparseMatrix (Whole Int8Kind) :=
  ofInts ⟨3, 4, #[0, 2, 2, 2, 3], none, #[0, 2, 1], true⟩ #[127, -128, 0]

end Sample

theorem multiply_identity_int8 :
    ∃ left right, SparseMatrix.identity 3 = .ok left ∧ SparseMatrix.identity 4 = .ok right ∧
      Reference.product .plusTimes left Sample.ends = .ok Sample.endsSparse ∧
      Reference.product .plusTimes Sample.ends right = .ok Sample.endsSparse ∧
      (∃ counters after, multiply .plusTimes Sample.endsSparse.pattern left Sample.endsSparse none
        (.standard 1) ⟨Array.replicate 3 Numeric.top, Array.replicate 4 Numeric.top⟩ =
          .ok counters after ∧ after.values = Sample.ends.values) ∧
      ∃ counters after, multiply .plusTimes Sample.endsSparse.pattern Sample.ends right none
        (.standard 1) ⟨Array.replicate 3 Numeric.top, Array.replicate 4 Numeric.top⟩ =
          .ok counters after ∧ after.values = Sample.ends.values := by
  have hsparse : Sample.ends.toSparse = .ok Sample.endsSparse := by cbv
  obtain ⟨left, right, sparse, hleft, hright, htoSparse, hproduct, hproduct', hruns⟩ :=
    multiply_identity (show Sample.ends.pattern.check .b = .ok () from rfl) rfl (by cbv) (by decide)
      (by decide) (by decide)
  cases htoSparse.symm.trans hsparse
  have hidentity : (SparseMatrix.identity 3 : Result (SparseMatrix (Whole Int8Kind))) =
      .ok (Sample.ofInts ⟨3, 3, #[0, 1, 2, 3], none, #[0, 1, 2], true⟩ #[1, 1, 1]) := by cbv
  cases hleft.symm.trans hidentity
  refine ⟨_, right, hleft, hright, hproduct, hproduct', ?_, ?_⟩
  · exact (hruns (some .sparse) Sample.endsSparse hsparse (.standard 1)
      ⟨Array.replicate 3 Numeric.top, Array.replicate 4 Numeric.top⟩ rfl (by decide)).1 rfl
  · exact (hruns none Sample.ends rfl (.standard 1)
      ⟨Array.replicate 3 Numeric.top, Array.replicate 4 Numeric.top⟩ rfl (by decide)).2.2

end SparseProduct
