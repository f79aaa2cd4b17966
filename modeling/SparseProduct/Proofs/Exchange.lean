import Mathlib.Data.List.Chain
import SparseProduct.Exchange
import SparseProduct.Proofs.Columns
import SparseProduct.Proofs.Pattern.RoundTrip

/-!
# To another tool and back

A tool is held to a contract: of arrays whose pointers start at zero it accepts those of a compressed matrix and
no others, and it keeps them as they are. A pattern in sparse storage that passes its own check has such arrays,
so no tool refuses it, and the matrix comes back in sparse storage. A tool that takes other offsets as well may
keep the contract, and `CompressedMatrix.tool` does.
-/

namespace SparseProduct

namespace Pattern

theorem firstDescent_eq_none_iff {xs : List Nat} : firstDescent xs = none ↔ xs.Pairwise (· < ·) := by
  refine ⟨pairwise_of_firstDescent, fun inc => ?_⟩
  cases hdescent : firstDescent xs with
  | none => rfl
  | some pair =>
    obtain ⟨hin, hle⟩ := firstDescent_eq_some hdescent
    exact absurd (PatternDefect.lt_of_neighbours inc hin) (Nat.not_lt.2 hle)

end Pattern

namespace CompressedTool

variable {α M : Type}

/-- The arrays of a matrix compressed by columns. -/
structure IsCompressed (nRows nCols : Nat) (pointers indices : Array Nat) (data : Array α) : Prop where
  data_count : data.size = indices.size
  pointer_count : pointers.size = nCols + 1
  first_pointer : pointers[0]? = some 0
  pointers_monotone : pointers.toList.Pairwise (· ≤ ·)
  last_pointer : pointers[nCols]? = some indices.size
  indices_increasing : ∀ j start stop : Nat, pointers[j]? = some start → pointers[j + 1]? = some stop →
    (indices.extract start stop).toList.Pairwise (· < ·)
  indices_bounded : ∀ j start stop : Nat, pointers[j]? = some start → pointers[j + 1]? = some stop →
    ∀ i ∈ indices.extract start stop, i < nRows

theorem IsCompressed.pointer_le {nRows nCols : Nat} {pointers indices : Array Nat} {data : Array α}
    (h : IsCompressed nRows nCols pointers indices data) {pointer : Nat} (hmem : pointer ∈ pointers) :
    pointer ≤ indices.size := by
  have hcount := h.pointer_count
  obtain ⟨j, hj, rfl⟩ := Array.mem_iff_getElem.1 hmem
  obtain ⟨hin, hlast⟩ := Array.getElem?_eq_some_iff.1 h.last_pointer
  rw [← hlast]
  rcases Nat.lt_or_eq_of_le (show j ≤ nCols by omega) with hlt | rfl
  · exact List.pairwise_iff_getElem.1 h.pointers_monotone j nCols hj hin hlt
  · exact Nat.le_refl _

/-- What a tool promises. What it does with pointers that start elsewhere than at zero is left open. -/
structure Contract (tool : CompressedTool α M) : Prop where
  make_iff : ∀ {nRows nCols : Nat} {pointers indices : Array Nat} {data : Array α},
    nCols + 1 < Size.limit → pointers[0]? = some 0 →
      ((∃ m, tool.make nRows nCols pointers indices data = .ok m) ↔
        IsCompressed nRows nCols pointers indices data)
  isByColumns : ∀ {nRows nCols pointers indices data m},
    tool.make nRows nCols pointers indices data = .ok m → tool.isByColumns m = true
  shape : ∀ {nRows nCols pointers indices data m},
    tool.make nRows nCols pointers indices data = .ok m → tool.shape m = (nRows, nCols)
  arrays : ∀ {nRows nCols pointers indices data m},
    tool.make nRows nCols pointers indices data = .ok m → tool.arrays m = (pointers, indices, data)

end CompressedTool

namespace CompressedMatrix

variable {α : Type}

/-- What the arrays of a compressed matrix are. The first pointer need not be zero. -/
structure WellFormed (m : CompressedMatrix α) : Prop where
  data_count : m.data.size = m.indices.size
  pointer_count : m.pointers.size = m.outerCount + 1
  pointers_monotone : m.pointers.toList.Pairwise (· ≤ ·)
  pointers_bounded : ∀ pointer ∈ m.pointers, pointer ≤ max pointerLimit m.indices.size
  index_count : m.indices.size = m.pointers.back?.getD 0 - m.offset
  indices_increasing : ∀ outer < m.outerCount, (m.outerIndices outer).toList.Pairwise (· < ·)
  indices_bounded : ∀ outer < m.outerCount, ∀ i ∈ m.outerIndices outer, i < m.innerCount

theorem isMonotone_iff {xs : List Nat} : isMonotone xs = true ↔ xs.Pairwise (· ≤ ·) := by
  rw [← List.isChain_iff_pairwise]
  fun_induction isMonotone xs with
  | case1 x y rest ih => rw [Bool.and_eq_true, decide_eq_true_eq, ih, List.isChain_cons_cons]
  | case2 xs hne =>
    match xs, hne with
    | [], _ => simp
    | [x], _ => simp
    | x :: y :: rest, hne => exact absurd rfl (hne x y rest)

theorem acceptsOuter_iff {m : CompressedMatrix α} {outer : Nat} : m.acceptsOuter outer = true ↔
    (m.outerIndices outer).toList.Pairwise (· < ·) ∧ ∀ i ∈ m.outerIndices outer, i < m.innerCount := by
  rw [acceptsOuter, Bool.and_eq_true, Option.isNone_iff_eq_none, Pattern.firstDescent_eq_none_iff,
    Array.all_eq_true_iff_forall_mem]
  simp only [decide_eq_true_eq]

theorem hasPointers_iff {m : CompressedMatrix α} : m.hasPointers = true ↔
    m.data.size = m.indices.size ∧ 0 < m.pointers.size ∧ m.pointers.toList.Pairwise (· ≤ ·) ∧
      ∀ pointer ∈ m.pointers, pointer ≤ max pointerLimit m.indices.size := by
  simp only [hasPointers, Bool.and_eq_true, beq_iff_eq, decide_eq_true_eq, isMonotone_iff,
    Array.all_eq_true_iff_forall_mem, and_assoc]

theorem accepts_iff {m : CompressedMatrix α} {pointerCount : Nat} : m.accepts pointerCount = true ↔
    m.pointers.size = pointerCount ∧ m.indices.size = m.pointers.back?.getD 0 - m.offset ∧
      ∀ outer < m.outerCount, (m.outerIndices outer).toList.Pairwise (· < ·) ∧
        ∀ i ∈ m.outerIndices outer, i < m.innerCount := by
  simp only [accepts, Bool.and_eq_true, beq_iff_eq, List.all_eq_true, List.mem_range, acceptsOuter_iff,
    and_assoc]

theorem wellFormed_iff {m : CompressedMatrix α} :
    m.WellFormed ↔ m.hasPointers = true ∧ m.accepts (m.outerCount + 1) = true := by
  rw [hasPointers_iff, accepts_iff]
  constructor
  · intro wf
    exact ⟨⟨wf.data_count, wf.pointer_count ▸ Nat.succ_pos _, wf.pointers_monotone, wf.pointers_bounded⟩,
      wf.pointer_count, wf.index_count, fun outer houter =>
        ⟨wf.indices_increasing outer houter, wf.indices_bounded outer houter⟩⟩
  · rintro ⟨⟨hdata, -, hmonotone, hbounded⟩, hcount, hindices, houter⟩
    exact ⟨hdata, hcount, hmonotone, hbounded, hindices, fun outer h => (houter outer h).1,
      fun outer h => (houter outer h).2⟩

theorem make_eq_ok_iff {byRows : Bool} {nRows nCols : Nat} {pointers indices : Array Nat}
    {data : Array α} {m : CompressedMatrix α} : make byRows nRows nCols pointers indices data = .ok m ↔
      m = ⟨byRows, nRows, nCols, pointers, indices, data⟩ ∧ m.outerCount + 1 < Size.limit ∧
        m.WellFormed := by
  unfold make
  generalize CompressedMatrix.mk byRows nRows nCols pointers indices data = built
  dsimp only
  rw [Result.refuse_eq_ok, Bool.not_eq_true', Bool.not_eq_false]
  simp only [Result.bind_eq_ok, Size.add_eq_ok]
  constructor
  · rintro ⟨hpointers, _, ⟨hcount, rfl⟩, h⟩
    by_cases haccepts : built.accepts (built.outerCount + 1) = true
    · rw [if_pos haccepts] at h
      cases h
      exact ⟨rfl, hcount, wellFormed_iff.2 ⟨hpointers, haccepts⟩⟩
    · rw [if_neg haccepts] at h
      cases h
  · rintro ⟨rfl, hcount, wf⟩
    obtain ⟨hpointers, haccepts⟩ := wellFormed_iff.1 wf
    exact ⟨hpointers, _, ⟨hcount, rfl⟩, if_pos haccepts⟩

section ByColumns

variable {nRows nCols : Nat} {pointers indices : Array Nat} {data : Array α}

theorem outerIndices_eq (hfirst : pointers[0]? = some 0) {j start stop : Nat}
    (hstart : pointers[j]? = some start) (hstop : pointers[j + 1]? = some stop) :
    (CompressedMatrix.mk false nRows nCols pointers indices data).outerIndices j =
      indices.extract start stop := by
  simp only [outerIndices, outerSpan, offset, hfirst, hstart, hstop, Option.getD_some, Nat.sub_zero]

theorem back?_eq (hcount : pointers.size = nCols + 1) : pointers.back? = pointers[nCols]? := by
  rw [Array.back?, hcount, Nat.add_sub_cancel]

theorem lt_of_pointer (hcount : pointers.size = nCols + 1) {j stop : Nat}
    (hstop : pointers[j + 1]? = some stop) : j < nCols := by
  have hlt := (Array.getElem?_eq_some_iff.1 hstop).1
  omega

theorem isCompressed_of_wellFormed (hfirst : pointers[0]? = some 0)
    (wf : (CompressedMatrix.mk false nRows nCols pointers indices data).WellFormed) :
    CompressedTool.IsCompressed nRows nCols pointers indices data where
  data_count := wf.data_count
  pointer_count := wf.pointer_count
  first_pointer := hfirst
  pointers_monotone := wf.pointers_monotone
  last_pointer := by
    have hcount : pointers.size = nCols + 1 := wf.pointer_count
    have hindices := wf.index_count
    simp only [offset, hfirst, back?_eq hcount, Option.getD_some, Nat.sub_zero] at hindices
    rw [hindices, Array.getElem?_eq_getElem (by omega), Option.getD_some]
  indices_increasing j start stop hstart hstop := by
    have hinc := wf.indices_increasing j (lt_of_pointer wf.pointer_count hstop)
    rwa [outerIndices_eq hfirst hstart hstop] at hinc
  indices_bounded j start stop hstart hstop := by
    have hbounded := wf.indices_bounded j (lt_of_pointer wf.pointer_count hstop)
    rwa [outerIndices_eq hfirst hstart hstop] at hbounded

theorem wellFormed_of_isCompressed (h : CompressedTool.IsCompressed nRows nCols pointers indices data) :
    (CompressedMatrix.mk false nRows nCols pointers indices data).WellFormed := by
  have hcount := h.pointer_count
  have hlast := h.last_pointer
  have hpointer : ∀ j ≤ nCols, ∃ pointer, pointers[j]? = some pointer := fun j hj =>
    ⟨_, Array.getElem?_eq_getElem (hcount ▸ Nat.lt_succ_of_le hj)⟩
  exact {
    data_count := h.data_count
    pointer_count := hcount
    pointers_monotone := h.pointers_monotone
    pointers_bounded := fun pointer hmem => Nat.le_trans (h.pointer_le hmem) (Nat.le_max_right _ _)
    index_count := by
      simp only [offset, h.first_pointer, back?_eq hcount, hlast, Option.getD_some, Nat.sub_zero]
    indices_increasing := fun j hj => by
      obtain ⟨start, hstart⟩ := hpointer j (Nat.le_of_lt hj)
      obtain ⟨stop, hstop⟩ := hpointer (j + 1) hj
      rw [outerIndices_eq h.first_pointer hstart hstop]
      exact h.indices_increasing j start stop hstart hstop
    indices_bounded := fun j hj => by
      obtain ⟨start, hstart⟩ := hpointer j (Nat.le_of_lt hj)
      obtain ⟨stop, hstop⟩ := hpointer (j + 1) hj
      rw [outerIndices_eq h.first_pointer hstart hstop]
      exact h.indices_bounded j start stop hstart hstop }

end ByColumns

/-- The tool keeps the contract, though it takes pointers that start anywhere. -/
theorem tool_contract : (tool : CompressedTool α (CompressedMatrix α)).Contract where
  make_iff hcols hfirst := by
    constructor
    · rintro ⟨m, hm⟩
      obtain ⟨rfl, -, wf⟩ := make_eq_ok_iff.1 hm
      exact isCompressed_of_wellFormed hfirst wf
    · intro h
      exact ⟨_, make_eq_ok_iff.2 ⟨rfl, hcols, wellFormed_of_isCompressed h⟩⟩
  isByColumns hm := by
    obtain ⟨rfl, -, -⟩ := make_eq_ok_iff.1 hm
    rfl
  shape hm := by
    obtain ⟨rfl, -, -⟩ := make_eq_ok_iff.1 hm
    rfl
  arrays hm := by
    obtain ⟨rfl, -, -⟩ := make_eq_ok_iff.1 hm
    rfl

end CompressedMatrix

/-! ### A matrix in sparse storage is a compressed matrix -/

section Sparse

variable {α : Type} {p : Pattern} (wf : p.WellFormed) (hnone : p.colIds = none)
include wf

theorem Pattern.WellFormed.rowIdx_lt {row : Nat} (h : row ∈ p.rowIdx) : row < p.nRows := by
  obtain ⟨entry, hentry, rfl⟩ := Array.mem_iff_getElem.1 h
  obtain ⟨slot, hslot, hmem⟩ := wf.exists_slot hentry
  rw [← wf.columnSpan_slotColumn hslot] at hmem
  have hlt := wf.rowAt_lt hmem
  rwa [rowAt, Array.getElem?_eq_getElem hentry, Option.getD_some] at hlt

include hnone

theorem Pattern.size_colPtr_of_sparse : p.colPtr.size = p.nCols + 1 := by
  have hsize := wf.vector_count
  rwa [hnone, Option.elim_none] at hsize

theorem Pattern.last_pointer_of_sparse : p.colPtr[p.nCols]? = some p.rowIdx.size := by
  rw [← wf.last_pointer, Array.back?, size_colPtr_of_sparse wf hnone, Nat.add_sub_cancel]

/-- The arrays of a well-formed pattern in sparse storage are those of a compressed matrix. -/
theorem Pattern.isCompressed {values : Array α} (hvalues : values.size = p.entryCount) :
    CompressedTool.IsCompressed p.nRows p.nCols p.colPtr p.rowIdx values where
  data_count := hvalues
  pointer_count := size_colPtr_of_sparse wf hnone
  first_pointer := wf.first_pointer
  pointers_monotone := wf.pointers_monotone
  last_pointer := last_pointer_of_sparse wf hnone
  indices_increasing j start stop hstart hstop :=
    wf.rows_increasing j ⟨start, stop⟩ (vectorRange_eq_ok.2 ⟨hstart, hstop⟩)
  indices_bounded j start stop hstart hstop i hi :=
    wf.rows_bounded j ⟨start, stop⟩ (vectorRange_eq_ok.2 ⟨hstart, hstop⟩) i (Array.mem_toList_iff.2 hi)

theorem SparseMatrix.ofPointers_pattern (hfinal : p.finalized = true) (hcols : p.nCols + 1 < Size.limit)
    {values : Array α} (hvalues : values.size = p.entryCount) :
    ofPointers p.nRows p.nCols p.colPtr p.rowIdx values = .ok ⟨p, values⟩ := by
  rw [ofPointers_eq hcols (fun _ => wf.rowIdx_lt) hvalues (Pattern.size_colPtr_of_sparse wf hnone)
    (Pattern.last_pointer_of_sparse wf hnone), ← hnone, ← hfinal]

end Sparse

namespace SparseMatrix

variable {α M : Type} {tool : CompressedTool α M}

theorem importFrom_make (contract : tool.Contract) {nRows nCols : Nat} {pointers indices : Array Nat}
    {data : Array α} {m : M} (h : tool.make nRows nCols pointers indices data = .ok m) :
    importFrom tool m = ofPointers nRows nCols pointers indices data := by
  rw [importFrom, if_pos (contract.isByColumns h), pure_bind]
  simp only [contract.shape h, contract.arrays h]

/-- A matrix in either storage has a finalized pattern that passes its check, and a value for each entry; its
number of columns and one more, and its number of entries, are sizes. No tool that keeps the contract refuses
it, and read back from the tool it is the matrix in sparse storage, pattern and values. -/
theorem compressed_roundTrip (contract : tool.Contract) {m : SparseMatrix α} {operand : Operand}
    (hcheck : m.pattern.check operand = .ok ()) (hfinal : m.pattern.finalized = true)
    (hvalues : m.values.size = m.pattern.entryCount) (hcols : m.pattern.nCols + 1 < Size.limit)
    (hentries : m.pattern.entryCount < Size.limit) :
    ∃ out sparse, m.exportTo tool = .ok out ∧ m.toSparse = .ok sparse ∧
      importFrom tool out = .ok sparse := by
  obtain ⟨sparse, hsparse, hmode, wf, same⟩ :=
    Pattern.exists_toSparse (Pattern.wellFormed_of_check hcheck) hcols hentries
  have hnone := Pattern.storageMode_eq_sparse_iff.1 hmode
  rw [← same.entryCount] at hvalues
  rw [← same.nCols] at hcols
  have hmatrix : m.toSparse = .ok ⟨sparse, m.values⟩ := by
    rw [toSparse, hsparse]
    rfl
  obtain ⟨out, hout⟩ := (contract.make_iff hcols wf.first_pointer).2 (Pattern.isCompressed wf hnone hvalues)
  refine ⟨out, ⟨sparse, m.values⟩, ?_, hmatrix, ?_⟩
  · rw [exportTo, hmatrix, Result.ok_bind]
    exact hout
  · rw [importFrom_make contract hout]
    exact ofPointers_pattern wf hnone (same.finalized.trans hfinal) hcols hvalues

/-- Columns 0, 2 and 5 have no slot, and the slot of column 3 holds nothing. -/
theorem compressed_roundTrip_hypersparse :
    (CompressedMatrix.tool : CompressedTool Nat _).Contract ∧
      exportTo CompressedMatrix.tool ⟨⟨4, 6, #[0, 2, 2, 3], some #[1, 3, 4], #[0, 2, 1], true⟩, #[5, 7, 9]⟩ =
        .ok ⟨false, 4, 6, #[0, 0, 2, 2, 2, 3, 3], #[0, 2, 1], #[5, 7, 9]⟩ ∧
      importFrom CompressedMatrix.tool ⟨false, 4, 6, #[0, 0, 2, 2, 2, 3, 3], #[0, 2, 1], #[5, 7, 9]⟩ =
        .ok ⟨⟨4, 6, #[0, 0, 2, 2, 2, 3, 3], none, #[0, 2, 1], true⟩, #[5, 7, 9]⟩ := by
  have hcheck : Pattern.check ⟨4, 6, #[0, 2, 2, 3], some #[1, 3, 4], #[0, 2, 1], true⟩ .a = .ok () := rfl
  obtain ⟨out, sparse, hout, hsparse, hback⟩ :=
    compressed_roundTrip CompressedMatrix.tool_contract (m := ⟨_, #[5, 7, 9]⟩) hcheck rfl rfl (by decide)
      (by decide)
  have hexpanded : toSparse ⟨⟨4, 6, #[0, 2, 2, 3], some #[1, 3, 4], #[0, 2, 1], true⟩, #[5, 7, 9]⟩ =
      .ok ⟨⟨4, 6, #[0, 0, 2, 2, 2, 3, 3], none, #[0, 2, 1], true⟩, #[5, 7, 9]⟩ := rfl
  have hstored : exportTo CompressedMatrix.tool
      ⟨⟨4, 6, #[0, 2, 2, 3], some #[1, 3, 4], #[0, 2, 1], true⟩, #[5, 7, 9]⟩ =
      .ok ⟨false, 4, 6, #[0, 0, 2, 2, 2, 3, 3], #[0, 2, 1], #[5, 7, 9]⟩ := by decide +kernel
  cases hexpanded.symm.trans hsparse
  cases hstored.symm.trans hout
  exact ⟨CompressedMatrix.tool_contract, hout, hback⟩

end SparseMatrix

end SparseProduct
