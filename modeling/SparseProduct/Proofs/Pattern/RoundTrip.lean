import Mathlib.Data.List.Sort
import SparseProduct.Proofs.Pattern.Convert

/-!
# There and back between the storages

The pointers of a well-formed pattern count the entries before the columns that have slots. So patterns
with the same entries and the same column ids are one pattern, and a change of storage and back gives the
pattern again as soon as it gives back the ids. Sparse storage has no ids to lose. From hypersparse storage
the ids of the columns with entries come back, and only the slots without entries are gone.
-/

namespace SparseProduct

namespace Pattern

def slotColumns (p : Pattern) : List Nat := (List.range p.slotCount).map p.slotColumn

def fullSlots (p : Pattern) : List Nat :=
  (List.range p.slotCount).filter fun slot => !(p.slotSpan slot).isEmpty

/-- The hypersparse pattern without its slots that hold no entries. -/
def withoutEmptySlots (p : Pattern) : Pattern :=
  { p with
    colPtr := (0 :: p.fullSlots.map fun slot => (p.slotSpan slot).stop).toArray
    colIds := some (p.fullSlots.map p.slotColumn).toArray }

/-- A pattern passes its check, and of another one it has the dimensions, the rows of all entries, the
state of pending work, and in each column the same rows at the same positions. -/
structure SameColumns (p q : Pattern) : Prop where
  check : ∀ operand, q.check operand = .ok ()
  nRows : q.nRows = p.nRows
  nCols : q.nCols = p.nCols
  rowIdx : q.rowIdx = p.rowIdx
  finalized : q.finalized = p.finalized
  columns : ∀ j, ∃ range range' rows, p.columnRange j = .ok range ∧ q.columnRange j = .ok range' ∧
    range'.positions = range.positions ∧ p.columnRows j = .ok rows ∧ q.columnRows j = .ok rows

/-! ### Pointers from columns -/

namespace WellFormed

variable {p : Pattern} (wf : p.WellFormed)
include wf

theorem slotsBefore_eq {j count : Nat} (hj : j ≤ p.nCols) (hcount : count ≤ p.slotCount)
    (h : ∀ slot < p.slotCount, slot < count ↔ p.slotColumn slot < j) : p.slotsBefore j = count := by
  refine Nat.le_antisymm (Nat.le_of_not_lt fun hlt => ?_) (Nat.le_of_not_lt fun hlt => ?_)
  · have hslot := Nat.lt_of_lt_of_le hlt (wf.slotsBefore_le hj)
    exact Nat.lt_irrefl _ ((h count hslot).2 ((wf.lt_slotsBefore_iff hslot).1 hlt))
  · have hslot := Nat.lt_of_lt_of_le hlt hcount
    exact Nat.lt_irrefl _ ((wf.lt_slotsBefore_iff hslot).2 ((h _ hslot).1 hlt))

theorem slotColumn_lt_iff {slot other : Nat} (h : slot < p.slotCount) (h' : other < p.slotCount) :
    p.slotColumn slot < p.slotColumn other ↔ slot < other := by
  refine ⟨fun hlt => Nat.lt_of_not_le fun hle => ?_, fun hlt => wf.slotColumn_lt_slotColumn hlt h'⟩
  rcases Nat.lt_or_eq_of_le hle with hgt | rfl
  · exact Nat.lt_asymm hlt (wf.slotColumn_lt_slotColumn hgt h)
  · exact Nat.lt_irrefl _ hlt

theorem slotSpan_eq {slot : Nat} (h : slot < p.slotCount) : p.slotSpan slot =
    ⟨p.entriesBefore (p.slotColumn slot), p.entriesBefore (p.slotColumn slot + 1)⟩ := by
  have hj := wf.slotColumn_lt h
  have hbefore : p.slotsBefore (p.slotColumn slot) = slot :=
    wf.slotsBefore_eq (Nat.le_of_lt hj) (Nat.le_of_lt h) fun other hother =>
      (wf.slotColumn_lt_iff hother h).symm
  have hthrough : p.slotsBefore (p.slotColumn slot + 1) = slot + 1 := by
    refine wf.slotsBefore_eq hj h fun other hother => ?_
    rw [Nat.lt_succ_iff, Nat.lt_succ_iff, ← Nat.not_lt, ← Nat.not_lt, wf.slotColumn_lt_iff h hother]
  rw [entriesBefore, entriesBefore, hbefore, hthrough]
  rfl

theorem colPtr_eq : p.colPtr.toList = 0 :: p.slotColumns.map fun j => p.entriesBefore (j + 1) := by
  have hsize := wf.size_colPtr
  apply List.ext_getElem?
  intro n
  rw [Array.getElem?_toList]
  cases n with
  | zero => exact wf.first_pointer
  | succ slot =>
    rw [List.getElem?_cons_succ, slotColumns, List.map_map, List.getElem?_map]
    by_cases hslot : slot < p.slotCount
    · have hstop : p.colPtr[slot + 1]?.getD 0 = p.entriesBefore (p.slotColumn slot + 1) :=
        congrArg Span.stop (wf.slotSpan_eq hslot)
      rw [Array.getElem?_eq_getElem (by omega), Option.getD_some] at hstop
      rw [List.getElem?_range hslot, Array.getElem?_eq_getElem (by omega), hstop]
      rfl
    · have hlength : (List.range p.slotCount).length ≤ slot := by
        rw [List.length_range]
        exact Nat.not_lt.1 hslot
      rw [List.getElem?_eq_none hlength, Array.getElem?_eq_none (by omega), Option.map_none]

theorem slotColumns_hypersparse {ids : Array Nat} (hids : p.colIds = some ids) :
    p.slotColumns = ids.toList := by
  have hcount := wf.slotCount_eq
  rw [hids, Option.elim_some] at hcount
  apply List.ext_getElem?
  intro slot
  rw [slotColumns, List.getElem?_map]
  by_cases hslot : slot < p.slotCount
  · rw [List.getElem?_range hslot, Option.map_some, Array.getElem?_toList, wf.getElem_ids hids hslot]
  · have hlength : (List.range p.slotCount).length ≤ slot := by
      rw [List.length_range]
      exact Nat.not_lt.1 hslot
    rw [List.getElem?_eq_none hlength, Option.map_none, Array.getElem?_toList,
      Array.getElem?_eq_none (by omega)]

theorem pairwise_slotColumn {slots : List Nat} (inc : slots.Pairwise (· < ·))
    (h : ∀ slot ∈ slots, slot < p.slotCount) : (slots.map p.slotColumn).Pairwise (· < ·) :=
  List.pairwise_map.2 <| inc.imp_of_mem fun _ hlater hlt => wf.slotColumn_lt_slotColumn hlt (h _ hlater)

theorem columnRows_eq (j : Nat) :
    p.columnRows j = .ok ((p.columnSpan j).positions.map p.rowAt).toArray := by
  have hstop : (p.columnSpan j).stop ≤ p.rowIdx.size := wf.columnSpan_stop_le j
  rw [columnRows, wf.columnRange_eq, Result.ok_bind, Span.cut_of_le (wf.columnSpan_le j) hstop,
    ← rowsIn_eq hstop]
  rfl

end WellFormed

/-! ### A pattern is its entries and its column ids -/

namespace SameEntries

variable {p q : Pattern} (wf : p.WellFormed) (wf' : q.WellFormed) (h : p.SameEntries q)

theorem trans {r : Pattern} (h : p.SameEntries q) (h' : q.SameEntries r) : p.SameEntries r where
  nRows := h'.nRows.trans h.nRows
  nCols := h'.nCols.trans h.nCols
  rowIdx := h'.rowIdx.trans h.rowIdx
  finalized := h'.finalized.trans h.finalized
  positions j := (h'.positions j).trans (h.positions j)

include wf wf' h

theorem entriesBefore {j : Nat} (hj : j ≤ p.nCols) : q.entriesBefore j = p.entriesBefore j := by
  rw [← sum_lengths wf hj, ← sum_lengths wf' (h.nCols ▸ hj)]
  exact congrArg List.sum (List.map_congr_left fun k _ => h.length k)

theorem colPtr (hcolumns : q.slotColumns = p.slotColumns) : q.colPtr = p.colPtr := by
  apply Array.toList_inj.1
  rw [wf'.colPtr_eq, wf.colPtr_eq, hcolumns]
  refine congrArg (List.cons 0) (List.map_congr_left fun j hj => ?_)
  obtain ⟨slot, hslot, rfl⟩ := List.mem_map.1 hj
  exact h.entriesBefore wf wf' (wf.slotColumn_lt (List.mem_range.1 hslot))

theorem eq_of_colIds (hids : q.colIds = p.colIds) : q = p := by
  have hcolumns : q.slotColumns = p.slotColumns := by
    have hcolumn : q.slotColumn = p.slotColumn := by
      funext slot
      rw [slotColumn, slotColumn, hids]
    rw [slotColumns, slotColumns, hcolumn, wf'.slotCount_eq, wf.slotCount_eq, hids, h.nCols]
  have hptr := h.colPtr wf wf' hcolumns
  cases p
  cases q
  rw [Pattern.mk.injEq]
  exact ⟨h.nRows, h.nCols, hptr, hids, h.rowIdx, h.finalized⟩

theorem sameColumns : p.SameColumns q where
  check _ := check_eq_ok_iff.2 wf'
  nRows := h.nRows
  nCols := h.nCols
  rowIdx := h.rowIdx
  finalized := h.finalized
  columns j := by
    refine ⟨_, _, _, wf.columnRange_eq j, wf'.columnRange_eq j, h.positions j, wf.columnRows_eq j, ?_⟩
    rw [wf'.columnRows_eq, h.positions, h.rowAt]

end SameEntries

/-! ### The slots with entries -/

section FullSlots

variable {p : Pattern} (wf : p.WellFormed)
include wf

theorem mem_fullSlots {slot : Nat} :
    slot ∈ p.fullSlots ↔ slot < p.slotCount ∧ p.Occupied (p.slotColumn slot) := by
  rw [fullSlots, List.mem_filter, List.mem_range, Bool.not_eq_true']
  refine and_congr_right fun hslot => ?_
  rw [wf.occupied_iff, wf.columnSpan_slotColumn hslot]

theorem map_fullSlots {columns : List Nat} (inc : columns.Pairwise (· < ·))
    (hmem : ∀ j, j ∈ columns ↔ p.Occupied j) : p.fullSlots.map p.slotColumn = columns := by
  have hfull : ∀ slot ∈ p.fullSlots, slot < p.slotCount := fun slot hslot =>
    ((mem_fullSlots wf).1 hslot).1
  refine (wf.pairwise_slotColumn (List.pairwise_lt_range.filter _) hfull).eq_of_mem_iff inc fun j => ?_
  rw [List.mem_map, hmem]
  constructor
  · rintro ⟨slot, hslot, rfl⟩
    exact ((mem_fullSlots wf).1 hslot).2
  · intro hj
    obtain ⟨slot, hslot, rfl⟩ := wf.exists_slot_of_occupied hj
    exact ⟨slot, (mem_fullSlots wf).2 ⟨hslot, hj⟩, rfl⟩

theorem eq_withoutEmptySlots {q : Pattern} (wf' : q.WellFormed) (h : p.SameEntries q)
    {ids : Array Nat} (hids : q.colIds = some ids) (hmem : ∀ j, j ∈ ids ↔ p.Occupied j) :
    q = p.withoutEmptySlots := by
  have hkept : p.fullSlots.map p.slotColumn = ids.toList :=
    map_fullSlots wf (wf'.ids_increasing ids hids) fun j => Array.mem_toList_iff.trans (hmem j)
  have hptr : q.colPtr = (0 :: p.fullSlots.map fun slot => (p.slotSpan slot).stop).toArray := by
    apply Array.toList_inj.1
    rw [wf'.colPtr_eq, wf'.slotColumns_hypersparse hids, ← hkept, List.map_map]
    refine congrArg (List.cons 0) (List.map_congr_left fun slot hslot => ?_)
    have hlt := ((mem_fullSlots wf).1 hslot).1
    rw [wf.slotSpan_eq hlt, Function.comp_apply, h.entriesBefore wf wf' (wf.slotColumn_lt hlt)]
  cases q
  rw [withoutEmptySlots, Pattern.mk.injEq]
  refine ⟨h.nRows, h.nCols, hptr, hids.trans ?_, h.rowIdx, h.finalized⟩
  rw [hkept]

theorem withoutEmptySlots_eq {ids : Array Nat} (hids : p.colIds = some ids)
    (hfull : ∀ slot < p.slotCount, (p.slotSpan slot).isEmpty = false) : p.withoutEmptySlots = p := by
  refine (eq_withoutEmptySlots wf wf (.refl p) hids fun j => ⟨fun hj => ?_, fun hj => ?_⟩).symm
  · rw [← Array.mem_toList_iff, ← wf.slotColumns_hypersparse hids] at hj
    obtain ⟨slot, hslot, rfl⟩ := List.mem_map.1 hj
    have hslot := List.mem_range.1 hslot
    rw [wf.occupied_iff, wf.columnSpan_slotColumn hslot]
    exact hfull slot hslot
  · obtain ⟨slot, hslot, rfl⟩ := wf.exists_slot_of_occupied hj
    exact Array.mem_of_getElem? (wf.getElem_ids hids hslot)

end FullSlots

/-! ### There and back -/

theorem storageMode_eq_sparse_iff {p : Pattern} : p.storageMode = .sparse ↔ p.colIds = none := by
  unfold storageMode isHypersparse
  cases p.colIds <;> simp

theorem storageMode_eq_hypersparse_iff {p : Pattern} :
    p.storageMode = .hypersparse ↔ ∃ ids, p.colIds = some ids := by
  unfold storageMode isHypersparse
  cases p.colIds <;> simp

section RoundTrip

variable {p : Pattern} (wf : p.WellFormed)
include wf

theorem exists_toHypersparse : ∃ q, p.toHypersparse = .ok q ∧ q.storageMode = .hypersparse ∧
    q.WellFormed ∧ p.SameEntries q := by
  cases hids : p.colIds with
  | none =>
    obtain ⟨q, ids, hq, hsome, -, hlaid⟩ := toHypersparse_eq wf hids
    exact ⟨q, hq, storageMode_eq_hypersparse_iff.2 ⟨ids, hsome⟩, hlaid.wellFormed wf,
      hlaid.sameEntries wf⟩
  | some ids =>
    exact ⟨p, toHypersparse_hypersparse (by rw [hids]; nofun),
      storageMode_eq_hypersparse_iff.2 ⟨ids, hids⟩, wf, .refl p⟩

theorem exists_toSparse (hcols : p.nCols + 1 < Size.limit) (hentries : p.entryCount < Size.limit) :
    ∃ q, p.toSparse = .ok q ∧ q.storageMode = .sparse ∧ q.WellFormed ∧ p.SameEntries q := by
  cases hids : p.colIds with
  | none => exact ⟨p, toSparse_sparse hids, storageMode_eq_sparse_iff.2 hids, wf, .refl p⟩
  | some ids =>
    obtain ⟨q, hq, hnone, hlaid⟩ := toSparse_eq wf hids hcols hentries
    exact ⟨q, hq, storageMode_eq_sparse_iff.2 hnone, hlaid.wellFormed wf, hlaid.sameEntries wf⟩

/-- From sparse to hypersparse storage and back is the identity. -/
theorem toSparse_of_toHypersparse (hcols : p.nCols + 1 < Size.limit)
    (hentries : p.entryCount < Size.limit) (hmode : p.storageMode = .sparse) {hyper : Pattern}
    (h : p.toHypersparse = .ok hyper) : hyper.toSparse = .ok p := by
  obtain ⟨hyper', hhyper, -, wfh, same⟩ := exists_toHypersparse wf
  cases hhyper.symm.trans h
  obtain ⟨back, hback, hsparse, wfb, same'⟩ :=
    exists_toSparse wfh (same.nCols ▸ hcols) (same.entryCount ▸ hentries)
  have hids : back.colIds = p.colIds :=
    (storageMode_eq_sparse_iff.1 hsparse).trans (storageMode_eq_sparse_iff.1 hmode).symm
  rw [hback, (same.trans same').eq_of_colIds wf wfb hids]

/-- From hypersparse to sparse storage and back only the slots without entries are lost. -/
theorem toHypersparse_of_toSparse (hmode : p.storageMode = .hypersparse) {sparse : Pattern}
    (h : p.toSparse = .ok sparse) : sparse.toHypersparse = .ok p.withoutEmptySlots := by
  obtain ⟨ids, hids⟩ := storageMode_eq_hypersparse_iff.1 hmode
  obtain ⟨hcols, hentries⟩ := lt_of_toSparse wf hids h
  obtain ⟨sparse', hsparse, hnone, wfs, same⟩ := exists_toSparse wf hcols hentries
  cases hsparse.symm.trans h
  obtain ⟨back, ids', hback, hids', hmem, hlaid⟩ :=
    toHypersparse_eq wfs (storageMode_eq_sparse_iff.1 hnone)
  have hoccupied : ∀ j, j ∈ ids' ↔ p.Occupied j := fun j =>
    (hmem j).trans (same.occupied_iff wf wfs)
  rw [hback, eq_withoutEmptySlots wf (hlaid.wellFormed wfs)
    (same.trans (hlaid.sameEntries wfs)) hids' hoccupied]

end RoundTrip

/-- A pattern that passes its check can be put in either storage if its number of columns and one more, and
its number of entries, are sizes. In either storage it passes the check and has the same columns. Going from
sparse storage to hypersparse and back gives the same pattern. Going from hypersparse storage to sparse and
back removes the slots without entries, so it gives the same pattern if there are none. -/
theorem storage_roundTrip {p : Pattern} {operand : Operand} (hcheck : p.check operand = .ok ())
    (hcols : p.nCols + 1 < Size.limit) (hentries : p.entryCount < Size.limit) :
    ∃ hyper sparse, p.toHypersparse = .ok hyper ∧ p.toSparse = .ok sparse ∧
      hyper.storageMode = .hypersparse ∧ sparse.storageMode = .sparse ∧
      p.SameColumns hyper ∧ p.SameColumns sparse ∧
      (p.storageMode = .sparse → hyper.toSparse = .ok p) ∧
      (p.storageMode = .hypersparse → sparse.toHypersparse = .ok p.withoutEmptySlots ∧
        ((∀ slot range, p.vectorRange slot = .ok range → range.isEmpty = false) →
          sparse.toHypersparse = .ok p)) := by
  have wf := wellFormed_of_check hcheck
  obtain ⟨hyper, hhyper, hmode, wfh, same⟩ := exists_toHypersparse wf
  obtain ⟨sparse, hsparse, hmode', wfs, same'⟩ := exists_toSparse wf hcols hentries
  refine ⟨hyper, sparse, hhyper, hsparse, hmode, hmode', same.sameColumns wf wfh,
    same'.sameColumns wf wfs, fun hp => toSparse_of_toHypersparse wf hcols hentries hp hhyper,
    fun hp => ?_⟩
  have hback := toHypersparse_of_toSparse wf hp hsparse
  refine ⟨hback, fun hfull => ?_⟩
  obtain ⟨ids, hids⟩ := storageMode_eq_hypersparse_iff.1 hp
  rw [hback, withoutEmptySlots_eq wf hids fun slot hslot => hfull slot _ (vectorRange_eq hslot)]

/-- The slot of column 2 holds nothing and is lost, and the pending work is not. -/
theorem storage_roundTrip_emptySlot :
    ∃ sparse, toSparse ⟨3, 5, #[0, 2, 2, 3], some #[1, 2, 4], #[0, 2, 1], false⟩ = .ok sparse ∧
      sparse.toHypersparse = .ok ⟨3, 5, #[0, 2, 3], some #[1, 4], #[0, 2, 1], false⟩ := by
  have hcheck : check ⟨3, 5, #[0, 2, 2, 3], some #[1, 2, 4], #[0, 2, 1], false⟩ .b = .ok () := rfl
  obtain ⟨-, sparse, -, hsparse, -, -, -, -, -, hback⟩ :=
    storage_roundTrip hcheck (by decide) (by decide)
  exact ⟨sparse, hsparse, (hback rfl).1⟩

end Pattern

end SparseProduct
