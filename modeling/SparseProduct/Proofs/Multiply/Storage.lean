import Mathlib
import SparseProduct.Proofs.Multiply.Call
import SparseProduct.Proofs.Pattern.Convert

/-!
# Storage does not change a product

A run on well-formed operands depends on the entries of each column, and not on the slots that hold them.
So a change of storage leaves the values of a product as they are, and of its work all that is done in a
column with entries. Only the empty columns that B has slots for are another number, if it is B that was
changed.
-/

namespace SparseProduct

variable {L R O : Type}

namespace Operands

/-- The operands differ at most in the slots that hold their columns. -/
structure SameEntries (op op' : Operands) : Prop where
  a : op.a.SameEntries op'.a
  b : op.b.SameEntries op'.b
  c : op.c.SameEntries op'.c
  mask : op'.mask = op.mask

namespace SameEntries

variable {op op' : Operands} (h : op.SameEntries op')
include h

theorem pairs (j : Nat) : op'.pairs j = op.pairs j := by
  unfold Operands.pairs pairsOf
  rw [h.b.positions, h.b.rowAt]
  simp only [h.a.positions]

theorem admits : op'.admits = op.admits := by
  funext i j
  rw [Operands.admits, h.mask]
  rfl

theorem columnValues (s : SemiringOps L R O) (left : Array L) (right : Array R) (j : Nat) :
    op'.columnValues s left right j = op.columnValues s left right j := by
  have hfold : op'.foldPair s left right = op.foldPair s left right := by
    funext column pair
    unfold foldPair
    rw [h.a.rowAt]
  rw [Operands.columnValues, h.pairs, hfold]
  rfl

theorem work (j : Nat) : op'.work j = op.work j := by
  unfold Operands.work
  rw [h.c.isEmpty, h.b.length, h.c.length, h.admits, h.pairs, h.c.positions, Kernel.clears, h.c.rowAt,
    Kernel.products, h.a.rowAt]
  rfl

theorem work_eq (columns : List Nat) : Task.work op' columns = Task.work op columns := by
  unfold Task.work
  rw [funext h.work]

theorem filled {identity : O} {value : Nat → Nat → O} {columns : List Nat} {before after : Array O}
    (hfilled : Filled op' (op'.entryValue identity value) 0 columns before after) :
    Filled op (op.entryValue identity value) 0 columns before after where
  size := hfilled.size
  inside j hj p hp := by
    have hin := hfilled.inside j hj p (by rwa [h.c.positions])
    rwa [entryValue, h.admits, h.c.rowAt] at hin
  outside q hq := hfilled.outside q fun j hj => by
    rw [h.c.positions]
    exact hq j hj

end SameEntries

/-- C stores something in the column. -/
def busy (op : Operands) (j : Nat) : Bool := !(op.c.columnSpan j).isEmpty

theorem work_eq_busy (op : Operands) (columns : List Nat) :
    ∃ skipped, Task.work op columns =
      Task.work op (columns.filter op.busy) + ⟨0, skipped, 0, 0, 0, 0⟩ := by
  induction columns with
  | nil => exact ⟨0, rfl⟩
  | cons j columns ih =>
    obtain ⟨skipped, ih⟩ := ih
    unfold Task.work at ih ⊢
    rw [List.map_cons, List.sum_cons, ih, List.filter_cons]
    by_cases hbusy : op.busy j = true
    · rw [if_pos hbusy, List.map_cons, List.sum_cons]
      exact ⟨skipped, (add_assoc _ _ _).symm⟩
    · have hempty : (op.c.columnSpan j).isEmpty = true := by
        rwa [busy, Bool.not_eq_true', Bool.not_eq_false] at hbusy
      have hwork : op.work j = .skippedColumn := by rw [Operands.work, if_pos hempty]
      rw [if_neg hbusy, hwork, add_left_comm]
      exact ⟨1 + skipped, rfl⟩

theorem nodup_columnsOf {op : Operands} (wf : op.b.WellFormed) {slots : Span}
    (hslots : slots.stop ≤ op.b.slotCount) : (op.columnsOf slots).Nodup := by
  refine List.pairwise_map.2 (List.Pairwise.imp_of_mem ?_ List.pairwise_lt_range')
  intro slot later _ hlater hlt
  have hin := (Span.mem_positions.1 hlater).2
  exact Nat.ne_of_lt (wf.slotColumn_lt_slotColumn hlt (Nat.lt_of_lt_of_le hin hslots))

theorem busy_columns_perm {op op' : Operands} (wf : op.WellFormed) (wf' : op'.WellFormed)
    (h : op.SameEntries op') (occupied : ∀ j, op.c.Occupied j → op.b.Occupied j) :
    ((op'.columnsOf ⟨0, op'.b.slotCount⟩).filter op.busy).Perm
      ((op.columnsOf ⟨0, op.b.slotCount⟩).filter op.busy) := by
  rw [List.perm_ext_iff_of_nodup ((nodup_columnsOf wf'.b (Nat.le_refl _)).filter _)
    ((nodup_columnsOf wf.b (Nat.le_refl _)).filter _)]
  intro j
  rw [List.mem_filter, List.mem_filter]
  refine and_congr_left fun hbusy => ?_
  have hb : op.b.Occupied j := occupied j (wf.c.occupied_iff.2 (by
    rwa [busy, Bool.not_eq_true'] at hbusy))
  exact ⟨fun _ => mem_columnsOf wf hb,
    fun _ => mem_columnsOf wf' ((h.b.occupied_iff wf.b wf'.b).2 hb)⟩

end Operands

/-! ### The storage of a matrix -/

namespace SparseMatrix

variable {α : Type}

def withStorage (m : SparseMatrix α) : Option StorageMode → Result (SparseMatrix α)
  | none => .ok m
  | some .sparse => m.toSparse
  | some .hypersparse => m.toHypersparse

theorem withStorage_eq (m : SparseMatrix α) (storage : Option StorageMode) :
    m.withStorage storage = m.pattern.withStorage storage >>= fun q => .ok ⟨q, m.values⟩ := by
  match storage with
  | none => rfl
  | some .sparse => rfl
  | some .hypersparse => rfl

theorem of_withStorage {m m' : SparseMatrix α} {storage : Option StorageMode}
    (h : m.withStorage storage = .ok m') :
    m.pattern.withStorage storage = .ok m'.pattern ∧ m'.values = m.values := by
  rw [withStorage_eq, Result.bind_eq_ok] at h
  obtain ⟨q, hq, h⟩ := h
  cases h
  exact ⟨hq, rfl⟩

theorem exists_withStorage {m : SparseMatrix α} (wf : m.pattern.WellFormed)
    (storage : Option StorageMode) (hcols : m.pattern.nCols + 1 < Size.limit)
    (hentries : m.pattern.entryCount < Size.limit) : ∃ m', m.withStorage storage = .ok m' := by
  obtain ⟨q, hq⟩ := Pattern.exists_withStorage wf storage hcols hentries
  exact ⟨⟨q, m.values⟩, by rw [withStorage_eq, hq, Result.ok_bind]⟩

end SparseMatrix

section Alike

variable {s : SemiringOps L R O} {c c' : Pattern} {a a' : SparseMatrix L} {b b' : SparseMatrix R}
  {mask : Option Mask} {settings : Settings}

theorem Task.work_of_sameEntries {op op' : Operands} (wf : op.WellFormed) (wf' : op'.WellFormed)
    (same : op.SameEntries op') (occupied : ∀ j, op.c.Occupied j → op.b.Occupied j) :
    { work op' (op'.columnsOf ⟨0, op'.b.slotCount⟩) with
        columnsSkipped := (work op (op.columnsOf ⟨0, op.b.slotCount⟩)).columnsSkipped } =
      work op (op.columnsOf ⟨0, op.b.slotCount⟩) := by
  obtain ⟨skipped, hwork⟩ := op.work_eq_busy (op.columnsOf ⟨0, op.b.slotCount⟩)
  obtain ⟨skipped', hwork'⟩ := op.work_eq_busy (op'.columnsOf ⟨0, op'.b.slotCount⟩)
  have hbusy : work op _ = work op _ :=
    ((Operands.busy_columns_perm wf wf' same occupied).map op.work).sum_eq
  rw [same.work_eq, hwork, hwork', hbusy]
  rfl

/-- Products of operands that differ only in their storage have the same values. -/
theorem multiply_of_sameEntries (total : s.Total) (accepted : Accepted c a.pattern b.pattern mask)
    (accepted' : Accepted c' a'.pattern b'.pattern mask)
    (same : (Operands.ofCall c a b mask settings).SameEntries (Operands.ofCall c' a' b' mask settings))
    (ha : a.values.size = a.pattern.entryCount) (hb : b.values.size = b.pattern.entryCount)
    (hleft : a'.values = a.values) (hright : b'.values = b.values)
    (occupied : ∀ j, c.Occupied j → b.pattern.Occupied j) {before before' : Buffers O}
    (hvalues : before.values.size = c.entryCount) (hroom : c.nRows ≤ before.slots.size)
    (hvalues' : before'.values.size = c.entryCount) (hroom' : c.nRows ≤ before'.slots.size) :
    ∃ counters after counters' after',
      multiply s c a b mask settings before = .ok counters after ∧
      multiply s c' a' b' mask settings before' = .ok counters' after' ∧
      after'.values = after.values ∧
      { counters' with columnsSkipped := counters.columnsSkipped } = counters ∧
      (b'.pattern = b.pattern → counters' = counters) := by
  have wf := accepted.wellFormed settings.search
  have wf' := accepted'.wellFormed settings.search
  have hoccupied : ∀ j, c'.Occupied j ↔ c.Occupied j := fun j => same.c.occupied_iff wf.c wf'.c
  have occupied' : ∀ j, c'.Occupied j → b'.pattern.Occupied j := by
    intro j hj
    exact (same.b.occupied_iff wf.b wf'.b).2 (occupied j ((hoccupied j).1 hj))
  obtain ⟨value, hvalue⟩ := wf.exists_columnValues total ha hb
  have hvalue' : ∀ j, (Operands.ofCall c' a' b' mask settings).columnValues s a'.values b'.values j =
      .ok (value j) := by
    intro j
    rw [same.columnValues, hleft, hright]
    exact hvalue j
  obtain ⟨after, hrun, hfilled, -⟩ :=
    multiply_of_accepted total accepted ha hb occupied hvalues hroom settings hvalue
  obtain ⟨after', hrun', hfilled', -⟩ := multiply_of_accepted total accepted'
    (by rw [hleft, ha]; exact same.a.entryCount.symm)
    (by rw [hright, hb]; exact same.b.entryCount.symm) occupied'
    (hvalues'.trans same.c.entryCount.symm) (same.c.nRows ▸ hroom') settings hvalue'
  refine ⟨_, after, _, after', hrun, hrun', ?_, Task.work_of_sameEntries wf wf' same occupied,
    fun hpattern => ?_⟩
  · refine (same.filled hfilled').unique_of_occupied wf.c hfilled hvalues' hvalues fun j hj => ?_
    exact ⟨Operands.mem_columnsOf wf' (occupied' j ((hoccupied j).2 hj)),
      Operands.mem_columnsOf wf (occupied j hj)⟩
  · have hcolumns : (Operands.ofCall c' a' b' mask settings).columnsOf ⟨0, b'.pattern.slotCount⟩ =
        (Operands.ofCall c a b mask settings).columnsOf ⟨0, b.pattern.slotCount⟩ := by
      show (Span.mk 0 b'.pattern.slotCount).positions.map b'.pattern.slotColumn = _
      rw [hpattern]
      rfl
    rw [same.work_eq, hcolumns]

end Alike

/-- Each of C, A and B can be put in either storage, if its number of columns and one more, and its number
of entries, are sizes. If the checks still pass then, the product has the same values, and the same
counters but for the columns passed over. If B is stored as before, these are as many too. -/
theorem multiply_storage {s : SemiringOps L R O} (total : s.Total) {c : Pattern}
    {a : SparseMatrix L} {b : SparseMatrix R} {mask : Option Mask}
    (accepted : Accepted c a.pattern b.pattern mask) (ha : a.values.size = a.pattern.entryCount)
    (hb : b.values.size = b.pattern.entryCount)
    (occupied : ∀ j, c.Occupied j → b.pattern.Occupied j)
    (storageC storageA storageB : Option StorageMode) :
    ((c.nCols + 1 < Size.limit → c.entryCount < Size.limit → ∃ c', c.withStorage storageC = .ok c') ∧
      (a.pattern.nCols + 1 < Size.limit → a.pattern.entryCount < Size.limit →
        ∃ a', a.withStorage storageA = .ok a') ∧
      (b.pattern.nCols + 1 < Size.limit → b.pattern.entryCount < Size.limit →
        ∃ b', b.withStorage storageB = .ok b')) ∧
    ∀ c' a' b', c.withStorage storageC = .ok c' → a.withStorage storageA = .ok a' →
      b.withStorage storageB = .ok b' → ∀ settings,
      checkOperands c' a'.pattern b'.pattern mask settings = .ok () →
      ∀ before before' : Buffers O, before.values.size = c.entryCount → c.nRows ≤ before.slots.size →
        before'.values.size = c.entryCount → c.nRows ≤ before'.slots.size →
        ∃ counters after counters' after',
          multiply s c a b mask settings before = .ok counters after ∧
          multiply s c' a' b' mask settings before' = .ok counters' after' ∧
          after'.values = after.values ∧
          { counters' with columnsSkipped := counters.columnsSkipped } = counters ∧
          (b'.pattern.storageMode = b.pattern.storageMode → counters' = counters) := by
  have wfa := Pattern.wellFormed_of_check accepted.a_check
  have wfb := Pattern.wellFormed_of_check accepted.b_check
  have wfc := Pattern.wellFormed_of_check accepted.c_check
  refine ⟨⟨Pattern.exists_withStorage wfc storageC, SparseMatrix.exists_withStorage wfa storageA,
    SparseMatrix.exists_withStorage wfb storageB⟩, ?_⟩
  intro c' a' b' hc' ha' hb' settings hoperands before before' hvalues hroom hvalues' hroom'
  obtain ⟨ha', hleft⟩ := SparseMatrix.of_withStorage ha'
  obtain ⟨hb', hright⟩ := SparseMatrix.of_withStorage hb'
  obtain ⟨wfa', sameA⟩ := Pattern.sameEntries_of_withStorage wfa ha'
  obtain ⟨wfb', sameB⟩ := Pattern.sameEntries_of_withStorage wfb hb'
  obtain ⟨wfc', sameC⟩ := Pattern.sameEntries_of_withStorage wfc hc'
  have accepted' : Accepted c' a'.pattern b'.pattern mask :=
    .of_checkOperands hoperands (Pattern.check_eq_ok_iff.2 wfa') (Pattern.check_eq_ok_iff.2 wfb')
      (Pattern.check_eq_ok_iff.2 wfc') fun m hm => (accepted.mask m hm).2
  have same : (Operands.ofCall c a b mask settings).SameEntries
      (Operands.ofCall c' a' b' mask settings) := ⟨sameA, sameB, sameC, rfl⟩
  obtain ⟨counters, after, counters', after', hrun, hrun', hsame, hcounters, hkept⟩ :=
    multiply_of_sameEntries total accepted accepted' same ha hb hleft hright occupied hvalues hroom
      hvalues' hroom'
  refine ⟨counters, after, counters', after', hrun, hrun', hsame, hcounters, fun hmode => ?_⟩
  exact hkept ((Pattern.of_withStorage wfb hb').resolve_right fun h => h.1 hmode)

/-- A is put in sparse storage and B in hypersparse storage, where it has no slot for its empty column. -/
theorem multiply_storage_leftFold :
    ∃ counters after counters' after',
      multiply Sample.leftFold Sample.c Sample.a Sample.b (some Sample.mask) (.standard 1)
        ⟨#[70, 71, 72, 73, 74], #[90, 91, 92]⟩ = .ok counters after ∧
      multiply Sample.leftFold Sample.c
        ⟨⟨3, 3, #[0, 2, 2, 4], none, #[0, 2, 1, 2], true⟩, #[5, -3, 7, 2]⟩
        ⟨⟨3, 4, #[0, 2, 3, 6], some #[0, 2, 3], #[0, 2, 1, 0, 1, 2], true⟩, #[4, -1, 6, 3, 8, -2]⟩
        (some Sample.mask) (.standard 1) ⟨#[0, 0, 0, 0, 0], #[0, 0, 0]⟩ = .ok counters' after' ∧
      after'.values = after.values ∧
      { counters' with columnsSkipped := counters.columnsSkipped } = counters ∧
      after.values = #[1, -3, 1, 1, 0] := by
  have accepted : Accepted Sample.c Sample.a.pattern Sample.b.pattern (some Sample.mask) :=
    Sample.accepted_of_mask fun m hm => by cases hm; exact ⟨rfl, rfl⟩
  obtain ⟨counters, after, counters', after', hrun, hrun', hsame, hcounters, -⟩ :=
    (multiply_storage Sample.total_leftFold accepted rfl rfl Sample.occupied (some .hypersparse)
      (some .sparse) (some .hypersparse)).2 Sample.c
      ⟨⟨3, 3, #[0, 2, 2, 4], none, #[0, 2, 1, 2], true⟩, #[5, -3, 7, 2]⟩
      ⟨⟨3, 4, #[0, 2, 3, 6], some #[0, 2, 3], #[0, 2, 1, 0, 1, 2], true⟩, #[4, -1, 6, 3, 8, -2]⟩
      rfl (by cbv) (by cbv) (.standard 1) (by cbv) ⟨#[70, 71, 72, 73, 74], #[90, 91, 92]⟩
      ⟨#[0, 0, 0, 0, 0], #[0, 0, 0]⟩ rfl (by decide) rfl (by decide)
  have hproduct : multiply Sample.leftFold Sample.c Sample.a Sample.b (some Sample.mask) (.standard 1)
      ⟨#[70, 71, 72, 73, 74], #[90, 91, 92]⟩ =
        .ok ⟨3, 1, 6, 2, 5, 5⟩ ⟨#[1, -3, 1, 1, 0], #[90, -3, 0]⟩ := by cbv
  refine ⟨counters, after, counters', after', hrun, hrun', hsame, hcounters, ?_⟩
  cases hproduct.symm.trans hrun
  rfl

end SparseProduct
