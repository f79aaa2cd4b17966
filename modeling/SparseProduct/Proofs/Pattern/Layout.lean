import SparseProduct.Pattern.Check
import SparseProduct.Proofs.Sequencing

/-!
# Where the entries of a well-formed pattern lie

On a well-formed pattern no access fails. The accessors are read here as plain functions: the span of a
slot, the column of a slot, the span of a column and the row of an entry. The spans of the slots follow
one another without gaps, so every entry lies in exactly one column, and within a column rows increase.
-/

namespace SparseProduct

theorem Span.positions_eq_nil {span : Span} (h : span.isEmpty = true) : span.positions = [] := by
  refine List.eq_nil_iff_forall_not_mem.2 fun p hp => ?_
  have hin := Span.mem_positions.1 hp
  simp only [isEmpty, Bool.not_eq_true', decide_eq_false_iff_not] at h
  omega

namespace Pattern

def slotCount (p : Pattern) : Nat := p.colPtr.size - 1

def slotSpan (p : Pattern) (slot : Nat) : Span :=
  ⟨p.colPtr[slot]?.getD 0, p.colPtr[slot + 1]?.getD 0⟩

def slotColumn (p : Pattern) (slot : Nat) : Nat :=
  p.colIds.elim slot fun ids => ids[slot]?.getD 0

/-- The entries of a column, none if it has no slot. -/
def columnSpan (p : Pattern) (j : Nat) : Span :=
  match p.slotOf j with
  | some slot => p.slotSpan slot
  | none => .empty

def rowAt (p : Pattern) (entry : Nat) : Nat := p.rowIdx[entry]?.getD 0

/-- Something is stored in a column. -/
def Occupied (p : Pattern) (j : Nat) : Prop :=
  ∃ range, p.columnRange j = .ok range ∧ range.isEmpty = false

instance (p : Pattern) (j : Nat) : Decidable (p.Occupied j) :=
  match h : p.columnRange j with
  | .ok range => decidable_of_iff (range.isEmpty = false) (by
      rw [Occupied, h]
      constructor
      · exact fun hfull => ⟨range, rfl, hfull⟩
      · rintro ⟨other, hother, hfull⟩
        cases hother
        exact hfull)
  | .error e => isFalse (by
      rw [Occupied, h]
      rintro ⟨range, hrange, -⟩
      cases hrange)

/-- An entry is stored at a row and a column. -/
def Stores (p : Pattern) (entry i j : Nat) : Prop :=
  ∃ range, p.columnRange j = .ok range ∧ entry ∈ range.positions ∧ p.row entry = .ok i

/-- The number of slots whose column comes before `j`. -/
def slotsBefore (p : Pattern) (j : Nat) : Nat :=
  p.colIds.elim j fun ids => Search.countWhile ids (· < j)

/-- The number of entries whose column comes before `j`. -/
def entriesBefore (p : Pattern) (j : Nat) : Nat := p.colPtr[p.slotsBefore j]?.getD 0

theorem row_eq {p : Pattern} {entry : Nat} (h : entry < p.entryCount) :
    p.row entry = .ok (p.rowAt entry) := by
  rw [row, rowAt, fetch_of_lt h, Array.getElem?_eq_getElem h, Option.getD_some]

theorem vectorRange_eq {p : Pattern} {slot : Nat} (h : slot < p.slotCount) :
    p.vectorRange slot = .ok (p.slotSpan slot) := by
  unfold slotCount at h
  have hlt : slot < p.colPtr.size := by omega
  have hlt' : slot + 1 < p.colPtr.size := by omega
  rw [vectorRange, slotSpan, fetch_of_lt hlt, fetch_of_lt hlt', Array.getElem?_eq_getElem hlt,
    Array.getElem?_eq_getElem hlt', Option.getD_some, Option.getD_some]
  rfl

namespace WellFormed

variable {p : Pattern} (wf : p.WellFormed)
include wf

theorem size_colPtr : p.colPtr.size = p.slotCount + 1 := by
  have := wf.vector_count
  unfold slotCount
  omega

theorem slotCount_eq : p.slotCount = p.colIds.elim p.nCols Array.size := by
  have := wf.vector_count
  have := wf.size_colPtr
  omega

theorem vectorCount_eq : p.vectorCount = .ok p.slotCount := by
  have := wf.size_colPtr
  exact Size.sub_of_le (by omega)

theorem pointer_le_pointer {i j : Nat} (hij : i ≤ j) (hj : j ≤ p.slotCount) :
    p.colPtr[i]?.getD 0 ≤ p.colPtr[j]?.getD 0 := by
  have hsize := wf.size_colPtr
  rw [Array.getElem?_eq_getElem (by omega), Array.getElem?_eq_getElem (by omega), Option.getD_some,
    Option.getD_some]
  rcases Nat.lt_or_eq_of_le hij with hlt | rfl
  · have := List.pairwise_iff_getElem.1 wf.pointers_monotone i j (by simp; omega) (by simp; omega) hlt
    simpa using this
  · exact Nat.le_refl _

theorem last_pointer_eq : p.colPtr[p.slotCount]?.getD 0 = p.entryCount := by
  have := wf.last_pointer
  rw [Array.back?] at this
  rw [slotCount, this, Option.getD_some]
  rfl

theorem slotSpan_le {slot : Nat} (h : slot < p.slotCount) :
    (p.slotSpan slot).start ≤ (p.slotSpan slot).stop :=
  wf.pointer_le_pointer (Nat.le_succ _) h

theorem slotSpan_stop_le {slot : Nat} (h : slot < p.slotCount) :
    (p.slotSpan slot).stop ≤ p.entryCount := by
  rw [← wf.last_pointer_eq]
  exact wf.pointer_le_pointer h (Nat.le_refl _)

theorem slotSpan_before {slot later : Nat} (hlt : slot < later) (h : later < p.slotCount) :
    (p.slotSpan slot).stop ≤ (p.slotSpan later).start :=
  wf.pointer_le_pointer hlt (Nat.le_of_lt h)

theorem lt_of_mem_slotSpan {slot entry : Nat} (h : slot < p.slotCount)
    (he : entry ∈ (p.slotSpan slot).positions) : entry < p.entryCount := by
  have := Span.mem_positions.1 he
  have := wf.slotSpan_stop_le h
  omega

/-- Every entry lies in a slot. -/
theorem exists_slot {entry : Nat} (h : entry < p.entryCount) :
    ∃ slot < p.slotCount, entry ∈ (p.slotSpan slot).positions := by
  have hfind : ∀ n, n ≤ p.slotCount → entry < p.colPtr[n]?.getD 0 →
      ∃ slot < n, entry ∈ (p.slotSpan slot).positions := by
    intro n
    induction n with
    | zero =>
      intro _ hlt
      rw [wf.first_pointer] at hlt
      exact absurd hlt (Nat.not_lt_zero _)
    | succ n ih =>
      intro hn hlt
      by_cases hbefore : entry < p.colPtr[n]?.getD 0
      · obtain ⟨slot, hslot, he⟩ := ih (by omega) hbefore
        exact ⟨slot, by omega, he⟩
      · exact ⟨n, by omega, Span.mem_positions.2 ⟨Nat.not_lt.1 hbefore, hlt⟩⟩
  exact hfind p.slotCount (Nat.le_refl _) (by rw [wf.last_pointer_eq]; exact h)

theorem slot_unique {slot other entry : Nat} (h : slot < p.slotCount) (hother : other < p.slotCount)
    (he : entry ∈ (p.slotSpan slot).positions) (he' : entry ∈ (p.slotSpan other).positions) :
    slot = other := by
  have hin := Span.mem_positions.1 he
  have hin' := Span.mem_positions.1 he'
  rcases Nat.lt_trichotomy slot other with hlt | rfl | hlt
  · have := wf.slotSpan_before hlt hother
    omega
  · rfl
  · have := wf.slotSpan_before hlt h
    omega

/-! ### Columns -/

theorem getElem_ids {ids : Array Nat} (hids : p.colIds = some ids) {slot : Nat}
    (h : slot < p.slotCount) : ids[slot]? = some (p.slotColumn slot) := by
  have hcount := wf.slotCount_eq
  rw [hids, Option.elim_some] at hcount
  rw [slotColumn, hids, Option.elim_some, Array.getElem?_eq_getElem (by omega), Option.getD_some]

theorem vectorId_eq {slot : Nat} (h : slot < p.slotCount) :
    p.vectorId slot = .ok (p.slotColumn slot) := by
  unfold vectorId
  split
  · next ids hids => exact fetch_eq_ok.2 (wf.getElem_ids hids h)
  · next hnone => rw [slotColumn, hnone, Option.elim_none]

theorem slotColumn_lt {slot : Nat} (h : slot < p.slotCount) : p.slotColumn slot < p.nCols := by
  cases hids : p.colIds with
  | none =>
    have := wf.slotCount_eq
    rw [hids, Option.elim_none] at this
    rw [slotColumn, hids, Option.elim_none]
    omega
  | some ids =>
    exact wf.ids_bounded ids hids _ (Array.mem_of_getElem? (wf.getElem_ids hids h))

theorem slotColumn_lt_slotColumn {slot later : Nat} (hlt : slot < later) (h : later < p.slotCount) :
    p.slotColumn slot < p.slotColumn later := by
  cases hids : p.colIds with
  | none => simpa only [slotColumn, hids, Option.elim_none] using hlt
  | some ids =>
    obtain ⟨hs, hslot⟩ := Array.getElem?_eq_some_iff.1 (wf.getElem_ids hids (Nat.lt_trans hlt h))
    obtain ⟨hl, hlater⟩ := Array.getElem?_eq_some_iff.1 (wf.getElem_ids hids h)
    rw [← hslot, ← hlater]
    exact Search.getElem_lt_getElem (wf.ids_increasing ids hids) hlt hl

theorem slotOf_eq_some_iff {j slot : Nat} :
    p.slotOf j = some slot ↔ slot < p.slotCount ∧ p.slotColumn slot = j := by
  have hcount := wf.slotCount_eq
  cases hids : p.colIds with
  | none =>
    rw [hids, Option.elim_none] at hcount
    simp only [slotOf, slotColumn, hids, Option.elim_none, Option.ite_none_right_eq_some,
      Option.some.injEq]
    omega
  | some ids =>
    rw [hids, Option.elim_some] at hcount
    simp only [slotOf, hids, Search.index?_find_eq_some_iff (wf.ids_increasing ids hids)]
    constructor
    · intro h
      have hlt := (Array.getElem?_eq_some_iff.1 h).1
      refine ⟨by omega, ?_⟩
      rw [slotColumn, hids, Option.elim_some, h, Option.getD_some]
    · rintro ⟨hlt, rfl⟩
      exact wf.getElem_ids hids hlt

theorem columnSpan_slotColumn {slot : Nat} (h : slot < p.slotCount) :
    p.columnSpan (p.slotColumn slot) = p.slotSpan slot := by
  rw [columnSpan, wf.slotOf_eq_some_iff.2 ⟨h, rfl⟩]

theorem columnRange_eq (j : Nat) : p.columnRange j = .ok (p.columnSpan j) := by
  unfold columnRange columnSpan
  cases hslot : p.slotOf j with
  | some slot => exact vectorRange_eq (wf.slotOf_eq_some_iff.1 hslot).1
  | none => rfl

theorem exists_slot_of_mem {j entry : Nat} (he : entry ∈ (p.columnSpan j).positions) :
    ∃ slot < p.slotCount, p.slotColumn slot = j ∧ entry ∈ (p.slotSpan slot).positions := by
  unfold columnSpan at he
  split at he
  · next slot hslot =>
    obtain ⟨hlt, hj⟩ := wf.slotOf_eq_some_iff.1 hslot
    exact ⟨slot, hlt, hj, he⟩
  · simp only [Span.mem_positions, Span.empty] at he
    omega

theorem lt_of_mem_columnSpan {j entry : Nat} (he : entry ∈ (p.columnSpan j).positions) :
    entry < p.entryCount := by
  obtain ⟨slot, hslot, -, hin⟩ := wf.exists_slot_of_mem he
  exact wf.lt_of_mem_slotSpan hslot hin

theorem column_unique {j k entry : Nat} (hj : entry ∈ (p.columnSpan j).positions)
    (hk : entry ∈ (p.columnSpan k).positions) : j = k := by
  obtain ⟨slot, hslot, rfl, hin⟩ := wf.exists_slot_of_mem hj
  obtain ⟨other, hother, rfl, hin'⟩ := wf.exists_slot_of_mem hk
  rw [wf.slot_unique hslot hother hin hin']

theorem columnSpan_le (j : Nat) : (p.columnSpan j).start ≤ (p.columnSpan j).stop := by
  unfold columnSpan
  split
  · next slot hslot => exact wf.slotSpan_le (wf.slotOf_eq_some_iff.1 hslot).1
  · exact Nat.le_refl _

theorem columnSpan_stop_le (j : Nat) : (p.columnSpan j).stop ≤ p.entryCount := by
  unfold columnSpan
  split
  · next slot hslot => exact wf.slotSpan_stop_le (wf.slotOf_eq_some_iff.1 hslot).1
  · exact Nat.zero_le _

theorem occupied_iff {j : Nat} : p.Occupied j ↔ (p.columnSpan j).isEmpty = false := by
  rw [Occupied, wf.columnRange_eq]
  constructor
  · rintro ⟨range, hrange, hfull⟩
    cases hrange
    exact hfull
  · exact fun hfull => ⟨_, rfl, hfull⟩

theorem occupied_of_mem {j entry : Nat} (h : entry ∈ (p.columnSpan j).positions) :
    p.Occupied j := by
  rw [wf.occupied_iff, Span.isEmpty]
  have := Span.mem_positions.1 h
  simp only [Bool.not_eq_false', decide_eq_true_eq]
  omega

theorem exists_slot_of_occupied {j : Nat} (h : p.Occupied j) :
    ∃ slot < p.slotCount, p.slotColumn slot = j := by
  have hfull := wf.occupied_iff.1 h
  unfold columnSpan at hfull
  cases hslot : p.slotOf j with
  | none =>
    rw [hslot] at hfull
    cases hfull
  | some slot => exact ⟨slot, wf.slotOf_eq_some_iff.1 hslot⟩

theorem lt_of_occupied {j : Nat} (h : p.Occupied j) : j < p.nCols := by
  obtain ⟨slot, hslot, rfl⟩ := wf.exists_slot_of_occupied h
  exact wf.slotColumn_lt hslot

/-! ### What comes before a column -/

theorem lt_slotsBefore_iff {j slot : Nat} (h : slot < p.slotCount) :
    slot < p.slotsBefore j ↔ p.slotColumn slot < j := by
  unfold slotsBefore
  cases hids : p.colIds with
  | none => rw [Option.elim_none, slotColumn, hids, Option.elim_none]
  | some ids =>
    obtain ⟨hlt, hcolumn⟩ := Array.getElem?_eq_some_iff.1 (wf.getElem_ids hids h)
    rw [Option.elim_some, Search.lt_countWhile_lt_iff (wf.ids_increasing ids hids) j hlt, hcolumn]

theorem slotsBefore_le {j : Nat} (hj : j ≤ p.nCols) : p.slotsBefore j ≤ p.slotCount := by
  have hcount := wf.slotCount_eq
  unfold slotsBefore
  cases hids : p.colIds with
  | none =>
    rw [hids, Option.elim_none] at hcount
    rw [Option.elim_none, hcount]
    exact hj
  | some ids =>
    rw [hids, Option.elim_some] at hcount
    rw [Option.elim_some, hcount]
    exact Search.countWhile_le ids _

theorem entriesBefore_le {j : Nat} (hj : j ≤ p.nCols) : p.entriesBefore j ≤ p.entryCount := by
  rw [← wf.last_pointer_eq]
  exact wf.pointer_le_pointer (wf.slotsBefore_le hj) (Nat.le_refl _)

theorem lt_entriesBefore_iff {j k entry : Nat} (hj : j ≤ p.nCols)
    (h : entry ∈ (p.columnSpan k).positions) : entry < p.entriesBefore j ↔ k < j := by
  obtain ⟨slot, hslot, rfl, hmem⟩ := wf.exists_slot_of_mem h
  have hin := Span.mem_positions.1 hmem
  rw [← wf.lt_slotsBefore_iff hslot]
  constructor
  · intro hlt
    refine Nat.lt_of_not_le fun hle => ?_
    have : p.entriesBefore j ≤ (p.slotSpan slot).start :=
      wf.pointer_le_pointer hle (Nat.le_of_lt hslot)
    omega
  · intro hlt
    have : (p.slotSpan slot).stop ≤ p.entriesBefore j :=
      wf.pointer_le_pointer hlt (wf.slotsBefore_le hj)
    omega

theorem slotsBefore_mono {j k : Nat} (hjk : j ≤ k) : p.slotsBefore j ≤ p.slotsBefore k := by
  unfold slotsBefore
  cases hids : p.colIds with
  | none => exact hjk
  | some ids => exact Search.countWhile_lt_mono (wf.ids_increasing ids hids) hjk

theorem entriesBefore_mono {j k : Nat} (hjk : j ≤ k) (hk : k ≤ p.nCols) :
    p.entriesBefore j ≤ p.entriesBefore k :=
  wf.pointer_le_pointer (wf.slotsBefore_mono hjk) (wf.slotsBefore_le hk)

/-! ### Rows -/

theorem getElem?_rowsIn {j entry : Nat} (he : entry ∈ (p.columnSpan j).positions) :
    (p.rowsIn (p.columnSpan j))[entry - (p.columnSpan j).start]? = some (p.rowAt entry) := by
  have hlt : entry < p.rowIdx.size := wf.lt_of_mem_columnSpan he
  have hstop : (p.columnSpan j).stop ≤ p.rowIdx.size := wf.columnSpan_stop_le j
  have hin := Span.mem_positions.1 he
  rw [rowsIn, Array.getElem?_toList, Array.getElem?_extract, if_pos (by omega), rowAt,
    show (p.columnSpan j).start + (entry - (p.columnSpan j).start) = entry by omega,
    Array.getElem?_eq_getElem hlt, Option.getD_some]

theorem pairwise_rowsIn (j : Nat) : (p.rowsIn (p.columnSpan j)).Pairwise (· < ·) := by
  unfold columnSpan
  split
  · next slot hslot =>
    exact wf.rows_increasing slot _ (vectorRange_eq (wf.slotOf_eq_some_iff.1 hslot).1)
  · simp only [rowsIn, Span.empty, Array.toList_extract, List.extract_eq_take_drop, Nat.sub_self,
      List.take_zero, List.Pairwise.nil]

theorem stores_iff {entry i j : Nat} :
    p.Stores entry i j ↔ entry ∈ (p.columnSpan j).positions ∧ p.rowAt entry = i := by
  rw [Stores, wf.columnRange_eq]
  constructor
  · rintro ⟨range, hrange, he, hrow⟩
    cases hrange
    rw [row_eq (wf.lt_of_mem_columnSpan he)] at hrow
    exact ⟨he, Except.ok.inj hrow⟩
  · rintro ⟨he, rfl⟩
    exact ⟨_, rfl, he, row_eq (wf.lt_of_mem_columnSpan he)⟩

theorem rowAt_lt {j entry : Nat} (he : entry ∈ (p.columnSpan j).positions) :
    p.rowAt entry < p.nRows := by
  obtain ⟨slot, hslot, rfl, -⟩ := wf.exists_slot_of_mem he
  have hrow := List.mem_of_getElem? (wf.getElem?_rowsIn he)
  rw [wf.columnSpan_slotColumn hslot] at hrow
  exact wf.rows_bounded slot _ (vectorRange_eq hslot) _ hrow

theorem stores_lt {entry i j : Nat} (h : p.Stores entry i j) : i < p.nRows ∧ j < p.nCols := by
  obtain ⟨he, rfl⟩ := wf.stores_iff.1 h
  exact ⟨wf.rowAt_lt he, wf.lt_of_occupied (wf.occupied_of_mem he)⟩

theorem occupied_iff_stores {j : Nat} : p.Occupied j ↔ ∃ entry i, p.Stores entry i j := by
  constructor
  · intro h
    have hfull := wf.occupied_iff.1 h
    have hlt : (p.columnSpan j).start < (p.columnSpan j).stop := by
      simpa only [Span.isEmpty, Bool.not_eq_false', decide_eq_true_eq] using hfull
    exact ⟨_, _, wf.stores_iff.2 ⟨Span.mem_positions.2 ⟨Nat.le_refl _, hlt⟩, rfl⟩⟩
  · rintro ⟨entry, i, h⟩
    exact wf.occupied_of_mem (wf.stores_iff.1 h).1

theorem rowAt_lt_rowAt {j entry later : Nat} (he : entry ∈ (p.columnSpan j).positions)
    (hl : later ∈ (p.columnSpan j).positions) (hlt : entry < later) :
    p.rowAt entry < p.rowAt later := by
  obtain ⟨hi, hrow⟩ := List.getElem?_eq_some_iff.1 (wf.getElem?_rowsIn he)
  obtain ⟨hi', hrow'⟩ := List.getElem?_eq_some_iff.1 (wf.getElem?_rowsIn hl)
  have hin := Span.mem_positions.1 he
  rw [← hrow, ← hrow']
  exact List.pairwise_iff_getElem.1 (wf.pairwise_rowsIn j) _ _ hi hi' (by omega)

theorem eq_of_rowAt_eq {j entry other : Nat} (he : entry ∈ (p.columnSpan j).positions)
    (ho : other ∈ (p.columnSpan j).positions) (h : p.rowAt entry = p.rowAt other) :
    entry = other := by
  rcases Nat.lt_trichotomy entry other with hlt | rfl | hlt
  · have := wf.rowAt_lt_rowAt he ho hlt
    omega
  · rfl
  · have := wf.rowAt_lt_rowAt ho he hlt
    omega

end WellFormed

end Pattern

end SparseProduct
