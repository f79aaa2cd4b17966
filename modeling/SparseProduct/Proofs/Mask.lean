import SparseProduct.Mask
import SparseProduct.Proofs.Pattern.Layout

/-!
# Which positions a mask admits

A mask holds a position if its pattern stores it, as true when the mask has values, and admits it if
that differs from being complemented. The test that the kernel makes for a column, a search among the
rows of the column, gives the same answer.
-/

namespace SparseProduct

namespace Mask

/-- Whether the mask stores a position, as true if it has values. -/
def holdsAt (m : Mask) (i j : Nat) : Bool :=
  (m.pattern.columnSpan j).positions.any fun entry =>
    m.pattern.rowAt entry = i && m.values.elim true fun values => values[entry]?.getD false

def admitsAt (m : Mask) (i j : Nat) : Bool := m.holdsAt i j != m.complement

/-- The mask stores a position, as true if it has values. -/
def Marks (m : Mask) (i j : Nat) : Prop :=
  ∃ entry, m.pattern.Stores entry i j ∧ ∀ values ∈ m.values, values[entry]? = some true

theorem holdsAt_iff {m : Mask} (wf : m.pattern.WellFormed) {i j : Nat} :
    m.holdsAt i j = true ↔ m.Marks i j := by
  unfold holdsAt Marks
  simp only [List.any_eq_true, Bool.and_eq_true, decide_eq_true_eq, wf.stores_iff]
  refine exists_congr fun entry => ?_
  rw [and_assoc]
  refine and_congr_right fun _ => and_congr_right fun _ => ?_
  cases m.values with
  | none => simp
  | some values => simp [Option.getD_eq_iff]

/-- Marking the position differs from being complemented. -/
def Admits (m : Mask) (i j : Nat) : Prop := ¬ (m.Marks i j ↔ m.complement = true)

theorem admitsAt_iff {m : Mask} (wf : m.pattern.WellFormed) {i j : Nat} :
    m.admitsAt i j = true ↔ m.Admits i j := by
  rw [admitsAt, Admits, ← holdsAt_iff wf]
  cases m.holdsAt i j <;> cases m.complement <;> simp

theorem holdsAt_rowAt {m : Mask} (wf : m.pattern.WellFormed) {j entry : Nat}
    (he : entry ∈ (m.pattern.columnSpan j).positions) :
    m.holdsAt (m.pattern.rowAt entry) j =
      m.values.elim true fun values => values[entry]?.getD false := by
  rw [Bool.eq_iff_iff]
  unfold holdsAt
  simp only [List.any_eq_true, Bool.and_eq_true, decide_eq_true_eq]
  constructor
  · rintro ⟨other, hother, hrow, hvalue⟩
    rwa [wf.eq_of_rowAt_eq he hother hrow.symm]
  · exact fun hvalue => ⟨entry, he, rfl, hvalue⟩

theorem pattern_complementedTimes (m : Mask) (n : Nat) :
    (m.complementedTimes n).pattern = m.pattern := by
  induction n with
  | zero => rfl
  | succ n ih => exact ih

theorem values_complementedTimes (m : Mask) (n : Nat) :
    (m.complementedTimes n).values = m.values := by
  induction n with
  | zero => rfl
  | succ n ih => exact ih

theorem complement_complementedTimes (m : Mask) (n : Nat) :
    (m.complementedTimes n).complement = (m.complement != decide (n % 2 = 1)) := by
  induction n with
  | zero => simp [complementedTimes]
  | succ n ih =>
    rw [complementedTimes, complemented, ih]
    have hparity : decide ((n + 1) % 2 = 1) = !decide (n % 2 = 1) := by
      rw [← decide_not]
      exact decide_eq_decide.2 (by omega)
    rw [hparity]
    cases m.complement <;> cases decide (n % 2 = 1) <;> rfl

/-- A mask that starts out plain admits a position if marking it differs from being complemented an odd
number of times. -/
theorem admitsAt_complementedTimes {m : Mask} (wf : m.pattern.WellFormed)
    (plain : m.complement = false) (n : Nat) {i j : Nat} :
    (m.complementedTimes n).admitsAt i j = true ↔ ¬ (m.Marks i j ↔ n % 2 = 1) := by
  have hholds : (m.complementedTimes n).holdsAt i j = m.holdsAt i j := by
    simp only [holdsAt, pattern_complementedTimes, values_complementedTimes]
  rw [admitsAt, hholds, complement_complementedTimes, plain, ← holdsAt_iff wf]
  cases m.holdsAt i j <;> by_cases hn : n % 2 = 1 <;> simp [hn]

theorem column_eq {m : Mask} (wf : m.pattern.WellFormed)
    (hvalues : ∀ values ∈ m.values, values.size = m.pattern.entryCount) (j : Nat) :
    m.column j = .ok
      ⟨m.pattern.rowIdx.extract (m.pattern.columnSpan j).start (m.pattern.columnSpan j).stop,
        m.values.map (·.extract (m.pattern.columnSpan j).start (m.pattern.columnSpan j).stop),
        m.complement⟩ := by
  have hle := wf.columnSpan_le j
  have hstop := wf.columnSpan_stop_le j
  unfold column
  rw [wf.columnRange_eq, Result.ok_bind,
    Span.cut_of_le hle (show _ ≤ m.pattern.rowIdx.size from hstop), Result.ok_bind]
  cases hv : m.values with
  | none => rfl
  | some values =>
    have hsize := hvalues values hv
    simp only
    rw [Span.cut_of_le hle (by omega)]
    rfl

/-- The test for a column admits the rows that the mask admits there. -/
theorem allows_column {m : Mask} (wf : m.pattern.WellFormed)
    (hvalues : ∀ values ∈ m.values, values.size = m.pattern.entryCount) (j : Nat) :
    ∃ column, m.column j = .ok column ∧ column.allows = fun i => m.admitsAt i j := by
  refine ⟨_, column_eq wf hvalues j, ?_⟩
  funext i
  unfold MaskColumn.allows admitsAt
  refine congrArg (· != m.complement) ?_
  have hstop : (m.pattern.columnSpan j).stop ≤ m.pattern.rowIdx.size := wf.columnSpan_stop_le j
  obtain ⟨hfound, habsent, -⟩ := Search.find_spec (wf.pairwise_rowsIn j) i
  unfold MaskColumn.holds
  simp only
  cases hf : Search.find (m.pattern.rowIdx.extract (m.pattern.columnSpan j).start
      (m.pattern.columnSpan j).stop) i with
  | absent p =>
    symm
    refine List.any_eq_false.2 fun entry he hholds => ?_
    have hrow := wf.getElem?_rowsIn he
    simp only [Bool.and_eq_true, decide_eq_true_eq] at hholds
    rw [hholds.1, Pattern.rowsIn, Array.getElem?_toList] at hrow
    exact habsent p hf _ hrow
  | found p =>
    have hp := hfound p hf
    have hlt := (Array.getElem?_eq_some_iff.1 hp).1
    rw [Array.size_extract] at hlt
    have hin : (m.pattern.columnSpan j).start + p ∈ (m.pattern.columnSpan j).positions :=
      Span.mem_positions.2 (by omega)
    have hrow := wf.getElem?_rowsIn hin
    rw [Nat.add_sub_cancel_left, Pattern.rowsIn, Array.getElem?_toList, hp, Option.some.injEq] at hrow
    rw [hrow, holdsAt_rowAt wf hin]
    cases hv : m.values with
    | none => rfl
    | some values =>
      have hsize : values.size = m.pattern.rowIdx.size := hvalues values hv
      simp only [Option.map_some, Option.elim_some]
      rw [Array.getElem?_extract, if_pos (by omega)]

end Mask

def Admitted (mask : Option Mask) (i j : Nat) : Prop := ∀ m ∈ mask, m.Admits i j

end SparseProduct
