import SparseProduct.ColumnWalk
import SparseProduct.Proofs.Pattern.Layout

/-!
# Walking C finds what searching C finds

Where a walk stands depends on the column it was asked for last, and not on what it was asked for before.
Asked for a column that is not before the one where it was started, it comes to where a walk starts at that
column: behind the smaller stored columns. If the column is stored, then its slot is there, so the walk answers
as a search of the whole pattern does.
-/

namespace SparseProduct

namespace ColumnWalk

theorem advance_eq {ids : Array Nat} (inc : ids.toList.Pairwise (· < ·)) {j next : Nat}
    (h : next ≤ Search.countWhile ids (· < j)) :
    advance ids j next = Search.countWhile ids (· < j) := by
  fun_induction advance ids j next with
  | case1 next hlt hbelow ih => exact ih ((Search.lt_countWhile_lt_iff inc j hlt).2 hbelow)
  | case2 next hlt hnot =>
    exact Nat.le_antisymm h (Nat.le_of_not_lt (mt (Search.lt_countWhile_lt_iff inc j hlt).1 hnot))
  | case3 next hnot =>
    have hcount := Search.countWhile_le ids (· < j)
    exact Nat.le_antisymm h (Nat.le_trans hcount (Nat.le_of_not_lt hnot))

variable {c : Pattern} (wf : c.WellFormed)
include wf

/-- A walk started at or before a column answers as a search of the whole pattern, and comes to where a
walk starts at that column. -/
theorem range_start {first j : Nat} (hle : first ≤ j) (hj : j < c.nCols) :
    (start c first).range c j = .ok (c.columnSpan j, start c j) := by
  unfold range start
  cases hids : c.colIds with
  | none =>
    have hslot : c.slotOf j = some j := by rw [Pattern.slotOf, hids, if_pos hj]
    rw [Pattern.columnSpan, hslot, Pattern.vectorRange_eq (wf.slotOf_eq_some_iff.1 hslot).1]
    rfl
  | some ids =>
    have inc := wf.ids_increasing ids hids
    have hslot : c.slotOf j = (Search.find ids j).index? := by rw [Pattern.slotOf, hids]
    simp only [advance_eq inc (Search.countWhile_lt_mono inc hle)]
    by_cases hat : ids[Search.countWhile ids (· < j)]? = some j
    · have hfind := (Search.index?_find_eq_some_iff inc).2 hat
      rw [← hslot] at hfind
      rw [if_pos hat, Pattern.columnSpan, hfind,
        Pattern.vectorRange_eq (wf.slotOf_eq_some_iff.1 hfind).1]
      rfl
    · have hnone : c.slotOf j = none := by
        rw [hslot]
        refine Search.index?_find_eq_none inc fun slot hstored => hat ?_
        rwa [Search.countWhile_lt_eq inc hstored]
      rw [if_neg hat, Pattern.columnSpan, hnone]

theorem next_start_le (first : Nat) : (start c first).next ≤ c.slotCount := by
  have hcount := wf.slotCount_eq
  unfold start
  cases hids : c.colIds with
  | none => exact Nat.zero_le _
  | some ids =>
    rw [hids, Option.elim_some] at hcount
    rw [hcount]
    exact Search.countWhile_le ids _

theorem next_start_mono {first j : Nat} (h : first ≤ j) : (start c first).next ≤ (start c j).next := by
  unfold start
  cases hids : c.colIds with
  | none => exact Nat.le_refl _
  | some ids => exact Search.countWhile_lt_mono (wf.ids_increasing ids hids) h

end ColumnWalk

end SparseProduct
