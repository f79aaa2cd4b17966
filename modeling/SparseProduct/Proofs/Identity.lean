import Mathlib
import SparseProduct.Proofs.Columns
import SparseProduct.Proofs.Terms
import SparseProduct.Proofs.Views

/-!
# The identity matrix

Column `j` of the identity holds a one in row `j` and nothing else. So at each position at most one entry of
another matrix meets the identity, the entry that the matrix has there.
-/

namespace SparseProduct

theorem filterMap_range_ite {β : Type} {n i : Nat} {x : Option β} (h : x.isSome → i < n) :
    (List.range n).filterMap (fun k => if k = i then x else none) = x.toList := by
  induction n with
  | zero =>
    cases x with
    | none => rfl
    | some x => exact absurd (h rfl) (Nat.not_lt_zero i)
  | succ n ih =>
    rw [List.range_succ, List.filterMap_append]
    by_cases hin : n = i
    · subst hin
      have hnil : (List.range n).filterMap (fun k => if k = n then x else none) = [] :=
        List.filterMap_eq_nil_iff.2 fun k hk => if_neg (Nat.ne_of_lt (List.mem_range.1 hk))
      rw [hnil]
      cases x <;> simp
    · rw [ih fun hx => by have := h hx; omega]
      simp [hin]

namespace SparseMatrix

variable {α : Type} [Numeric α]

def diagonal (α : Type) [Numeric α] (n : Nat) : Array (Array (Nat × α)) :=
  (Array.range n).map fun j => #[(j, Numeric.one)]

theorem size_diagonal (n : Nat) : (diagonal α n).size = n := by simp [diagonal]

theorem getElem_diagonal {n j : Nat} (hj : j < (diagonal α n).size) :
    (diagonal α n)[j] = #[(j, Numeric.one)] := by simp [diagonal]

theorem flatten_diagonal (n : Nat) :
    (diagonal α n).flatten = (Array.range n).map fun j => (j, (Numeric.one : α)) := by
  apply Array.toList_inj.1
  rw [Array.toList_flatten, diagonal, Array.toList_map, Array.toList_map, List.map_map,
    ← List.flatMap_def]
  exact List.map_eq_flatMap.symm

theorem pointersOf_diagonal (n : Nat) : Pattern.pointersOf (diagonal α n) = Array.range (n + 1) := by
  have hsizes : (diagonal α n).toList.map Array.size = List.replicate n 1 := by
    simp [diagonal, List.map_map, Function.comp_def]
  refine Array.ext (by rw [Pattern.size_pointersOf, size_diagonal, Array.size_range]) fun j hj hj' => ?_
  have hle : j ≤ n := by
    rw [Array.size_range] at hj'
    omega
  have hpointer := Pattern.getElem?_pointersOf (show j ≤ (diagonal α n).size by rwa [size_diagonal])
  rw [Pattern.laidBefore, hsizes, List.take_replicate, List.sum_replicate, Nat.min_eq_left hle,
    Array.getElem?_eq_getElem hj, Option.some.injEq] at hpointer
  rw [hpointer, Array.getElem_range, smul_eq_mul, Nat.mul_one]

theorem ordered_diagonal (n : Nat) : Ordered n (diagonal α n) where
  increasing column hcolumn := by
    obtain ⟨j, -, rfl⟩ := Array.mem_map.1 hcolumn
    exact List.pairwise_singleton _ _
  bounded column hcolumn entry hentry := by
    obtain ⟨j, hj, rfl⟩ := Array.mem_map.1 hcolumn
    rw [Array.mem_singleton.1 hentry]
    exact Array.mem_range.1 hj

theorem identity_eq {n : Nat} (hn : n + 1 < Size.limit) :
    identity n = .ok (laidOut n (diagonal α n)) := by
  have hones : Array.replicate n Numeric.one = (diagonal α n).flatten.map (·.2) := by
    simp [flatten_diagonal, Function.comp_def, Array.ext_iff]
  have hrows : Array.range n = (diagonal α n).flatten.map (·.1) := by
    simp [flatten_diagonal, Function.comp_def]
  rw [identity, ← pointersOf_diagonal (α := α), hones, hrows]
  have hcolumns := ofColumns_eq (by rwa [size_diagonal]) (ordered_diagonal (α := α) n).bounded
  rw [ofColumns, size_diagonal] at hcolumns
  exact hcolumns

/-- The matrix stores a one at each position of the diagonal, and nothing else. -/
structure IsIdentity (m : SparseMatrix α) (n : Nat) : Prop where
  isSparse : m.IsSparse n n
  get?_eq : ∀ i k, m.get? i k = if i = k ∧ k < n then some Numeric.one else none

theorem exists_identity {n : Nat} (hn : n + 1 < Size.limit) :
    ∃ m : SparseMatrix α, identity n = .ok m ∧ m.IsIdentity n := by
  have hsize : (diagonal α n).size = n := size_diagonal n
  have isSparse := isSparse_laidOut (ordered_diagonal (α := α) n)
  have wf := wellFormed_laidOut (ordered_diagonal (α := α) n)
  rw [hsize] at isSparse
  refine ⟨_, identity_eq hn, isSparse, fun i k => ?_⟩
  rw [get?_eq_lookup wf size_laidOut]
  by_cases hk : k < n
  · rw [entriesAt_laidOut (hsize.symm ▸ hk), getElem_diagonal]
    by_cases hik : i = k
    · simp [hik, hk]
    · simp [hik, List.lookup_cons, beq_eq_false_iff_ne.2 hik]
  · have hempty : ¬ (laidOut n (diagonal α n)).pattern.Occupied k := fun h =>
      hk (Nat.lt_of_lt_of_eq (wf.lt_of_occupied h) hsize)
    rw [entriesAt_eq_nil wf hempty, if_neg fun h => hk h.2]
    rfl

/-! ### What meets the identity -/

section Meetings

variable {β : Type} {e : SparseMatrix α} {n : Nat} (he : e.IsIdentity n) {m : SparseMatrix β}
include he

theorem IsIdentity.meetings_left (h : Factors e m) (i j : Nat) :
    meetings e m i j = ((m.get? i j).map fun y => (Numeric.one, y)).toList := by
  have hpair : ∀ k ∈ List.range n, Option.map₂ Prod.mk (e.get? i k) (m.get? k j) =
      if k = i then (m.get? i j).map fun y => (Numeric.one, y) else none := by
    intro k hk
    rw [he.get?_eq]
    by_cases hki : k = i
    · subst hki
      rw [if_pos ⟨rfl, List.mem_range.1 hk⟩, if_pos rfl]
      cases m.get? k j <;> rfl
    · rw [if_neg fun hik => hki hik.1.symm, if_neg hki]
      rfl
  rw [meetings, he.isSparse.columns, List.filterMap_congr hpair, filterMap_range_ite]
  intro hsome
  obtain ⟨y, hy⟩ := Option.isSome_iff_exists.1 (Option.isSome_map.symm.trans hsome)
  exact Nat.lt_of_lt_of_eq (lt_of_get? h.b_wellFormed h.b_values hy).1
    (h.inner.symm.trans he.isSparse.columns)

theorem IsIdentity.meetings_right (h : Factors m e) (i j : Nat) :
    meetings m e i j = ((m.get? i j).map fun x => (x, Numeric.one)).toList := by
  have hpair : ∀ k ∈ List.range n, Option.map₂ Prod.mk (m.get? i k) (e.get? k j) =
      if k = j then (m.get? i j).map fun x => (x, Numeric.one) else none := by
    intro k hk
    rw [he.get?_eq]
    by_cases hkj : k = j
    · subst hkj
      rw [if_pos ⟨rfl, List.mem_range.1 hk⟩, if_pos rfl]
      cases m.get? i k <;> rfl
    · rw [if_neg fun h => hkj h.1, if_neg hkj]
      exact Option.map₂_none_right _ _
  rw [meetings, h.inner, he.isSparse.rows, List.filterMap_congr hpair, filterMap_range_ite]
  intro hsome
  obtain ⟨x, hx⟩ := Option.isSome_iff_exists.1 (Option.isSome_map.symm.trans hsome)
  exact Nat.lt_of_lt_of_eq (lt_of_get? h.a_wellFormed h.a_values hx).2
    (h.inner.trans he.isSparse.rows)

end Meetings

end SparseMatrix

end SparseProduct
