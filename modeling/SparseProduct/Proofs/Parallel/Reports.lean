import Mathlib.Algebra.BigOperators.Group.List.Basic
import SparseProduct.Counters

/-!
# Adding up reports

The reports of tasks are added up in some tree, of which nothing is known but that every report is in it
once. Empty reports can be added anywhere. Addition of reports is commutative, so all trees agree.
-/

namespace SparseProduct

namespace Counters

instance : Zero Counters := ⟨zero⟩

instance : AddCommMonoid Counters where
  add_assoc := add_assoc
  zero_add := zero_add
  add_zero x := (add_comm x zero).trans (zero_add x)
  nsmul := nsmulRec
  add_comm := add_comm

theorem foldl_add (reports : List Counters) (x : Counters) :
    reports.foldl (· + ·) x = x + reports.sum := by
  induction reports generalizing x with
  | nil => rw [List.foldl_nil, List.sum_nil, add_zero]
  | cons report reports ih => rw [List.foldl_cons, ih, List.sum_cons, add_assoc]

end Counters

/-- A tree in which reports are added up, each known by its index. -/
inductive Reduction where
  | empty
  | report (index : Nat)
  | join (first second : Reduction)
deriving Repr

namespace Reduction

def indices : Reduction → List Nat
  | empty => []
  | report index => [index]
  | join first second => first.indices ++ second.indices

def total (reports : List Counters) : Reduction → Counters
  | empty => .zero
  | report index => reports[index]?.getD .zero
  | join first second => first.total reports + second.total reports

theorem total_eq (reports : List Counters) (tree : Reduction) :
    tree.total reports = (tree.indices.map fun index => reports[index]?.getD .zero).sum := by
  induction tree with
  | empty => rfl
  | report index => rw [indices, total, List.map_singleton, List.sum_singleton]
  | join first second ihFirst ihSecond =>
    rw [total, ihFirst, ihSecond, indices, List.map_append, List.sum_append]

theorem total_eq_sum {reports : List Counters} {tree : Reduction}
    (h : tree.indices.Perm (List.range reports.length)) : tree.total reports = reports.sum := by
  have hall : (List.range reports.length).map (fun index => reports[index]?.getD .zero) = reports := by
    refine List.ext_getElem (by simp) fun index hlt hlt' => ?_
    simp [hlt']
  rw [total_eq, (h.map _).sum_eq, hall]

end Reduction

end SparseProduct
