import Mathlib.Algebra.BigOperators.Group.List.Lemmas
import SparseProduct.Matrix.Growing
import SparseProduct.Proofs.Columns

/-!
# What growing arrays hold

At any time the arrays hold the closed columns laid end to end, and the entries of the open column after them.
So they end up as those of a matrix that is laid out from its columns.
-/

namespace SparseProduct

namespace Pattern

variable {α : Type}

theorem columnEnds_concat (start : Nat) (columns : List (Array α)) (column : Array α) :
    columnEnds start (columns ++ [column]) =
      columnEnds start columns ++ [start + (columns.map Array.size).sum + column.size] := by
  induction columns generalizing start with
  | nil => rfl
  | cons first columns ih =>
    rw [List.cons_append, columnEnds, ih, columnEnds, List.map_cons, List.sum_cons, ← Nat.add_assoc,
      List.cons_append]

theorem pointersOf_push (columns : Array (Array α)) (column : Array α) :
    pointersOf (columns.push column) =
      (pointersOf columns).push (columns.flatten.size + column.size) := by
  apply Array.toList_inj.1
  simp [pointersOf, columnEnds_concat, Array.size_flatten, ← Array.sum_toList]

end Pattern

namespace GrowingMatrix

variable {α : Type}

/-- The arrays that hold closed columns, and the entries of an open one after them. -/
def laid (closed : Array (Array (Nat × α))) (column : Array (Nat × α)) : GrowingMatrix α where
  colPtr := Pattern.pointersOf closed
  rowIdx := (closed.flatten ++ column).map (·.1)
  values := (closed.flatten ++ column).map (·.2)

theorem start_eq_laid : (start : GrowingMatrix α) = laid #[] #[] := by
  simp [start, laid, Pattern.pointersOf, Pattern.columnEnds]

@[simp] theorem size_rowIdx_laid (closed : Array (Array (Nat × α))) (column : Array (Nat × α)) :
    (laid closed column).rowIdx.size = closed.flatten.size + column.size := by
  rw [laid, Array.size_map, Array.size_append]

@[simp] theorem rowIdx_laid_push (closed : Array (Array (Nat × α))) (column : Array (Nat × α))
    (entry : Nat × α) : (laid closed (column.push entry)).rowIdx =
      (laid closed column).rowIdx.push entry.1 := by
  simp [laid]

@[simp] theorem values_laid_push (closed : Array (Array (Nat × α))) (column : Array (Nat × α))
    (entry : Nat × α) : (laid closed (column.push entry)).values =
      (laid closed column).values.push entry.2 := by
  simp [laid]

@[simp] theorem pushEntry_laid (closed : Array (Array (Nat × α))) (column : Array (Nat × α)) (i : Nat)
    (v : α) : (laid closed column).pushEntry i v = laid closed (column.push (i, v)) := by
  simp [pushEntry, laid]

@[simp] theorem closeColumn_laid (closed : Array (Array (Nat × α))) (column : Array (Nat × α)) :
    (laid closed column).closeColumn = laid (closed.push column) #[] := by
  rw [closeColumn, laid, laid, Pattern.pointersOf_push, Array.flatten_push, Array.append_empty,
    Array.size_map, Array.size_append]

/-- Once every column is closed, the arrays are those of the matrix with these columns. -/
theorem finish_laid {nRows nCols : Nat} {columns : Array (Array (Nat × α))} (h : columns.size = nCols) :
    (laid columns #[]).finish nRows nCols = SparseMatrix.ofColumns nRows columns := by
  rw [finish, laid, SparseMatrix.ofColumns, Array.append_empty, h]

theorem fetch_colPtr_laid {closed : Array (Array (Nat × α))} {j : Nat} (h : closed.size = j)
    (column : Array (Nat × α)) : fetch (laid closed column).colPtr j = .ok closed.flatten.size := by
  rw [fetch_eq_ok, laid, ← h, Pattern.getElem?_pointersOf (Nat.le_refl _), Pattern.laidBefore_size]

end GrowingMatrix

end SparseProduct
