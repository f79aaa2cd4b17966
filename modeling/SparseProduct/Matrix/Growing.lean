import SparseProduct.Matrix

/-!
# Matrices that grow column by column

A matrix in sparse storage can be put together in three arrays that only grow at their ends. The last pointer
is where the column begins that is being filled. Closing the column appends the next one.
-/

namespace SparseProduct

/-- The arrays of a matrix in sparse storage of which some columns are filled, and one is being filled. -/
structure GrowingMatrix (α : Type) where
  colPtr : Array Nat
  rowIdx : Array Nat
  values : Array α
deriving DecidableEq, Repr

namespace GrowingMatrix

variable {α : Type}

def start : GrowingMatrix α := ⟨#[0], #[], #[]⟩

def pushEntry (g : GrowingMatrix α) (i : Nat) (v : α) : GrowingMatrix α :=
  { g with rowIdx := g.rowIdx.push i, values := g.values.push v }

def closeColumn (g : GrowingMatrix α) : GrowingMatrix α :=
  { g with colPtr := g.colPtr.push g.rowIdx.size }

def finish (nRows nCols : Nat) (g : GrowingMatrix α) : Result (SparseMatrix α) :=
  SparseMatrix.ofPointers nRows nCols g.colPtr g.rowIdx g.values

end GrowingMatrix

end SparseProduct
