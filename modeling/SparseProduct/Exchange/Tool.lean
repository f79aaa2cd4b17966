import SparseProduct.Matrix

/-!
# Handing matrices to another tool

Another tool keeps matrices of its own, compressed by columns or by rows, with a pointer for each of them and
no list of ids. It is known here by its operations alone. A matrix in hypersparse storage is expanded before
it is handed over; what comes back is asked for by columns and put together from its arrays.
-/

namespace SparseProduct

/-- What a tool offers for its matrices `M`. It decides itself which arrays it accepts. -/
structure CompressedTool (α M : Type) where
  make : (nRows nCols : Nat) → (pointers indices : Array Nat) → (data : Array α) → Result M
  isByColumns : M → Bool
  toColumns : M → Result M
  shape : M → Nat × Nat
  arrays : M → Array Nat × Array Nat × Array α

namespace SparseMatrix

variable {α M : Type}

/-- The matrix as the tool makes it from the arrays in sparse storage. -/
def exportTo (tool : CompressedTool α M) (m : SparseMatrix α) : Result M := do
  let sparse ← m.toSparse
  tool.make sparse.pattern.nRows sparse.pattern.nCols sparse.pattern.colPtr sparse.pattern.rowIdx
    sparse.values

/-- The matrix of the arrays that the tool keeps by columns. -/
def importFrom (tool : CompressedTool α M) (m : M) : Result (SparseMatrix α) := do
  let columns ← if tool.isByColumns m then pure m else tool.toColumns m
  let (nRows, nCols) := tool.shape columns
  let (pointers, indices, data) := tool.arrays columns
  ofPointers nRows nCols pointers indices data

end SparseMatrix

end SparseProduct
