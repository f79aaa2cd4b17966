import SparseProduct.Matrix
import SparseProduct.Semiring

/-!
# The reference product

The reference computes each column of A · B in a dense column and reads it off. It finds the structure
of the product by itself: a position is stored if at least one product reaches it, whatever its value.
Products are folded in the order of the inner index, from the identity on. Each column is a new one here;
`Reference.productInPlace` and `Reference.valuesInPlace` use one column for all. A failure to allocate an
array, such as one for the pointers of `2 ^ 60` columns, is left out.
-/

namespace SparseProduct

/-- One column of a product, and which of its rows a product has reached. -/
structure DenseColumn (α : Type) where
  values : Array α
  touched : Array Bool

namespace DenseColumn

variable {L R O : Type}

def untouched (s : SemiringOps L R O) (nRows : Nat) : DenseColumn O :=
  ⟨Array.replicate nRows s.identity, Array.replicate nRows false⟩

/-- Folds the product of an entry of A with `y` into its row. -/
def addEntry (s : SemiringOps L R O) (y : R) (column : DenseColumn O) (entry : Nat × L) :
    Result (DenseColumn O) := do
  let t ← s.multiply entry.2 y
  let existing ← fetch column.values entry.1
  let value ← s.accumulate existing t
  return ⟨← store column.values entry.1 value, ← store column.touched entry.1 true⟩

def addColumn (s : SemiringOps L R O) (a : SparseMatrix L) (column : DenseColumn O)
    (entry : Nat × R) : Result (DenseColumn O) := do
  (← a.column entry.1).toList.foldlM (addEntry s entry.2) column

/-- Column `j` of A · B. -/
def product (s : SemiringOps L R O) (a : SparseMatrix L) (b : SparseMatrix R) (j : Nat) :
    Result (DenseColumn O) := do
  (← b.column j).toList.foldlM (addColumn s a) (untouched s a.pattern.nRows)

/-- The rows that a product has reached, with their values. -/
def entries (column : DenseColumn O) : Array (Nat × O) :=
  (Array.range column.values.size).filterMap fun i =>
    if column.touched[i]? = some true then column.values[i]?.map fun v => (i, v) else none

end DenseColumn

namespace Reference

variable {L R O : Type}

def pushColumn (s : SemiringOps L R O) (a : SparseMatrix L) (b : SparseMatrix R)
    (columns : Array (Array (Nat × O))) (j : Nat) : Result (Array (Array (Nat × O))) := do
  return columns.push (← DenseColumn.product s a b j).entries

/-- A · B with its structure, in sparse storage. -/
def product (s : SemiringOps L R O) (a : SparseMatrix L) (b : SparseMatrix R) :
    Result (SparseMatrix O) := do
  if a.pattern.nCols ≠ b.pattern.nRows then throw (.promise .innerDimensions)
  let _ ← Size.add b.pattern.nCols 1
  let columns ← Span.foldM ⟨0, b.pattern.nCols⟩ (pushColumn s a b) #[]
  SparseMatrix.ofColumns a.pattern.nRows columns

def pushValues (s : SemiringOps L R O) (a : SparseMatrix L) (b : SparseMatrix R) (c : Pattern)
    (values : Array O) (slot : Nat) : Result (Array O) := do
  let j ← c.vectorId slot
  let column ← DenseColumn.product s a b j
  let range ← c.vectorRange slot
  range.foldM (fun values p => do
    return values.push (← fetch column.values (← c.row p))) values

/-- The values of A · B at the entries of a pattern, the identity where no product reaches. -/
def values (s : SemiringOps L R O) (a : SparseMatrix L) (b : SparseMatrix R) (c : Pattern) :
    Result (Array O) := do
  if c.nRows ≠ a.pattern.nRows then throw (.promise .patternRows)
  if c.nCols ≠ b.pattern.nCols then throw (.promise .patternColumns)
  Span.foldM ⟨0, ← c.vectorCount⟩ (pushValues s a b c) #[]

end Reference

end SparseProduct
