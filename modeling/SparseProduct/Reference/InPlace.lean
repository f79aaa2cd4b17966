import SparseProduct.Matrix.Growing
import SparseProduct.Reference

/-!
# The reference product in place

One dense column serves for all columns of the product. It is filled anew for each of them and scanned from
the first row to the last, and what a product has reached goes into arrays that grow at their ends.
-/

namespace SparseProduct

variable {L R O : Type}

namespace DenseColumn

/-- The column that nothing has reached, in the arrays of one that is no longer needed. -/
def reset (s : SemiringOps L R O) (column : DenseColumn O) : DenseColumn O :=
  ⟨column.values.map fun _ => s.identity, column.touched.map fun _ => false⟩

/-- Column `j` of A · B, in the arrays of a column that is no longer needed. -/
def compute (s : SemiringOps L R O) (a : SparseMatrix L) (b : SparseMatrix R) (column : DenseColumn O)
    (j : Nat) : Result (DenseColumn O) := do
  (← b.column j).toList.foldlM (addColumn s a) (column.reset s)

end DenseColumn

namespace Reference

def appendRow (column : DenseColumn O) (g : GrowingMatrix O) (i : Nat) : Result (GrowingMatrix O) := do
  if ← fetch column.touched i then return g.pushEntry i (← fetch column.values i) else return g

/-- Appends column `j` of A · B, computed in the dense column that is handed on. -/
def appendColumn (s : SemiringOps L R O) (a : SparseMatrix L) (b : SparseMatrix R)
    (state : DenseColumn O × GrowingMatrix O) (j : Nat) : Result (DenseColumn O × GrowingMatrix O) := do
  let column ← state.1.compute s a b j
  let g ← Span.foldM ⟨0, a.pattern.nRows⟩ (appendRow column) state.2
  return (column, g.closeColumn)

/-- A · B with its structure, in sparse storage, put together in place. -/
def productInPlace (s : SemiringOps L R O) (a : SparseMatrix L) (b : SparseMatrix R) :
    Result (SparseMatrix O) := do
  if a.pattern.nCols ≠ b.pattern.nRows then throw (.promise .innerDimensions)
  let _ ← Size.add b.pattern.nCols 1
  let filled ← Span.foldM ⟨0, b.pattern.nCols⟩ (appendColumn s a b) (.untouched s a.pattern.nRows, .start)
  filled.2.finish a.pattern.nRows b.pattern.nCols

/-- Appends the values of A · B at the entries of a slot, computed in the dense column that is handed on. -/
def appendValues (s : SemiringOps L R O) (a : SparseMatrix L) (b : SparseMatrix R) (c : Pattern)
    (state : DenseColumn O × Array O) (slot : Nat) : Result (DenseColumn O × Array O) := do
  let j ← c.vectorId slot
  let column ← state.1.compute s a b j
  let range ← c.vectorRange slot
  let values ← range.foldM (fun values p => do
    return values.push (← fetch column.values (← c.row p))) state.2
  return (column, values)

/-- The values of A · B at the entries of a pattern, computed in one dense column. -/
def valuesInPlace (s : SemiringOps L R O) (a : SparseMatrix L) (b : SparseMatrix R) (c : Pattern) :
    Result (Array O) := do
  if c.nRows ≠ a.pattern.nRows then throw (.promise .patternRows)
  if c.nCols ≠ b.pattern.nCols then throw (.promise .patternColumns)
  let filled ← Span.foldM ⟨0, ← c.vectorCount⟩ (appendValues s a b c) (.untouched s a.pattern.nRows, #[])
  return filled.2

end Reference

end SparseProduct
