import SparseProduct.Numeric
import SparseProduct.Pattern.Check
import SparseProduct.Pattern.Convert

/-!
# Sparse matrices

A matrix is a pattern and one value for each of its entries, in the order of the entries.
-/

namespace SparseProduct

structure SparseMatrix (α : Type) where
  pattern : Pattern
  values : Array α
deriving DecidableEq, Repr

namespace SparseMatrix

variable {α : Type}

def checkRows (nRows : Nat) : List Nat → Result Unit
  | [] => .ok ()
  | row :: rows =>
      if row < nRows then checkRows nRows rows else .error (.promise (.rowBound row nRows))

def ofPointers (nRows nCols : Nat) (colPtr rowIdx : Array Nat) (values : Array α) :
    Result (SparseMatrix α) := do
  if rowIdx.size ≠ values.size then throw (.promise .valueCount)
  checkRows nRows rowIdx.toList
  return ⟨← Pattern.ofPointers nRows nCols colPtr rowIdx, values⟩

def ofHyperPointers (nRows nCols : Nat) (colIds colPtr rowIdx : Array Nat) (values : Array α) :
    Result (SparseMatrix α) := do
  if rowIdx.size ≠ values.size then throw (.promise .valueCount)
  checkRows nRows rowIdx.toList
  return ⟨← Pattern.ofHyperPointers nRows nCols colIds colPtr rowIdx, values⟩

/-- The matrix in sparse storage with the given rows and values in each column. -/
def ofColumns (nRows : Nat) (columns : Array (Array (Nat × α))) : Result (SparseMatrix α) :=
  ofPointers nRows columns.size (Pattern.pointersOf columns) (columns.flatten.map (·.1))
    (columns.flatten.map (·.2))

def constant (pattern : Pattern) (value : α) : SparseMatrix α :=
  ⟨pattern, Array.replicate pattern.entryCount value⟩

def zeros (nRows nCols : Nat) : Result (SparseMatrix α) := do
  return ⟨← Pattern.empty nRows nCols, #[]⟩

def identity [Numeric α] (n : Nat) : Result (SparseMatrix α) :=
  ofPointers n n (Array.range (n + 1)) (Array.range n) (Array.replicate n Numeric.one)

def value (m : SparseMatrix α) (entry : Nat) : Result α := fetch m.values entry

def column (m : SparseMatrix α) (j : Nat) : Result (Array (Nat × α)) := do
  if m.pattern.nCols ≤ j then throw (.promise .columnRequest)
  let range ← m.pattern.columnRange j
  let rows ← range.cut m.pattern.rowIdx
  let values ← range.cut m.values
  return rows.zip values

def pushTriplet (m : SparseMatrix α) (j : Nat) (triplets : Array (Nat × Nat × α)) (entry : Nat) :
    Result (Array (Nat × Nat × α)) := do
  let i ← m.pattern.row entry
  let v ← m.value entry
  return triplets.push (i, j, v)

def pushVector (m : SparseMatrix α) (triplets : Array (Nat × Nat × α)) (slot : Nat) :
    Result (Array (Nat × Nat × α)) := do
  let j ← m.pattern.vectorId slot
  let range ← m.pattern.vectorRange slot
  range.foldM (m.pushTriplet j) triplets

/-- All entries as row, column and value, column by column. -/
def triplets (m : SparseMatrix α) : Result (Array (Nat × Nat × α)) := do
  Span.foldM ⟨0, ← m.pattern.vectorCount⟩ m.pushVector #[]

/-- Overwrites one position of a dense array of rows. -/
def placeTriplet (dense : Array (Array α)) (entry : Nat × Nat × α) : Result (Array (Array α)) := do
  let row ← fetch dense entry.1
  let row ← store row entry.2.1 entry.2.2
  store dense entry.1 row

/-- The array of rows that has `fill` at every position. Without rows, no row is laid out. -/
def filled (nRows nCols : Nat) (fill : α) : Array (Array α) :=
  if nRows = 0 then #[] else Array.replicate nRows (Array.replicate nCols fill)

/-- All positions as an array of rows, with `fill` where nothing is stored. -/
def toDense (m : SparseMatrix α) (fill : α) : Result (Array (Array α)) := do
  (← m.triplets).toList.foldlM placeTriplet (filled m.pattern.nRows m.pattern.nCols fill)

def toHypersparse (m : SparseMatrix α) : Result (SparseMatrix α) := do
  return { m with pattern := ← m.pattern.toHypersparse }

def toSparse (m : SparseMatrix α) : Result (SparseMatrix α) := do
  return { m with pattern := ← m.pattern.toSparse }

end SparseMatrix

end SparseProduct
