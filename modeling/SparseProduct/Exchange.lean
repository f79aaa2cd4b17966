import SparseProduct.Exchange.Tool

/-!
# A tool with plainly compressed matrices

A tool that keeps a matrix compressed by rows or by columns. Its arrays are checked in full when they are put
together. It takes pointers that start at any offset, which is then taken off.
-/

namespace SparseProduct

/-- A matrix compressed by rows or by columns. An outer vector is a row or a column accordingly. -/
structure CompressedMatrix (α : Type) where
  byRows : Bool
  nRows : Nat
  nCols : Nat
  pointers : Array Nat
  indices : Array Nat
  data : Array α
deriving DecidableEq, Repr

namespace CompressedMatrix

variable {α : Type}

def outerCount (m : CompressedMatrix α) : Nat := if m.byRows then m.nRows else m.nCols

def innerCount (m : CompressedMatrix α) : Nat := if m.byRows then m.nCols else m.nRows

/-- The pointer that counts as the start of the arrays. -/
def offset (m : CompressedMatrix α) : Nat := m.pointers[0]?.getD 0

def outerSpan (m : CompressedMatrix α) (outer : Nat) : Span :=
  ⟨m.pointers[outer]?.getD 0 - m.offset, m.pointers[outer + 1]?.getD 0 - m.offset⟩

def outerIndices (m : CompressedMatrix α) (outer : Nat) : Array Nat :=
  m.indices.extract (m.outerSpan outer).start (m.outerSpan outer).stop

def pointerLimit : Nat := (Size.limit - 1) / 2

def isMonotone : List Nat → Bool
  | x :: y :: rest => x ≤ y && isMonotone (y :: rest)
  | _ => true

def acceptsOuter (m : CompressedMatrix α) (outer : Nat) : Bool :=
  let indices := m.outerIndices outer
  (Pattern.firstDescent indices.toList).isNone && indices.all (· < m.innerCount)

/-- Whether the arrays are those of a compressed matrix with some number of outer vectors. A pointer beyond
`pointerLimit` and beyond the indices is refused. -/
def hasPointers (m : CompressedMatrix α) : Bool :=
  m.data.size == m.indices.size
    && 0 < m.pointers.size
    && isMonotone m.pointers.toList
    && m.pointers.all (· ≤ max pointerLimit m.indices.size)

/-- Whether `pointerCount` pointers divide the indices into outer vectors that are accepted. -/
def accepts (m : CompressedMatrix α) (pointerCount : Nat) : Bool :=
  m.pointers.size == pointerCount
    && m.indices.size == m.pointers.back?.getD 0 - m.offset
    && (List.range m.outerCount).all m.acceptsOuter

/-- The matrix of the given arrays, which are refused if they do not fit together. The number of outer
vectors matters only to arrays that have pointers at all. -/
def make (byRows : Bool) (nRows nCols : Nat) (pointers indices : Array Nat) (data : Array α) :
    Result (CompressedMatrix α) := do
  let m : CompressedMatrix α := ⟨byRows, nRows, nCols, pointers, indices, data⟩
  if !m.hasPointers then throw .malformed
  let pointerCount ← Size.add m.outerCount 1
  if m.accepts pointerCount then return m else throw .malformed

def outerEntries (m : CompressedMatrix α) (outer : Nat) : Array (Nat × α) :=
  (m.outerIndices outer).zip
    (m.data.extract (m.outerSpan outer).start (m.outerSpan outer).stop)

def get? (m : CompressedMatrix α) (i j : Nat) : Option α :=
  let (outer, inner) := if m.byRows then (i, j) else (j, i)
  if outer < m.outerCount then
    match Search.find (m.outerIndices outer) inner with
    | .found p => m.data[(m.outerSpan outer).start + p]?
    | .absent _ => none
  else none

/-- Puts the entries of outer vector `i` into the columns they name. -/
def spread (i : Nat) (columns : Array (Array (Nat × α))) (entries : Array (Nat × α)) :
    Array (Array (Nat × α)) :=
  entries.foldl (fun columns entry => columns.modify entry.1 (·.push (i, entry.2))) columns

/-- The same matrix compressed by columns. One that is already so is kept as it is; otherwise there has
to be room for a pointer more than there are columns. -/
def toColumns (m : CompressedMatrix α) : Result (CompressedMatrix α) := do
  if m.byRows then
    let _ ← Size.add m.nCols 1
    let columns := (List.range m.nRows).foldl (fun columns i => spread i columns (m.outerEntries i))
      (Array.replicate m.nCols #[])
    return ⟨false, m.nRows, m.nCols, Pattern.pointersOf columns, columns.flatten.map (·.1),
      columns.flatten.map (·.2)⟩
  else return m

def tool : CompressedTool α (CompressedMatrix α) where
  make := make false
  isByColumns m := !m.byRows
  toColumns := toColumns
  shape m := (m.nRows, m.nCols)
  arrays m := (m.pointers, m.indices, m.data)

end CompressedMatrix

namespace SparseMatrix

variable {α : Type}

def toCompressed (m : SparseMatrix α) : Result (CompressedMatrix α) := m.exportTo CompressedMatrix.tool

def ofCompressed (m : CompressedMatrix α) : Result (SparseMatrix α) := importFrom CompressedMatrix.tool m

end SparseMatrix

end SparseProduct
