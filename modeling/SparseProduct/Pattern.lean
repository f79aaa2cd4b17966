import SparseProduct.Size
import SparseProduct.Span
import SparseProduct.Search

/-!
# Nonzero patterns

A pattern says which positions of a matrix are stored, column by column. The entries of the vector in
slot `s` are the positions from `colPtr[s]` up to `colPtr[s + 1]`, and `rowIdx` gives the row of each.
In sparse storage slot `j` is column `j` and every column has a slot. In hypersparse storage only some
columns have one, and `colIds` names the column of each slot.

The fields can hold anything. The constructors look at array lengths only, and every access fails,
rather than reads, outside the arrays.
-/

namespace SparseProduct

/-- How the vectors of a pattern are addressed. -/
inductive StorageMode where
  | sparse
  | hypersparse
deriving DecidableEq, Repr

namespace StorageMode

def text : StorageMode → String
  | sparse => "Sparse"
  | hypersparse => "Hypersparse"

end StorageMode

/-- The stored positions of a compressed-column matrix. -/
structure Pattern where
  nRows : Nat
  nCols : Nat
  colPtr : Array Nat
  colIds : Option (Array Nat)
  rowIdx : Array Nat
  finalized : Bool
deriving DecidableEq, Repr, Inhabited

namespace Pattern

def ofPointers (nRows nCols : Nat) (colPtr rowIdx : Array Nat) : Result Pattern := do
  let pointers ← Size.add nCols 1
  if colPtr.size ≠ pointers then throw (.promise .pointerCount)
  let last ← fetch colPtr nCols
  if last ≠ rowIdx.size then throw (.promise .lastPointer)
  return ⟨nRows, nCols, colPtr, none, rowIdx, true⟩

def ofHyperPointers (nRows nCols : Nat) (colIds colPtr rowIdx : Array Nat) : Result Pattern := do
  if colPtr.size ≠ colIds.size + 1 then throw (.promise .hyperPointerCount)
  let last ← fetch colPtr colIds.size
  if last ≠ rowIdx.size then throw (.promise .hyperLastPointer)
  return ⟨nRows, nCols, colPtr, some colIds, rowIdx, true⟩

/-- The end of each column when the columns are laid end to end from `start` on. -/
def columnEnds {α : Type} (start : Nat) : List (Array α) → List Nat
  | [] => []
  | column :: columns => (start + column.size) :: columnEnds (start + column.size) columns

/-- The pointers of columns laid end to end. -/
def pointersOf {α : Type} (columns : Array (Array α)) : Array Nat :=
  (0 :: columnEnds 0 columns.toList).toArray

def ofColumns (nRows : Nat) (columns : Array (Array Nat)) : Result Pattern :=
  ofPointers nRows columns.size (pointersOf columns) columns.flatten

def empty (nRows nCols : Nat) : Result Pattern := do
  let pointers ← Size.add nCols 1
  ofPointers nRows nCols (Array.replicate pointers 0) #[]

def vectorCount (p : Pattern) : Result Nat := Size.sub p.colPtr.size 1

def entryCount (p : Pattern) : Nat := p.rowIdx.size

def isHypersparse (p : Pattern) : Bool := p.colIds.isSome

def storageMode (p : Pattern) : StorageMode := if p.isHypersparse then .hypersparse else .sparse

def vectorRange (p : Pattern) (slot : Nat) : Result Span := do
  let start ← fetch p.colPtr slot
  let stop ← fetch p.colPtr (slot + 1)
  return ⟨start, stop⟩

def vectorId (p : Pattern) (slot : Nat) : Result Nat :=
  match p.colIds with
  | some ids => fetch ids slot
  | none => .ok slot

def row (p : Pattern) (entry : Nat) : Result Nat := fetch p.rowIdx entry

/-- The slot of a column, if it has one. -/
def slotOf (p : Pattern) (j : Nat) : Option Nat :=
  match p.colIds with
  | some ids => (Search.find ids j).index?
  | none => if j < p.nCols then some j else none

/-- The entries of a column; none if it has no slot. -/
def columnRange (p : Pattern) (j : Nat) : Result Span :=
  match p.slotOf j with
  | some slot => p.vectorRange slot
  | none => .ok .empty

def columnRows (p : Pattern) (j : Nat) : Result (Array Nat) := do
  let range ← p.columnRange j
  range.cut p.rowIdx

/-- The pattern with work on it still to be done. -/
def markPending (p : Pattern) : Pattern := { p with finalized := false }

def finalize (p : Pattern) : Pattern := { p with finalized := true }

end Pattern

end SparseProduct
