import SparseProduct.Matrix.Growing

/-!
# Triplets scattered in place

The triplets are counted, and the counts say where each column starts in one array with a place for every
triplet. A cursor for each column moves on as the triplets are put into their places. The columns are then
sorted one after another, and what is left of them goes into the arrays of the matrix, where an entry is
combined with the one before it if both are of the same column and row.
-/

namespace SparseProduct

namespace GrowingMatrix

variable {α : Type}

/-- Combines an entry of column `j` with the value before it. -/
def combineLast (combine : Option (α → α → Result α)) (j : Nat) (g : GrowingMatrix α) (entry : Nat × α) :
    Result (GrowingMatrix α) :=
  match combine with
  | none => .error (.promise (.duplicateEntry entry.1 j))
  | some combine =>
      match g.values.back? with
      | some last => do return { g with values := g.values.pop.push (← combine last entry.2) }
      | none => .ok g

/-- Appends an entry to column `j`, or combines it with the last one if that is of the same column and row. -/
def addEntry (combine : Option (α → α → Result α)) (j : Nat) (g : GrowingMatrix α) (entry : Nat × α) :
    Result (GrowingMatrix α) := do
  let first ← fetch g.colPtr j
  if first < g.rowIdx.size ∧ g.rowIdx.back? = some entry.1 then combineLast combine j g entry
  else return g.pushEntry entry.1 entry.2

def addPlaces (combine : Option (α → α → Result α)) (starts : Array Nat)
    (places : Array (Option (Nat × α))) (g : GrowingMatrix α) (j : Nat) : Result (GrowingMatrix α) := do
  let start ← fetch starts j
  let stop ← fetch starts (j + 1)
  let column ← Span.cut ⟨start, stop⟩ places
  let g ← ((column.toList.filterMap id).mergeSort fun x y => x.1 ≤ y.1).foldlM (addEntry combine j) g
  return g.closeColumn

end GrowingMatrix

namespace SparseMatrix

variable {α : Type}

def countTriplet (nRows nCols : Nat) (counts : Array Nat) (t : Nat × Nat × α) : Result (Array Nat) := do
  if nRows ≤ t.1 then throw (.promise (.rowBound t.1 nRows))
  if nCols ≤ t.2.1 then throw (.promise (.columnBound t.2.1 nCols))
  let count ← fetch counts t.2.1
  store counts t.2.1 (← Size.add count 1)

/-- The next place of each column, and the places that are filled already. -/
structure Scattered (α : Type) where
  next : Array Nat
  places : Array (Option (Nat × α))

/-- Puts a triplet into the next place of its column. -/
def scatterTriplet (scattered : Scattered α) (t : Nat × Nat × α) : Result (Scattered α) := do
  let place ← fetch scattered.next t.2.1
  let places ← store scattered.places place (some (t.1, t.2.2))
  return ⟨← store scattered.next t.2.1 (← Size.add place 1), places⟩

/-- The matrix in sparse storage with the given triplets, put together in place. -/
def scatterTriplets (nRows nCols : Nat) (triplets : Array (Nat × Nat × α))
    (combine : Option (α → α → Result α)) : Result (SparseMatrix α) := do
  let counts ← triplets.toList.foldlM (countTriplet nRows nCols) (Array.replicate nCols 0)
  let starts ← Size.prefixSums counts
  let scattered ← triplets.toList.foldlM scatterTriplet ⟨starts, Array.replicate triplets.size none⟩
  let g ← Span.foldM ⟨0, nCols⟩ (GrowingMatrix.addPlaces combine starts scattered.places) .start
  g.finish nRows nCols

end SparseMatrix

end SparseProduct
