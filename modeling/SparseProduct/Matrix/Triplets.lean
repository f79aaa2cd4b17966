import SparseProduct.Matrix

/-!
# Matrices from triplets

Triplets come in any order. They are sorted into columns, each column is sorted by row without changing
the order of equal rows, and values that share a position are folded together from the first to the
last. Without a way to combine values a shared position is refused. The columns are kept apart here;
`SparseMatrix.scatterTriplets` does the same in arrays that they share. A failure to allocate an array, such
as one for the pointers of `2 ^ 60` columns, is left out.
-/

namespace SparseProduct

namespace SparseMatrix

variable {α : Type}

/-- Puts each triplet into its column, in order. -/
def bucket (nRows nCols : Nat) :
    List (Nat × Nat × α) → Array (Array (Nat × α)) → Result (Array (Array (Nat × α)))
  | [], columns => .ok columns
  | (i, j, v) :: triplets, columns => do
      if nRows ≤ i then throw (.promise (.rowBound i nRows))
      if nCols ≤ j then throw (.promise (.columnBound j nCols))
      bucket nRows nCols triplets (columns.modify j (·.push (i, v)))

/-- Appends an entry of column `j`, or combines it with the last one if the rows agree. -/
def mergeEntry (combine : Option (α → α → Result α)) (j : Nat) (merged : Array (Nat × α))
    (entry : Nat × α) : Result (Array (Nat × α)) :=
  match merged.back? with
  | some (i, last) =>
      if i = entry.1 then
        match combine with
        | some combine => do
            return merged.pop.push (i, ← combine last entry.2)
        | none => .error (.promise (.duplicateEntry entry.1 j))
      else .ok (merged.push entry)
  | none => .ok (merged.push entry)

/-- Column `j` by increasing row, with one entry for each row. -/
def mergeColumn (combine : Option (α → α → Result α)) (j : Nat) (column : Array (Nat × α)) :
    Result (Array (Nat × α)) :=
  (column.toList.mergeSort fun x y => x.1 ≤ y.1).foldlM (mergeEntry combine j) #[]

/-- Merges the columns from `j` on. -/
def mergeColumns (combine : Option (α → α → Result α)) :
    Nat → List (Array (Nat × α)) → Result (List (Array (Nat × α)))
  | _, [] => .ok []
  | j, column :: columns => do
      let column ← mergeColumn combine j column
      return column :: (← mergeColumns combine (j + 1) columns)

def ofTriplets (nRows nCols : Nat) (triplets : Array (Nat × Nat × α))
    (combine : Option (α → α → Result α)) : Result (SparseMatrix α) := do
  let columns ← bucket nRows nCols triplets.toList (Array.replicate nCols #[])
  let columns ← mergeColumns combine 0 columns.toList
  ofColumns nRows columns.toArray

end SparseMatrix

end SparseProduct
