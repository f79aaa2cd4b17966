import SparseProduct.Pattern

/-!
# Well-formed patterns

`Pattern.WellFormed` states what a compressed-column pattern is. `Pattern.check` looks for the first
defect, in the order pointers, column ids, vectors; within a vector only neighbouring rows and the last
row are looked at.
-/

namespace SparseProduct

namespace Pattern

def rowsIn (p : Pattern) (range : Span) : List Nat :=
  (p.rowIdx.extract range.start range.stop).toList

/-- Every structural invariant of a compressed-column pattern. -/
structure WellFormed (p : Pattern) : Prop where
  first_pointer : p.colPtr[0]? = some 0
  pointers_monotone : p.colPtr.toList.Pairwise (· ≤ ·)
  last_pointer : p.colPtr.back? = some p.rowIdx.size
  vector_count : p.colPtr.size = p.colIds.elim p.nCols Array.size + 1
  ids_increasing : ∀ ids ∈ p.colIds, ids.toList.Pairwise (· < ·)
  ids_bounded : ∀ ids ∈ p.colIds, ∀ j ∈ ids, j < p.nCols
  rows_increasing : ∀ slot range, p.vectorRange slot = .ok range →
    (p.rowsIn range).Pairwise (· < ·)
  rows_bounded : ∀ slot range, p.vectorRange slot = .ok range →
    ∀ i ∈ p.rowsIn range, i < p.nRows

/-- The first two neighbours that do not increase. -/
def firstDescent : List Nat → Option (Nat × Nat)
  | x :: y :: rest => if y ≤ x then some (x, y) else firstDescent (y :: rest)
  | _ => none

/-- Checks that the vectors are counted as the storage mode asks, and that column ids increase and are
columns. -/
def checkIds (p : Pattern) (vectors : Nat) (refuse : PatternDefect → Failure) : Result Unit :=
  match p.colIds with
  | none =>
      if vectors ≠ p.nCols then .error (refuse (.vectorCount vectors p.nCols)) else .ok ()
  | some ids => do
      if ids.size ≠ vectors then throw (refuse (.idCount ids.size vectors))
      if let some (x, y) := firstDescent ids.toList then throw (refuse (.idOrder x y))
      if let some last := ids.back? then
        if p.nCols ≤ last then throw (refuse (.idBound last p.nCols))

/-- Checks that a slot's entries are stored ones and that their rows increase and are rows. -/
def checkVector (p : Pattern) (refuse : PatternDefect → Failure) (slot : Nat) : Result Unit := do
  let range ← p.vectorRange slot
  if range.stop < range.start ∨ p.entryCount < range.stop then
    throw (refuse (.pointerOrder slot))
  let rows ← range.cut p.rowIdx
  if let some (x, y) := firstDescent rows.toList then throw (refuse (.rowOrder slot x y))
  if let some last := rows.back? then
    if p.nRows ≤ last then throw (refuse (.rowBound last p.nRows))

/-- Reports the first defect of the pattern of an operand. -/
def check (p : Pattern) (operand : Operand) : Result Unit := do
  let refuse := fun defect => Failure.contract (.invalidPattern operand defect)
  if p.colPtr.isEmpty then throw (refuse .noPointers)
  let first ← fetch p.colPtr 0
  if first ≠ 0 then throw (refuse (.firstPointer first))
  let vectors ← p.vectorCount
  let last ← fetch p.colPtr vectors
  if last ≠ p.entryCount then throw (refuse (.lastPointer vectors last p.entryCount))
  p.checkIds vectors refuse
  Span.foldM ⟨0, vectors⟩ (fun _ slot => p.checkVector refuse slot) ()

end Pattern

end SparseProduct
