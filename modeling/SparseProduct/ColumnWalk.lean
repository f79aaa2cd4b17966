import SparseProduct.Pattern

/-!
# Walking the columns of C in step with B

The stored vectors of B are visited by increasing column, and for each of them the column of C of the
same id is wanted. A walk over a hypersparse C keeps the place of the next stored column, so it only
ever moves forward. A sparse C is addressed directly.
-/

namespace SparseProduct

/-- The next stored column of C to look at. -/
structure ColumnWalk where
  next : Nat
deriving DecidableEq, Repr

namespace ColumnWalk

/-- The walk from the first stored column on that is not before `first`. -/
def start (c : Pattern) (first : Nat) : ColumnWalk :=
  match c.colIds with
  | some ids => ⟨Search.countWhile ids (· < first)⟩
  | none => ⟨0⟩

/-- The first place from `next` on whose id is not before `j`. -/
def advance (ids : Array Nat) (j next : Nat) : Nat :=
  if h : next < ids.size then
    if ids[next] < j then advance ids j (next + 1) else next
  else next
termination_by ids.size - next

/-- The entries of column `j` of C, none if it has no slot. Columns are asked for in increasing
order. -/
def range (c : Pattern) (walk : ColumnWalk) (j : Nat) : Result (Span × ColumnWalk) :=
  match c.colIds with
  | none => do
      return (← c.vectorRange j, walk)
  | some ids =>
      let next := advance ids j walk.next
      if ids[next]? = some j then do
        return (← c.vectorRange next, ⟨next⟩)
      else .ok (.empty, ⟨next⟩)

end ColumnWalk

/-- Where the columns from a slot of B on begin among the values of C. -/
def outputPosition (c b : Pattern) (slot : Nat) : Result Nat := do
  if (← b.vectorCount) ≤ slot then return c.entryCount
  let j ← b.vectorId slot
  match c.colIds with
  | some ids => fetch c.colPtr (Search.countWhile ids (· < j))
  | none => fetch c.colPtr j

end SparseProduct
