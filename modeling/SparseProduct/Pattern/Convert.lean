import SparseProduct.Pattern

/-!
# Changing the storage of a pattern

Both directions leave the entries where they are, so values that are stored beside a pattern stay
beside the right entries. A failure to allocate an array, such as one for the pointers of `2 ^ 60` columns, is
left out.
-/

namespace SparseProduct

namespace Pattern

/-- The ids and pointers gathered so far on the way to hypersparse storage. -/
structure StoredColumns where
  ids : Array Nat
  pointers : Array Nat

def StoredColumns.visit (p : Pattern) (found : StoredColumns) (j : Nat) : Result StoredColumns := do
  let range ← p.vectorRange j
  return if range.isEmpty then found else ⟨found.ids.push j, found.pointers.push range.stop⟩

/-- The pattern in hypersparse storage: columns without entries lose their slot. A pattern that is
already hypersparse is kept as it is. -/
def toHypersparse (p : Pattern) : Result Pattern :=
  match p.colIds with
  | some _ => .ok p
  | none => do
      let found ← Span.foldM ⟨0, p.nCols⟩ (StoredColumns.visit p) ⟨#[], #[0]⟩
      let hyper ← ofHyperPointers p.nRows p.nCols found.ids found.pointers p.rowIdx
      return { hyper with finalized := p.finalized }

def placeLength (p : Pattern) (ids : Array Nat) (lengths : Array Nat) (slot : Nat) :
    Result (Array Nat) := do
  let j ← fetch ids slot
  let range ← p.vectorRange slot
  let _ ← Size.add j 1
  store lengths j range.length

/-- The pattern in sparse storage: every column gets a slot. A pattern that is already sparse is kept
as it is. -/
def toSparse (p : Pattern) : Result Pattern :=
  match p.colIds with
  | none => .ok p
  | some ids => do
      let _ ← Size.add p.nCols 1
      let lengths ← Span.foldM ⟨0, ids.size⟩ (p.placeLength ids) (Array.replicate p.nCols 0)
      let pointers ← Size.prefixSums lengths
      let sparse ← ofPointers p.nRows p.nCols pointers p.rowIdx
      return { sparse with finalized := p.finalized }

end Pattern

end SparseProduct
