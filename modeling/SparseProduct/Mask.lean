import SparseProduct.Pattern

/-!
# Masks

A mask admits or rejects each position of the output. A structural mask admits what its pattern stores,
a valued mask what is stored as true, and a complemented mask flips the answer.
-/

namespace SparseProduct

/-- A membership test over a pattern. -/
structure Mask where
  pattern : Pattern
  values : Option (Array Bool)
  complement : Bool
deriving DecidableEq, Repr

structure MaskColumn where
  rows : Array Nat
  values : Option (Array Bool)
  complement : Bool
deriving DecidableEq, Repr

namespace Mask

def structural (pattern : Pattern) : Mask := ⟨pattern, none, false⟩

def valued (pattern : Pattern) (values : Array Bool) : Mask := ⟨pattern, some values, false⟩

def complemented (m : Mask) : Mask := { m with complement := !m.complement }

def complementedTimes (m : Mask) : Nat → Mask
  | 0 => m
  | n + 1 => (m.complementedTimes n).complemented

def isStructural (m : Mask) : Bool := m.values.isNone

def column (m : Mask) (j : Nat) : Result MaskColumn := do
  let range ← m.pattern.columnRange j
  let rows ← range.cut m.pattern.rowIdx
  match m.values with
  | none => return ⟨rows, none, m.complement⟩
  | some values => return ⟨rows, some (← range.cut values), m.complement⟩

/-- Checks that the mask has the shape of the output and a value for each entry. -/
def check (m : Mask) (nRows nCols : Nat) : Result Unit := do
  if m.pattern.nRows ≠ nRows ∨ m.pattern.nCols ≠ nCols then
    throw (.contract (.dimensionMismatch (.mask m.pattern.nRows m.pattern.nCols nRows nCols)))
  if let some values := m.values then
    if values.size ≠ m.pattern.entryCount then
      throw (.contract (.valueLength .mask values.size m.pattern.entryCount))

end Mask

namespace MaskColumn

/-- Whether the column holds a row as true. -/
def holds (m : MaskColumn) (row : Nat) : Bool :=
  match Search.find m.rows row, m.values with
  | .found _, none => true
  | .found p, some values => values[p]?.getD false
  | .absent _, _ => false

def allows (m : MaskColumn) (row : Nat) : Bool := m.holds row != m.complement

end MaskColumn

end SparseProduct
