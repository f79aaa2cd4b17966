import SparseProduct.Block
import SparseProduct.Matrix

/-!
# Matrices of blocks

A block matrix stores every value as a block of `elemSize` bytes, in the order of the entries. Over a
type with a layout it can be made from a matrix of elements and read back as one.
-/

namespace SparseProduct

structure BlockMatrix where
  pattern : Pattern
  values : Bytes
  elemSize : Nat
deriving DecidableEq

namespace BlockMatrix

def ofBytes (pattern : Pattern) (values : Bytes) (elemSize : Nat) : Result BlockMatrix := do
  let size ← Size.mul pattern.entryCount elemSize
  if values.size ≠ size then throw (.promise .blockCount)
  return ⟨pattern, values, elemSize⟩

def constant (pattern : Pattern) (block : Bytes) : BlockMatrix :=
  ⟨pattern, Bytes.fill block pattern.entryCount, block.size⟩

def ofTyped {α : Type} [BlockCodec α] (m : SparseMatrix α) : BlockMatrix :=
  ⟨m.pattern, m.values.flatMap BlockCodec.encode, BlockCodec.size α⟩

/-- The matrix of the elements that the whole blocks hold. -/
def toTyped (α : Type) [BlockCodec α] (m : BlockMatrix) : Result (SparseMatrix α) := do
  if m.elemSize ≠ BlockCodec.size α then throw (.promise .blockSize)
  if m.elemSize = 0 then throw .outOfRange
  return ⟨m.pattern, ((m.values.blocks m.elemSize).map BlockCodec.decode).toArray⟩

def entryCount (m : BlockMatrix) : Nat := m.pattern.entryCount

def valueBlock (m : BlockMatrix) (entry : Nat) : Result Bytes := m.values.block m.elemSize entry

end BlockMatrix

end SparseProduct
