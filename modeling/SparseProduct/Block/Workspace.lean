import SparseProduct.Accumulator
import SparseProduct.Block.Semiring

/-!
# Accumulating blocks

The workspace of a product of blocks is an array of bytes with one block for each row, and a scratch
block that holds the latest product. Blocks of size zero take no bytes, so the number of slots is kept
beside them.
-/

namespace SparseProduct

structure BlockWorkspace where
  slots : Bytes
  scratch : Bytes
  elemSize : Nat
  length : Nat
deriving DecidableEq

namespace BlockWorkspace

def filled (block : Bytes) (length : Nat) : BlockWorkspace :=
  ⟨Bytes.fill block length, Array.replicate block.size 0, block.size, length⟩

def forSemiring (s : BlockSemiring) (length : Nat) : BlockWorkspace :=
  ⟨Bytes.fill s.identity length, Array.replicate s.output.size 0, s.output.size, length⟩

def slot (w : BlockWorkspace) (row : Nat) : Result Bytes := w.slots.block w.elemSize row

end BlockWorkspace

/-- Output bytes and a workspace of blocks. -/
structure BlockBuffers where
  values : Bytes
  work : BlockWorkspace
deriving DecidableEq

namespace BlockBuffers

def setSlot (row : Nat) (block : Bytes) : Run BlockBuffers Unit := do
  let work := (← get).work
  let slots ← work.slots.setBlock work.elemSize row block
  modify fun s => { s with work := { s.work with slots } }

def setScratch (scratch : Bytes) : Run BlockBuffers Unit :=
  modify fun s => { s with work := { s.work with scratch } }

def setValue (size position : Nat) (block : Result Bytes) : Run BlockBuffers Unit := do
  let span ← Bytes.blockSpan size position
  let _ ← span.cut (← get).values
  let values ← (← get).values.overwrite span (← block)
  modify fun s => { s with values }

end BlockBuffers

namespace Accumulator

/-- The accumulator of a block semiring over the bytes of A and B. -/
def blocks (s : BlockSemiring) (left right : Bytes) : Accumulator BlockBuffers where
  slotCount buffers := buffers.work.length
  clear row := BlockBuffers.setSlot row s.identity
  multiplyAdd row p q := do
    let x ← left.block s.left.size p
    let y ← right.block s.right.size q
    BlockBuffers.setScratch (← s.multiply (← get).work.scratch x y)
    let z ← (← get).work.slot row
    BlockBuffers.setSlot row (← s.accumulate z (← get).work.scratch)
  gather position row := do
    let work := (← get).work
    BlockBuffers.setValue work.elemSize position (work.slot row)
  writeIdentity position := BlockBuffers.setValue s.output.size position (.ok s.identity)

end Accumulator

end SparseProduct
