import SparseProduct.Numeric
import SparseProduct.Size
import SparseProduct.Span

/-!
# Blocks of bytes

An array of elements of unknown type is an array of bytes cut into blocks of one size. Blocks are
addressed by index, and a block is replaced only by one of the same length. `BlockCodec` says how the
elements of a known type are laid out in blocks: numbers with the least significant byte first, pairs
one component after the other. Of a floating-point NaN only that it is one is kept: written back, every
NaN is the same block, so for the two floating-point types reading a block and writing it are not inverse
to each other.
-/

namespace SparseProduct

abbrev Bytes : Type := Array UInt8

namespace Bytes

/-- The positions of block `index`. -/
def blockSpan (size index : Nat) : Result Span := do
  let start ← Size.mul index size
  let next ← Size.add index 1
  let stop ← Size.mul next size
  return ⟨start, stop⟩

def block (bytes : Bytes) (size index : Nat) : Result Bytes := do
  (← blockSpan size index).cut bytes

/-- The bytes with a span of them replaced by as many others. -/
def overwrite (bytes : Bytes) (span : Span) (part : Bytes) : Result Bytes := do
  let old ← span.cut bytes
  if part.size = old.size then
    return bytes.extract 0 span.start ++ part ++ bytes.extract span.stop bytes.size
  else throw .outOfRange

def setBlock (bytes : Bytes) (size index : Nat) (part : Bytes) : Result Bytes := do
  bytes.overwrite (← blockSpan size index) part

/-- A block `count` times over. -/
def fill (part : Bytes) (count : Nat) : Bytes :=
  if part.isEmpty then #[] else (Array.replicate count part).flatten

/-- The first `count` blocks from position `start` on. -/
def blocksFrom (bytes : Bytes) (size : Nat) : (count start : Nat) → List Bytes
  | 0, _ => []
  | count + 1, start =>
      bytes.extract start (start + size) :: blocksFrom bytes size count (start + size)

/-- The whole blocks; bytes left over at the end belong to none. -/
def blocks (bytes : Bytes) (size : Nat) : List Bytes :=
  blocksFrom bytes size (bytes.size / size) 0

/-- The `count` low bytes of a number, the least significant one first. -/
def ofNat : (count n : Nat) → List UInt8
  | 0, _ => []
  | count + 1, n => UInt8.ofNat (n % 256) :: ofNat count (n / 256)

/-- The number with the given bytes, the least significant one first. -/
def toNat : List UInt8 → Nat
  | [] => 0
  | byte :: bytes => byte.toNat + 256 * toNat bytes

end Bytes

/-- How the elements of a type are laid out in blocks of `size` bytes. -/
class BlockCodec (α : Type) where
  size : Nat
  encode : α → Bytes
  /-- The element of a block of `size` bytes. -/
  decode : Bytes → α

/-- The element of a block; a block of another size has none. -/
def readBlock {α : Type} [BlockCodec α] (block : Bytes) : Result α :=
  if block.size = BlockCodec.size α then .ok (BlockCodec.decode block) else .error .outOfRange

instance {k : IntKind} : BlockCodec (Whole k) where
  size := k.width.bytes
  encode x := (Bytes.ofNat k.width.bytes (x.val % k.count).toNat).toArray
  decode block := Whole.wrap k (Bytes.toNat block.toList)

instance : BlockCodec Float where
  size := 8
  encode x := (Bytes.ofNat 8 x.toBits.toNat).toArray
  decode block := Float.ofBits (UInt64.ofNat (Bytes.toNat block.toList))

instance : BlockCodec Float32 where
  size := 4
  encode x := (Bytes.ofNat 4 x.toBits.toNat).toArray
  decode block := Float32.ofBits (UInt32.ofNat (Bytes.toNat block.toList))

instance {α β : Type} [BlockCodec α] [BlockCodec β] : BlockCodec (α × β) where
  size := BlockCodec.size α + BlockCodec.size β
  encode x := BlockCodec.encode x.1 ++ BlockCodec.encode x.2
  decode block :=
    (BlockCodec.decode (block.extract 0 (BlockCodec.size α)),
      BlockCodec.decode (block.extract (BlockCodec.size α) block.size))

end SparseProduct
