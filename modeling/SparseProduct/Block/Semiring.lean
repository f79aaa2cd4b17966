import SparseProduct.Block
import SparseProduct.Semiring

/-!
# Semirings over blocks

A block semiring gives its operations as functions on blocks. It is told the sizes of its elements by
their types and never what their bytes mean. Multiplication receives the block it overwrites, and
accumulation the block it folds into; both give back the new contents of that block.
-/

namespace SparseProduct

structure BlockSemiring where
  name : String
  output : ElementType
  left : ElementType
  right : ElementType
  identity : Bytes
  /-- The new contents of `z` after `z = x ⊗ y`. -/
  multiply : (z x y : Bytes) → Result Bytes
  /-- The new contents of `z` after `z = z ⊕ y`. -/
  accumulate : (z y : Bytes) → Result Bytes
  identity_size : identity.size = output.size

/-- An element type with a layout and a tag. -/
class TaggedElement (α : Type) extends BlockCodec α where
  type : ElementType
  size_eq : BlockCodec.size α = type.size
  encode_size : ∀ x : α, (BlockCodec.encode x).size = BlockCodec.size α

namespace Bytes

theorem length_ofNat (count n : Nat) : (ofNat count n).length = count := by
  induction count generalizing n with
  | zero => rfl
  | succ count ih => simp only [ofNat, List.length_cons, ih]

def replace (z part : Bytes) : Result Bytes :=
  if part.size = z.size then .ok part else .error .outOfRange

end Bytes

instance : TaggedElement (Whole Nat8Kind) where
  type := .u8
  size_eq := rfl
  encode_size _ := by simp [BlockCodec.encode, BlockCodec.size, Bytes.length_ofNat]

instance : TaggedElement (Whole Int32Kind) where
  type := .i32
  size_eq := rfl
  encode_size _ := by simp [BlockCodec.encode, BlockCodec.size, Bytes.length_ofNat]

instance : TaggedElement (Whole Int64Kind) where
  type := .i64
  size_eq := rfl
  encode_size _ := by simp [BlockCodec.encode, BlockCodec.size, Bytes.length_ofNat]

instance : TaggedElement (Whole Nat32Kind) where
  type := .u32
  size_eq := rfl
  encode_size _ := by simp [BlockCodec.encode, BlockCodec.size, Bytes.length_ofNat]

instance : TaggedElement (Whole Nat64Kind) where
  type := .u64
  size_eq := rfl
  encode_size _ := by simp [BlockCodec.encode, BlockCodec.size, Bytes.length_ofNat]

instance : TaggedElement Float32 where
  type := .f32
  size_eq := rfl
  encode_size _ := by simp [BlockCodec.encode, BlockCodec.size, Bytes.length_ofNat]

instance : TaggedElement Float where
  type := .f64
  size_eq := rfl
  encode_size _ := by simp [BlockCodec.encode, BlockCodec.size, Bytes.length_ofNat]

namespace BlockSemiring

/-- A block semiring with the given parts; the identity must be one output element. -/
def make (name : String) (output left right : ElementType) (identity : Bytes)
    (multiply : Bytes → Bytes → Bytes → Result Bytes)
    (accumulate : Bytes → Bytes → Result Bytes) : Result BlockSemiring :=
  if h : identity.size = output.size then
    .ok ⟨name, output, left, right, identity, multiply, accumulate, h⟩
  else .error (.promise .identitySize)

def key (s : BlockSemiring) : SemiringKey := ⟨s.name, s.output, s.left, s.right⟩

/-- A semiring of elements, run on their layouts. -/
def ofTyped {L R O : Type} [TaggedElement L] [TaggedElement R] [TaggedElement O]
    (s : SemiringOps L R O) : BlockSemiring where
  name := s.name
  output := TaggedElement.type O
  left := TaggedElement.type L
  right := TaggedElement.type R
  identity := BlockCodec.encode s.identity
  multiply z x y := do
    let a : L ← readBlock x
    let b : R ← readBlock y
    z.replace (BlockCodec.encode (← s.multiply a b))
  accumulate z y := do
    let existing : O ← readBlock z
    let incoming : O ← readBlock y
    z.replace (BlockCodec.encode (← s.accumulate existing incoming))
  identity_size := (TaggedElement.encode_size s.identity).trans TaggedElement.size_eq

/-- The products of some pairs, each with what has been accumulated once it is folded in. -/
def trace (s : BlockSemiring) (z : Bytes) : List (Bytes × Bytes) → Result (List (Bytes × Bytes))
  | [] => .ok []
  | pair :: pairs => do
      let t ← s.multiply (Array.replicate s.output.size 0) pair.1 pair.2
      let z ← s.accumulate z t
      return (t, z) :: (← s.trace z pairs)

def truthByte (b : Bool) : UInt8 := if b then 1 else 0

/-- Whether the first byte of a block is other than zero. -/
def firstTruth (block : Bytes) : Result Bool := do
  return (← fetch block 0) != 0

/-- Reachability on bytes. Any byte other than zero is true. -/
def lorLand : BlockSemiring where
  name := SemiringOps.lorLand.name
  output := .bool
  left := .bool
  right := .bool
  identity := #[0]
  multiply z x y := do
    let a ← firstTruth x
    let truth ← if a then firstTruth y else pure false
    store z 0 (truthByte truth)
  accumulate z y := do
    let a ← firstTruth z
    let truth ← if a then pure true else firstTruth y
    store z 0 (truthByte truth)
  identity_size := rfl

end BlockSemiring

end SparseProduct
