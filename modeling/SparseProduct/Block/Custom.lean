import SparseProduct.Block.Semiring

/-!
# Block operations outside the catalog

Semirings over element types of a caller's own: a count beside a maximum or a sum, a mixed-radix hash,
and bytewise parity.
-/

namespace SparseProduct

namespace BlockSemiring

/-- The whole number of the bytes of a span. -/
def readPart (k : IntKind) (block : Bytes) (start stop : Nat) : Result (Whole k) := do
  readBlock (← (Span.mk start stop).cut block)

/-- Overwrites the front of a block with one number and the rest with another. -/
def replaceParts {k : IntKind} (z : Bytes) (first second : Whole k) : Result Bytes := do
  let z ← z.overwrite ⟨0, k.width.bytes⟩ (BlockCodec.encode first)
  z.overwrite ⟨k.width.bytes, z.size⟩ (BlockCodec.encode second)

def countMax (name : String) (id : Nat) (identity : Bytes) : Result BlockSemiring :=
  make name (.user id 4) .u8 .u8 identity
    (fun z x y => do
      let x ← fetch x 0
      let y ← fetch y 0
      let largest := if x < y then y else x
      replaceParts z (Numeric.one : Whole Nat16Kind) (Whole.wrap _ largest.toNat))
    (fun z y => do
      let count ← Numeric.add (← readPart Nat16Kind z 0 2) (← readPart Nat16Kind y 0 2)
      let largest := Numeric.greatest (← readPart Nat16Kind z 2 4) (← readPart Nat16Kind y 2 4)
      replaceParts z count largest)

def countSum (name : String) (id : Nat) (identity : Bytes) : Result BlockSemiring :=
  make name (.user id 8) .u32 .u32 identity
    (fun z x y => do
      let x : Whole Nat32Kind ← readBlock x
      let y : Whole Nat32Kind ← readBlock y
      replaceParts z (Numeric.one : Whole Nat32Kind) (← Numeric.mul x y))
    (fun z y => do
      let count ← Numeric.add (← readPart Nat32Kind z 0 4) (← readPart Nat32Kind y 0 4)
      let sum ← Numeric.add (← readPart Nat32Kind z 4 8) (← readPart Nat32Kind y 4 8)
      replaceParts z count sum)

/-- Folds numbers of three bytes into a hash of four, modulo its range. -/
def mix (name : String) (id : Nat) (identity : Bytes) : Result BlockSemiring :=
  make name (.user id 4) .u8 (.user 2 2) identity
    (fun z x y => do
      let x : Whole Nat8Kind ← readBlock x
      let y : Whole Nat16Kind ← readBlock y
      z.replace (BlockCodec.encode (Whole.wrap Nat32Kind (x.val * 65536 + y.val))))
    (fun z y => do
      let z' : Whole Nat32Kind ← readBlock z
      let y : Whole Nat32Kind ← readBlock y
      z.replace (BlockCodec.encode (Whole.wrap Nat32Kind (z'.val * 31 + y.val))))

def xorAnd (name : String) (id size : Nat) (identity : Bytes) : Result BlockSemiring :=
  make name (.user id size) (.user id size) (.user id size) identity
    (fun z x y =>
      if z.size ≤ x.size ∧ z.size ≤ y.size then
        .ok ((x.zipWith (· &&& ·) y).extract 0 z.size)
      else .error .outOfRange)
    (fun z y =>
      if z.size ≤ y.size then .ok (z.zipWith (· ^^^ ·) y) else .error .outOfRange)

/-- The block semiring with a rule's name. Without an identity, it is made of zeros. -/
def ofRule? (name : String) (id size : Nat) (identity : Option Bytes) :
    (rule : String) → Option (Result BlockSemiring)
  | "count_max" => some (countMax name id (identity.getD (Array.replicate 4 0)))
  | "count_sum" => some (countSum name id (identity.getD (Array.replicate 8 0)))
  | "mix" => some (mix name id (identity.getD (Array.replicate 4 0)))
  | "xor_and" => some (xorAnd name id size (identity.getD (Array.replicate size 0)))
  | _ => none

end BlockSemiring

end SparseProduct
