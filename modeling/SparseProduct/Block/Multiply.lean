import SparseProduct.Block.Matrix
import SparseProduct.Block.Workspace
import SparseProduct.Multiply

/-!
# Multiplying blocks

The product of block matrices makes the same checks as the product of elements, after it has compared
the sizes of blocks, and runs the same kernel.
-/

namespace SparseProduct

def checkElementSize (operand : Operand) (expected actual : Nat) : Result Unit :=
  if expected = actual then .ok () else .error (.contract (.elementSize operand expected actual))

def checkBlockLength (operand : Operand) (values : Bytes) (pattern : Pattern) (elemSize : Nat) :
    Result Unit := do
  checkValueLength operand values.size (← Size.mul pattern.entryCount elemSize)

/-- Multiplies block matrices over the pattern of C, whose blocks have `elemSize` bytes. -/
def multiplyBlocks (s : BlockSemiring) (c : Pattern) (elemSize : Nat) (a b : BlockMatrix)
    (mask : Option Mask) (settings : Settings) : Run BlockBuffers Counters := do
  checkElementSize .a s.left.size a.elemSize
  checkElementSize .b s.right.size b.elemSize
  checkElementSize .c s.output.size elemSize
  checkElementSize .workspace s.output.size (← get).work.elemSize
  checkBlockLength .a a.values a.pattern a.elemSize
  checkBlockLength .b b.values b.pattern b.elemSize
  checkBlockLength .c (← get).values c elemSize
  let slots ← allSlots b.pattern
  runChecked (Accumulator.blocks s a.values b.values)
    ⟨a.pattern, b.pattern, c, mask, settings.search⟩ slots settings

/-- Multiplies matrices of elements by way of blocks, with a fresh workspace of `length` slots. Gives
the outcome and the values of C afterwards. -/
def multiplyTypedBlocks {L R O : Type} [TaggedElement L] [TaggedElement R] [TaggedElement O]
    (s : SemiringOps L R O) (c : SparseMatrix O) (a : SparseMatrix L) (b : SparseMatrix R)
    (mask : Option Mask) (length : Nat) (settings : Settings) :
    Result (Result Counters × SparseMatrix O) := do
  let record := BlockSemiring.ofTyped s
  let output := BlockMatrix.ofTyped c
  let run := multiplyBlocks record c.pattern output.elemSize (.ofTyped a) (.ofTyped b) mask settings
    ⟨output.values, .forSemiring record length⟩
  match run with
  | .ok counters buffers =>
      return (.ok counters, ← { output with values := buffers.values : BlockMatrix }.toTyped O)
  | .error e buffers =>
      return (.error e, ← { output with values := buffers.values : BlockMatrix }.toTyped O)

end SparseProduct
