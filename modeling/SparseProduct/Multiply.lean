import SparseProduct.Settings
import SparseProduct.Kernel
import SparseProduct.Matrix

/-!
# Multiplying over a known pattern

`multiply` computes the values of C = A · B at the entries of C's pattern. The buffers hold C's values
and the workspace. What the operands must satisfy is checked in a fixed order before the kernel runs, so
a broken contract leaves the buffers as they were.
-/

namespace SparseProduct

def checkValueLength (operand : Operand) (values entries : Nat) : Result Unit :=
  if values = entries then .ok () else .error (.contract (.valueLength operand values entries))

def checkFinalized (c a b : Pattern) : Result Unit :=
  if c.finalized && a.finalized && b.finalized then .ok ()
  else .error (.contract .patternNotFinalized)

def checkShapes (c a b : Pattern) : Result Unit :=
  if c.nRows ≠ a.nRows then
    .error (.contract (.dimensionMismatch (.rows c.nRows a.nRows)))
  else if c.nCols ≠ b.nCols then
    .error (.contract (.dimensionMismatch (.columns c.nCols b.nCols)))
  else if a.nCols ≠ b.nRows then
    .error (.contract (.dimensionMismatch (.inner a.nCols b.nRows)))
  else .ok ()

def checkVectorCounts (c b : Pattern) : Result Unit := do
  let output ← c.vectorCount
  let right ← b.vectorCount
  if right < output then throw (.contract (.tooManyVectors output right))

def checkPatterns (c a b : Pattern) (mask : Option Mask) : Result Unit := do
  a.check .a
  b.check .b
  c.check .c
  if let some mask := mask then mask.pattern.check .mask

def checkOperands (c a b : Pattern) (mask : Option Mask) (settings : Settings) : Result Unit := do
  checkFinalized c a b
  checkShapes c a b
  checkVectorCounts c b
  if let some mask := mask then mask.check c.nRows c.nCols
  if settings.checkPatterns then checkPatterns c a b mask

def checkSlots (slots : Span) (b : Pattern) : Result Unit := do
  let vectors ← b.vectorCount
  if slots.stop < slots.start ∨ vectors < slots.stop then
    throw (.contract (.slotRange slots.start slots.stop vectors))

def checkWorkspace (slots required : Nat) : Result Unit :=
  if slots < required then .error (.contract (.workspaceTooSmall slots required)) else .ok ()

def allSlots (b : Pattern) : Result Span := do
  return ⟨0, ← b.vectorCount⟩

def runChecked {σ : Type} (acc : Accumulator σ) (op : Operands) (slots : Span) (settings : Settings) :
    Run σ Counters := do
  checkOperands op.c op.a op.b op.mask settings
  checkSlots slots op.b
  checkWorkspace (acc.slotCount (← get)) op.c.nRows
  Kernel.run acc op slots 0

variable {L R O : Type}

/-- Multiplies for the columns of C that the given slots of B hold. -/
def multiplySlots (s : SemiringOps L R O) (c : Pattern) (a : SparseMatrix L) (b : SparseMatrix R)
    (mask : Option Mask) (slots : Span) (settings : Settings) : Run (Buffers O) Counters := do
  checkValueLength .a a.values.size a.pattern.entryCount
  checkValueLength .b b.values.size b.pattern.entryCount
  checkValueLength .c (← get).values.size c.entryCount
  runChecked (Accumulator.typed s a.values b.values)
    ⟨a.pattern, b.pattern, c, mask, settings.search⟩ slots settings

/-- Multiplies for the columns of C that B has slots for. Entries that the mask rejects receive the
identity. -/
def multiply (s : SemiringOps L R O) (c : Pattern) (a : SparseMatrix L) (b : SparseMatrix R)
    (mask : Option Mask) (settings : Settings) : Run (Buffers O) Counters := do
  let slots ← allSlots b.pattern
  multiplySlots s c a b mask slots settings

end SparseProduct
