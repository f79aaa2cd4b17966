import SparseProduct.Multiply

/-!
# Multiplying in parallel

The slots of B are cut into contiguous tasks of nearly equal size, and the values of C into spans to
match. A task runs the kernel on its slots, its span and a workspace of its own, so no two tasks write
the same place and their order does not matter. Their reports add up.
-/

namespace SparseProduct

/-- Slots of B, and the span of C's values that their columns fill. -/
structure Task where
  slots : Span
  output : Span
deriving DecidableEq, Repr

namespace Task

def slotRange (vectors tasks t : Nat) : Result Span := do
  let start ← Size.mul t vectors
  let stop ← Size.mul (t + 1) vectors
  return ⟨start / tasks, stop / tasks⟩

/-- Task `t` of `tasks`, whose output begins no earlier than `consumed`. The last one takes all output
that is left. -/
def make (c b : Pattern) (vectors tasks consumed t : Nat) : Result Task := do
  let slots ← slotRange vectors tasks t
  let start ← outputPosition c b slots.start
  let stop ← outputPosition c b slots.stop
  let stop := if t + 1 = tasks then c.entryCount else stop
  let _ ← Size.sub start consumed
  if c.entryCount < start then throw .outOfRange
  let _ ← Size.sub stop start
  if c.entryCount < stop then throw .outOfRange
  return ⟨slots, ⟨start, stop⟩⟩

def makeFrom (c b : Pattern) (vectors tasks : Nat) : (count t consumed : Nat) → Result (List Task)
  | 0, _, _ => .ok []
  | count + 1, t, consumed => do
      let task ← make c b vectors tasks consumed t
      return task :: (← makeFrom c b vectors tasks count (t + 1) task.output.stop)

def cut (c b : Pattern) (settings : Settings) : Result (List Task) := do
  let vectors ← b.vectorCount
  let tasks ← settings.taskCount vectors
  makeFrom c b vectors tasks tasks 0 0

/-- Writes the values of a span back to where they came from. -/
def splice {α : Type} (values : Array α) (span : Span) (part : Array α) : Array α :=
  values.extract 0 span.start ++ part ++ values.extract span.stop values.size

variable {L R O : Type}

def run (s : SemiringOps L R O) (op : Operands) (left : Array L) (right : Array R) (task : Task)
    (workspace : Array O) : Run (Array O) Counters := fun values =>
  let part := values.extract task.output.start task.output.stop
  match Kernel.run (Accumulator.typed s left right) op task.slots task.output.start
      ⟨part, workspace⟩ with
  | .ok counters buffers => .ok counters (splice values task.output buffers.values)
  | .error e buffers => .error e (splice values task.output buffers.values)

/-- Runs tasks one after the other, each with its workspace, and collects their reports. -/
def runAll (s : SemiringOps L R O) (op : Operands) (left : Array L) (right : Array R) :
    List (Task × Array O) → Run (Array O) (List Counters)
  | [] => pure []
  | (task, workspace) :: rest => do
      let counters ← task.run s op left right workspace
      return counters :: (← runAll s op left right rest)

end Task

variable {L R O : Type}

/-- Multiplies task by task, each with a fresh workspace. The state is C's values. -/
def multiplyParallel (s : SemiringOps L R O) (c : Pattern) (a : SparseMatrix L)
    (b : SparseMatrix R) (mask : Option Mask) (settings : Settings) : Run (Array O) Counters := do
  checkValueLength .a a.values.size a.pattern.entryCount
  checkValueLength .b b.values.size b.pattern.entryCount
  checkValueLength .c (← get).size c.entryCount
  checkOperands c a.pattern b.pattern mask settings
  let tasks ← Task.cut c b.pattern settings
  let reports ← Task.runAll s ⟨a.pattern, b.pattern, c, mask, settings.search⟩ a.values b.values
    (tasks.map fun task => (task, Buffers.workspace c.nRows s.identity))
  return reports.foldl (· + ·) .zero

end SparseProduct
