import SparseProduct.Accumulator
import SparseProduct.ColumnWalk
import SparseProduct.Counters
import SparseProduct.Mask
import SparseProduct.Window

/-!
# The numeric kernel

The kernel fills in the values of C over a pattern that is already known. For every stored vector of B
it takes the column of C of the same id and

1. passes over it if C stores nothing there;
2. sets the workspace slots of its rows to the identity;
3. for every entry of B in that column, in order, finds the column of A that the entry's row names and
   folds the products into the workspace;
4. copies the slots of its rows to C.

Rows that a mask rejects are left out of all three loops and receive the identity. Slots that a column
does not name may hold anything.
-/

namespace SparseProduct

/-- The patterns of a product, and how columns of A are searched. -/
structure Operands where
  a : Pattern
  b : Pattern
  c : Pattern
  mask : Option Mask
  search : SearchMode

namespace Kernel

variable {σ : Type}

/-- Clears the slot of an entry of C, if its row is admitted, and counts it. -/
def clearEntry (acc : Accumulator σ) (c : Pattern) (admits : Nat → Bool) (cleared entry : Nat) :
    Run σ Nat := do
  let i ← c.row entry
  if admits i then
    acc.clear i
    return cleared + 1
  else return cleared

/-- Folds the product of an entry of A and an entry of B into the workspace, if its row is admitted,
and counts it. -/
def addProduct (acc : Accumulator σ) (a : Pattern) (admits : Nat → Bool) (right added left : Nat) :
    Run σ Nat := do
  let i ← a.row left
  if admits i then
    acc.multiplyAdd i left right
    return added + 1
  else return added

/-- How far the products of a column are: the search window, the entries of B looked up, and the
products added. -/
structure Progress where
  window : Window
  lookups : Nat
  added : Nat

def addEntry (acc : Accumulator σ) (op : Operands) (admits : Nat → Bool) (progress : Progress)
    (right : Nat) : Run σ Progress := do
  let k ← op.b.row right
  let (source, window) ← progress.window.lookup op.a k
  let added ← source.foldM (addProduct acc op.a admits right) progress.added
  return ⟨window, progress.lookups + 1, added⟩

/-- Writes an entry of C, whose values start at position `base`, and counts it. -/
def gatherEntry (acc : Accumulator σ) (c : Pattern) (admits : Nat → Bool) (base gathered entry : Nat) :
    Run σ Nat := do
  let i ← c.row entry
  let position ← Size.sub entry base
  if admits i then acc.gather position i else acc.writeIdentity position
  return gathered + 1

/-- The window for a new column of B. It is trimmed when the column has more than two entries. -/
def openWindow (op : Operands) (window : Window) (source : Span) : Result Window :=
  match op.a.colIds with
  | some ids =>
      if 2 < source.length then do
        window.reset.dropAfter ids (← op.b.row (source.stop - 1))
      else .ok window.reset
  | none => .ok window.reset

def admission (mask : Option Mask) (j : Nat) : Result (Nat → Bool) :=
  match mask with
  | none => .ok fun _ => true
  | some mask => do
      let column ← mask.column j
      return column.allows

def computeColumn (acc : Accumulator σ) (op : Operands) (base : Nat) (window : Window)
    (slot j : Nat) (target : Span) : Run σ (Window × Counters) := do
  let source ← op.b.vectorRange slot
  if source.isEmpty then throw (.promise (.emptyRightColumn j))
  let admits ← admission op.mask j
  let cleared ← target.foldM (clearEntry acc op.c admits) 0
  let window ← openWindow op window source
  let progress ← source.foldM (addEntry acc op admits) ⟨window, 0, 0⟩
  let gathered ← target.foldM (gatherEntry acc op.c admits base) 0
  return (progress.window, ⟨1, 0, progress.lookups, cleared, progress.added, gathered⟩)

/-- Where a run stands between two slots of B. -/
structure Position where
  window : Window
  walk : ColumnWalk
  counters : Counters

def visitSlot (acc : Accumulator σ) (op : Operands) (base : Nat) (position : Position)
    (slot : Nat) : Run σ Position := do
  let j ← op.b.vectorId slot
  let (target, walk) ← position.walk.range op.c j
  if target.isEmpty then
    return ⟨position.window, walk, position.counters + Counters.skippedColumn⟩
  else
    let (window, counters) ← computeColumn acc op base position.window slot j target
    return ⟨window, walk, position.counters + counters⟩

/-- Computes the columns of C that some slots of B hold. The output values of the buffers are those
from position `base` on. -/
def run (acc : Accumulator σ) (op : Operands) (slots : Span) (base : Nat) : Run σ Counters := do
  if slots.isEmpty then return .zero
  let window ← Window.ofPattern op.a op.search
  let first ← op.b.vectorId slots.start
  let position ← slots.foldM (visitSlot acc op base) ⟨window, ColumnWalk.start op.c first, .zero⟩
  return position.counters

end Kernel

end SparseProduct
