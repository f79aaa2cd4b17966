import SparseProduct.Pattern

/-!
# Looking up columns in a shrinking window

The rows of one column of B increase, so a search for the next column of A can start where the last one
ended. A window is the part `left ≤ slot < right` of an increasing list of column ids in which that
search runs. Within one column of B the window only shrinks, and it is opened again before the next. A
search can also be made over the whole list every time.
-/

namespace SparseProduct

/-- Whether successive searches share a window. -/
inductive SearchMode where
  | trimmed
  | fullRange
deriving DecidableEq, Repr, Inhabited

namespace SearchMode

def text : SearchMode → String
  | trimmed => "Trimmed"
  | fullRange => "FullRange"

end SearchMode

/-- A search window over an increasing list of `length` column ids. -/
structure Window where
  left : Nat
  right : Nat
  length : Nat
  mode : SearchMode
deriving DecidableEq, Repr

namespace Window

def ofLength (length : Nat) (mode : SearchMode) : Window := ⟨0, length, length, mode⟩

def ofPattern (p : Pattern) (mode : SearchMode) : Result Window := do
  return ofLength (← p.vectorCount) mode

def reset (w : Window) : Window := { w with left := 0, right := w.length }

def span (w : Window) : Span := ⟨w.left, w.right⟩

/-- The window in which the next search runs. -/
def opened (w : Window) : Window :=
  match w.mode with
  | .trimmed => w
  | .fullRange => w.reset

/-- The window without the slots before a place found in it. -/
def advance (w : Window) (offset : Nat) : Window := { w with left := w.left + offset }

/-- Searches the window for a column. Afterwards the window starts at the slot found, or where that
slot would be. -/
def locate (w : Window) (ids : Array Nat) (column : Nat) : Result (Option Nat × Window) :=
  let w := w.opened
  if w.right ≤ w.left then .ok (none, w)
  else do
    let shown ← w.span.cut ids
    match Search.find shown column with
    | .found offset => return (some (w.left + offset), w.advance offset)
    | .absent offset => return (none, w.advance offset)

/-- Drops the slots whose column lies after `maxColumn`. A window that is opened for every search keeps
them. -/
def dropAfter (w : Window) (ids : Array Nat) (maxColumn : Nat) : Result Window :=
  if w.mode = .fullRange ∨ w.right ≤ w.left then .ok w
  else do
    let last ← fetch ids (w.right - 1)
    if last ≤ maxColumn then return w
    let shown ← w.span.cut ids
    return { w with right := w.left + Search.countWhile shown (· ≤ maxColumn) }

/-- The entries of column `k` of a pattern, none if it has no slot. Sparse storage is addressed
directly. -/
def lookup (w : Window) (p : Pattern) (k : Nat) : Result (Span × Window) :=
  match p.colIds with
  | none => do
      return (← p.vectorRange k, w)
  | some ids => do
      match ← w.locate ids k with
      | (some slot, w) => return (← p.vectorRange slot, w)
      | (none, w) => return (.empty, w)

end Window

end SparseProduct
