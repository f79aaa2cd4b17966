import SparseProduct.Window

/-!
# Settings of a product

The settings choose how columns of A are searched, whether every pattern is checked first, and into how
many tasks a parallel product is cut.
-/

namespace SparseProduct

structure Settings where
  search : SearchMode
  threads : Nat
  checkPatterns : Bool
  minSlotsPerTask : Nat
deriving DecidableEq, Repr

namespace Settings

/-- The settings that hold unless others are chosen, on a machine that runs `threads` threads. -/
def standard (threads : Nat) : Settings := ⟨.trimmed, threads, true, 64⟩

def withSearch (settings : Settings) (search : SearchMode) : Settings := { settings with search }

/-- Asks for a number of threads; there is always one. -/
def withThreads (settings : Settings) (threads : Nat) : Settings :=
  { settings with threads := max threads 1 }

def withPatternChecks (settings : Settings) (checkPatterns : Bool) : Settings :=
  { settings with checkPatterns }

/-- Asks for a least number of slots in a task; there is always one. -/
def withMinSlotsPerTask (settings : Settings) (minSlots : Nat) : Settings :=
  { settings with minSlotsPerTask := max minSlots 1 }

def divCeil (x y : Nat) : Nat := if x % y = 0 then x / y else x / y + 1

/-- The number of tasks for `vectors` slots: as many as the least task size asks for, and at most four
for each thread. -/
def taskCount (settings : Settings) (vectors : Nat) : Result Nat := do
  if vectors = 0 then return 0
  let bySize := divCeil vectors (max settings.minSlotsPerTask 1)
  let byThreads ← Size.mul (max settings.threads 1) 4
  return max (min bySize byThreads) 1

end Settings

end SparseProduct
