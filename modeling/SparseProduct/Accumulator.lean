import SparseProduct.Semiring
import SparseProduct.Span

/-!
# Accumulators

The kernel walks patterns and leaves the elements to an accumulator: four operations on buffers it does
not look into. The buffers hold the values of the output, or a part of them, and a workspace with one
slot for each row. A computation over buffers that fails leaves them as they were at that point.
-/

namespace SparseProduct

/-- A computation over buffers that may fail. -/
abbrev Run (σ α : Type) : Type := EStateM Failure σ α

namespace Run

/-- A computation that leaves the buffers alone. -/
def ofResult {σ α : Type} : Result α → Run σ α
  | .ok x => pure x
  | .error e => throw e

instance {σ : Type} : MonadLift (Except Failure) (EStateM Failure σ) := ⟨ofResult⟩

@[simp]
theorem lift_ok {σ α : Type} (x : α) : (liftM (Except.ok x : Result α) : Run σ α) = pure x := rfl

@[simp]
theorem lift_error {σ α : Type} (e : Failure) :
    (liftM (Except.error e : Result α) : Run σ α) = throw e := rfl

theorem bind_of_ok {σ α β : Type} {x : Run σ α} {f : α → Run σ β} {s t : σ} {a : α}
    (h : x s = .ok a t) : (x >>= f) s = f a t := by
  simp only [bind, EStateM.bind, h]

theorem bind_of_error {σ α β : Type} {x : Run σ α} {f : α → Run σ β} {s t : σ} {e : Failure}
    (h : x s = .error e t) : (x >>= f) s = .error e t := by
  simp only [bind, EStateM.bind, h]

end Run

/-- The operations on elements that the kernel is written over. -/
structure Accumulator (σ : Type) where
  /-- The number of workspace slots. -/
  slotCount : σ → Nat
  /-- Sets the slot of a row to the identity. -/
  clear : (row : Nat) → Run σ Unit
  /-- Folds the product of an entry of A and an entry of B into the slot of a row. -/
  multiplyAdd : (row left right : Nat) → Run σ Unit
  /-- Copies the slot of a row to an output position. -/
  gather : (position row : Nat) → Run σ Unit
  /-- Writes the identity to an output position. -/
  writeIdentity : (position : Nat) → Run σ Unit

/-- Output values and workspace slots of one element type. -/
structure Buffers (α : Type) where
  values : Array α
  slots : Array α
deriving DecidableEq, Repr

namespace Buffers

variable {α : Type}

def workspace (length : Nat) (fill : α) : Array α := Array.replicate length fill

def setSlot (row : Nat) (x : α) : Run (Buffers α) Unit := fun s =>
  if h : row < s.slots.size then .ok () { s with slots := s.slots.set row x }
  else .error .outOfRange s

def setValue (position : Nat) (x : α) : Run (Buffers α) Unit := fun s =>
  if h : position < s.values.size then .ok () { s with values := s.values.set position x }
  else .error .outOfRange s

theorem setSlot_of_lt {row : Nat} {x : α} {s : Buffers α} (h : row < s.slots.size) :
    setSlot row x s = .ok () { s with slots := s.slots.set row x } := dif_pos h

theorem setValue_of_lt {position : Nat} {x : α} {s : Buffers α} (h : position < s.values.size) :
    setValue position x s = .ok () { s with values := s.values.set position x } := dif_pos h

end Buffers

namespace Accumulator

variable {L R O : Type}

def typed (s : SemiringOps L R O) (left : Array L) (right : Array R) :
    Accumulator (Buffers O) where
  slotCount buffers := buffers.slots.size
  clear row := Buffers.setSlot row s.identity
  multiplyAdd row p q := do
    let x ← fetch left p
    let y ← fetch right q
    let t ← s.multiply x y
    let existing ← fetch (← get).slots row
    Buffers.setSlot row (← s.accumulate existing t)
  gather position row := do
    let x ← fetch (← get).slots row
    Buffers.setValue position x
  writeIdentity position := Buffers.setValue position s.identity

end Accumulator

end SparseProduct
