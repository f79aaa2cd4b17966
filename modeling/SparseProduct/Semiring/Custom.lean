import SparseProduct.Semiring

/-!
# Operations outside the catalog

These are not semirings in the algebraic sense. Most do not commute and some ignore an operand, so they
tell apart folds that visit the same products in different orders.
-/

namespace SparseProduct

namespace SemiringOps

section Numbers

variable {α : Type} [Numeric α]

def sumFrom (identity : α) : SemiringOps α α α where
  name := "fn"
  identity := identity
  multiply := Numeric.mul
  accumulate := Numeric.add

/-- Writes the products one after the other as decimal digits. -/
def digits (ten identity : α) : SemiringOps α α α where
  name := "digits"
  identity := identity
  multiply := Numeric.mul
  accumulate x y := do Numeric.add (← Numeric.mul x ten) y

def minus (identity : α) : SemiringOps α α α where
  name := "minus"
  identity := identity
  multiply := Numeric.sub
  accumulate := Numeric.sub

def firstPlus (identity : α) : SemiringOps α α α where
  name := "fp"
  identity := identity
  multiply x _ := .ok x
  accumulate := Numeric.add

def secondLast (identity : α) : SemiringOps α α α where
  name := "sl"
  identity := identity
  multiply _ y := .ok y
  accumulate _ y := .ok y

/-- The numeric operations with a rule's name, from any start. -/
def ofRule? (ten identity : α) : (rule : String) → Option (SemiringOps α α α)
  | "plus_times" => some (sumFrom identity)
  | "digits" => some (digits ten identity)
  | "minus" => some (minus identity)
  | "first_plus" => some (firstPlus identity)
  | "second_last" => some (secondLast identity)
  | _ => none

end Numbers

def xor (identity : Bool) : SemiringOps Bool Bool Bool where
  name := "xor"
  identity := identity
  multiply x y := .ok (x && y)
  accumulate x y := .ok (x != y)

def countSum : SemiringOps (Whole Nat32Kind) (Whole Nat32Kind)
    (Whole Nat32Kind × Whole Nat32Kind) where
  name := "count_sum"
  identity := (Numeric.zero, Numeric.zero)
  multiply x y := do return (Numeric.one, ← Numeric.mul x y)
  accumulate x y := do return (← Numeric.add x.1 y.1, ← Numeric.add x.2 y.2)

/-- Subtracts scaled elements in a wider type. -/
def scale (identity : Whole Int64Kind) :
    SemiringOps (Whole Int32Kind) (Whole Nat8Kind) (Whole Int64Kind) where
  name := "scale"
  identity := identity
  multiply x y := Whole.checked .multiply (x.val * y.val)
  accumulate := Numeric.sub

/-- The largest of the right elements whose left element is true, zero standing for the others. -/
def select : SemiringOps Bool (Whole Int32Kind) (Whole Int32Kind) where
  name := "select"
  identity := Whole.wrap Int32Kind (-1)
  multiply x y := .ok (if x then y else Numeric.zero)
  accumulate x y := .ok (Numeric.greatest x y)

end SemiringOps

end SparseProduct
