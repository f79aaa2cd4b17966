import SparseProduct.Failure

/-!
# Numbers as matrix elements

`Numeric` is what the catalog of semirings asks of an element type: two constants, three arithmetic
steps that may fail, an order and its two ends. Whole numbers have a signedness and a width, and a step
whose exact result does not fit fails. Floating-point steps never fail.
-/

namespace SparseProduct

class Numeric (α : Type) where
  zero : α
  one : α
  add : α → α → Result α
  sub : α → α → Result α
  mul : α → α → Result α
  less : α → α → Bool
  /-- The largest value, which never wins a minimum. -/
  top : α
  /-- The smallest value, which never wins a maximum. -/
  bottom : α

namespace Numeric

/-- The smaller value; the first one if neither is smaller. -/
def least {α : Type} [Numeric α] (x y : α) : α := if less y x then y else x

/-- The larger value; the first one if neither is larger. -/
def greatest {α : Type} [Numeric α] (x y : α) : α := if less x y then y else x

end Numeric

/-- The number of bits of a whole number. These are the widths that have the two ends the catalog asks for;
wider kinds, for which only sums and products are defined, are left out. -/
inductive Width where
  | w8
  | w16
  | w32
  | w64
deriving DecidableEq, Repr, Inhabited

namespace Width

def bytes : Width → Nat
  | w8 => 1
  | w16 => 2
  | w32 => 4
  | w64 => 8

def bits (w : Width) : Nat := 8 * w.bytes

end Width

/-- A kind of whole number: its signedness and width. -/
structure IntKind where
  signed : Bool
  width : Width
deriving DecidableEq, Repr, Inhabited

namespace IntKind

def count (k : IntKind) : Nat := 1 <<< k.width.bits

def least (k : IntKind) : Int := if k.signed then -(1 <<< (k.width.bits - 1) : Nat) else 0

def greatest (k : IntKind) : Int := k.least + k.count - 1

theorem count_pos (k : IntKind) : 0 < k.count := by
  rw [count, Nat.one_shiftLeft]
  exact Nat.two_pow_pos k.width.bits

theorem least_nonpos (k : IntKind) : k.least ≤ 0 := by
  obtain ⟨signed, width⟩ := k
  cases signed <;> cases width <;> decide

theorem one_le_greatest (k : IntKind) : 1 ≤ k.greatest := by
  obtain ⟨signed, width⟩ := k
  cases signed <;> cases width <;> decide

theorem least_le_greatest (k : IntKind) : k.least ≤ k.greatest := by
  have := k.least_nonpos
  have := k.one_le_greatest
  omega

end IntKind

structure Whole (k : IntKind) where
  val : Int
  least_le : k.least ≤ val
  le_greatest : val ≤ k.greatest
deriving DecidableEq

namespace Whole

variable {k : IntKind}

@[ext]
theorem ext {x y : Whole k} (h : x.val = y.val) : x = y := by
  cases x
  cases y
  cases h
  rfl

def ofInt? (k : IntKind) (n : Int) : Option (Whole k) :=
  if h : k.least ≤ n ∧ n ≤ k.greatest then some ⟨n, h.1, h.2⟩ else none

/-- The result of a step whose exact value is `n`. -/
def checked (step : ArithmeticStep) (n : Int) : Result (Whole k) :=
  if h : k.least ≤ n ∧ n ≤ k.greatest then .ok ⟨n, h.1, h.2⟩ else .error (.overflow step)

theorem checked_val (step : ArithmeticStep) (x : Whole k) : checked step x.val = .ok x := by
  unfold checked
  rw [dif_pos ⟨x.least_le, x.le_greatest⟩]

/-- The number of the kind that differs from `n` by a multiple of the kind's count. -/
def wrap (k : IntKind) (n : Int) : Whole k :=
  ⟨k.least + (n - k.least) % k.count, by
    have := k.count_pos
    have := Int.emod_nonneg (n - k.least) (show (k.count : Int) ≠ 0 by omega)
    omega, by
    have := k.count_pos
    have := Int.emod_lt_of_pos (n - k.least) (show 0 < (k.count : Int) by omega)
    unfold IntKind.greatest
    omega⟩

instance : Inhabited (Whole k) where
  default := ⟨0, k.least_nonpos, Int.le_trans (by decide) k.one_le_greatest⟩

instance : Numeric (Whole k) where
  zero := ⟨0, k.least_nonpos, Int.le_trans (by decide) k.one_le_greatest⟩
  one := ⟨1, Int.le_trans k.least_nonpos (by decide), k.one_le_greatest⟩
  add x y := checked .add (x.val + y.val)
  sub x y := checked .subtract (x.val - y.val)
  mul x y := checked .multiply (x.val * y.val)
  less x y := x.val < y.val
  top := ⟨k.greatest, k.least_le_greatest, Int.le_refl _⟩
  bottom := ⟨k.least, Int.le_refl _, k.least_le_greatest⟩

end Whole

/-! The kinds of whole number by name. -/

abbrev Int8Kind : IntKind := ⟨true, .w8⟩
abbrev Int16Kind : IntKind := ⟨true, .w16⟩
abbrev Int32Kind : IntKind := ⟨true, .w32⟩
abbrev Int64Kind : IntKind := ⟨true, .w64⟩
abbrev Nat8Kind : IntKind := ⟨false, .w8⟩
abbrev Nat16Kind : IntKind := ⟨false, .w16⟩
abbrev Nat32Kind : IntKind := ⟨false, .w32⟩
abbrev Nat64Kind : IntKind := ⟨false, .w64⟩

instance : Numeric Float where
  zero := 0.0
  one := 1.0
  add x y := .ok (x + y)
  sub x y := .ok (x - y)
  mul x y := .ok (x * y)
  less x y := x < y
  top := 1.0 / 0.0
  bottom := -1.0 / 0.0

instance : Numeric Float32 where
  zero := 0.0
  one := 1.0
  add x y := .ok (x + y)
  sub x y := .ok (x - y)
  mul x y := .ok (x * y)
  less x y := x < y
  top := 1.0 / 0.0
  bottom := -1.0 / 0.0

end SparseProduct
