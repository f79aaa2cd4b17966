import SparseProduct.Failure

/-!
# Sizes

Sizes, indices and counts are whole numbers below `2 ^ 64`. A sum, difference or product of two of
them that is not again such a number is a failure. Prefix sums are the one derived operation.
-/

namespace SparseProduct

namespace Size

/-- The first number that is no size. -/
def limit : Nat := 1 <<< 64

def add (x y : Nat) : Result Nat :=
  if x + y < limit then .ok (x + y) else .error (.overflow .add)

def sub (x y : Nat) : Result Nat :=
  if y ≤ x then .ok (x - y) else .error (.overflow .subtract)

def mul (x y : Nat) : Result Nat :=
  if x * y < limit then .ok (x * y) else .error (.overflow .multiply)

theorem add_of_lt {x y : Nat} (h : x + y < limit) : add x y = .ok (x + y) := if_pos h

theorem sub_of_le {x y : Nat} (h : y ≤ x) : sub x y = .ok (x - y) := if_pos h

theorem mul_of_lt {x y : Nat} (h : x * y < limit) : mul x y = .ok (x * y) := if_pos h

/-- Appends to `sums` the running totals of `counts` that go on from `total`. -/
def prefixSumsFrom (sums : Array Nat) (total : Nat) : List Nat → Result (Array Nat)
  | [] => .ok sums
  | count :: counts => do
      let total ← add total count
      prefixSumsFrom (sums.push total) total counts

/-- The sums of the first `0, 1, …` counts. There is one more of them than there are counts. -/
def prefixSums (counts : Array Nat) : Result (Array Nat) :=
  prefixSumsFrom #[0] 0 counts.toList

end Size

end SparseProduct
