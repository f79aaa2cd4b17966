import SparseProduct.Numeric

/-!
# Semirings

A product is computed in a semiring: an identity, a multiplication of a left by a right element, and an
accumulation of two output elements. An entry of the product is the accumulation, from the identity on
and in the order of the inner index, of the products that reach it. No law is assumed of the three, and
both operations may fail.

| name | accumulate | multiply | identity |
|------|------------|----------|----------|
| `plus_times` | sum | product | 0 |
| `min_plus` | minimum | sum | largest value |
| `max_plus` | maximum | sum | smallest value |
| `max_min` | maximum | minimum | smallest value |
| `lor_land` | or | and | false |
-/

namespace SparseProduct

/-- The operations of a semiring, without laws. -/
structure SemiringOps (L R O : Type) where
  name : String
  identity : O
  multiply : L → R → Result O
  /-- Folds the second element into the first. -/
  accumulate : O → O → Result O

namespace SemiringOps

variable {α : Type} [Numeric α]

/-- Conventional arithmetic. -/
def plusTimes : SemiringOps α α α where
  name := "plus_times"
  identity := Numeric.zero
  multiply := Numeric.mul
  accumulate := Numeric.add

/-- Shortest paths. -/
def minPlus : SemiringOps α α α where
  name := "min_plus"
  identity := Numeric.top
  multiply := Numeric.add
  accumulate x y := .ok (Numeric.least x y)

/-- Longest paths. -/
def maxPlus : SemiringOps α α α where
  name := "max_plus"
  identity := Numeric.bottom
  multiply := Numeric.add
  accumulate x y := .ok (Numeric.greatest x y)

/-- Widest paths. -/
def maxMin : SemiringOps α α α where
  name := "max_min"
  identity := Numeric.bottom
  multiply x y := .ok (Numeric.least x y)
  accumulate x y := .ok (Numeric.greatest x y)

/-- Reachability. -/
def lorLand : SemiringOps Bool Bool Bool where
  name := "lor_land"
  identity := false
  multiply x y := .ok (x && y)
  accumulate x y := .ok (x || y)

def ofName? (name : String) : Option (SemiringOps α α α) :=
  [plusTimes, minPlus, maxPlus, maxMin].find? (·.name = name)

/-- The products of some pairs, each with what has been accumulated once it is folded in. -/
def trace {L R O : Type} (s : SemiringOps L R O) (acc : O) : List (L × R) → Result (List (O × O))
  | [] => .ok []
  | pair :: pairs => do
      let t ← s.multiply pair.1 pair.2
      let acc ← s.accumulate acc t
      return (t, acc) :: (← trace s acc pairs)

/-- The accumulation of the products of some pairs, from the identity on. -/
def dot {L R O : Type} (s : SemiringOps L R O) (pairs : List (L × R)) : Result O :=
  pairs.foldlM (fun acc pair => do s.accumulate acc (← s.multiply pair.1 pair.2)) s.identity

end SemiringOps

end SparseProduct
