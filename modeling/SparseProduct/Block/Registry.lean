import SparseProduct.Accumulator
import SparseProduct.Block.Semiring

/-!
# The registry of block semirings

A registry is a table of block semirings, one for a key. A record is entered under its own key. While the
registry is put together it takes the place of what is there; afterwards only a key that is still free can
be taken. Records are looked up by name and element types. A registry can start out empty or with the
catalog.
-/

namespace SparseProduct

structure Registry where
  entries : List (SemiringKey × BlockSemiring)

namespace Registry

def empty : Registry := ⟨[]⟩

def find? (r : Registry) (key : SemiringKey) : Option BlockSemiring := r.entries.lookup key

protected def get (r : Registry) (key : SemiringKey) : Result BlockSemiring :=
  match r.find? key with
  | some record => .ok record
  | none => .error (.contract (.notRegistered key))

def getUniform (r : Registry) (name : String) (type : ElementType) : Result BlockSemiring :=
  r.get (.uniform name type)

/-- Puts a record in the place of the one under a key, or after all others. -/
def enter (key : SemiringKey) (record : BlockSemiring) :
    List (SemiringKey × BlockSemiring) → List (SemiringKey × BlockSemiring)
  | [] => [(key, record)]
  | entry :: entries =>
      if entry.1 = key then (key, record) :: entries else entry :: enter key record entries

def insert (r : Registry) (record : BlockSemiring) : Registry :=
  ⟨enter record.key record r.entries⟩

/-- Enters a record under a key that is still free, and gives it back. -/
def enroll (record : BlockSemiring) : Run Registry BlockSemiring := do
  if ((← get).find? record.key).isSome then throw (.contract (.alreadyRegistered record.key))
  modify (·.insert record)
  return record

/-- The registry with one more record, whose key has to be free. -/
def register (r : Registry) (record : BlockSemiring) : Result Registry :=
  match enroll record r with
  | .ok _ r => .ok r
  | .error e _ => .error e

def size (r : Registry) : Nat := r.entries.length

def isEmpty (r : Registry) : Bool := r.entries.isEmpty

def keys (r : Registry) : List SemiringKey := r.entries.map (·.1)

def keyTexts (r : Registry) : List String :=
  (r.keys.map SemiringKey.text).mergeSort fun x y => decide (x ≤ y)

def numericCatalog (α : Type) [Numeric α] [TaggedElement α] : List BlockSemiring :=
  [.ofTyped (.plusTimes (α := α)), .ofTyped (.minPlus (α := α)), .ofTyped (.maxPlus (α := α)),
    .ofTyped (.maxMin (α := α))]

/-- The numeric semirings over the element types of 32 and 64 bits, and reachability over `bool`. There are none
over the tagged type of 8 bits. -/
def catalog : List BlockSemiring :=
  numericCatalog (Whole Int32Kind) ++ numericCatalog (Whole Int64Kind)
    ++ numericCatalog (Whole Nat32Kind) ++ numericCatalog (Whole Nat64Kind)
    ++ numericCatalog Float32 ++ numericCatalog Float ++ [.lorLand]

def withCatalog : Registry := catalog.foldl insert empty

end Registry

end SparseProduct
