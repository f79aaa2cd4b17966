import SparseProduct.Size

/-!
# Work counters

Every run of the product reports how much it did. Reports of partial runs add up field by field.
-/

namespace SparseProduct

/-- The work of one run. -/
structure Counters where
  /-- Output columns with stored entries. -/
  columnsComputed : Nat
  /-- Output columns passed over because nothing is stored in them. -/
  columnsSkipped : Nat
  /-- Lookups of a column of A. -/
  locateCalls : Nat
  /-- Workspace slots set to the identity. -/
  workspaceClears : Nat
  /-- Products folded into the workspace. -/
  multiplyAdds : Nat
  /-- Output values written. -/
  gathers : Nat
deriving DecidableEq, Repr

namespace Counters

def zero : Counters := ⟨0, 0, 0, 0, 0, 0⟩

def skippedColumn : Counters := ⟨0, 1, 0, 0, 0, 0⟩

instance : Inhabited Counters := ⟨zero⟩

def add (x y : Counters) : Counters where
  columnsComputed := x.columnsComputed + y.columnsComputed
  columnsSkipped := x.columnsSkipped + y.columnsSkipped
  locateCalls := x.locateCalls + y.locateCalls
  workspaceClears := x.workspaceClears + y.workspaceClears
  multiplyAdds := x.multiplyAdds + y.multiplyAdds
  gathers := x.gathers + y.gathers

instance : Add Counters := ⟨add⟩

theorem add_assoc (x y z : Counters) : x + y + z = x + (y + z) := by
  simp only [HAdd.hAdd, Add.add, add, mk.injEq]
  exact ⟨Nat.add_assoc .., Nat.add_assoc .., Nat.add_assoc .., Nat.add_assoc .., Nat.add_assoc ..,
    Nat.add_assoc ..⟩

theorem add_comm (x y : Counters) : x + y = y + x := by
  simp only [HAdd.hAdd, Add.add, add, mk.injEq]
  exact ⟨Nat.add_comm .., Nat.add_comm .., Nat.add_comm .., Nat.add_comm .., Nat.add_comm ..,
    Nat.add_comm ..⟩

theorem zero_add (x : Counters) : zero + x = x := by
  simp only [HAdd.hAdd, Add.add, add, zero]
  simp only [Nat.add_eq, Nat.zero_add]

/-- The sum, if each field of it is a size. -/
def addSized (x y : Counters) : Result Counters := do
  return {
    columnsComputed := ← Size.add x.columnsComputed y.columnsComputed
    columnsSkipped := ← Size.add x.columnsSkipped y.columnsSkipped
    locateCalls := ← Size.add x.locateCalls y.locateCalls
    workspaceClears := ← Size.add x.workspaceClears y.workspaceClears
    multiplyAdds := ← Size.add x.multiplyAdds y.multiplyAdds
    gathers := ← Size.add x.gathers y.gathers }

/-- The sum of reports, if it and every partial sum are made of sizes. -/
def total (reports : List Counters) : Result Counters := reports.foldlM addSized zero

def workspaceWrites (x : Counters) : Result Nat := Size.add x.workspaceClears x.multiplyAdds

def text (x : Counters) : String :=
  "KernelStats \x7b columns_computed: " ++ toString x.columnsComputed
    ++ ", columns_skipped: " ++ toString x.columnsSkipped
    ++ ", locate_calls: " ++ toString x.locateCalls
    ++ ", workspace_clears: " ++ toString x.workspaceClears
    ++ ", multiply_adds: " ++ toString x.multiplyAdds
    ++ ", gathers: " ++ toString x.gathers ++ " \x7d"

end Counters

end SparseProduct
