import SparseProduct.Decimal
import SparseProduct.Matrix

/-!
# The text of a matrix

The text gives the dimensions, the storage and a sample: at most five stored vectors, and at most five
entries of each.
-/

namespace SparseProduct

class ElementText (α : Type) where
  text : α → String

instance : ElementText Bool := ⟨fun b => if b then "true" else "false"⟩

instance {k : IntKind} : ElementText (Whole k) := ⟨fun x => toString x.val⟩

instance : ElementText Float := ⟨fun x => Decimal.ofBits 52 11 x.toBits.toNat⟩

instance : ElementText Float32 := ⟨fun x => Decimal.ofBits 23 8 x.toBits.toNat⟩

namespace SparseMatrix

variable {α : Type}

/-- The largest number of vectors, and of entries of a vector, in a sample. -/
def sampleSize : Nat := 5

def appendEntry [ElementText α] (m : SparseMatrix α) (text : String) (entry : Nat) :
    Result String := do
  let i ← m.pattern.row entry
  let v ← m.value entry
  return text ++ "(" ++ toString i ++ ", " ++ ElementText.text v ++ ") "

def appendVector [ElementText α] (m : SparseMatrix α) (text : String) (slot : Nat) :
    Result String := do
  let j ← m.pattern.vectorId slot
  let range ← m.pattern.vectorRange slot
  let text := text ++ "    col " ++ toString j ++ ": "
  if range.isEmpty then return text ++ "(empty)\n"
  let shown := min sampleSize range.length
  let text ← Span.foldM ⟨range.start, range.start + shown⟩ m.appendEntry text
  let rest := range.length - shown
  return text ++ (if 0 < rest then "... (" ++ toString rest ++ " more)" else "") ++ "\n"

def sampleText [ElementText α] (m : SparseMatrix α) (vectors : Nat) : Result String := do
  let shown := min sampleSize vectors
  if shown = 0 then return ""
  let text ← Span.foldM ⟨0, shown⟩ m.appendVector "  content sample:\n"
  let rest := vectors - shown
  return text ++ (if 0 < rest then "    ... (" ++ toString rest ++ " more vectors)\n" else "")

def text [ElementText α] (m : SparseMatrix α) : Result String := do
  let vectors ← m.pattern.vectorCount
  let sample ← m.sampleText vectors
  return "SparseMatrixCSC \x7b\n  dimensions: " ++ toString m.pattern.nRows ++ " × "
    ++ toString m.pattern.nCols ++ "\n  storage: " ++ m.pattern.storageMode.text ++ ", nvec: "
    ++ toString vectors ++ "\n  nnz: " ++ toString m.values.size ++ "\n" ++ sample ++ "\x7d"

end SparseMatrix

end SparseProduct
