import SparseProduct.ElementType

/-!
# How an operation fails

A failure is one of five things: a contract that the operands of a product break, which is reported
before anything is written; a promise that the caller of an operation has not kept; a number that
leaves its range; a place outside the data; or arrays that are no compressed matrix at all. Each is a
cause with the numbers that show it. The wording is made from the cause, in one place.
-/

namespace SparseProduct

/-- The part an operand plays in a product. -/
inductive Operand where
  | a
  | b
  | c
  | mask
  | workspace
deriving DecidableEq, Repr, Inhabited

namespace Operand

def text : Operand → String
  | a => "A"
  | b => "B"
  | c => "C"
  | mask => "M"
  | workspace => "workspace"

end Operand

/-- Which two dimensions of a product disagree, and what they are. -/
inductive ShapeMismatch where
  | rows (c a : Nat)
  | columns (c b : Nat)
  | inner (aColumns bRows : Nat)
  | mask (rows columns outputRows outputColumns : Nat)
deriving DecidableEq, Repr

namespace ShapeMismatch

def text : ShapeMismatch → String
  | rows c a => s!"C has {c} rows, A has {a}"
  | columns c b => s!"C has {c} columns, B has {b}"
  | inner aColumns bRows => s!"A has {aColumns} columns, B has {bRows} rows"
  | mask r c outputRows outputColumns =>
      s!"mask is {r} × {c}, output is {outputRows} × {outputColumns}"

end ShapeMismatch

/-- The first thing found wrong with a pattern. -/
inductive PatternDefect where
  | noPointers
  | firstPointer (pointer : Nat)
  | lastPointer (vectors pointer stored : Nat)
  | vectorCount (vectors columns : Nat)
  | idCount (ids vectors : Nat)
  | idOrder (first second : Nat)
  | idBound (id columns : Nat)
  | pointerOrder (slot : Nat)
  | rowOrder (slot first second : Nat)
  | rowBound (row rows : Nat)
deriving DecidableEq, Repr

namespace PatternDefect

def text : PatternDefect → String
  | noPointers => "col_ptr is empty"
  | firstPointer pointer => s!"col_ptr[0] is {pointer}"
  | lastPointer vectors pointer stored =>
      s!"col_ptr[{vectors}] is {pointer} but {stored} row indices are stored"
  | vectorCount vectors columns =>
      s!"sparse pattern stores {vectors} vectors for {columns} columns"
  | idCount ids vectors => s!"{ids} column ids for {vectors} vectors"
  | idOrder first second => s!"column ids not strictly increasing at {first} -> {second}"
  | idBound id columns => s!"column id {id} out of bounds (n_cols = {columns})"
  | pointerOrder slot => s!"col_ptr not monotonic at slot {slot}"
  | rowOrder slot first second =>
      s!"rows of vector {slot} not strictly increasing at {first} -> {second}"
  | rowBound row rows => s!"row index {row} out of bounds (n_rows = {rows})"

end PatternDefect

/-- A contract of a product or of a registry that its operands break. -/
inductive ContractError where
  | dimensionMismatch (mismatch : ShapeMismatch)
  | patternNotFinalized
  | tooManyVectors (output right : Nat)
  | invalidPattern (operand : Operand) (defect : PatternDefect)
  | workspaceTooSmall (slots required : Nat)
  | valueLength (operand : Operand) (values entries : Nat)
  | elementSize (operand : Operand) (expected actual : Nat)
  | slotRange (start stop vectors : Nat)
  | notRegistered (key : SemiringKey)
  | alreadyRegistered (key : SemiringKey)
deriving DecidableEq, Repr

namespace ContractError

def text : ContractError → String
  | dimensionMismatch mismatch => "dimension mismatch: " ++ mismatch.text
  | patternNotFinalized => "output pattern is not finalized"
  | tooManyVectors output right =>
      s!"output stores {output} vectors but B stores only {right}"
  | invalidPattern operand defect =>
      "invalid pattern for " ++ operand.text ++ ": " ++ defect.text
  | workspaceTooSmall slots required =>
      s!"workspace holds {slots} slots, output needs {required}"
  | valueLength operand values entries =>
      operand.text ++ s!" stores {values} values for {entries} pattern entries"
  | elementSize operand expected actual =>
      operand.text ++ s!" elements are {actual} bytes, semiring expects {expected}"
  | slotRange start stop vectors =>
      s!"slot range {start}..{stop} exceeds {vectors} stored vectors"
  | notRegistered key => "no semiring registered as " ++ key.text
  | alreadyRegistered key => "semiring already registered as " ++ key.text

end ContractError

/-- A promise of the caller that an operation found broken. -/
inductive BrokenPromise where
  | pointerCount
  | lastPointer
  | hyperPointerCount
  | hyperLastPointer
  | valueCount
  | rowBound (row rows : Nat)
  | columnBound (column columns : Nat)
  | columnRequest
  | duplicateEntry (row column : Nat)
  | innerDimensions
  | patternRows
  | patternColumns
  | blockCount
  | blockSize
  | identitySize
  | emptyRightColumn (column : Nat)
deriving DecidableEq, Repr

namespace BrokenPromise

def text : BrokenPromise → String
  | pointerCount => "col_ptr.len() must be n_cols + 1"
  | lastPointer => "col_ptr[n_cols] must equal row_idx.len()"
  | hyperPointerCount => "col_ptr.len() must be col_ids.len() + 1"
  | hyperLastPointer => "col_ptr[nvec] must equal row_idx.len()"
  | valueCount => "row_idx.len() must equal values.len()"
  | rowBound row rows => s!"Row index {row} out of bounds (n_rows = {rows})"
  | columnBound column columns => s!"Column index {column} out of bounds (n_cols = {columns})"
  | columnRequest => "Column index out of bounds"
  | duplicateEntry row column => s!"duplicate entry at ({row}, {column})"
  | innerDimensions => "Matrix dimensions must be compatible for multiplication"
  | patternRows => "pattern rows must match A"
  | patternColumns => "pattern columns must match B"
  | blockCount => "values.len() must equal nnz * elem_size"
  | blockSize => "element size mismatch"
  | identitySize => "identity must be one output element"
  | emptyRightColumn column => s!"C(:,{column}) nonempty but B(:,{column}) is empty"

end BrokenPromise

/-- An arithmetic step whose result can leave the range of its type. -/
inductive ArithmeticStep where
  | add
  | subtract
  | multiply
deriving DecidableEq, Repr

namespace ArithmeticStep

def text : ArithmeticStep → String
  | add => "attempt to add with overflow"
  | subtract => "attempt to subtract with overflow"
  | multiply => "attempt to multiply with overflow"

end ArithmeticStep

/-- Why an operation stopped. -/
inductive Failure where
  | contract (cause : ContractError)
  | promise (cause : BrokenPromise)
  | overflow (step : ArithmeticStep)
  | outOfRange
  | malformed
deriving DecidableEq, Repr

namespace Failure

/-- The wording of a failure; a place outside the data and malformed arrays have none. -/
def message? : Failure → Option String
  | contract cause => some cause.text
  | promise cause => some cause.text
  | overflow step => some step.text
  | outOfRange => none
  | malformed => none

end Failure

/-- The outcome of a pure operation. -/
abbrev Result (α : Type) : Type := Except Failure α

namespace Result

theorem bind_eq_ok {α β : Type} {x : Result α} {f : α → Result β} {y : β} :
    (x >>= f) = .ok y ↔ ∃ a, x = .ok a ∧ f a = .ok y := by
  cases x with
  | error e => simp [bind, Except.bind]
  | ok a => simp [bind, Except.bind]

end Result

end SparseProduct
