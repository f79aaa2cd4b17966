import Mathlib.Logic.Function.Basic
import SparseProduct.Proofs.Kernel.Script
import SparseProduct.Proofs.Lockstep
import SparseProduct.Semiring

/-!
# The values of a product, column by column

Column `j` of A · B has a value for every row: the identity, with the products of the pairs that meet in
the row folded in one after another. Both the kernel and the reference product compute these values, the
one in a workspace and the other in a dense column.
-/

namespace SparseProduct

variable {L R O : Type}

/-- Neither operation of the semiring ever fails. -/
structure SemiringOps.Total (s : SemiringOps L R O) : Prop where
  multiply : ∀ x y, ∃ z, s.multiply x y = .ok z
  accumulate : ∀ x y, ∃ z, s.accumulate x y = .ok z

/-- The element that `z` becomes when the product of `x` and `y` is folded into it. -/
def SemiringOps.fold (s : SemiringOps L R O) (x : L) (y : R) (z : O) : Result O :=
  s.multiply x y >>= s.accumulate z

theorem SemiringOps.Total.fold_eq_ok {s : SemiringOps L R O} (total : s.Total) (x : L) (y : R)
    (z : O) : ∃ value, s.fold x y z = .ok value := by
  obtain ⟨t, ht⟩ := total.multiply x y
  obtain ⟨value, hvalue⟩ := total.accumulate z t
  refine ⟨value, ?_⟩
  rw [fold, ht, Result.ok_bind, hvalue]

namespace Operands

def foldPair (op : Operands) (s : SemiringOps L R O) (left : Array L) (right : Array R)
    (column : Nat → O) (pair : Nat × Nat) : Result (Nat → O) := do
  let x ← fetch left pair.1
  let y ← fetch right pair.2
  let value ← s.fold x y (column (op.a.rowAt pair.1))
  return Function.update column (op.a.rowAt pair.1) value

/-- The values of column `j` of A · B, for every row. -/
def columnValues (op : Operands) (s : SemiringOps L R O) (left : Array L) (right : Array R) (j : Nat) :
    Result (Nat → O) :=
  (op.pairs j).foldlM (op.foldPair s left right) fun _ => s.identity

def columnAt (op : Operands) (s : SemiringOps L R O) (left : Array L) (right : Array R) (j : Nat) :
    Nat → O :=
  match op.columnValues s left right j with
  | .ok column => column
  | .error _ => fun _ => s.identity

theorem columnAt_of_ok {op : Operands} {s : SemiringOps L R O} {left : Array L} {right : Array R}
    {j : Nat} {column : Nat → O} (h : op.columnValues s left right j = .ok column) :
    op.columnAt s left right j = column := by
  rw [columnAt, h]

theorem columnValues_of_not_error {op : Operands} {s : SemiringOps L R O} {left : Array L}
    {right : Array R} {j : Nat} (h : ∀ e, op.columnValues s left right j ≠ .error e) :
    op.columnValues s left right j = .ok (op.columnAt s left right j) := by
  cases hj : op.columnValues s left right j with
  | ok column => rw [columnAt_of_ok hj]
  | error e => exact absurd hj (h e)

theorem mem_pairs {op : Operands} {j : Nat} {pair : Nat × Nat} :
    pair ∈ op.pairs j ↔ pair.2 ∈ (op.b.columnSpan j).positions ∧
      pair.1 ∈ (op.a.columnSpan (op.b.rowAt pair.2)).positions := by
  unfold pairs pairsOf
  rw [List.mem_flatMap]
  constructor
  · rintro ⟨right, hright, hpair⟩
    obtain ⟨left, hleft, rfl⟩ := List.mem_map.1 hpair
    exact ⟨hright, hleft⟩
  · rintro ⟨hright, hleft⟩
    exact ⟨pair.2, hright, List.mem_map.2 ⟨pair.1, hleft, rfl⟩⟩

theorem foldPair_eq {op : Operands} {s : SemiringOps L R O} {left : Array L} {right : Array R}
    {pair : Nat × Nat} (hl : pair.1 < left.size) (hr : pair.2 < right.size) (column : Nat → O) :
    op.foldPair s left right column pair =
      (s.fold left[pair.1] right[pair.2] (column (op.a.rowAt pair.1)) >>= fun value =>
        .ok (Function.update column (op.a.rowAt pair.1) value)) := by
  rw [foldPair, fetch_of_lt hl, fetch_of_lt hr]
  rfl

theorem foldPair_of_ne {op : Operands} {s : SemiringOps L R O} {left : Array L} {right : Array R}
    {column next : Nat → O} {pair : Nat × Nat} (h : op.foldPair s left right column pair = .ok next)
    {i : Nat} (hne : op.a.rowAt pair.1 ≠ i) : next i = column i := by
  unfold foldPair at h
  simp only [Result.bind_eq_ok, Result.pure_eq_ok] at h
  obtain ⟨x, -, y, -, value, -, rfl⟩ := h
  exact Function.update_of_ne hne.symm _ _

theorem columnValues_of_unreached {op : Operands} {s : SemiringOps L R O} {left : Array L}
    {right : Array R} {j i : Nat} {column : Nat → O}
    (h : op.columnValues s left right j = .ok column)
    (unreached : ∀ pair ∈ op.pairs j, op.a.rowAt pair.1 ≠ i) : column i = s.identity := by
  have hkeep : ∀ (pairs : List (Nat × Nat)) (start last : Nat → O),
      (∀ pair ∈ pairs, op.a.rowAt pair.1 ≠ i) →
      pairs.foldlM (op.foldPair s left right) start = .ok last → last i = start i := by
    intro pairs
    induction pairs with
    | nil =>
      intro start last _ hlast
      cases hlast
      rfl
    | cons pair pairs ih =>
      intro start last hne hlast
      rw [List.foldlM_cons, Result.bind_eq_ok] at hlast
      obtain ⟨next, hnext, hlast⟩ := hlast
      rw [ih next last (fun p hp => hne p (List.mem_cons_of_mem _ hp)) hlast]
      exact foldPair_of_ne hnext (hne pair List.mem_cons_self)
  exact hkeep _ _ _ unreached h

namespace WellFormed

variable {op : Operands} (wf : op.WellFormed)
include wf

theorem pair_lt {j : Nat} {pair : Nat × Nat} (h : pair ∈ op.pairs j) :
    pair.1 < op.a.entryCount ∧ pair.2 < op.b.entryCount ∧ op.a.rowAt pair.1 < op.c.nRows := by
  obtain ⟨hright, hleft⟩ := mem_pairs.1 h
  exact ⟨wf.a.lt_of_mem_columnSpan hleft, wf.b.lt_of_mem_columnSpan hright,
    wf.rows ▸ wf.a.rowAt_lt hleft⟩

theorem exists_columnValues {s : SemiringOps L R O} (total : s.Total) {left : Array L}
    {right : Array R} (hleft : left.size = op.a.entryCount) (hright : right.size = op.b.entryCount) :
    ∃ value : Nat → Nat → O, ∀ j, op.columnValues s left right j = .ok (value j) := by
  refine Classical.axiomOfChoice fun j => Result.foldlM_total (fun column pair hpair => ?_) _
  obtain ⟨hl, hr, -⟩ := wf.pair_lt hpair
  rw [← hleft] at hl
  rw [← hright] at hr
  obtain ⟨value, hvalue⟩ := total.fold_eq_ok left[pair.1] right[pair.2] (column (op.a.rowAt pair.1))
  rw [foldPair_eq hl hr, hvalue]
  exact ⟨_, rfl⟩

end WellFormed

end Operands

end SparseProduct
