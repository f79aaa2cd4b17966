import SparseProduct.Proofs.Multiply.Call

/-!
# Products in two semirings over the same operands

A function from the elements of one semiring to those of another may commute with all operations. A column
is computed in both semirings in lockstep, and the function takes its values in the one to its values in
the other. So it takes the one product to the other, although the workspaces of the two may have held
anything before, related or not.
-/

namespace SparseProduct

variable {L R O P : Type}

/-- `f` takes the identity and the results of the semiring `s` to those of `t`. -/
structure SemiringOps.Hom (s : SemiringOps L R O) (t : SemiringOps L R P) (f : O → P) : Prop where
  identity : t.identity = f s.identity
  multiply : ∀ x y, Result.Related (fun w z => w = f z) (t.multiply x y) (s.multiply x y)
  accumulate : ∀ z y,
    Result.Related (fun w z => w = f z) (t.accumulate (f z) (f y)) (s.accumulate z y)

variable {s : SemiringOps L R O} {t : SemiringOps L R P} {f : O → P}

theorem SemiringOps.Hom.fold (hom : s.Hom t f) (x : L) (y : R) (z : O) :
    Result.Related (fun w z => w = f z) (t.fold x y (f z)) (s.fold x y z) := by
  refine (hom.multiply x y).bind ?_
  rintro _ product rfl
  exact hom.accumulate z product

namespace Operands

variable {op : Operands} {left : Array L} {right : Array R}

theorem foldPair_hom (hom : s.Hom t f) (column : Nat → O) (pair : Nat × Nat) :
    Result.Related (fun other column => other = f ∘ column)
      (op.foldPair t left right (f ∘ column) pair) (op.foldPair s left right column pair) := by
  have same : ∀ {α : Type} (x : Result α), Result.Related Eq x x :=
    fun _ => Result.Related.eq_iff.2 rfl
  refine (same _).bind ?_
  rintro x _ rfl
  refine (same _).bind ?_
  rintro y _ rfl
  refine (hom.fold x y _).bind ?_
  rintro _ value rfl
  exact .ok (Function.comp_update f column (op.a.rowAt pair.1) value).symm

theorem columnValues_hom (hom : s.Hom t f) (j : Nat) :
    Result.Related (fun other column => other = f ∘ column) (op.columnValues t left right j)
      (op.columnValues s left right j) := by
  refine Result.Related.foldlM_same ?_ (op.pairs j) (funext fun _ => hom.identity)
  rintro _ column rfl pair
  exact foldPair_hom hom column pair

theorem entryValue_hom (hom : s.Hom t f) (value : Nat → Nat → O) (i j : Nat) :
    f (op.entryValue s.identity value i j) = op.entryValue t.identity (fun j => f ∘ value j) i j := by
  rw [entryValue, entryValue, apply_ite f, hom.identity]
  rfl

end Operands

theorem Filled.map {op : Operands} {entry : Nat → Nat → O} {base : Nat} {columns : List Nat}
    {before after : Array O} (h : Filled op entry base columns before after) (f : O → P) :
    Filled op (fun i j => f (entry i j)) base columns (before.map f) (after.map f) where
  size := by rw [Array.size_map, Array.size_map, h.size]
  inside j hj p hp := by rw [Array.getElem?_map, h.inside j hj p hp, Option.map_some]
  outside q hq := by rw [Array.getElem?_map, Array.getElem?_map, h.outside q hq]

/-- A function that commutes with the operations takes a product in the one semiring to the product in the
other, over every pattern and under every mask. The two calls report the same work. -/
theorem multiply_hom (hom : s.Hom t f) (total : s.Total) (total' : t.Total) {c : Pattern}
    {a : SparseMatrix L} {b : SparseMatrix R} {mask : Option Mask}
    (accepted : Accepted c a.pattern b.pattern mask) (ha : a.values.size = a.pattern.entryCount)
    (hb : b.values.size = b.pattern.entryCount)
    (occupied : ∀ j, c.Occupied j → b.pattern.Occupied j) (settings : Settings) {u : Buffers O}
    {v : Buffers P} (hu : u.values.size = c.entryCount) (hv : v.values.size = c.entryCount)
    (hroom : c.nRows ≤ u.slots.size) (hroom' : c.nRows ≤ v.slots.size) :
    ∃ counters after after', multiply s c a b mask settings u = .ok counters after ∧
      multiply t c a b mask settings v = .ok counters after' ∧
      after.values.map f = after'.values := by
  have wf := accepted.wellFormed settings.search
  obtain ⟨value, hvalue⟩ := wf.exists_columnValues total ha hb
  have hvalue' : ∀ j, (Operands.ofCall c a b mask settings).columnValues t a.values b.values j =
      .ok (f ∘ value j) := by
    intro j
    obtain ⟨other, hother, rfl⟩ := (Operands.columnValues_hom hom j).exists_ok (hvalue j)
    exact hother
  obtain ⟨after, hrun, hfilled, -⟩ :=
    multiply_of_accepted total accepted ha hb occupied hu hroom settings hvalue
  obtain ⟨after', hrun', hfilled', -⟩ :=
    multiply_of_accepted total' accepted ha hb occupied hv hroom' settings hvalue'
  refine ⟨_, after, after', hrun, hrun', ?_⟩
  -- both calls write every entry of C, so what either held before is gone
  have hmapped := (hfilled.map f).congr fun j _ i => Operands.entryValue_hom hom value i j
  refine hmapped.unique_of_occupied wf.c hfilled' (by rw [Array.size_map, hu]) hv fun j hj => ?_
  have hmem := Operands.mem_columnsOf wf (occupied j hj)
  exact ⟨hmem, hmem⟩

end SparseProduct
