import Mathlib
import SparseProduct.Proofs.Deletion
import SparseProduct.Proofs.Reference

/-!
# Stored identities

A matrix may store the identity of a semiring like any other value; a product writes it wherever a pattern
names a position that no product reaches. Deleting such entries leaves products out of the columns. Where
multiplying with the identity gives the identity, and accumulating the identity changes nothing, those
products made no difference. This is so for sums of products, for widest paths and for reachability. For
shortest and longest paths in whole numbers the identity is the end of a range and no infinity: adding to it
may leave the range, and a sum with it may be smaller, or larger, than all others.
-/

namespace SparseProduct

variable {L R O : Type} {s : SemiringOps L R O}

theorem terms_filter {a : SparseMatrix L} {b : SparseMatrix R} (ha : a.pattern.WellFormed)
    (hb : b.pattern.WellFormed) (keep : L → Bool) (keep' : R → Bool) (j : Nat) :
    terms (a.filter keep) (b.filter keep') j =
      (terms a b j).filter fun term => keep term.left && keep' term.right := by
  unfold terms
  rw [SparseMatrix.entriesAt_filter hb, List.filter_flatMap]
  induction b.entriesAt j with
  | nil => rfl
  | cons right rights ih =>
    rw [List.filter_cons, List.flatMap_cons, List.filter_map]
    by_cases hright : keep' right.2 = true
    · rw [if_pos hright, List.flatMap_cons, ih, SparseMatrix.entriesAt_filter ha]
      simp [Function.comp_def, hright]
    · rw [if_neg hright, ih]
      simp [Function.comp_def, hright]

/-! ### Identities that annihilate -/

theorem foldlM_filter_of_inert {β ε : Type} {f : β → ε → Result β} {keep : ε → Bool} {xs : List ε}
    (inert : ∀ x ∈ xs, keep x = false → ∀ acc, f acc x = .ok acc) (acc : β) :
    (xs.filter keep).foldlM f acc = xs.foldlM f acc := by
  induction xs generalizing acc with
  | nil => rfl
  | cons x xs ih =>
    have ih := ih fun y hy => inert y (List.mem_cons_of_mem _ hy)
    rw [List.filter_cons, List.foldlM_cons]
    cases hx : keep x with
    | true =>
      rw [if_pos rfl, List.foldlM_cons]
      exact congrArg _ (funext ih)
    | false =>
      rw [if_neg Bool.false_ne_true, inert x List.mem_cons_self hx, Result.ok_bind]
      exact ih acc

/-- Products with the identity are the identity, and accumulating the identity changes nothing. -/
structure SemiringOps.Annihilates (s : SemiringOps O O O) : Prop where
  left : ∀ y, s.multiply s.identity y = .ok s.identity
  right : ∀ x, s.multiply x s.identity = .ok s.identity
  neutral : ∀ z, s.accumulate z s.identity = .ok z

theorem SemiringOps.Annihilates.foldTerm_eq {s : SemiringOps O O O} (h : s.Annihilates)
    {term : Term O O} (hterm : term.left = s.identity ∨ term.right = s.identity) (column : Nat → O) :
    foldTerm s column term = .ok column := by
  apply foldTerm_eq_ok.2
  refine ⟨s.identity, column term.row, ?_, h.neutral _, (Function.update_eq_self _ _).symm⟩
  rcases hterm with hleft | hright
  · rw [hleft, h.left]
  · rw [hright, h.right]

/-! ### Accumulations that select -/

/-- Accumulating two elements gives the one of lower rank. -/
structure SemiringOps.Selects (s : SemiringOps L R O) (rank : O → Int) : Prop where
  injective : Function.Injective rank
  accumulate : ∀ x y, ∃ z, s.accumulate x y = .ok z ∧ rank z = min (rank x) (rank y)

namespace SemiringOps.Selects

variable {rank : O → Int} (h : s.Selects rank)
include h

theorem accumulate_eq_left_iff {r t : O} : s.accumulate r t = .ok r ↔ rank r ≤ rank t := by
  obtain ⟨z, hz, hrank⟩ := h.accumulate r t
  rw [hz, Except.ok.injEq]
  constructor
  · intro heq
    rw [heq] at hrank
    omega
  · intro hle
    apply h.injective
    omega

theorem exists_foldTerm {term : Term L R} {t : O} (ht : s.multiply term.left term.right = .ok t)
    (column : Nat → O) : ∃ next, foldTerm s column term = .ok next := by
  obtain ⟨z, hz, -⟩ := h.accumulate (column term.row) t
  exact ⟨_, foldTerm_eq_ok.2 ⟨t, z, ht, hz, rfl⟩⟩

theorem rank_of_foldTerm {term : Term L R} {t : O} (ht : s.multiply term.left term.right = .ok t)
    {column next : Nat → O} (hnext : foldTerm s column term = .ok next) (i : Nat) :
    rank (next i) = if i = term.row then min (rank (column i)) (rank t) else rank (column i) := by
  obtain ⟨t', z, ht', hz, rfl⟩ := foldTerm_eq_ok.1 hnext
  cases ht.symm.trans ht'
  obtain ⟨z', hz', hrank⟩ := h.accumulate (column term.row) t
  cases hz.symm.trans hz'
  by_cases hi : i = term.row
  · rw [hi, Function.update_self, if_pos rfl, hrank]
  · rw [Function.update_of_ne hi, if_neg hi]

theorem foldlM_le {ts : List (Term L R)} {column last : Nat → O}
    (hfold : ts.foldlM (foldTerm s) column = .ok last) :
    (∀ i, rank (last i) ≤ rank (column i)) ∧ ∀ term ∈ ts, ∃ t,
      s.multiply term.left term.right = .ok t ∧ rank (last term.row) ≤ rank t := by
  induction ts generalizing column with
  | nil =>
    cases hfold
    exact ⟨fun i => Int.le_refl _, nofun⟩
  | cons term ts ih =>
    rw [List.foldlM_cons, Result.bind_eq_ok] at hfold
    obtain ⟨next, hnext, hfold⟩ := hfold
    obtain ⟨t, -, ht, -⟩ := foldTerm_eq_ok.1 hnext
    have hrank := h.rank_of_foldTerm ht hnext
    obtain ⟨hstart, hterms⟩ := ih hfold
    constructor
    · intro i
      have := hstart i
      have := hrank i
      split at this <;> omega
    · intro other hother
      rcases List.mem_cons.1 hother with rfl | hother
      · have := hstart other.row
        have := hrank other.row
        rw [if_pos rfl] at this
        exact ⟨t, ht, by omega⟩
      · exact hterms other hother

theorem foldlM_of_filter {keep : Term L R → Bool} {rows : Nat → Prop} {ts : List (Term L R)}
    {column upper last : Nat → O} (hfold : (ts.filter keep).foldlM (foldTerm s) upper = .ok last)
    (hbetween : ∀ i, rows i → rank (last i) ≤ rank (column i) ∧ rank (column i) ≤ rank (upper i))
    (hdropped : ∀ term ∈ ts, keep term = false → ∃ t, s.multiply term.left term.right = .ok t ∧
      (rows term.row → rank (last term.row) ≤ rank t)) :
    ∃ final, ts.foldlM (foldTerm s) column = .ok final ∧ ∀ i, rows i → final i = last i := by
  induction ts generalizing column upper with
  | nil =>
    cases hfold
    refine ⟨column, rfl, fun i hi => h.injective ?_⟩
    have := hbetween i hi
    omega
  | cons term ts ih =>
    have hrest : ∀ other ∈ ts, keep other = false → ∃ t,
        s.multiply other.left other.right = .ok t ∧ (rows other.row → rank (last other.row) ≤ rank t) :=
      fun other hother => hdropped other (List.mem_cons_of_mem _ hother)
    rw [List.filter_cons] at hfold
    cases hkeep : keep term with
    | true =>
      -- both folds take the product, and what they end with ranks no higher than it
      rw [hkeep, if_pos rfl] at hfold
      obtain ⟨t, ht, hlast⟩ := (h.foldlM_le hfold).2 term List.mem_cons_self
      rw [List.foldlM_cons, Result.bind_eq_ok] at hfold
      obtain ⟨upper', hupper', hfold⟩ := hfold
      obtain ⟨next, hnext⟩ := h.exists_foldTerm ht column
      rw [List.foldlM_cons, hnext, Result.ok_bind]
      refine ih hfold (fun i hi => ?_) hrest
      rw [h.rank_of_foldTerm ht hnext, h.rank_of_foldTerm ht hupper']
      have := hbetween i hi
      split
      · next heq =>
        subst heq
        omega
      · omega
    | false =>
      rw [hkeep, if_neg Bool.false_ne_true] at hfold
      obtain ⟨t, ht, hlast⟩ := hdropped term List.mem_cons_self hkeep
      obtain ⟨next, hnext⟩ := h.exists_foldTerm ht column
      rw [List.foldlM_cons, hnext, Result.ok_bind]
      refine ih hfold (fun i hi => ?_) hrest
      rw [h.rank_of_foldTerm ht hnext]
      have := hbetween i hi
      split
      · next heq =>
        subst heq
        have := hlast hi
        omega
      · omega

theorem foldlM_filter_iff {keep : Term L R → Bool} {rows : Nat → Prop} {ts : List (Term L R)}
    {column last : Nat → O} (hfold : (ts.filter keep).foldlM (foldTerm s) column = .ok last) :
    (∃ final, ts.foldlM (foldTerm s) column = .ok final ∧ ∀ i, rows i → final i = last i) ↔
      ∀ term ∈ ts, keep term = false → ∃ t, s.multiply term.left term.right = .ok t ∧
        (rows term.row → rank (last term.row) ≤ rank t) := by
  constructor
  · rintro ⟨final, hfinal, hsame⟩ term hterm -
    obtain ⟨t, ht, hle⟩ := (h.foldlM_le hfinal).2 term hterm
    exact ⟨t, ht, fun hrow => hsame _ hrow ▸ hle⟩
  · intro hdropped
    exact h.foldlM_of_filter hfold (fun i _ => ⟨(h.foldlM_le hfold).1 i, Int.le_refl _⟩) hdropped

end SemiringOps.Selects

/-! ### Products without the stored identities -/

/-- Two matrices and a pattern for their product: each passes its check, and the sizes fit. -/
structure Multipliable (a : SparseMatrix L) (b : SparseMatrix R) (c : Pattern) : Prop where
  a_check : a.pattern.check .a = .ok ()
  b_check : b.pattern.check .b = .ok ()
  c_check : c.check .c = .ok ()
  a_values : a.values.size = a.pattern.entryCount
  b_values : b.values.size = b.pattern.entryCount
  rows : c.nRows = a.pattern.nRows
  columns : c.nCols = b.pattern.nCols
  inner : a.pattern.nCols = b.pattern.nRows

namespace Multipliable

variable {a : SparseMatrix L} {b : SparseMatrix R} {c : Pattern} (h : Multipliable a b c)
include h

theorem wellFormed : (Operands.mk a.pattern b.pattern c none .trimmed).WellFormed where
  a := Pattern.wellFormed_of_check h.a_check
  b := Pattern.wellFormed_of_check h.b_check
  c := Pattern.wellFormed_of_check h.c_check
  rows := h.rows
  columns := h.columns
  inner := h.inner
  mask := nofun

theorem filter (keep : L → Bool) (keep' : R → Bool) :
    Multipliable (a.filter keep) (b.filter keep') c where
  a_check := Pattern.check_eq_ok_iff.2 (SparseMatrix.wellFormed_filter h.wellFormed.a h.a_values keep)
  b_check := Pattern.check_eq_ok_iff.2 (SparseMatrix.wellFormed_filter h.wellFormed.b h.b_values keep')
  c_check := h.c_check
  a_values := SparseMatrix.size_filter a keep
  b_values := SparseMatrix.size_filter b keep'
  rows := h.rows
  columns := h.columns
  inner := h.inner

theorem values_eq_ok_iff {result : Array O} :
    Reference.values s a b c = .ok result ↔ result.size = c.entryCount ∧
      ∀ slot < c.slotCount, ∃ column,
        (terms a b (c.slotColumn slot)).foldlM (foldTerm s) (fun _ => s.identity) = .ok column ∧
        ∀ p ∈ (c.slotSpan slot).positions, result[p]? = some (column (c.rowAt p)) := by
  have hcolumn := columnValues_eq_terms (s := s) h.wellFormed h.a_values h.b_values
  have hvalues : Reference.values s a b c = .ok result ↔ _ :=
    Reference.values_eq_ok_iff h.wellFormed h.a_values h.b_values
  simp only [hcolumn] at hvalues
  exact hvalues

end Multipliable

/-- An entry of row `i` of A that holds `x` meets an entry of column `j` of B that holds `y`. -/
def Meets (a : SparseMatrix L) (b : SparseMatrix R) (i j : Nat) (x : L) (y : R) : Prop :=
  ∃ k p q, a.pattern.Stores p i k ∧ a.values[p]? = some x ∧ b.pattern.Stores q k j ∧
    b.values[q]? = some y

theorem Multipliable.mem_terms_iff {a : SparseMatrix L} {b : SparseMatrix R} {c : Pattern}
    (h : Multipliable a b c) {j : Nat} {term : Term L R} :
    term ∈ terms a b j ↔ Meets a b term.row j term.left term.right := by
  simp only [mem_terms, SparseMatrix.mem_entriesAt h.wellFormed.a h.a_values,
    SparseMatrix.mem_entriesAt h.wellFormed.b h.b_values, Meets]
  constructor
  · rintro ⟨k, ⟨q, hq, hy⟩, p, hp, hx⟩
    exact ⟨k, p, q, hp, hx, hq, hy⟩
  · rintro ⟨k, p, q, hp, hx, hq, hy⟩
    exact ⟨k, ⟨q, hq, hy⟩, p, hp, hx⟩

section SameType

variable {α : Type} [DecidableEq α] {s : SemiringOps α α α} {a b : SparseMatrix α} {c : Pattern}

/-- In the columns of the pattern, every product with the identity can be computed, and accumulating it
changes none of the given values. -/
def Harmless (s : SemiringOps α α α) (a b : SparseMatrix α) (c : Pattern) (values : Array α) : Prop :=
  ∀ slot < c.slotCount, ∀ j, c.vectorId slot = .ok j → ∀ i x y, Meets a b i j x y →
    x = s.identity ∨ y = s.identity → ∃ t, s.multiply x y = .ok t ∧
      ∀ p r, c.Stores p i j → values[p]? = some r → s.accumulate r t = .ok r

/-- Neither element of the product is the identity, so a deletion of the identity keeps it. -/
abbrev keeps (s : SemiringOps α α α) (term : Term α α) : Bool :=
  decide (term.left ≠ s.identity) && decide (term.right ≠ s.identity)

theorem keeps_eq_false_iff {term : Term α α} :
    keeps s term = false ↔ term.left = s.identity ∨ term.right = s.identity := by
  simp [keeps, or_iff_not_imp_left]

theorem Multipliable.values_without_eq_ok_iff (h : Multipliable a b c) {result : Array α} :
    Reference.values s (a.without s.identity) (b.without s.identity) c = .ok result ↔
      result.size = c.entryCount ∧ ∀ slot < c.slotCount, ∃ column,
        ((terms a b (c.slotColumn slot)).filter (keeps s)).foldlM (foldTerm s) (fun _ => s.identity) =
          .ok column ∧
        ∀ p ∈ (c.slotSpan slot).positions, result[p]? = some (column (c.rowAt p)) := by
  have hterms : ∀ j, terms (a.without s.identity) (b.without s.identity) j =
      (terms a b j).filter (keeps s) := terms_filter h.wellFormed.a h.wellFormed.b _ _
  have hreduced : Multipliable (a.without s.identity) (b.without s.identity) c := h.filter _ _
  simp only [hreduced.values_eq_ok_iff, hterms]

/-- Where the identity annihilates, deleting it makes no difference. -/
theorem SemiringOps.Annihilates.values_without (hs : s.Annihilates) (h : Multipliable a b c)
    {result : Array α} :
    Reference.values s (a.without s.identity) (b.without s.identity) c = .ok result ↔
      Reference.values s a b c = .ok result := by
  have hfold : ∀ j, ((terms a b j).filter (keeps s)).foldlM (foldTerm s) (fun _ => s.identity) =
      (terms a b j).foldlM (foldTerm s) fun _ => s.identity := fun j =>
    foldlM_filter_of_inert
      (fun term _ hterm column => hs.foldTerm_eq (keeps_eq_false_iff.1 hterm) column) _
  simp only [h.values_without_eq_ok_iff, h.values_eq_ok_iff, hfold]

/-- Where accumulating selects, deleting the identity makes no difference exactly if the products with it
are harmless. -/
theorem SemiringOps.Selects.values_without {rank : α → Int} (hs : s.Selects rank)
    (h : Multipliable a b c) {result : Array α}
    (hreduced : Reference.values s (a.without s.identity) (b.without s.identity) c = .ok result) :
    Reference.values s a b c = .ok result ↔ Harmless s a b c result := by
  have wf := h.wellFormed.c
  obtain ⟨hsize, hcolumns⟩ := h.values_without_eq_ok_iff.1 hreduced
  rw [h.values_eq_ok_iff]
  refine (and_iff_right hsize).trans (forall₂_congr fun slot hslot => ?_)
  obtain ⟨last, hlast, hvalues⟩ := hcolumns slot hslot
  have hrows : ∀ column : Nat → α,
      (∀ p ∈ (c.slotSpan slot).positions, result[p]? = some (column (c.rowAt p))) ↔
        ∀ i, (∃ p ∈ (c.slotSpan slot).positions, c.rowAt p = i) → column i = last i := by
    intro column
    constructor
    · rintro hcolumn i ⟨p, hp, rfl⟩
      have hsame := hvalues p hp
      rw [hcolumn p hp, Option.some.injEq] at hsame
      exact hsame
    · intro hsame p hp
      rw [hvalues p hp, hsame _ ⟨p, hp, rfl⟩]
  have hkept : ∀ i t, ((∃ p ∈ (c.slotSpan slot).positions, c.rowAt p = i) → rank (last i) ≤ rank t) ↔
      ∀ p r, c.Stores p i (c.slotColumn slot) → result[p]? = some r → s.accumulate r t = .ok r := by
    intro i t
    simp only [wf.stores_iff, wf.columnSpan_slotColumn hslot, hs.accumulate_eq_left_iff]
    constructor
    · rintro hle p r ⟨hp, rfl⟩ hr
      rw [hvalues p hp, Option.some.injEq] at hr
      exact hr ▸ hle ⟨p, hp, rfl⟩
    · rintro hle ⟨p, hp, rfl⟩
      exact hle p _ ⟨hp, rfl⟩ (hvalues p hp)
  simp only [hrows, hs.foldlM_filter_iff hlast, wf.vectorId_eq hslot, Except.ok.injEq,
    keeps_eq_false_iff, h.mem_terms_iff, hkept]
  constructor
  · rintro hterms j rfl i x y hmeets hidentity
    exact hterms ⟨i, x, y⟩ hmeets hidentity
  · intro hmeets term hterm hidentity
    exact hmeets _ rfl _ _ _ hterm hidentity

end SameType

/-! ### The catalog over whole numbers -/

section Catalog

variable {k : IntKind}

theorem annihilates_plusTimes :
    (SemiringOps.plusTimes : SemiringOps (Whole k) (Whole k) (Whole k)).Annihilates where
  left y := by
    show Whole.checked .multiply (0 * y.val) = .ok (Numeric.zero : Whole k)
    rw [Int.zero_mul]
    exact Whole.checked_val .multiply (Numeric.zero : Whole k)
  right x := by
    show Whole.checked .multiply (x.val * 0) = .ok (Numeric.zero : Whole k)
    rw [Int.mul_zero]
    exact Whole.checked_val .multiply (Numeric.zero : Whole k)
  neutral z := by
    show Whole.checked .add (z.val + 0) = .ok z
    rw [Int.add_zero]
    exact Whole.checked_val .add z

theorem less_bottom (x : Whole k) : Numeric.less x Numeric.bottom = false :=
  decide_eq_false (Int.not_lt.2 x.least_le)

theorem annihilates_maxMin :
    (SemiringOps.maxMin : SemiringOps (Whole k) (Whole k) (Whole k)).Annihilates where
  left y := by
    show Except.ok (if Numeric.less y Numeric.bottom then y else Numeric.bottom) = .ok Numeric.bottom
    rw [less_bottom]
    rfl
  right x := by
    show Except.ok (if Numeric.less Numeric.bottom x then Numeric.bottom else x) = .ok Numeric.bottom
    have hless : Numeric.less Numeric.bottom x = decide (k.least < x.val) := rfl
    rw [hless]
    by_cases hx : k.least < x.val
    · rw [if_pos (decide_eq_true hx)]
    · rw [if_neg (by simpa using hx)]
      exact congrArg _ (Whole.ext (Int.le_antisymm (Int.not_lt.1 hx) x.least_le))
  neutral z := by
    show Except.ok (if Numeric.less z Numeric.bottom then Numeric.bottom else z) = .ok z
    rw [less_bottom]
    rfl

theorem annihilates_lorLand : SemiringOps.lorLand.Annihilates where
  left _ := rfl
  right x := congrArg _ (Bool.and_false x)
  neutral z := congrArg _ (Bool.or_false z)

theorem selects_minPlus :
    (SemiringOps.minPlus : SemiringOps (Whole k) (Whole k) (Whole k)).Selects Whole.val where
  injective _ _ h := Whole.ext h
  accumulate x y := by
    refine ⟨_, rfl, ?_⟩
    have hless : Numeric.less y x = decide (y.val < x.val) := rfl
    rw [Numeric.least, hless]
    by_cases h : y.val < x.val
    · rw [if_pos (decide_eq_true h)]
      omega
    · rw [if_neg (by simpa using h)]
      omega

theorem selects_maxPlus :
    (SemiringOps.maxPlus : SemiringOps (Whole k) (Whole k) (Whole k)).Selects fun x => -x.val where
  injective _ _ h := Whole.ext (Int.neg_inj.1 h)
  accumulate x y := by
    refine ⟨_, rfl, ?_⟩
    have hless : Numeric.less x y = decide (x.val < y.val) := rfl
    rw [Numeric.greatest, hless]
    by_cases h : x.val < y.val
    · rw [if_pos (decide_eq_true h)]
      omega
    · rw [if_neg (by simpa using h)]
      omega

end Catalog

/-- Deleting stored identities does not change a product that succeeds without them: for sums of products,
widest paths and reachability in every case, and for shortest and longest paths exactly if the products with
an identity can be computed and beat none of the values. -/
theorem values_without_identity :
    (∀ (k : IntKind) (s : SemiringOps (Whole k) (Whole k) (Whole k)), s = .plusTimes ∨ s = .maxMin →
      ∀ a b c, Multipliable a b c → ∀ reduced,
        Reference.values s (a.without s.identity) (b.without s.identity) c = .ok reduced →
        Reference.values s a b c = .ok reduced) ∧
    (∀ a b c, Multipliable a b c → ∀ reduced,
        Reference.values .lorLand (a.without false) (b.without false) c = .ok reduced →
        Reference.values .lorLand a b c = .ok reduced) ∧
    ∀ (k : IntKind) (s : SemiringOps (Whole k) (Whole k) (Whole k)), s = .minPlus ∨ s = .maxPlus →
      ∀ a b c, Multipliable a b c → ∀ reduced,
        Reference.values s (a.without s.identity) (b.without s.identity) c = .ok reduced →
        (Reference.values s a b c = .ok reduced ↔ Harmless s a b c reduced) := by
  refine ⟨?_, ?_, ?_⟩
  · intro k s hs a b c h reduced hreduced
    rcases hs with rfl | rfl
    · exact (annihilates_plusTimes.values_without h).1 hreduced
    · exact (annihilates_maxMin.values_without h).1 hreduced
  · intro a b c h reduced hreduced
    exact (annihilates_lorLand.values_without h).1 hreduced
  · intro k s hs a b c h reduced hreduced
    rcases hs with rfl | rfl
    · exact selects_minPlus.values_without h hreduced
    · exact selects_maxPlus.values_without h hreduced

namespace Sample

def cell : Pattern := ⟨1, 1, #[0, 1], none, #[0], true⟩

def rowPair : Pattern := ⟨1, 2, #[0, 1, 2], none, #[0, 0], true⟩

def columnPair : Pattern := ⟨2, 1, #[0, 2], none, #[0, 1], true⟩

def wholes (k : IntKind) (pattern : Pattern) (values : List Int) : SparseMatrix (Whole k) :=
  ⟨pattern, (values.map (Whole.wrap k)).toArray⟩

theorem multipliable_cell {k : IntKind} (x y : Int) :
    Multipliable (wholes k cell [x]) (wholes k cell [y]) cell where
  a_check := rfl
  b_check := rfl
  c_check := rfl
  a_values := rfl
  b_values := rfl
  rows := rfl
  columns := rfl
  inner := rfl

theorem multipliable_rowPair {k : IntKind} (x x' y y' : Int) :
    Multipliable (wholes k rowPair [x, x']) (wholes k columnPair [y, y']) cell where
  a_check := rfl
  b_check := rfl
  c_check := rfl
  a_values := rfl
  b_values := rfl
  rows := rfl
  columns := rfl
  inner := rfl

end Sample

/-- In eight bits without sign, 255 and 0 are the identities of shortest and longest paths. The sum 255 + 1
leaves the range, and 0 + 5 is more than 0. -/
theorem values_without_identity_fails :
    Multipliable (Sample.wholes Nat8Kind Sample.cell [255]) (Sample.wholes Nat8Kind Sample.cell [1])
        Sample.cell ∧
      Reference.values .minPlus ((Sample.wholes Nat8Kind Sample.cell [255]).without Numeric.top)
        ((Sample.wholes Nat8Kind Sample.cell [1]).without Numeric.top) Sample.cell =
        .ok #[Whole.wrap Nat8Kind 255] ∧
      Reference.values .minPlus (Sample.wholes Nat8Kind Sample.cell [255])
        (Sample.wholes Nat8Kind Sample.cell [1]) Sample.cell = .error (.overflow .add) ∧
    Multipliable (Sample.wholes Nat8Kind Sample.cell [0]) (Sample.wholes Nat8Kind Sample.cell [5])
        Sample.cell ∧
      Reference.values .maxPlus ((Sample.wholes Nat8Kind Sample.cell [0]).without Numeric.bottom)
        ((Sample.wholes Nat8Kind Sample.cell [5]).without Numeric.bottom) Sample.cell =
        .ok #[Whole.wrap Nat8Kind 0] ∧
      Reference.values .maxPlus (Sample.wholes Nat8Kind Sample.cell [0])
        (Sample.wholes Nat8Kind Sample.cell [5]) Sample.cell = .ok #[Whole.wrap Nat8Kind 5] :=
  ⟨Sample.multipliable_cell 255 1, by cbv, by cbv, Sample.multipliable_cell 0 5, by cbv, by cbv⟩

/-- With sign, 127 is the identity of shortest paths: 127 - 120 is no less than 3 + 4, and it is harmless. -/
theorem values_without_identity_int8 :
    Reference.values .plusTimes (Sample.wholes Int8Kind Sample.rowPair [0, 3])
        (Sample.wholes Int8Kind Sample.columnPair [100, 4]) Sample.cell = .ok #[Whole.wrap Int8Kind 12] ∧
      Harmless .minPlus (Sample.wholes Int8Kind Sample.rowPair [127, 3])
        (Sample.wholes Int8Kind Sample.columnPair [-120, 4]) Sample.cell #[Whole.wrap Int8Kind 7] := by
  obtain ⟨hannihilates, -, hselects⟩ := values_without_identity
  constructor
  · refine hannihilates Int8Kind _ (Or.inl rfl) _ _ _ (Sample.multipliable_rowPair 0 3 100 4) _ ?_
    cbv
  · refine (hselects Int8Kind _ (Or.inl rfl) _ _ _ (Sample.multipliable_rowPair 127 3 (-120) 4) _ ?_).1 ?_
    · cbv
    · cbv

end SparseProduct
