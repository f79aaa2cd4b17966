import SparseProduct.Proofs.Terms
import SparseProduct.Reference

/-!
# What the reference product computes

The dense column of the reference and the column of A · B are folded in lockstep. So the reference gives,
at every entry of a pattern, the value of its row and column, and fails where the column does.
-/

namespace SparseProduct

variable {L R O : Type}

namespace DenseColumn

/-- The dense column holds the given value in each of its rows. -/
structure Shows (column : DenseColumn O) (nRows : Nat) (f : Nat → O) : Prop where
  values : column.values.size = nRows
  touched : column.touched.size = nRows
  getElem : ∀ i < nRows, column.values[i]? = some (f i)

theorem shows_untouched (s : SemiringOps L R O) (nRows : Nat) :
    (untouched s nRows).Shows nRows fun _ => s.identity where
  values := Array.size_replicate
  touched := Array.size_replicate
  getElem i hi := by rw [untouched, Array.getElem?_replicate, if_pos hi]

variable {s : SemiringOps L R O}

def addTerm (s : SemiringOps L R O) (dense : DenseColumn O) (term : Term L R) :
    Result (DenseColumn O) :=
  addEntry s term.right dense (term.row, term.left)

theorem addTerm_related {nRows : Nat} {term : Term L R} (hrow : term.row < nRows)
    {dense : DenseColumn O} {column : Nat → O} (h : dense.Shows nRows column) :
    Result.Related (fun dense column => dense.Shows nRows column) (addTerm s dense term)
      (foldTerm s column term) := by
  have hvalue : fetch dense.values term.row = .ok (column term.row) :=
    fetch_eq_ok.2 (h.getElem _ hrow)
  rw [addTerm, addEntry, foldTerm, SemiringOps.fold, hvalue]
  cases s.multiply term.left term.right with
  | error e => exact .error e
  | ok t =>
    rw [Result.ok_bind, Result.ok_bind, Result.ok_bind]
    cases s.accumulate (column term.row) t with
    | error e => exact .error e
    | ok value =>
      have hrow' : term.row < dense.values.size := h.values.symm ▸ hrow
      have htouched : term.row < dense.touched.size := h.touched.symm ▸ hrow
      rw [Result.ok_bind, Result.ok_bind, store_of_lt hrow', store_of_lt htouched]
      refine .ok ⟨by rw [Array.size_set, h.values], by rw [Array.size_set, h.touched],
        fun i hi => ?_⟩
      by_cases heq : i = term.row
      · subst heq
        rw [Function.update_self]
        exact Array.getElem?_set_self hrow'
      · rw [Function.update_of_ne heq, ← h.getElem i hi]
        exact Array.getElem?_set_ne hrow' (Ne.symm heq)

section Factors

variable {a : SparseMatrix L} {b : SparseMatrix R} (h : Factors a b)
include h

theorem foldlM_addColumn {rights : List (Nat × R)} (hrights : ∀ right ∈ rights, right.1 < a.pattern.nCols)
    (dense : DenseColumn O) :
    rights.foldlM (addColumn s a) dense =
      (rights.flatMap fun right => (a.entriesAt right.1).map fun left =>
        (⟨left.1, left.2, right.2⟩ : Term L R)).foldlM (addTerm s) dense := by
  induction rights generalizing dense with
  | nil => rfl
  | cons right rights ih =>
    have hright := SparseMatrix.column_eq h.a_wellFormed h.a_values (hrights right List.mem_cons_self)
    rw [List.foldlM_cons, List.flatMap_cons, List.foldlM_append, List.foldlM_map, addColumn, hright]
    exact congrArg _ (funext fun dense => ih (fun r hr => hrights r (List.mem_cons_of_mem _ hr)) dense)

theorem product_eq_terms {j : Nat} (hj : j < b.pattern.nCols) :
    product s a b j = (terms a b j).foldlM (addTerm s) (untouched s a.pattern.nRows) := by
  rw [product, SparseMatrix.column_eq h.b_wellFormed h.b_values hj, Result.ok_bind, terms]
  exact foldlM_addColumn h (fun right hright => h.inner_lt hright) _

/-- The dense column of a product and the values of all rows are computed in lockstep. -/
theorem product_related {j : Nat} (hj : j < b.pattern.nCols) :
    Result.Related (fun dense column => dense.Shows a.pattern.nRows column) (product s a b j)
      ((terms a b j).foldlM (foldTerm s) fun _ => s.identity) := by
  rw [product_eq_terms h hj]
  refine Result.Related.foldlM (Q := fun term other => term = other ∧ term.row < a.pattern.nRows)
    ?_ (List.forall₂_same.2 fun term hterm => ⟨rfl, h.row_lt hterm⟩) (shows_untouched s _)
  rintro dense column hshows term _ ⟨rfl, hrow⟩
  exact addTerm_related hrow hshows

end Factors

theorem product_related_columnValues {op : Operands} (wf : op.WellFormed) {left : Array L}
    {right : Array R} (hleft : left.size = op.a.entryCount) (hright : right.size = op.b.entryCount)
    {j : Nat} (hj : j < op.b.nCols) :
    Result.Related (fun dense column => dense.Shows op.a.nRows column)
      (product s ⟨op.a, left⟩ ⟨op.b, right⟩ j) (op.columnValues s left right j) := by
  have h : Factors ⟨op.a, left⟩ ⟨op.b, right⟩ :=
    ⟨Pattern.check_eq_ok_iff.2 wf.a, Pattern.check_eq_ok_iff.2 wf.b, hleft, hright, wf.inner⟩
  rw [columnValues_eq_terms wf hleft hright]
  exact product_related h hj

end DenseColumn

namespace Reference

variable {op : Operands} {s : SemiringOps L R O} {left : Array L} {right : Array R}

theorem push_entries {c : Pattern} {dense : DenseColumn O} {nRows : Nat} {column : Nat → O}
    (h : dense.Shows nRows column) {entries : List Nat}
    (hentries : ∀ p ∈ entries, p < c.entryCount ∧ c.rowAt p < nRows) (values : Array O) :
    entries.foldlM (fun values p => do return values.push (← fetch dense.values (← c.row p))) values =
      (.ok (values ++ (entries.map fun p => column (c.rowAt p)).toArray) : Result (Array O)) := by
  induction entries generalizing values with
  | nil => rw [List.map_nil, Array.append_empty]; rfl
  | cons p entries ih =>
    obtain ⟨hp, hrow⟩ := hentries p List.mem_cons_self
    have hvalue : fetch dense.values (c.rowAt p) = .ok (column (c.rowAt p)) :=
      fetch_eq_ok.2 (h.getElem _ hrow)
    rw [List.foldlM_cons, Pattern.row_eq hp, Result.ok_bind, hvalue, Result.ok_bind]
    refine (ih (fun p hp => hentries p (List.mem_cons_of_mem _ hp)) _).trans ?_
    rw [List.map_cons, ← List.singleton_append, ← List.append_toArray, ← Array.append_assoc]
    rfl

theorem pushValues_eq (wf : op.WellFormed) (hleft : left.size = op.a.entryCount)
    (hright : right.size = op.b.entryCount) {slot : Nat} (hslot : slot < op.c.slotCount)
    {column : Nat → O}
    (hcolumn : op.columnValues s left right (op.c.slotColumn slot) = .ok column) (values : Array O) :
    pushValues s ⟨op.a, left⟩ ⟨op.b, right⟩ op.c values slot =
      .ok (values ++ ((op.c.slotSpan slot).positions.map fun p => column (op.c.rowAt p)).toArray) := by
  have hj : op.c.slotColumn slot < op.b.nCols := wf.columns ▸ wf.c.slotColumn_lt hslot
  obtain ⟨dense, hdense, hshows⟩ :=
    (DenseColumn.product_related_columnValues wf hleft hright hj).exists_ok hcolumn
  rw [pushValues, wf.c.vectorId_eq hslot, Result.ok_bind, hdense, Result.ok_bind,
    Pattern.vectorRange_eq hslot, Result.ok_bind, Span.foldM_eq]
  refine push_entries hshows (fun p hp => ⟨wf.c.lt_of_mem_slotSpan hslot hp, ?_⟩) values
  rw [← wf.c.columnSpan_slotColumn hslot] at hp
  exact wf.rows ▸ wf.c.rowAt_lt hp

theorem push_slots (wf : op.WellFormed) (hleft : left.size = op.a.entryCount)
    (hright : right.size = op.b.entryCount) {value : Nat → Nat → O} {n : Nat} (hn : n ≤ op.c.slotCount)
    (hvalue : ∀ slot < n, op.columnValues s left right (op.c.slotColumn slot) =
      .ok (value (op.c.slotColumn slot))) :
    ∃ result, (List.range' 0 n).foldlM (pushValues s ⟨op.a, left⟩ ⟨op.b, right⟩ op.c) #[] = .ok result ∧
      result.size = op.c.colPtr[n]?.getD 0 ∧ ∀ slot < n, ∀ p ∈ (op.c.slotSpan slot).positions,
        result[p]? = some (value (op.c.slotColumn slot) (op.c.rowAt p)) := by
  induction n with
  | zero => exact ⟨#[], rfl, by rw [wf.c.first_pointer]; rfl, nofun⟩
  | succ n ih =>
    obtain ⟨result, hresult, hsize, hvalues⟩ := ih (by omega) fun slot hslot => hvalue slot (by omega)
    have hle : (op.c.slotSpan n).start ≤ (op.c.slotSpan n).stop := wf.c.slotSpan_le (by omega)
    have hstart : (op.c.slotSpan n).start = result.size := hsize.symm
    refine ⟨result ++ ((op.c.slotSpan n).positions.map fun p =>
      value (op.c.slotColumn n) (op.c.rowAt p)).toArray, ?_, ?_, ?_⟩
    · rw [List.range'_1_concat, Nat.zero_add, List.foldlM_append, hresult, Result.ok_bind,
        List.foldlM_cons, pushValues_eq wf hleft hright hn (hvalue n (Nat.lt_succ_self n))]
      rfl
    · have hlength := Kernel.length_positions (op.c.slotSpan n)
      rw [Span.length, hstart] at hlength
      rw [hstart] at hle
      simp only [Array.size_append, List.size_toArray, List.length_map, hlength]
      exact Nat.add_sub_cancel' hle
    · intro slot hslot p hp
      have hin := Span.mem_positions.1 hp
      rcases Nat.lt_or_eq_of_le (Nat.le_of_lt_succ hslot) with hlt | rfl
      · have := wf.c.slotSpan_before hlt hn
        rw [Array.getElem?_append_left (by omega)]
        exact hvalues slot hlt p hp
      · rw [Array.getElem?_append_right (by omega), List.getElem?_toArray, List.getElem?_map,
          Span.positions, List.getElem?_range' (by rw [Span.length]; omega), Option.map_some, ← hstart,
          Nat.one_mul, Nat.add_sub_cancel' hin.1]

theorem values_eq (wf : op.WellFormed) (hleft : left.size = op.a.entryCount)
    (hright : right.size = op.b.entryCount) {value : Nat → Nat → O}
    (hvalue : ∀ slot < op.c.slotCount, op.columnValues s left right (op.c.slotColumn slot) =
      .ok (value (op.c.slotColumn slot))) :
    ∃ result, values s ⟨op.a, left⟩ ⟨op.b, right⟩ op.c = .ok result ∧
      result.size = op.c.entryCount ∧ ∀ slot < op.c.slotCount,
        ∀ p ∈ (op.c.slotSpan slot).positions,
          result[p]? = some (value (op.c.slotColumn slot) (op.c.rowAt p)) := by
  obtain ⟨result, hresult, hsize, hvalues⟩ := push_slots wf hleft hright (Nat.le_refl _) hvalue
  refine ⟨result, ?_, hsize.trans wf.c.last_pointer_eq, hvalues⟩
  rw [values, if_neg (Decidable.not_not.2 wf.rows), if_neg (Decidable.not_not.2 wf.columns),
    wf.c.vectorCount_eq, Result.ok_bind, Span.foldM_eq]
  exact hresult

theorem values_error (wf : op.WellFormed) (hleft : left.size = op.a.entryCount)
    (hright : right.size = op.b.entryCount) {n : Nat} (hn : n < op.c.slotCount)
    {value : Nat → Nat → O}
    (hvalue : ∀ slot < n, op.columnValues s left right (op.c.slotColumn slot) =
      .ok (value (op.c.slotColumn slot))) {e : Failure}
    (herror : op.columnValues s left right (op.c.slotColumn n) = .error e) :
    values s ⟨op.a, left⟩ ⟨op.b, right⟩ op.c = .error e := by
  obtain ⟨result, hresult, -⟩ := push_slots wf hleft hright (Nat.le_of_lt hn) hvalue
  have hproduct := (DenseColumn.product_related_columnValues wf hleft hright
    (wf.columns ▸ wf.c.slotColumn_lt hn)).eq_error herror
  have hpush : pushValues s ⟨op.a, left⟩ ⟨op.b, right⟩ op.c result n = .error e := by
    rw [pushValues, wf.c.vectorId_eq hn, Result.ok_bind, hproduct]
    rfl
  obtain ⟨m, hm⟩ : ∃ m, op.c.slotCount = n + (m + 1) := ⟨op.c.slotCount - n - 1, by omega⟩
  have hsplit : (Span.mk 0 op.c.slotCount).positions = List.range' 0 n ++ n :: List.range' (n + 1) m := by
    rw [Span.positions, Span.length, Nat.sub_zero, hm, ← List.range'_append_1, Nat.zero_add,
      List.range'_succ]
  rw [values, if_neg (Decidable.not_not.2 wf.rows), if_neg (Decidable.not_not.2 wf.columns),
    wf.c.vectorCount_eq, Result.ok_bind, Span.foldM_eq, hsplit, List.foldlM_append, hresult,
    Result.ok_bind, List.foldlM_cons, hpush]
  rfl

theorem columnValues_of_values (wf : op.WellFormed) (hleft : left.size = op.a.entryCount)
    (hright : right.size = op.b.entryCount) {result : Array O}
    (h : values s ⟨op.a, left⟩ ⟨op.b, right⟩ op.c = .ok result) {slot : Nat}
    (hslot : slot < op.c.slotCount) : op.columnValues s left right (op.c.slotColumn slot) =
      .ok (op.columnAt s left right (op.c.slotColumn slot)) := by
  induction slot using Nat.strongRecOn with
  | _ slot ih =>
    refine Operands.columnValues_of_not_error fun e he => ?_
    have herror := values_error wf hleft hright hslot
      (fun earlier hlt => ih earlier hlt (Nat.lt_trans hlt hslot)) he
    rw [h] at herror
    cases herror

/-- The reference succeeds exactly if the columns of the pattern can be computed, with their values at the
entries. -/
theorem values_eq_ok_iff (wf : op.WellFormed) (hleft : left.size = op.a.entryCount)
    (hright : right.size = op.b.entryCount) {result : Array O} :
    values s ⟨op.a, left⟩ ⟨op.b, right⟩ op.c = .ok result ↔ result.size = op.c.entryCount ∧
      ∀ slot < op.c.slotCount, ∃ column,
        op.columnValues s left right (op.c.slotColumn slot) = .ok column ∧
        ∀ p ∈ (op.c.slotSpan slot).positions, result[p]? = some (column (op.c.rowAt p)) := by
  constructor
  · intro h
    have hall : ∀ slot < op.c.slotCount, op.columnValues s left right (op.c.slotColumn slot) = _ :=
      fun slot hslot => columnValues_of_values wf hleft hright h hslot
    obtain ⟨result', hresult', hsize, hvalues⟩ := values_eq wf hleft hright hall
    rw [h] at hresult'
    cases hresult'
    exact ⟨hsize, fun slot hslot => ⟨_, hall slot hslot, hvalues slot hslot⟩⟩
  · rintro ⟨hsize, hcolumns⟩
    have hall : ∀ slot < op.c.slotCount, op.columnValues s left right (op.c.slotColumn slot) =
        .ok (op.columnAt s left right (op.c.slotColumn slot)) := by
      intro slot hslot
      obtain ⟨column, hcolumn, -⟩ := hcolumns slot hslot
      rw [Operands.columnAt_of_ok hcolumn, hcolumn]
    obtain ⟨result', hresult', hsize', hvalues'⟩ := values_eq wf hleft hright hall
    rw [hresult']
    refine congrArg _ (Array.ext_getElem? fun p => ?_)
    by_cases hp : p < op.c.entryCount
    · obtain ⟨slot, hslot, hmem⟩ := wf.c.exists_slot hp
      obtain ⟨column, hcolumn, hvalues⟩ := hcolumns slot hslot
      rw [hvalues' slot hslot p hmem, hvalues p hmem, Operands.columnAt_of_ok hcolumn]
    · rw [Array.getElem?_eq_none (by omega), Array.getElem?_eq_none (by omega)]

end Reference

end SparseProduct
