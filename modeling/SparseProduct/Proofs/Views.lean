import Mathlib
import SparseProduct.Proofs.Entries
import SparseProduct.Proofs.Pattern.RoundTrip

/-!
# Reading a matrix

A matrix is read by column, as triplets, or as a dense array. Slots without entries add nothing to the
triplets and columns without slots have none, so walking the slots lists the columns one after the other.
No two triplets share a position, so a dense array keeps what each of them puts there. All of this depends
on the entries of the columns and not on the storage.
-/

namespace SparseProduct

/-! ### Parts of a list -/

section Lists

variable {α β : Type}

theorem take_drop_eq_filterMap (xs : List α) (start count : Nat) :
    (xs.drop start).take count = (List.range' start count).filterMap (xs[·]?) := by
  induction count generalizing start with
  | zero => rw [List.take_zero, List.range'_zero, List.filterMap_nil]
  | succ count ih =>
    rw [List.range'_succ, List.filterMap_cons, ← ih (start + 1)]
    cases h : xs[start]? with
    | none =>
      have hlength := List.getElem?_eq_none_iff.1 h
      rw [List.drop_eq_nil_of_le hlength, List.drop_eq_nil_of_le (Nat.le_succ_of_le hlength),
        List.take_nil, List.take_nil]
    | some x =>
      obtain ⟨hlt, rfl⟩ := List.getElem?_eq_some_iff.1 h
      rw [List.drop_eq_getElem_cons hlt, List.take_succ_cons]

theorem flatMap_filter {xs : List α} {keep : α → Bool} {f : α → List β}
    (h : ∀ x ∈ xs, keep x = false → f x = []) : (xs.filter keep).flatMap f = xs.flatMap f := by
  induction xs with
  | nil => rfl
  | cons x xs ih =>
    have hrest := ih fun y hy => h y (List.mem_cons_of_mem _ hy)
    rw [List.filter_cons, List.flatMap_cons]
    split
    · rw [List.flatMap_cons, hrest]
    · next hkeep =>
      rw [h x List.mem_cons_self (Bool.eq_false_iff.2 hkeep), List.nil_append, hrest]

end Lists

namespace SparseMatrix

variable {α : Type}

def tripletsAt (m : SparseMatrix α) (j : Nat) : List (Nat × Nat × α) :=
  (m.entriesAt j).map fun entry => (entry.1, j, entry.2)

/-- One triplet comes before another: its column is smaller, or it is the same and its row is smaller. -/
def Precedes (s t : Nat × Nat × α) : Prop := s.2.1 < t.2.1 ∨ s.2.1 = t.2.1 ∧ s.1 < t.1

theorem entriesAt_eq_filterMap (m : SparseMatrix α) (j : Nat) :
    m.entriesAt j = (m.pattern.columnSpan j).positions.filterMap (m.stored[·]?) := by
  rw [entriesAt, List.drop_take, take_drop_eq_filterMap]
  rfl

theorem entriesAt_of_sameEntries {m : SparseMatrix α} {q : Pattern} (h : m.pattern.SameEntries q) :
    entriesAt ⟨q, m.values⟩ = m.entriesAt := by
  funext j
  rw [entriesAt_eq_filterMap, entriesAt_eq_filterMap, h.positions, stored, stored, h.rowIdx]

section WellFormed

variable {m : SparseMatrix α} (wf : m.pattern.WellFormed)
  (hvalues : m.values.size = m.pattern.entryCount)

theorem mem_tripletsAt {j : Nat} {t : Nat × Nat × α} :
    t ∈ m.tripletsAt j ↔ t.2.1 = j ∧ (t.1, t.2.2) ∈ m.entriesAt j := by
  obtain ⟨i, k, v⟩ := t
  simp only [tripletsAt, List.mem_map, Prod.mk.injEq]
  constructor
  · rintro ⟨entry, hentry, rfl, rfl, rfl⟩
    exact ⟨rfl, hentry⟩
  · rintro ⟨rfl, hentry⟩
    exact ⟨_, hentry, rfl, rfl, rfl⟩

include wf in
theorem entriesAt_eq_nil {j : Nat} (h : ¬ m.pattern.Occupied j) : m.entriesAt j = [] := by
  rw [entriesAt_eq_filterMap, wf.positions_of_not_occupied h, List.filterMap_nil]

section Slots

include wf

theorem flatMap_slots : (List.range m.pattern.slotCount).flatMap
      (fun slot => m.tripletsAt (m.pattern.slotColumn slot)) =
    (List.range m.pattern.nCols).flatMap m.tripletsAt := by
  have hnil : ∀ j, ¬ m.pattern.Occupied j → m.tripletsAt j = [] := by
    intro j hj
    rw [tripletsAt, entriesAt_eq_nil wf hj, List.map_nil]
  have hcolumns : m.pattern.fullSlots.map m.pattern.slotColumn =
      (List.range m.pattern.nCols).filter (m.pattern.Occupied ·) := by
    refine Pattern.map_fullSlots wf (List.pairwise_lt_range.filter _) fun j => ?_
    rw [List.mem_filter, List.mem_range, decide_eq_true_eq]
    exact ⟨And.right, fun hj => ⟨wf.lt_of_occupied hj, hj⟩⟩
  calc (List.range m.pattern.slotCount).flatMap (fun slot => m.tripletsAt (m.pattern.slotColumn slot))
    _ = m.pattern.fullSlots.flatMap fun slot => m.tripletsAt (m.pattern.slotColumn slot) := by
        refine (flatMap_filter fun slot hslot hempty => hnil _ fun hoccupied => ?_).symm
        have hfull := (Pattern.mem_fullSlots wf).2 ⟨List.mem_range.1 hslot, hoccupied⟩
        rw [(List.mem_filter.1 hfull).2] at hempty
        cases hempty
    _ = (m.pattern.fullSlots.map m.pattern.slotColumn).flatMap m.tripletsAt := by
        rw [List.flatMap_map]
    _ = (List.range m.pattern.nCols).flatMap m.tripletsAt := by
        rw [hcolumns]
        exact flatMap_filter fun j _ hj => hnil j (of_decide_eq_false hj)

end Slots

/-! ### Triplets -/

include hvalues

theorem pushTriplets_eq (j : Nat) {positions : List Nat} {entries : List (Nat × α)}
    (h : List.Forall₂ (fun p entry => m.pattern.rowAt p = entry.1 ∧ m.values[p]? = some entry.2)
      positions entries) (triplets : Array (Nat × Nat × α)) :
    positions.foldlM (m.pushTriplet j) triplets =
      .ok (triplets ++ (entries.map fun entry => (entry.1, j, entry.2)).toArray) := by
  induction h generalizing triplets with
  | nil => exact congrArg _ (Array.append_empty).symm
  | @cons p entry positions entries hentry _ ih =>
    obtain ⟨hrow, hvalue⟩ := hentry
    have hlt : p < m.pattern.entryCount := hvalues ▸ (Array.getElem?_eq_some_iff.1 hvalue).1
    have hpush : m.pushTriplet j triplets p = .ok (triplets.push (entry.1, j, entry.2)) := by
      rw [pushTriplet, Pattern.row_eq hlt, Result.ok_bind, value, fetch_eq_ok.2 hvalue, Result.ok_bind,
        hrow]
      rfl
    rw [List.foldlM_cons, hpush, Result.ok_bind, ih, List.map_cons]
    simp

include wf

theorem pushVectors_eq {slots : List Nat} (hslots : ∀ slot ∈ slots, slot < m.pattern.slotCount)
    (triplets : Array (Nat × Nat × α)) :
    slots.foldlM m.pushVector triplets =
      .ok (triplets ++ (slots.flatMap fun slot => m.tripletsAt (m.pattern.slotColumn slot)).toArray) := by
  induction slots generalizing triplets with
  | nil => exact congrArg _ (Array.append_empty).symm
  | cons slot slots ih =>
    have hslot := hslots slot List.mem_cons_self
    have hentries := positions_entriesAt wf hvalues (m.pattern.slotColumn slot)
    rw [wf.columnSpan_slotColumn hslot] at hentries
    have hpush : m.pushVector triplets slot =
        .ok (triplets ++ (m.tripletsAt (m.pattern.slotColumn slot)).toArray) := by
      rw [pushVector, wf.vectorId_eq hslot, Result.ok_bind, Pattern.vectorRange_eq hslot, Result.ok_bind,
        Span.foldM_eq, pushTriplets_eq hvalues _ hentries]
      rfl
    rw [List.foldlM_cons, hpush, Result.ok_bind, ih fun k hk => hslots k (List.mem_cons_of_mem _ hk)]
    simp

/-- The triplets are those of the columns, one column after the other. -/
theorem triplets_eq :
    m.triplets = .ok ((List.range m.pattern.nCols).flatMap m.tripletsAt).toArray := by
  have hslots : ∀ slot ∈ List.range m.pattern.slotCount, slot < m.pattern.slotCount :=
    fun slot h => List.mem_range.1 h
  rw [triplets, wf.vectorCount_eq, Result.ok_bind, Span.foldM_eq, Span.positions, Span.length,
    Nat.sub_zero, ← List.range_eq_range', pushVectors_eq wf hvalues hslots, flatMap_slots wf,
    Array.empty_append]

theorem pairwise_triplets (columns : List Nat) (inc : columns.Pairwise (· < ·)) :
    (columns.flatMap m.tripletsAt).Pairwise Precedes := by
  rw [List.pairwise_flatMap]
  refine ⟨fun j _ => ?_, inc.imp fun hlt s hs t ht => Or.inl ?_⟩
  · have hrows := pairwise_entriesAt wf hvalues j
    rw [List.pairwise_map] at hrows
    exact List.pairwise_map.2 (hrows.imp fun hlt => Or.inr ⟨rfl, hlt⟩)
  · rwa [(mem_tripletsAt.1 hs).1, (mem_tripletsAt.1 ht).1]

theorem mem_triplets {i j : Nat} {v : α} :
    (i, j, v) ∈ (List.range m.pattern.nCols).flatMap m.tripletsAt ↔ (i, v) ∈ m.entriesAt j := by
  simp only [List.mem_flatMap, List.mem_range, mem_tripletsAt]
  constructor
  · rintro ⟨k, -, rfl, hentry⟩
    exact hentry
  · intro hentry
    obtain ⟨p, hp, -⟩ := (mem_entriesAt wf hvalues).1 hentry
    exact ⟨j, (wf.stores_lt hp).2, rfl, hentry⟩

theorem lt_of_mem_triplets {t : Nat × Nat × α}
    (h : t ∈ (List.range m.pattern.nCols).flatMap m.tripletsAt) :
    t.1 < m.pattern.nRows ∧ t.2.1 < m.pattern.nCols := by
  obtain ⟨p, hp, -⟩ := (mem_entriesAt wf hvalues).1 ((mem_triplets wf hvalues).1 h)
  exact wf.stores_lt hp

end WellFormed

/-! ### Dense arrays -/

/-- What an array of rows holds at a row and a column. -/
def cell? (dense : Array (Array α)) (i j : Nat) : Option α := dense[i]?.bind (·[j]?)

structure Shaped (nRows nCols : Nat) (dense : Array (Array α)) : Prop where
  rows : dense.size = nRows
  columns : ∀ row ∈ dense, row.size = nCols

section Dense

variable {nRows nCols : Nat} {dense : Array (Array α)}

theorem shaped_filled (nRows nCols : Nat) (fill : α) :
    Shaped nRows nCols (filled nRows nCols fill) := by
  unfold filled
  split
  · next hzero => exact ⟨hzero.symm, nofun⟩
  · refine ⟨Array.size_replicate, fun row hrow => ?_⟩
    rw [Array.eq_of_mem_replicate hrow, Array.size_replicate]

theorem cell?_filled {i j : Nat} (hi : i < nRows) (hj : j < nCols) (fill : α) :
    cell? (filled nRows nCols fill) i j = some fill := by
  rw [cell?, filled, if_neg (Nat.ne_zero_of_lt hi), Array.getElem?_replicate, if_pos hi,
    Option.bind_some, Array.getElem?_replicate, if_pos hj]

theorem placeTriplet_eq (h : Shaped nRows nCols dense) {i j : Nat} (hi : i < nRows) (hj : j < nCols)
    (v : α) : ∃ placed, placeTriplet dense (i, j, v) = .ok placed ∧ Shaped nRows nCols placed ∧
      cell? placed i j = some v ∧
      ∀ k l, ¬ (k = i ∧ l = j) → cell? placed k l = cell? dense k l := by
  have hrow : i < dense.size := h.rows ▸ hi
  have hcolumn : j < dense[i].size := h.columns _ (Array.getElem_mem hrow) ▸ hj
  refine ⟨dense.set i (dense[i].set j v), ?_, ⟨?_, fun row hmem => ?_⟩, ?_, fun k l hne => ?_⟩
  · rw [placeTriplet, fetch_of_lt hrow, Result.ok_bind, store_of_lt hcolumn, Result.ok_bind,
      store_of_lt hrow]
  · rw [Array.size_set, h.rows]
  · rcases Array.mem_or_eq_of_mem_set hmem with hmem | rfl
    · exact h.columns row hmem
    · rw [Array.size_set, h.columns _ (Array.getElem_mem hrow)]
  · rw [cell?, Array.getElem?_set_self hrow, Option.bind_some, Array.getElem?_set_self hcolumn]
  · unfold cell?
    by_cases hk : i = k
    · subst hk
      rw [Array.getElem?_set_self hrow, Option.bind_some, Array.getElem?_eq_getElem hrow,
        Option.bind_some, Array.getElem?_set_ne hcolumn fun hl => hne ⟨rfl, hl.symm⟩]
    · rw [Array.getElem?_set_ne hrow hk]

/-- Placing triplets at different positions puts each of them into its cell. -/
theorem placeTriplets_eq {triplets : List (Nat × Nat × α)}
    (hin : ∀ t ∈ triplets, t.1 < nRows ∧ t.2.1 < nCols) (distinct : triplets.Pairwise Precedes)
    (h : Shaped nRows nCols dense) :
    ∃ placed, triplets.foldlM placeTriplet dense = .ok placed ∧ Shaped nRows nCols placed ∧
      (∀ i j v, (i, j, v) ∈ triplets → cell? placed i j = some v) ∧
      ∀ i j, (∀ v, (i, j, v) ∉ triplets) → cell? placed i j = cell? dense i j := by
  induction triplets generalizing dense with
  | nil => exact ⟨dense, rfl, h, nofun, fun _ _ _ => rfl⟩
  | cons t triplets ih =>
    obtain ⟨i, j, v⟩ := t
    obtain ⟨hi, hj⟩ := hin _ List.mem_cons_self
    obtain ⟨next, hnext, hshape, hcell, hother⟩ := placeTriplet_eq h hi hj v
    obtain ⟨hfirst, hrest⟩ := List.pairwise_cons.1 distinct
    obtain ⟨placed, hplaced, hshape', hcells, hothers⟩ :=
      ih (fun t ht => hin t (List.mem_cons_of_mem _ ht)) hrest hshape
    refine ⟨placed, ?_, hshape', fun k l w hmem => ?_, fun k l habsent => ?_⟩
    · rw [List.foldlM_cons, hnext, Result.ok_bind, hplaced]
    · rcases List.mem_cons.1 hmem with heq | hmem
      · cases heq
        -- no later triplet has this position
        rw [hothers i j fun w hw => ?_, hcell]
        rcases hfirst _ hw with hlt | ⟨-, hlt⟩
        · exact Nat.lt_irrefl j hlt
        · exact Nat.lt_irrefl i hlt
      · exact hcells k l w hmem
    · rw [hothers k l fun w hw => habsent w (List.mem_cons_of_mem _ hw), hother k l]
      rintro ⟨rfl, rfl⟩
      exact habsent v List.mem_cons_self

end Dense

/-! ### The three views -/

/-- What reading a matrix gives: each of its columns, its triplets, and for every value to fill up with a
dense array. -/
structure View (α : Type) where
  nRows : Nat
  nCols : Nat
  column : Nat → Array (Nat × α)
  triplets : Array (Nat × Nat × α)
  dense : α → Array (Array α)

/-- The three views show the same entries. -/
structure View.Coherent (view : View α) : Prop where
  triplets_eq : view.triplets.toList = (List.range view.nCols).flatMap fun j =>
    (view.column j).toList.map fun entry => (entry.1, j, entry.2)
  increasing : view.triplets.toList.Pairwise Precedes
  shaped : ∀ fill, Shaped view.nRows view.nCols (view.dense fill)
  stored : ∀ fill i j v, j < view.nCols → (i, v) ∈ view.column j →
    cell? (view.dense fill) i j = some v
  unstored : ∀ fill i j, i < view.nRows → j < view.nCols → (∀ v, (i, v) ∉ view.column j) →
    cell? (view.dense fill) i j = some fill

/-- Every way to read the matrix succeeds and gives the view. -/
structure ReadsAs (m : SparseMatrix α) (view : View α) : Prop where
  nRows : m.pattern.nRows = view.nRows
  nCols : m.pattern.nCols = view.nCols
  column : ∀ j < view.nCols, m.column j = .ok (view.column j)
  triplets : m.triplets = .ok view.triplets
  dense : ∀ fill, m.toDense fill = .ok (view.dense fill)

section Views

variable {m : SparseMatrix α} (wf : m.pattern.WellFormed)
  (hvalues : m.values.size = m.pattern.entryCount)
include wf hvalues

theorem toDense_eq (fill : α) : ∃ dense, m.toDense fill = .ok dense ∧
    Shaped m.pattern.nRows m.pattern.nCols dense ∧
    (∀ i j v, (i, v) ∈ m.entriesAt j → cell? dense i j = some v) ∧
    ∀ i j, i < m.pattern.nRows → j < m.pattern.nCols → (∀ v, (i, v) ∉ m.entriesAt j) →
      cell? dense i j = some fill := by
  obtain ⟨dense, hdense, hshape, hcell, hother⟩ :=
    placeTriplets_eq (fun _ => lt_of_mem_triplets wf hvalues)
      (pairwise_triplets wf hvalues _ List.pairwise_lt_range) (shaped_filled _ _ fill)
  simp only [mem_triplets wf hvalues] at hcell hother
  refine ⟨dense, ?_, hshape, hcell, fun i j hi hj habsent => ?_⟩
  · rw [toDense, triplets_eq wf hvalues, Result.ok_bind, hdense]
  · rw [hother i j habsent, cell?_filled hi hj]

theorem exists_view : ∃ view, view.Coherent ∧ m.ReadsAs view := by
  choose dense hdense hshape hcell hother using toDense_eq wf hvalues
  refine ⟨⟨m.pattern.nRows, m.pattern.nCols, fun j => (m.entriesAt j).toArray,
    ((List.range m.pattern.nCols).flatMap m.tripletsAt).toArray, dense⟩, ?_, ?_⟩
  · exact {
      triplets_eq := rfl
      increasing := pairwise_triplets wf hvalues _ List.pairwise_lt_range
      shaped := hshape
      stored := fun fill i j v _ h => hcell fill i j v (List.mem_toArray.1 h)
      unstored := fun fill i j hi hj h =>
        hother fill i j hi hj fun v hv => h v (List.mem_toArray.2 hv) }
  · exact {
      nRows := rfl
      nCols := rfl
      column := fun j hj => column_eq wf hvalues hj
      triplets := triplets_eq wf hvalues
      dense := hdense }

theorem ReadsAs.of_sameEntries {q : Pattern} (wf' : q.WellFormed) (same : m.pattern.SameEntries q)
    {view : View α} (h : m.ReadsAs view) : ReadsAs ⟨q, m.values⟩ view := by
  have hvalues' : m.values.size = q.entryCount := hvalues.trans same.entryCount.symm
  have hentries := entriesAt_of_sameEntries same
  have hcolumn : ∀ j < m.pattern.nCols, SparseMatrix.column ⟨q, m.values⟩ j = m.column j := by
    intro j hj
    rw [column_eq wf hvalues hj, column_eq wf' hvalues' (same.nCols ▸ hj), hentries]
  have htriplets : SparseMatrix.triplets ⟨q, m.values⟩ = m.triplets := by
    have htagged : tripletsAt ⟨q, m.values⟩ = m.tripletsAt := by
      funext j
      rw [tripletsAt, tripletsAt, hentries]
    rw [triplets_eq wf hvalues, triplets_eq wf' hvalues', htagged, same.nCols]
  exact {
    nRows := same.nRows.trans h.nRows
    nCols := same.nCols.trans h.nCols
    column := fun j hj => (hcolumn j (h.nCols ▸ hj)).trans (h.column j hj)
    triplets := htriplets.trans h.triplets
    dense := fun fill => by
      rw [toDense, htriplets, same.nRows, same.nCols]
      exact h.dense fill }

end Views

/-- A matrix that passes its check and has a value for each entry can be read by column, as triplets and as a
dense array. The triplets are the columns one after the other, by increasing column and row, and a dense
array holds the values of the columns and else what it is filled up with. If the number of columns and one
more, and the number of entries, are sizes, the matrix can be put in either storage and reads the same. -/
theorem reads_agree {m : SparseMatrix α} {operand : Operand}
    (hcheck : m.pattern.check operand = .ok ()) (hvalues : m.values.size = m.pattern.entryCount)
    (hcols : m.pattern.nCols + 1 < Size.limit) (hentries : m.pattern.entryCount < Size.limit) :
    ∃ view : View α, view.Coherent ∧ m.ReadsAs view ∧
      (∃ hyper, m.toHypersparse = .ok hyper ∧ hyper.ReadsAs view) ∧
      ∃ sparse, m.toSparse = .ok sparse ∧ sparse.ReadsAs view := by
  have wf := Pattern.wellFormed_of_check hcheck
  obtain ⟨view, hcoherent, hreads⟩ := exists_view wf hvalues
  obtain ⟨hyper, hhyper, -, wfh, same⟩ := Pattern.exists_toHypersparse wf
  obtain ⟨sparse, hsparse, -, wfs, same'⟩ := Pattern.exists_toSparse wf hcols hentries
  refine ⟨view, hcoherent, hreads, ⟨⟨hyper, m.values⟩, ?_, ?_⟩, ⟨sparse, m.values⟩, ?_, ?_⟩
  · rw [toHypersparse, hhyper]
    rfl
  · exact hreads.of_sameEntries wf hvalues wfh same
  · rw [toSparse, hsparse]
    rfl
  · exact hreads.of_sameEntries wf hvalues wfs same'

end SparseMatrix

/-- Column 1 has no slot, and the slot of column 2 holds nothing. -/
def Sample.gapped : SparseMatrix Int :=
  ⟨⟨3, 4, #[0, 2, 2, 3], some #[0, 2, 3], #[0, 2, 1], true⟩, #[5, -3, 7]⟩

theorem SparseMatrix.reads_agree_gapped : ∃ view, view.Coherent ∧ Sample.gapped.ReadsAs view ∧
    view.triplets = #[(0, 0, 5), (2, 0, -3), (1, 3, 7)] ∧
    view.dense 9 = #[#[5, 9, 9, 9], #[9, 9, 9, 7], #[-3, 9, 9, 9]] := by
  have hcheck : Sample.gapped.pattern.check .c = .ok () := rfl
  obtain ⟨view, hcoherent, hreads, -⟩ := reads_agree hcheck rfl (by decide) (by decide)
  have htriplets : Sample.gapped.triplets = .ok #[(0, 0, 5), (2, 0, -3), (1, 3, 7)] := by cbv
  have hdense : Sample.gapped.toDense 9 =
      .ok #[#[5, 9, 9, 9], #[9, 9, 9, 7], #[-3, 9, 9, 9]] := by cbv
  exact ⟨view, hcoherent, hreads, Except.ok.inj (hreads.triplets.symm.trans htriplets),
    Except.ok.inj ((hreads.dense 9).symm.trans hdense)⟩

end SparseProduct
