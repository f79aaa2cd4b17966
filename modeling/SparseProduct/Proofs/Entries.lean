import Mathlib.Data.List.Basic
import Mathlib.Data.List.Forall2
import Mathlib.Data.List.Sort
import SparseProduct.Matrix
import SparseProduct.Proofs.Pattern.Layout

/-!
# The entries of a column

A column of a matrix is read as a list of rows and values, by increasing row. The list names the same rows
and values as the positions at which the pattern stores the column, so what is stored at a row and a column
can be looked up in it.
-/

namespace SparseProduct

/-! ### Lists by increasing key -/

section Lookup

variable {α : Type} {entries : List (Nat × α)}

theorem lookup_cons_of_ne {key k : Nat} {x : α} (h : k ≠ key) :
    ((key, x) :: entries).lookup k = entries.lookup k := by
  rw [List.lookup_cons, beq_eq_false_iff_ne.2 h]

theorem lookup_of_lt {k : Nat} (h : ∀ entry ∈ entries, k < entry.1) : entries.lookup k = none :=
  List.lookup_eq_none_iff.2 fun entry hentry => bne_iff_ne.2 (Nat.ne_of_lt (h entry hentry))

theorem lookup_eq_some_iff_mem (inc : (entries.map Prod.fst).Pairwise (· < ·)) {key : Nat} {x : α} :
    entries.lookup key = some x ↔ (key, x) ∈ entries := by
  induction entries with
  | nil => simp
  | cons entry entries ih =>
    obtain ⟨k, y⟩ := entry
    rw [List.map_cons, List.pairwise_cons] at inc
    rw [List.mem_cons, Prod.mk.injEq]
    by_cases hkey : key = k
    · subst hkey
      have habsent : (key, x) ∉ entries := fun h =>
        Nat.lt_irrefl key (inc.1 key (List.mem_map_of_mem h))
      simp [habsent, eq_comm]
    · simp [lookup_cons_of_ne hkey, hkey, ih inc.2]

theorem filter_key (inc : (entries.map Prod.fst).Pairwise (· < ·)) (key : Nat) :
    (entries.filter fun entry => entry.1 = key) =
      ((entries.lookup key).map fun x => (key, x)).toList := by
  induction entries with
  | nil => rfl
  | cons entry entries ih =>
    obtain ⟨k, y⟩ := entry
    rw [List.map_cons, List.pairwise_cons] at inc
    by_cases hkey : key = k
    · subst hkey
      have habsent : entries.filter (fun entry => entry.1 = key) = [] := by
        rw [List.filter_eq_nil_iff]
        intro entry hentry
        have := inc.1 entry.1 (List.mem_map_of_mem hentry)
        simpa using Nat.ne_of_gt this
      simp [habsent]
    · simp [lookup_cons_of_ne hkey, Ne.symm hkey, ih inc.2]

theorem eq_of_mem_iff {others : List (Nat × α)} (inc : (entries.map Prod.fst).Pairwise (· < ·))
    (inc' : (others.map Prod.fst).Pairwise (· < ·)) (h : ∀ entry, entry ∈ entries ↔ entry ∈ others) :
    entries = others := by
  have hirrefl : Std.Irrefl fun x y : Nat × α => x.1 < y.1 := ⟨fun x => Nat.lt_irrefl x.1⟩
  have hantisymm : Std.Antisymm fun x y : Nat × α => x.1 < y.1 :=
    ⟨fun _ _ hxy hyx => absurd hyx (Nat.lt_asymm hxy)⟩
  exact (List.pairwise_map.1 inc).eq_of_mem_iff (List.pairwise_map.1 inc') h

theorem filterMap_lookup {β : Type} (f : Nat → α → Option β)
    (inc : (entries.map Prod.fst).Pairwise (· < ·)) {first count : Nat}
    (hbound : ∀ entry ∈ entries, first ≤ entry.1 ∧ entry.1 < first + count) :
    (List.range' first count).filterMap (fun k => (entries.lookup k).bind (f k)) =
      entries.filterMap fun entry => f entry.1 entry.2 := by
  induction count generalizing first entries with
  | zero =>
    cases entries with
    | nil => rfl
    | cons entry entries =>
      have := hbound entry List.mem_cons_self
      omega
  | succ count ih =>
    rw [List.range'_succ, List.filterMap_cons]
    cases entries with
    | nil => simp
    | cons entry entries =>
      obtain ⟨key, x⟩ := entry
      have hkey := hbound (key, x) List.mem_cons_self
      have hlater : ∀ entry ∈ entries, key < entry.1 := fun entry hentry =>
        List.rel_of_pairwise_cons inc (List.mem_map_of_mem hentry)
      rcases Nat.eq_or_lt_of_le hkey.1 with rfl | hlt
      · -- the first key is found at once, and no more
        have hrest : (List.range' (first + 1) count).filterMap
              (fun k => (((first, x) :: entries).lookup k).bind (f k)) =
            (List.range' (first + 1) count).filterMap fun k => (entries.lookup k).bind (f k) := by
          apply List.filterMap_congr
          intro k hk
          have := (List.mem_range'_1.1 hk).1
          rw [lookup_cons_of_ne (by omega)]
        rw [List.lookup_cons_self, hrest, ih inc.of_cons fun entry hentry => ?_]
        · rfl
        · have := hlater entry hentry
          have := hbound entry (List.mem_cons_of_mem _ hentry)
          omega
      · have habove : ∀ entry ∈ (key, x) :: entries, first < entry.1 := by
          rintro entry (_ | hentry)
          · exact hlt
          · exact Nat.lt_trans hlt (hlater entry ‹_›)
        rw [lookup_of_lt habove, Option.bind_none]
        apply ih inc
        intro entry hentry
        have := habove entry hentry
        have := hbound entry hentry
        omega

end Lookup

namespace SparseMatrix

variable {α : Type}

/-- The rows and values of all entries, in the order they are stored. -/
def stored (m : SparseMatrix α) : List (Nat × α) := m.pattern.rowIdx.toList.zip m.values.toList

/-- The rows and values of the entries of a column. -/
def entriesAt (m : SparseMatrix α) (j : Nat) : List (Nat × α) :=
  (m.stored.take (m.pattern.columnSpan j).stop).drop (m.pattern.columnSpan j).start

/-- The value that reading column `j` gives for row `i`. -/
def get? (m : SparseMatrix α) (i j : Nat) : Option α :=
  match m.column j with
  | .ok entries => entries.toList.lookup i
  | .error _ => none

theorem length_stored {m : SparseMatrix α} (hvalues : m.values.size = m.pattern.entryCount) :
    m.stored.length = m.pattern.entryCount := by
  rw [stored, List.length_zip, Array.length_toList, Array.length_toList, hvalues]
  exact Nat.min_self _

theorem map_fst_stored {m : SparseMatrix α} (hvalues : m.values.size = m.pattern.entryCount) :
    m.stored.map Prod.fst = m.pattern.rowIdx.toList := by
  apply List.map_fst_zip
  simp only [Array.length_toList, hvalues, Pattern.entryCount, Nat.le_refl]

theorem map_snd_stored {m : SparseMatrix α} (hvalues : m.values.size = m.pattern.entryCount) :
    m.stored.map Prod.snd = m.values.toList := by
  apply List.map_snd_zip
  simp only [Array.length_toList, hvalues, Pattern.entryCount, Nat.le_refl]

theorem map_fst_entriesAt {m : SparseMatrix α} (hvalues : m.values.size = m.pattern.entryCount)
    (j : Nat) : (m.entriesAt j).map Prod.fst = m.pattern.rowsIn (m.pattern.columnSpan j) := by
  rw [entriesAt, List.map_drop, List.map_take, map_fst_stored hvalues, Pattern.rowsIn,
    Array.toList_extract, List.extract_eq_take_drop, List.drop_take]

theorem column_eq_of_columnRange {m : SparseMatrix α} (hvalues : m.values.size = m.pattern.entryCount)
    {j : Nat} (hj : j < m.pattern.nCols)
    (hrange : m.pattern.columnRange j = .ok (m.pattern.columnSpan j))
    (hle : (m.pattern.columnSpan j).start ≤ (m.pattern.columnSpan j).stop)
    (hstop : (m.pattern.columnSpan j).stop ≤ m.pattern.rowIdx.size) :
    m.column j = .ok (m.entriesAt j).toArray := by
  have hsize : m.values.size = m.pattern.rowIdx.size := hvalues
  rw [column, if_neg (Nat.not_le.2 hj), hrange, Result.ok_bind, Span.cut_of_le hle hstop,
    Result.ok_bind, Span.cut_of_le hle (hsize ▸ hstop), Result.ok_bind, Result.pure_eq_ok]
  apply Array.toList_inj.1
  simp only [Array.toList_zip, Array.toList_extract, List.extract_eq_take_drop, entriesAt, stored,
    List.drop_take, List.zip_eq_zipWith, List.drop_zipWith, List.take_zipWith]

section WellFormed

variable {m : SparseMatrix α} (wf : m.pattern.WellFormed)
  (hvalues : m.values.size = m.pattern.entryCount)
include wf hvalues

theorem length_entriesAt (j : Nat) : (m.entriesAt j).length = (m.pattern.columnSpan j).length := by
  have hstop : (m.pattern.columnSpan j).stop ≤ m.stored.length :=
    length_stored hvalues ▸ wf.columnSpan_stop_le j
  rw [entriesAt, List.length_drop, List.length_take, Nat.min_eq_left hstop, Span.length]

theorem positions_entriesAt (j : Nat) :
    List.Forall₂ (fun p entry => m.pattern.rowAt p = entry.1 ∧ m.values[p]? = some entry.2)
      (m.pattern.columnSpan j).positions (m.entriesAt j) := by
  have hle := wf.columnSpan_le j
  have hstop : (m.pattern.columnSpan j).stop ≤ m.stored.length :=
    length_stored hvalues ▸ wf.columnSpan_stop_le j
  have hlength := length_entriesAt wf hvalues j
  rw [List.forall₂_iff_get]
  refine ⟨(List.length_range').trans hlength.symm, fun i hi hi' => ?_⟩
  rw [hlength, Span.length] at hi'
  have hp : (m.pattern.columnSpan j).start + i < m.stored.length := by omega
  have hrow : (m.pattern.columnSpan j).start + i < m.pattern.rowIdx.size := by
    rwa [length_stored hvalues] at hp
  simp only [List.get_eq_getElem, Span.positions, List.getElem_range', Nat.one_mul, entriesAt,
    List.getElem_drop, List.getElem_take, stored, List.getElem_zip, Array.getElem_toList, Pattern.rowAt]
  rw [Array.getElem?_eq_getElem hrow, Array.getElem?_eq_getElem (by rw [hvalues]; exact hrow)]
  exact ⟨rfl, rfl⟩

theorem mem_entriesAt {j i : Nat} {x : α} :
    (i, x) ∈ m.entriesAt j ↔ ∃ p, m.pattern.Stores p i j ∧ m.values[p]? = some x := by
  have hentries := positions_entriesAt wf hvalues j
  have hlength := hentries.length_eq
  simp only [wf.stores_iff]
  constructor
  · intro h
    obtain ⟨n, hn⟩ := List.mem_iff_get.1 h
    obtain ⟨hrow, hvalue⟩ := hentries.get (Nat.lt_of_lt_of_eq n.2 hlength.symm) n.2
    rw [hn] at hrow hvalue
    exact ⟨_, ⟨List.get_mem _ _, hrow⟩, hvalue⟩
  · rintro ⟨p, ⟨hp, rfl⟩, hvalue⟩
    obtain ⟨n, rfl⟩ := List.mem_iff_get.1 hp
    obtain ⟨hrow, hx⟩ := hentries.get n.2 (Nat.lt_of_lt_of_eq n.2 hlength)
    rw [hvalue, Option.some.injEq] at hx
    rw [hrow, hx]
    exact List.get_mem _ _

theorem lt_of_mem_entriesAt {j : Nat} {entry : Nat × α} (h : entry ∈ m.entriesAt j) :
    entry.1 < m.pattern.nRows := by
  obtain ⟨p, hp, -⟩ := (mem_entriesAt wf hvalues).1 h
  exact (wf.stores_lt hp).1

theorem pairwise_entriesAt (j : Nat) : ((m.entriesAt j).map Prod.fst).Pairwise (· < ·) := by
  rw [map_fst_entriesAt hvalues]
  exact wf.pairwise_rowsIn j

/-- Reading a column lists its entries. -/
theorem column_eq {j : Nat} (hj : j < m.pattern.nCols) :
    m.column j = .ok (m.entriesAt j).toArray :=
  column_eq_of_columnRange hvalues hj (wf.columnRange_eq j) (wf.columnSpan_le j)
    (wf.columnSpan_stop_le j)

theorem get?_eq_lookup (i j : Nat) : m.get? i j = (m.entriesAt j).lookup i := by
  unfold get?
  by_cases hj : j < m.pattern.nCols
  · rw [column_eq wf hvalues hj]
  · -- a column that the matrix does not have is refused, and has no entries
    have hempty : m.pattern.slotOf j = none := by
      rw [Option.eq_none_iff_forall_ne_some]
      intro slot hslot
      obtain ⟨hlt, rfl⟩ := wf.slotOf_eq_some_iff.1 hslot
      exact hj (wf.slotColumn_lt hlt)
    rw [column, if_pos (Nat.not_lt.1 hj), entriesAt, Pattern.columnSpan, hempty]
    rfl

theorem get?_eq_some_iff {i j : Nat} {x : α} :
    m.get? i j = some x ↔ ∃ p, m.pattern.Stores p i j ∧ m.values[p]? = some x := by
  rw [get?_eq_lookup wf hvalues, lookup_eq_some_iff_mem (pairwise_entriesAt wf hvalues j),
    mem_entriesAt wf hvalues]

theorem lt_of_get? {i j : Nat} {x : α} (h : m.get? i j = some x) :
    i < m.pattern.nRows ∧ j < m.pattern.nCols := by
  obtain ⟨p, hp, -⟩ := (get?_eq_some_iff wf hvalues).1 h
  exact wf.stores_lt hp

theorem exists_value {p i j : Nat} (h : m.pattern.Stores p i j) : ∃ x, m.values[p]? = some x := by
  have hlt : p < m.values.size := hvalues ▸ wf.lt_of_mem_columnSpan (wf.stores_iff.1 h).1
  exact ⟨m.values[p], Array.getElem?_eq_getElem hlt⟩

/-- A position is stored exactly if something is read there. -/
theorem exists_stores_iff {i j : Nat} :
    (∃ p, m.pattern.Stores p i j) ↔ ∃ x, m.get? i j = some x := by
  simp only [get?_eq_some_iff wf hvalues]
  constructor
  · rintro ⟨p, hp⟩
    obtain ⟨x, hx⟩ := exists_value wf hvalues hp
    exact ⟨x, p, hp, hx⟩
  · rintro ⟨x, p, hp, -⟩
    exact ⟨p, hp⟩

end WellFormed

end SparseMatrix

end SparseProduct
