import SparseProduct.Window
import SparseProduct.Proofs.Pattern.Layout

/-!
# Searching in a window finds what searching everywhere finds

A window shows a column if the slot of the column, should the list have one, lies in it. The whole list
shows every column. A search for a column that is shown answers as a search of the whole list does, and
keeps showing the columns that come later, so increasing columns can be looked up one after another.
Trimming keeps showing the columns up to the bound.
-/

namespace SparseProduct

namespace Window

/-- The slot of a column, if the list has one, lies in the window. -/
structure Shows (w : Window) (ids : Array Nat) (column : Nat) : Prop where
  right_le : w.right ≤ ids.size
  inside : ∀ slot : Nat, ids[slot]? = some column → w.left ≤ slot ∧ slot < w.right

theorem shows_reset {w : Window} {ids : Array Nat} (h : w.length = ids.size) (column : Nat) :
    w.reset.Shows ids column where
  right_le := Nat.le_of_eq h
  inside slot hslot := ⟨Nat.zero_le _, by
    have := (Array.getElem?_eq_some_iff.1 hslot).1
    show slot < w.length
    omega⟩

@[simp]
theorem length_opened (w : Window) : w.opened.length = w.length := by
  unfold opened
  split <;> rfl

theorem shows_opened {w after : Window} {ids : Array Nat} {column : Nat} (hlen : w.length = ids.size)
    (hlength : after.length = w.length) (h : after.Shows ids column) :
    after.opened.Shows ids column := by
  unfold opened
  split
  · exact h
  · exact shows_reset (hlength.trans hlen) column

theorem size_cut {w : Window} {ids : Array Nat} (h : w.right ≤ ids.size) :
    (ids.extract w.left w.right).size = w.right - w.left := by
  rw [Array.size_extract, Nat.min_eq_left h]

theorem getElem?_cut {w : Window} {ids : Array Nat} (h : w.right ≤ ids.size) {i : Nat}
    (hi : i < w.right - w.left) : (ids.extract w.left w.right)[i]? = ids[w.left + i]? := by
  rw [Array.getElem?_extract, if_pos (by omega)]

theorem increasing_cut {w : Window} {ids : Array Nat} (inc : ids.toList.Pairwise (· < ·)) :
    (ids.extract w.left w.right).toList.Pairwise (· < ·) := by
  rw [Array.toList_extract]
  exact inc.sublist ((List.take_sublist _ _).trans (List.drop_sublist _ _))

theorem shows_advance {w v : Window} {ids : Array Nat} (inc : ids.toList.Pairwise (· < ·))
    (hlen : w.length = ids.size) (hlength : v.length = w.length) {column later : Nat}
    (hle : column ≤ later) (h : v.Shows ids later) :
    (v.advance (Search.find (ids.extract v.left v.right) column).below).opened.Shows ids later := by
  obtain ⟨-, -, hbelow⟩ := Search.find_spec (increasing_cut (w := v) inc) column
  refine shows_opened hlen hlength ⟨h.right_le, fun slot hslot => ?_⟩
  have hin := h.inside slot hslot
  have hsize := size_cut (w := v) h.right_le
  have hget := getElem?_cut (w := v) h.right_le (i := slot - v.left) (by omega)
  rw [show v.left + (slot - v.left) = slot by omega, hslot] at hget
  obtain ⟨hlt, hval⟩ := Array.getElem?_eq_some_iff.1 hget
  have hiff := hbelow (slot - v.left) hlt
  rw [hval] at hiff
  show v.left + _ ≤ slot ∧ slot < v.right
  omega

/-- A search for a column that the window shows answers as a search of the whole list. -/
theorem locate_eq {w : Window} {ids : Array Nat} (inc : ids.toList.Pairwise (· < ·))
    (hlen : w.length = ids.size) {column : Nat} (h : w.opened.Shows ids column) :
    ∃ after, w.locate ids column = .ok ((Search.find ids column).index?, after) ∧
      after.length = w.length ∧
      ∀ later, column ≤ later → w.opened.Shows ids later → after.opened.Shows ids later := by
  have hlength := w.length_opened
  unfold locate
  generalize w.opened = v at h hlength
  simp only
  by_cases hempty : v.right ≤ v.left
  · rw [if_pos hempty, Search.index?_find_eq_none inc fun slot hslot => by
      have := h.inside slot hslot
      omega]
    exact ⟨v, rfl, hlength, fun later _ hl => shows_opened hlen hlength hl⟩
  · rw [if_neg hempty, Span.cut_of_le (show v.span.start ≤ v.span.stop by
      show v.left ≤ v.right
      omega) h.right_le]
    obtain ⟨hfound, habsent, -⟩ := Search.find_spec (increasing_cut (w := v) inc) column
    have hadvance : ∀ later, column ≤ later → v.Shows ids later → (v.advance
        (Search.find (ids.extract v.left v.right) column).below).opened.Shows ids later :=
      fun _ hle hl => shows_advance inc hlen hlength hle hl
    simp only [bind, Except.bind, span]
    cases hf : Search.find (ids.extract v.left v.right) column with
    | found offset =>
      rw [hf] at hadvance
      have hoffset := hfound offset hf
      have hlt := (Array.getElem?_eq_some_iff.1 hoffset).1
      rw [size_cut h.right_le] at hlt
      rw [getElem?_cut h.right_le hlt] at hoffset
      rw [(Search.index?_find_eq_some_iff inc).2 hoffset]
      exact ⟨v.advance offset, rfl, hlength, hadvance⟩
    | absent offset =>
      rw [hf] at hadvance
      rw [Search.index?_find_eq_none inc fun slot hslot => by
        have hin := h.inside slot hslot
        refine habsent offset hf (slot - v.left) ?_
        rw [getElem?_cut h.right_le (by omega), show v.left + (slot - v.left) = slot by omega, hslot]]
      exact ⟨v.advance offset, rfl, hlength, hadvance⟩

theorem dropAfter_eq {w : Window} {ids : Array Nat} (inc : ids.toList.Pairwise (· < ·))
    (hright : w.right ≤ ids.size) (maxColumn : Nat) :
    ∃ after, w.dropAfter ids maxColumn = .ok after ∧ after.length = w.length ∧
      ∀ column, column ≤ maxColumn → w.Shows ids column → after.Shows ids column := by
  unfold dropAfter
  by_cases hkeep : w.mode = .fullRange ∨ w.right ≤ w.left
  · rw [if_pos hkeep]
    exact ⟨w, rfl, rfl, fun _ _ h => h⟩
  · rw [if_neg hkeep, fetch_of_lt (show w.right - 1 < ids.size by omega)]
    simp only [bind, Except.bind]
    split
    · exact ⟨w, rfl, rfl, fun _ _ h => h⟩
    · rw [Span.cut_of_le (show w.span.start ≤ w.span.stop by
        show w.left ≤ w.right
        omega) hright]
      refine ⟨_, rfl, rfl, fun column hle h => ⟨?_, fun slot hslot => ?_⟩⟩
      · have := Search.countWhile_le (ids.extract w.left w.right) (· ≤ maxColumn)
        rw [size_cut hright] at this
        show w.left + Search.countWhile (ids.extract w.left w.right) (· ≤ maxColumn) ≤ ids.size
        omega
      · have hin := h.inside slot hslot
        have hget := getElem?_cut hright (i := slot - w.left) (by omega)
        rw [show w.left + (slot - w.left) = slot by omega, hslot] at hget
        obtain ⟨hlt, hval⟩ := Array.getElem?_eq_some_iff.1 hget
        have hcount := (Search.lt_countWhile_le_iff (increasing_cut (w := w) inc) maxColumn hlt).2
          (by omega)
        refine ⟨hin.1, ?_⟩
        show slot < w.left + Search.countWhile (ids.extract w.left w.right) (· ≤ maxColumn)
        omega

/-- The next lookup of a column of a pattern answers as a search of the whole pattern does. -/
def Serves (w : Window) (p : Pattern) (column : Nat) : Prop :=
  ∀ ids ∈ p.colIds, w.length = ids.size ∧ w.opened.Shows ids column

theorem lookup_eq {w : Window} {p : Pattern} (wf : p.WellFormed) {k : Nat} (hk : k < p.nCols)
    (h : w.Serves p k) :
    ∃ after, w.lookup p k = .ok (p.columnSpan k, after) ∧ after.length = w.length ∧
      ∀ later, k ≤ later → w.Serves p later → after.Serves p later := by
  unfold lookup
  cases hids : p.colIds with
  | none =>
    have hslot : p.slotOf k = some k := by rw [Pattern.slotOf, hids, if_pos hk]
    rw [Pattern.columnSpan, hslot,
      Pattern.vectorRange_eq (wf.slotOf_eq_some_iff.1 hslot).1]
    exact ⟨w, rfl, rfl, fun _ _ h => h⟩
  | some ids =>
    obtain ⟨hlen, hshows⟩ := h ids hids
    obtain ⟨after, hlocate, hlength, hlater⟩ := locate_eq (wf.ids_increasing ids hids) hlen hshows
    have hslot : p.slotOf k = (Search.find ids k).index? := by rw [Pattern.slotOf, hids]
    refine ⟨after, ?_, hlength, fun later hle hserves ids' hids' => ?_⟩
    · simp only [hlocate, Pattern.columnSpan, ← hslot]
      cases hs : p.slotOf k with
      | none => rfl
      | some slot =>
        simp only [bind, Except.bind]
        rw [Pattern.vectorRange_eq (wf.slotOf_eq_some_iff.1 hs).1]
        rfl
    · cases hids.symm.trans hids'
      exact ⟨hlength.trans hlen, hlater later hle (hserves ids hids).2⟩

end Window

end SparseProduct
