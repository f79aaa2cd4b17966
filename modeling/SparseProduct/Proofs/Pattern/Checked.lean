import SparseProduct.Proofs.Pattern.Layout

/-!
# What the check of a pattern establishes

The check compares neighbours and looks at last elements only. Along a list of numbers whose neighbours
increase all numbers increase, and the last of them bounds the rest, so the patterns that pass are the
well-formed ones. On any other pattern the check names a defect that the pattern has: it reads no place that
it has not found to exist.
-/

namespace SparseProduct

namespace Pattern

theorem pairwise_of_firstDescent {xs : List Nat} (h : firstDescent xs = none) :
    xs.Pairwise (· < ·) := by
  fun_induction firstDescent xs with
  | case1 x y rest hle => cases h
  | case2 x y rest hle ih =>
    have hrest := ih h
    refine List.Pairwise.cons (fun z hz => ?_) hrest
    rcases List.mem_cons.1 hz with rfl | hz
    · omega
    · have := List.rel_of_pairwise_cons hrest hz
      omega
  | case3 xs hne =>
    match xs, hne with
    | [], _ => exact List.Pairwise.nil
    | [x], _ => exact List.pairwise_singleton _ _
    | x :: y :: rest, hne => exact absurd rfl (hne x y rest)

theorem lt_of_back?_lt {xs : Array Nat} (inc : xs.toList.Pairwise (· < ·)) {bound : Nat}
    (hlast : ∀ last, xs.back? = some last → last < bound) {x : Nat} (hx : x ∈ xs) : x < bound := by
  obtain ⟨i, hi, rfl⟩ := Array.mem_iff_getElem.1 hx
  have hback : xs.back? = some xs[xs.size - 1] := by
    rw [Array.back?, Array.getElem?_eq_getElem (by omega)]
  have := Search.getElem_le_getElem inc (show i ≤ xs.size - 1 by omega) (by omega)
  have := hlast _ hback
  omega

variable {p : Pattern} {refuse : PatternDefect → Failure}

theorem ids_of_checkIds {vectors : Nat} (h : p.checkIds vectors refuse = .ok ()) :
    vectors = p.colIds.elim p.nCols Array.size ∧ ∀ ids ∈ p.colIds,
      ids.toList.Pairwise (· < ·) ∧ ∀ j ∈ ids, j < p.nCols := by
  unfold checkIds at h
  split at h
  · next hnone =>
    simp only [hnone, Option.elim_none, Option.mem_def, reduceCtorEq, false_implies, implies_true,
      and_true]
    by_cases hne : vectors ≠ p.nCols
    · rw [if_pos hne] at h
      cases h
    · exact Decidable.not_not.1 hne
  · next ids hsome =>
    rw [Result.refuse_eq_ok] at h
    obtain ⟨hsize, h⟩ := h
    rw [hsome, Option.elim_some]
    refine ⟨(Decidable.not_not.1 hsize).symm, fun other hother => ?_⟩
    cases hother
    cases hdescent : firstDescent ids.toList with
    | some pair =>
      rw [hdescent] at h
      cases h
    | none =>
      have inc := pairwise_of_firstDescent hdescent
      refine ⟨inc, fun j hj => lt_of_back?_lt inc (fun last hlast => ?_) hj⟩
      simp only [hdescent, hlast] at h
      exact Nat.lt_of_not_le (Result.refuse_last_eq_ok.1 h)

theorem rows_of_checkVector {slot : Nat} (h : p.checkVector refuse slot = .ok ()) :
    ∃ range, p.vectorRange slot = .ok range ∧ range.start ≤ range.stop ∧
      range.stop ≤ p.entryCount ∧ (p.rowsIn range).Pairwise (· < ·) ∧
      ∀ i ∈ p.rowsIn range, i < p.nRows := by
  unfold checkVector at h
  simp only [Result.bind_eq_ok, Result.refuse_eq_ok] at h
  obtain ⟨range, hrange, hbounds, rows, hrows, h⟩ := h
  refine ⟨range, hrange, by omega, by omega, ?_⟩
  rw [Span.cut_of_le (by omega) (show range.stop ≤ p.rowIdx.size by
    have : p.entryCount = p.rowIdx.size := rfl
    omega)] at hrows
  cases hrows
  cases hdescent : firstDescent (p.rowIdx.extract range.start range.stop).toList with
  | some pair =>
    rw [hdescent] at h
    cases h
  | none =>
    have inc := pairwise_of_firstDescent hdescent
    refine ⟨inc, fun i hi => lt_of_back?_lt inc (fun last hlast => ?_) (Array.mem_toList_iff.1 hi)⟩
    simp only [hdescent, hlast] at h
    exact Nat.lt_of_not_le (Result.refuse_last_eq_ok.1 h)

theorem pairwise_le_of_neighbours {xs : List Nat}
    (h : ∀ i (hi : i + 1 < xs.length), xs[i] ≤ xs[i + 1]) : xs.Pairwise (· ≤ ·) := by
  induction xs with
  | nil => exact List.Pairwise.nil
  | cons x xs ih =>
    have hrest := ih fun i hi => h (i + 1) (by simpa using hi)
    refine List.Pairwise.cons (fun y hy => ?_) hrest
    cases xs with
    | nil => cases hy
    | cons z zs =>
      have hxz : x ≤ z := by simpa using h 0 (by simp)
      rcases List.mem_cons.1 hy with rfl | hy
      · exact hxz
      · exact Nat.le_trans hxz (List.rel_of_pairwise_cons hrest hy)

theorem vectorRange_eq_ok {slot : Nat} {range : Span} :
    p.vectorRange slot = .ok range ↔
      p.colPtr[slot]? = some range.start ∧ p.colPtr[slot + 1]? = some range.stop := by
  unfold vectorRange
  simp only [Result.bind_eq_ok, Result.pure_eq_ok, fetch_eq_ok]
  constructor
  · rintro ⟨start, hstart, stop, hstop, rfl⟩
    exact ⟨hstart, hstop⟩
  · rintro ⟨hstart, hstop⟩
    exact ⟨_, hstart, _, hstop, rfl⟩

theorem wellFormed_of_check {operand : Operand} (h : p.check operand = .ok ()) : p.WellFormed := by
  unfold check at h
  simp only [Result.bind_eq_ok, Result.refuse_eq_ok, Span.foldM_eq, Result.foldlM_check_eq_ok,
    fetch_eq_ok, vectorCount, Size.sub_eq_ok] at h
  obtain ⟨-, first, hfirst, hzero, vectors, ⟨hpos, rfl⟩, last, hlast, hstored, ⟨⟩, hids, hslots⟩ := h
  have hzero := Decidable.not_not.1 hzero
  have hstored := Decidable.not_not.1 hstored
  subst hzero hstored
  obtain ⟨hcount, hids⟩ := ids_of_checkIds hids
  have hslot : ∀ slot range, p.vectorRange slot = .ok range →
      range.start ≤ range.stop ∧ (p.rowsIn range).Pairwise (· < ·) ∧
      ∀ i ∈ p.rowsIn range, i < p.nRows := by
    intro slot range hrange
    have hlt := (Array.getElem?_eq_some_iff.1 (vectorRange_eq_ok.1 hrange).2).1
    obtain ⟨other, hother, hle, -, hrows⟩ :=
      rows_of_checkVector (hslots slot
        (Span.mem_positions.2 ⟨Nat.zero_le _, Nat.lt_sub_of_add_lt hlt⟩))
    rw [hrange] at hother
    cases hother
    exact ⟨hle, hrows⟩
  exact {
    first_pointer := hfirst
    pointers_monotone := pairwise_le_of_neighbours fun i hi => by
      simp only [Array.length_toList] at hi
      exact (hslot i ⟨p.colPtr[i], p.colPtr[i + 1]⟩ (vectorRange_eq_ok.2
        ⟨Array.getElem?_eq_getElem (by omega), Array.getElem?_eq_getElem hi⟩)).1
    last_pointer := hlast
    vector_count := by omega
    ids_increasing := fun ids hmem => (hids ids hmem).1
    ids_bounded := fun ids hmem => (hids ids hmem).2
    rows_increasing := fun slot range hrange => (hslot slot range hrange).2.1
    rows_bounded := fun slot range hrange => (hslot slot range hrange).2.2 }

end Pattern

/-! ### Every other pattern has the defect that is reported -/

namespace PatternDefect

/-- The pattern has the defect, with the numbers that name it. -/
def Present (p : Pattern) : PatternDefect → Prop
  | noPointers => p.colPtr = #[]
  | firstPointer pointer => p.colPtr[0]? = some pointer ∧ pointer ≠ 0
  | lastPointer vectors pointer stored => p.colPtr.size = vectors + 1 ∧
      p.colPtr[vectors]? = some pointer ∧ stored = p.rowIdx.size ∧ pointer ≠ stored
  | vectorCount vectors columns => p.colIds = none ∧ p.colPtr.size = vectors + 1 ∧
      columns = p.nCols ∧ vectors ≠ columns
  | idCount count vectors => ∃ ids ∈ p.colIds, ids.size = count ∧ p.colPtr.size = vectors + 1 ∧
      count ≠ vectors
  | idOrder first second => ∃ ids ∈ p.colIds, [first, second] <:+: ids.toList ∧ second ≤ first
  | idBound id columns => ∃ ids ∈ p.colIds, id ∈ ids ∧ columns = p.nCols ∧ columns ≤ id
  | pointerOrder slot => ∃ range, p.vectorRange slot = .ok range ∧
      (range.stop < range.start ∨ p.rowIdx.size < range.stop)
  | rowOrder slot first second => ∃ range, p.vectorRange slot = .ok range ∧
      [first, second] <:+: p.rowsIn range ∧ second ≤ first
  | rowBound row rows => ∃ slot range, p.vectorRange slot = .ok range ∧ row ∈ p.rowsIn range ∧
      rows = p.nRows ∧ rows ≤ row

theorem lt_of_neighbours {xs : List Nat} (inc : xs.Pairwise (· < ·)) {x y : Nat} (h : [x, y] <:+: xs) :
    x < y :=
  List.rel_of_pairwise_cons (inc.sublist h.sublist) (List.mem_singleton_self y)

theorem Present.not_wellFormed {p : Pattern} {defect : PatternDefect} (h : defect.Present p) :
    ¬ p.WellFormed := by
  intro wf
  cases defect with
  | noPointers =>
    have := wf.first_pointer
    rw [show p.colPtr = #[] from h] at this
    cases this
  | firstPointer pointer =>
    obtain ⟨hpointer, hne⟩ := h
    exact hne (Option.some.inj (hpointer.symm.trans wf.first_pointer))
  | lastPointer vectors pointer stored =>
    obtain ⟨hsize, hpointer, hstored, hne⟩ := h
    have hlast := wf.last_pointer
    rw [Array.back?, hsize, Nat.add_sub_cancel, hpointer, ← hstored] at hlast
    exact hne (Option.some.inj hlast)
  | vectorCount vectors columns =>
    obtain ⟨hids, hsize, hcolumns, hne⟩ := h
    have hcount := wf.vector_count
    rw [hids, Option.elim_none] at hcount
    omega
  | idCount count vectors =>
    obtain ⟨ids, hids, hcount, hsize, hne⟩ := h
    have := wf.vector_count
    rw [Option.mem_def.1 hids, Option.elim_some] at this
    omega
  | idOrder first second =>
    obtain ⟨ids, hids, hin, hle⟩ := h
    exact Nat.not_lt.2 hle (lt_of_neighbours (wf.ids_increasing ids hids) hin)
  | idBound id columns =>
    obtain ⟨ids, hids, hin, rfl, hle⟩ := h
    exact Nat.not_lt.2 hle (wf.ids_bounded ids hids id hin)
  | pointerOrder slot =>
    obtain ⟨range, hrange, hbounds⟩ := h
    have hslot : slot < p.slotCount := by
      have := (Array.getElem?_eq_some_iff.1 (Pattern.vectorRange_eq_ok.1 hrange).2).1
      have := wf.size_colPtr
      omega
    rw [Pattern.vectorRange_eq hslot] at hrange
    cases hrange
    have hle := wf.slotSpan_le hslot
    have hstop : _ ≤ p.rowIdx.size := wf.slotSpan_stop_le hslot
    omega
  | rowOrder slot first second =>
    obtain ⟨range, hrange, hin, hle⟩ := h
    exact Nat.not_lt.2 hle (lt_of_neighbours (wf.rows_increasing slot range hrange) hin)
  | rowBound row rows =>
    obtain ⟨slot, range, hrange, hin, rfl, hle⟩ := h
    exact Nat.not_lt.2 hle (wf.rows_bounded slot range hrange row hin)

end PatternDefect

namespace Pattern

theorem firstDescent_eq_some {xs : List Nat} {pair : Nat × Nat} (h : firstDescent xs = some pair) :
    [pair.1, pair.2] <:+: xs ∧ pair.2 ≤ pair.1 := by
  fun_induction firstDescent xs with
  | case1 x y rest hle =>
    cases h
    exact ⟨⟨[], rest, rfl⟩, hle⟩
  | case2 x y rest hle ih =>
    obtain ⟨hin, hpair⟩ := ih h
    exact ⟨List.infix_cons hin, hpair⟩
  | case3 xs hne => cases h

section Defects

variable {p : Pattern} {refuse : PatternDefect → Failure} {allowed : Failure → Prop}
  (h : ∀ defect, defect.Present p → allowed (refuse defect))
include h

theorem checkIds_failsOnly (hsize : 0 < p.colPtr.size) :
    Result.FailsOnly allowed (p.checkIds p.slotCount refuse) := by
  have hcount : p.colPtr.size = p.slotCount + 1 := (Nat.sub_add_cancel hsize).symm
  unfold checkIds
  split
  · next hnone =>
    split
    · next hne => exact .error (h _ ⟨hnone, hcount, rfl, hne⟩)
    · exact .ok ()
  · next ids hids =>
    refine Result.FailsOnly.refuse (fun hne => h _ ⟨ids, hids, rfl, hcount, hne⟩) fun _ => ?_
    cases hdescent : firstDescent ids.toList with
    | some pair => exact .error (h _ ⟨ids, hids, firstDescent_eq_some hdescent⟩)
    | none =>
      cases hlast : ids.back? with
      | none => exact .ok ()
      | some last =>
        exact .refuse_last fun hle => h _ ⟨ids, hids, Array.mem_of_getElem? hlast, rfl, hle⟩

theorem checkVector_failsOnly {slot : Nat} (hslot : slot < p.slotCount) :
    Result.FailsOnly allowed (p.checkVector refuse slot) := by
  have hrange := vectorRange_eq hslot
  unfold checkVector
  rw [hrange, Result.ok_bind]
  refine Result.FailsOnly.refuse (fun hbounds => h _ ⟨_, hrange, hbounds⟩) fun hbounds => ?_
  have hstop : (p.slotSpan slot).stop ≤ p.rowIdx.size := by
    have : p.entryCount = p.rowIdx.size := rfl
    omega
  rw [Span.cut_of_le (by omega) hstop, Result.ok_bind]
  have hrows : (p.rowIdx.extract (p.slotSpan slot).start (p.slotSpan slot).stop).toList =
      p.rowsIn (p.slotSpan slot) := rfl
  generalize p.rowIdx.extract (p.slotSpan slot).start (p.slotSpan slot).stop = rows at *
  cases hdescent : firstDescent rows.toList with
  | some pair => exact .error (h _ ⟨_, hrange, hrows ▸ firstDescent_eq_some hdescent⟩)
  | none =>
    cases hlast : rows.back? with
    | none => exact .ok ()
    | some last =>
      have hmem : last ∈ rows.toList := Array.mem_toList_iff.2 (Array.mem_of_getElem? hlast)
      exact .refuse_last fun hle => h _ ⟨slot, _, hrange, hrows ▸ hmem, rfl, hle⟩

end Defects

/-- On any pattern whatever, the check ends, and if it fails it names a defect that the pattern has. -/
theorem check_failsOnly (p : Pattern) (operand : Operand) :
    Result.FailsOnly
      (fun e => ∃ defect, defect.Present p ∧ e = .contract (.invalidPattern operand defect))
      (p.check operand) := by
  have hdefect : ∀ defect : PatternDefect, defect.Present p → ∃ named, named.Present p ∧
      Failure.contract (.invalidPattern operand defect) = .contract (.invalidPattern operand named) :=
    fun defect h => ⟨defect, h, rfl⟩
  unfold check
  dsimp only
  refine Result.FailsOnly.refuse (fun hempty => hdefect _ (Array.isEmpty_iff.1 hempty))
    fun hempty => ?_
  have hsize : 0 < p.colPtr.size := by
    rw [Array.isEmpty_iff_size_eq_zero] at hempty
    omega
  have hfirst := Array.getElem?_eq_getElem hsize
  rw [fetch_of_lt hsize, Result.ok_bind]
  refine Result.FailsOnly.refuse (fun hne => hdefect _ ⟨hfirst, hne⟩) fun _ => ?_
  have hcount : p.vectorCount = .ok p.slotCount := Size.sub_of_le hsize
  have hslots : p.colPtr.size = p.slotCount + 1 := (Nat.sub_add_cancel hsize).symm
  have hlast := Array.getElem?_eq_getElem (show p.slotCount < p.colPtr.size by omega)
  rw [hcount, Result.ok_bind, fetch_eq_ok.2 hlast, Result.ok_bind]
  refine Result.FailsOnly.refuse (fun hne => hdefect _ ⟨hslots, hlast, rfl, hne⟩) fun _ => ?_
  refine Result.FailsOnly.bind (checkIds_failsOnly hdefect hsize) fun _ _ => ?_
  rw [Span.foldM_eq]
  apply Result.FailsOnly.foldlM_check
  intro slot hslot
  exact checkVector_failsOnly hdefect (Span.mem_positions.1 hslot).2

/-- The check accepts the well-formed patterns and no others. -/
theorem check_eq_ok_iff {p : Pattern} {operand : Operand} : p.check operand = .ok () ↔ p.WellFormed := by
  refine ⟨wellFormed_of_check, fun wf => ?_⟩
  cases hcheck : p.check operand with
  | ok u => rfl
  | error e =>
    obtain ⟨defect, hpresent, -⟩ := p.check_failsOnly operand e hcheck
    exact absurd wf hpresent.not_wellFormed

/-- Whatever the fields of a pattern hold, the check ends without a fault. It accepts the pattern if it is
well formed, and no other, and where it refuses it names a defect that the pattern has. -/
theorem check_decides (p : Pattern) (operand : Operand) :
    (p.check operand = .ok () ↔ p.WellFormed) ∧
    (p.check operand = .ok () ∨ ∃ defect : PatternDefect, defect.Present p ∧
      p.check operand = .error (.contract (.invalidPattern operand defect))) := by
  refine ⟨check_eq_ok_iff, ?_⟩
  cases hcheck : p.check operand with
  | ok u => exact Or.inl rfl
  | error e =>
    obtain ⟨defect, hpresent, rfl⟩ := p.check_failsOnly operand e hcheck
    exact Or.inr ⟨defect, hpresent, rfl⟩

-- the last pointer is the number of entries, but the pointer before it lies beyond them
example : check ⟨3, 2, #[0, 4, 3], none, #[0, 1, 2], true⟩ .b =
    .error (.contract (.invalidPattern .b (.pointerOrder 0))) := rfl

end Pattern

end SparseProduct
