import Mathlib
import SparseProduct.Proofs.Multiply.Call

/-!
# How a call ends

A call is meant to complete, or to report a contract that its operands break and leave its buffers as they
were. With the checks of patterns on, two things stand in the way. The vectors of B and C are counted
before the patterns are checked, and a pattern without pointers has no count. And no check asks whether B
stores something in every column that C does, which the kernel finds out when it comes to the column.
Whatever else the operands hold, a call ends as it is meant to.
-/

namespace SparseProduct

variable {L R O : Type}

/-- A failure that reports a contract the operands break. -/
def Failure.IsRefusal (e : Failure) : Prop := ∃ cause, e = .contract cause

/-- A run that completes, or reports a broken contract and leaves its buffers as they were. -/
def Run.Orderly {σ α : Type} (x : Run σ α) (t : σ) : Prop :=
  (∃ y after, x t = .ok y after) ∨ ∃ cause, x t = .error (.contract cause) t

/-- The column of every slot in the span is one that C stores nothing in or B something. -/
def Pattern.Covers (b c : Pattern) (slots : Span) : Prop :=
  ∀ slot ∈ slots.positions, ∀ j, b.vectorId slot = .ok j → c.Occupied j → b.Occupied j

/-- The checks get as far as counting the vectors of C and B. -/
structure Comparable (c : Pattern) (a : SparseMatrix L) (b : SparseMatrix R) (values : Nat) :
    Prop where
  left_values : a.values.size = a.pattern.entryCount
  right_values : b.values.size = b.pattern.entryCount
  output_values : values = c.entryCount
  finalized : c.finalized = true ∧ a.pattern.finalized = true ∧ b.pattern.finalized = true
  shapes : c.nRows = a.pattern.nRows ∧ c.nCols = b.pattern.nCols ∧
    a.pattern.nCols = b.pattern.nRows

/-! ### What the checks answer -/

theorem checkValueLength_refuses (operand : Operand) (values entries : Nat) :
    Result.FailsOnly Failure.IsRefusal (checkValueLength operand values entries) := by
  unfold checkValueLength
  split
  · exact .ok ()
  · exact .error ⟨_, rfl⟩

theorem checkFinalized_refuses (c a b : Pattern) :
    Result.FailsOnly Failure.IsRefusal (checkFinalized c a b) := by
  unfold checkFinalized
  split
  · exact .ok ()
  · exact .error ⟨_, rfl⟩

theorem checkShapes_refuses (c a b : Pattern) :
    Result.FailsOnly Failure.IsRefusal (checkShapes c a b) := by
  unfold checkShapes
  split
  · exact .error ⟨_, rfl⟩
  · split
    · exact .error ⟨_, rfl⟩
    · split
      · exact .error ⟨_, rfl⟩
      · exact .ok ()

theorem checkVectorCounts_refuses {c b : Pattern} (hc : 0 < c.colPtr.size) (hb : 0 < b.colPtr.size) :
    Result.FailsOnly Failure.IsRefusal (checkVectorCounts c b) := by
  rw [checkVectorCounts, Pattern.vectorCount_eq hc, Pattern.vectorCount_eq hb, Result.ok_bind,
    Result.ok_bind]
  exact .refuse_last fun _ => ⟨_, rfl⟩

theorem Mask.check_refuses (m : Mask) (nRows nCols : Nat) :
    Result.FailsOnly Failure.IsRefusal (m.check nRows nCols) := by
  unfold Mask.check
  refine Result.FailsOnly.refuse (fun _ => ⟨_, rfl⟩) fun _ => ?_
  cases m.values with
  | none => exact .ok ()
  | some values => exact .refuse_last fun _ => ⟨_, rfl⟩

theorem Pattern.check_refuses (p : Pattern) (operand : Operand) :
    Result.FailsOnly Failure.IsRefusal (p.check operand) := by
  intro e h
  obtain ⟨defect, -, hdefect⟩ := p.check_failsOnly operand e h
  exact ⟨_, hdefect⟩

theorem checkPatterns_refuses (c a b : Pattern) (mask : Option Mask) :
    Result.FailsOnly Failure.IsRefusal (checkPatterns c a b mask) := by
  unfold checkPatterns
  refine (a.check_refuses _).bind fun _ _ => (b.check_refuses _).bind fun _ _ =>
    (c.check_refuses _).bind fun _ _ => ?_
  cases mask with
  | none => exact .ok ()
  | some m => exact m.pattern.check_refuses _

theorem checkSlots_refuses {b : Pattern} (hb : 0 < b.colPtr.size) (slots : Span) :
    Result.FailsOnly Failure.IsRefusal (checkSlots slots b) := by
  rw [checkSlots, Pattern.vectorCount_eq hb, Result.ok_bind]
  exact .refuse_last fun _ => ⟨_, rfl⟩

theorem checkWorkspace_refuses (room required : Nat) :
    Result.FailsOnly Failure.IsRefusal (checkWorkspace room required) := by
  unfold checkWorkspace
  split
  · exact .error ⟨_, rfl⟩
  · exact .ok ()

theorem Pattern.size_colPtr_pos_iff {p : Pattern} : 0 < p.colPtr.size ↔ p.colPtr ≠ #[] := by
  rw [Nat.pos_iff_ne_zero, ne_eq, Array.size_eq_zero_iff]

section Checks

variable {c : Pattern} {a : SparseMatrix L} {b : SparseMatrix R} {mask : Option Mask} {slots : Span}
  {settings : Settings} {values room : Nat}

theorem checkCall_uncounted (h : Comparable c a b values)
    (hempty : c.colPtr = #[] ∨ b.pattern.colPtr = #[]) :
    checkCall c a b mask slots settings values room = .error (.overflow .subtract) := by
  have hvectors : checkVectorCounts c b.pattern = .error (.overflow .subtract) := by
    have hnone : ∀ p : Pattern, p.colPtr = #[] → p.vectorCount = .error (.overflow .subtract) := by
      intro p hp
      rw [Pattern.vectorCount, hp]
      rfl
    rw [checkVectorCounts]
    by_cases hc : c.colPtr = #[]
    · rw [hnone c hc]
      rfl
    · rw [Pattern.vectorCount_eq (Pattern.size_colPtr_pos_iff.2 hc),
        hnone b.pattern (hempty.resolve_left hc)]
      rfl
  rw [checkCall, checkProduct, checkValueLength_eq_ok.2 h.left_values,
    checkValueLength_eq_ok.2 h.right_values, checkValueLength_eq_ok.2 h.output_values, checkOperands,
    checkFinalized_eq_ok.2 h.finalized, checkShapes_eq_ok.2 h.shapes, hvectors]
  rfl

theorem checkOperands_refuses {c a b : Pattern}
    (counted : checkFinalized c a b = .ok () → checkShapes c a b = .ok () →
      0 < c.colPtr.size ∧ 0 < b.colPtr.size) :
    Result.FailsOnly Failure.IsRefusal (checkOperands c a b mask settings) := by
  unfold checkOperands
  refine (checkFinalized_refuses _ _ _).bind fun _ hfinalized =>
    (checkShapes_refuses _ _ _).bind fun _ hshapes => ?_
  obtain ⟨hc, hb⟩ := counted hfinalized hshapes
  refine (checkVectorCounts_refuses hc hb).bind fun _ _ => ?_
  have hpatterns : Result.FailsOnly Failure.IsRefusal
      (if settings.checkPatterns then checkPatterns c a b mask else pure ()) := by
    split
    · exact checkPatterns_refuses _ _ _ _
    · exact .ok ()
  cases mask with
  | none => exact hpatterns
  | some m => exact (m.check_refuses _ _).bind fun _ _ => hpatterns

theorem checkCall_refuses (checking : settings.checkPatterns = true)
    (h : Comparable c a b values → c.colPtr ≠ #[] ∧ b.pattern.colPtr ≠ #[]) :
    Result.FailsOnly Failure.IsRefusal (checkCall c a b mask slots settings values room) := by
  have hproduct : Result.FailsOnly Failure.IsRefusal (checkProduct c a b mask settings values) := by
    unfold checkProduct
    refine (checkValueLength_refuses _ _ _).bind fun _ hleft =>
      (checkValueLength_refuses _ _ _).bind fun _ hright =>
      (checkValueLength_refuses _ _ _).bind fun _ houtput =>
      checkOperands_refuses fun hfinalized hshapes => ?_
    rw [Pattern.size_colPtr_pos_iff, Pattern.size_colPtr_pos_iff]
    exact h ⟨checkValueLength_eq_ok.1 hleft, checkValueLength_eq_ok.1 hright,
      checkValueLength_eq_ok.1 houtput, checkFinalized_eq_ok.1 hfinalized,
      checkShapes_eq_ok.1 hshapes⟩
  unfold checkCall
  refine hproduct.bind fun _ hok => ?_
  have accepted := Accepted.of_checking checking (checkProduct_eq_ok.1 hok).2.2.2
  have hb := (Pattern.wellFormed_of_check accepted.b_check).size_colPtr_pos
  exact (checkSlots_refuses hb slots).bind fun _ _ => checkWorkspace_refuses _ _

variable (mask slots room) in
/-- The checks only ever answer that a contract is broken, unless they come to count the vectors of a
pattern without pointers. -/
theorem checkCall_refuses_iff (checking : settings.checkPatterns = true) :
    Result.FailsOnly Failure.IsRefusal (checkCall c a b mask slots settings values room) ↔
      (Comparable c a b values → c.colPtr ≠ #[] ∧ b.pattern.colPtr ≠ #[]) := by
  refine ⟨fun h comparable => ?_, checkCall_refuses checking⟩
  rw [← not_or]
  intro hempty
  obtain ⟨cause, hcause⟩ := h _ (checkCall_uncounted comparable hempty)
  cases hcause

end Checks

/-! ### The kernel behind the checks -/

/-- Between two well-formed patterns, the columns of some slots are covered when none of them is a column
that only C stores something in. -/
theorem Operands.covers_iff {op : Operands} (wf : op.WellFormed) {slots : Span}
    (hslots : slots.stop ≤ op.b.slotCount) :
    op.b.Covers op.c slots ↔ ∀ j ∈ op.columnsOf slots, op.covered j = true := by
  have hcolumn : ∀ j, op.covered j = true ↔ (op.c.Occupied j → op.b.Occupied j) := by
    intro j
    rw [covered, wf.c.occupied_iff, wf.b.occupied_iff]
    cases (op.c.columnSpan j).isEmpty <;> cases (op.b.columnSpan j).isEmpty <;> simp
  have hlt : ∀ slot ∈ slots.positions, slot < op.b.slotCount := fun slot h =>
    Nat.lt_of_lt_of_le (Span.mem_positions.1 h).2 hslots
  simp only [columnsOf, List.forall_mem_map, hcolumn]
  constructor
  · intro h slot hslot
    exact h slot hslot _ (wf.b.vectorId_eq (hlt slot hslot))
  · intro h slot hslot j hj
    rw [wf.b.vectorId_eq (hlt slot hslot)] at hj
    cases hj
    exact h slot hslot

theorem Operands.orderly_report_iff {σ : Type} (op : Operands) (columns : List Nat)
    (counters : Counters) {x : Run σ Counters} {t after : σ}
    (h : x t = Run.ofResult (op.report columns counters) after) :
    x.Orderly t ↔ ∀ j ∈ columns, op.covered j = true := by
  constructor
  · rintro (⟨total, last, hok⟩ | ⟨cause, herror⟩)
    · rw [hok] at h
      cases hreport : op.report columns counters with
      | ok sum => exact covered_of_report hreport
      | error e =>
        rw [hreport] at h
        cases h
    · rw [herror] at h
      unfold report at h
      split at h <;> cases h
  · intro covered
    rw [Task.report_eq covered] at h
    exact Or.inl ⟨_, _, h⟩

section Call

variable {s : SemiringOps L R O} {c : Pattern} {a : SparseMatrix L} {b : SparseMatrix R}
  {mask : Option Mask} {slots : Span} {settings : Settings} {before : Buffers O}

theorem multiplySlots_orderly_iff (total : s.Total) (checking : settings.checkPatterns = true) :
    (multiplySlots s c a b mask slots settings).Orderly before ↔
      (Comparable c a b before.values.size → c.colPtr ≠ #[] ∧ b.pattern.colPtr ≠ #[]) ∧
      (checkCall c a b mask slots settings before.values.size before.slots.size = .ok () →
        b.pattern.Covers c slots) := by
  rw [← checkCall_refuses_iff mask slots before.slots.size checking]
  cases hcheck : checkCall c a b mask slots settings before.values.size before.slots.size with
  | error e =>
    have hrun : multiplySlots s c a b mask slots settings before = .error e before := by
      rw [multiplySlots_eq_checked, hcheck]
      rfl
    constructor
    · rintro (⟨y, after, h⟩ | ⟨cause, h⟩)
      · rw [hrun] at h
        cases h
      · rw [hrun] at h
        cases h
        exact ⟨.error ⟨cause, rfl⟩, nofun⟩
    · rintro ⟨h, -⟩
      obtain ⟨cause, rfl⟩ := h e rfl
      exact Or.inr ⟨cause, hrun⟩
  | ok u =>
    obtain ⟨hproduct, hslots, -⟩ := checkCall_eq_ok.1 hcheck
    obtain ⟨ha, hb, -, hoperands⟩ := checkProduct_eq_ok.1 hproduct
    have wf := (Accepted.of_checking checking hoperands).wellFormed settings.search
    have hstop := ((checkSlots_eq_ok wf.b.size_colPtr_pos).1 hslots).2
    obtain ⟨value, hvalue⟩ := wf.exists_columnValues total ha hb
    obtain ⟨after, hrun, -⟩ := multiplySlots_eq_report total wf hcheck hvalue
    rw [Operands.orderly_report_iff _ _ _ hrun, ← Operands.covers_iff wf hstop]
    exact ⟨fun h => ⟨.ok (), fun _ => h⟩, fun h => h.2 rfl⟩

/-- With the checks of patterns on, and operations that never fail, a call on any operands whatever
completes, or reports a broken contract and leaves its buffers as they were, except in two cases: its
checks come to count the vectors of a pattern without pointers; or they all pass and B stores nothing in
a column that C stores something in. -/
theorem multiply_orderly_iff (total : s.Total) (checking : settings.checkPatterns = true)
    (c : Pattern) (a : SparseMatrix L) (b : SparseMatrix R) (before : Buffers O) :
    (∀ mask slots, (multiplySlots s c a b mask slots settings).Orderly before ↔
      (Comparable c a b before.values.size → c.colPtr ≠ #[] ∧ b.pattern.colPtr ≠ #[]) ∧
      (checkCall c a b mask slots settings before.values.size before.slots.size = .ok () →
        b.pattern.Covers c slots)) ∧
    ∀ mask, (multiply s c a b mask settings).Orderly before ↔
      b.pattern.colPtr ≠ #[] ∧ (Comparable c a b before.values.size → c.colPtr ≠ #[]) ∧
      (checkCall c a b mask ⟨0, b.pattern.slotCount⟩ settings before.values.size
          before.slots.size = .ok () →
        b.pattern.Covers c ⟨0, b.pattern.slotCount⟩) := by
  refine ⟨fun mask slots => multiplySlots_orderly_iff total checking, fun mask => ?_⟩
  by_cases hb : b.pattern.colPtr = #[]
  · -- the slots of B are counted before any check is made
    have hrun : multiply s c a b mask settings before = .error (.overflow .subtract) before := by
      rw [multiply, allSlots, Pattern.vectorCount, hb]
      rfl
    constructor
    · rintro (⟨y, after, h⟩ | ⟨cause, h⟩)
      · rw [hrun] at h
        cases h
      · rw [hrun] at h
        cases h
    · exact fun h => absurd hb h.1
  · rw [multiply_eq_multiplySlots s c a mask settings (Pattern.size_colPtr_pos_iff.2 hb),
      multiplySlots_orderly_iff total checking]
    exact ⟨fun h => ⟨hb, fun comparable => (h.1 comparable).1, h.2⟩,
      fun h => ⟨fun comparable => ⟨h.2.1 comparable, hb⟩, h.2.2⟩⟩

end Call

/-- A product ends as it should, on C as given and on a C whose pointers are cut off. Once the pointers of
B are cut off instead, neither the product nor a call on two of the slots does. -/
theorem multiply_orderly_iff_leftFold :
    (multiply Sample.leftFold Sample.c Sample.a Sample.b (some Sample.mask) (.standard 1)).Orderly
      ⟨#[70, 71, 72, 73, 74], #[90, 91, 92]⟩ ∧
    (multiply Sample.leftFold { Sample.c with colPtr := #[0] } Sample.a Sample.b none
      (.standard 1)).Orderly ⟨#[70, 71, 72, 73, 74], #[90, 91, 92]⟩ ∧
    ¬ (multiply Sample.leftFold Sample.c Sample.a
      ⟨{ Sample.b.pattern with colPtr := #[] }, Sample.b.values⟩ none (.standard 1)).Orderly
      ⟨#[70, 71, 72, 73, 74], #[90, 91, 92]⟩ ∧
    ¬ (multiplySlots Sample.leftFold Sample.c Sample.a
      ⟨{ Sample.b.pattern with colPtr := #[] }, Sample.b.values⟩ none ⟨1, 3⟩ (.standard 1)).Orderly
      ⟨#[70, 71, 72, 73, 74], #[90, 91, 92]⟩ := by
  have outcome := fun c b => multiply_orderly_iff Sample.total_leftFold
    (show (Settings.standard 1).checkPatterns = true from rfl) c Sample.a b
    ⟨#[70, 71, 72, 73, 74], #[90, 91, 92]⟩
  refine ⟨?_, ?_, ?_, ?_⟩
  · exact ((outcome _ _).2 _).2 ⟨by decide, fun _ => by decide,
      fun _ slot _ j _ => Sample.occupied j⟩
  · refine ((outcome _ _).2 _).2 ⟨by decide, fun _ => (by decide : #[0] ≠ #[]), fun h => ?_⟩
    cases h
  · exact fun h => (((outcome _ _).2 _).1 h).1 rfl
  · exact fun h => ((((outcome _ _).1 _ _).1 h).1 ⟨rfl, rfl, rfl, by decide, by decide⟩).2 rfl

/-- On a B without pointers the first product stops at a subtraction. The second stops at column 1, where C
stores something and B nothing, when it has written column 0. -/
theorem multiply_disorderly :
    SemiringOps.lorLand.Total ∧
    ¬ (multiply .lorLand ⟨1, 0, #[0], none, #[], true⟩ ⟨⟨1, 1, #[0, 1], none, #[0], true⟩, #[true]⟩
      ⟨⟨1, 0, #[], none, #[], true⟩, #[]⟩ none (.standard 1)).Orderly ⟨#[], #[false]⟩ ∧
    ¬ (multiply .lorLand ⟨1, 2, #[0, 1, 2], none, #[0, 0], true⟩
      ⟨⟨1, 1, #[0, 1], none, #[0], true⟩, #[true]⟩ ⟨⟨1, 2, #[0, 1, 1], none, #[0], true⟩, #[true]⟩
      none (.standard 1)).Orderly ⟨#[false, false], #[false]⟩ := by
  have hfirst : multiply .lorLand ⟨1, 0, #[0], none, #[], true⟩
      ⟨⟨1, 1, #[0, 1], none, #[0], true⟩, #[true]⟩ ⟨⟨1, 0, #[], none, #[], true⟩, #[]⟩ none
      (.standard 1) ⟨#[], #[false]⟩ = .error (.overflow .subtract) ⟨#[], #[false]⟩ := by cbv
  have hsecond : multiply .lorLand ⟨1, 2, #[0, 1, 2], none, #[0, 0], true⟩
      ⟨⟨1, 1, #[0, 1], none, #[0], true⟩, #[true]⟩ ⟨⟨1, 2, #[0, 1, 1], none, #[0], true⟩, #[true]⟩
      none (.standard 1) ⟨#[false, false], #[false]⟩ =
      .error (.promise (.emptyRightColumn 1)) ⟨#[true, false], #[true]⟩ := by cbv
  refine ⟨⟨fun _ _ => ⟨_, rfl⟩, fun _ _ => ⟨_, rfl⟩⟩, ?_, ?_⟩
  · rintro (⟨y, after, h⟩ | ⟨cause, h⟩)
    · cases hfirst.symm.trans h
    · cases hfirst.symm.trans h
  · rintro (⟨y, after, h⟩ | ⟨cause, h⟩)
    · cases hsecond.symm.trans h
    · cases hsecond.symm.trans h

end SparseProduct
