import SparseProduct.Multiply
import SparseProduct.Proofs.Kernel.Typed
import SparseProduct.Proofs.Pattern.Checked

/-!
# Operands that a product accepts

The checks of a product read as one condition on its operands. Once they pass, the product is a run of
the kernel over all slots of B on well-formed operands.
-/

namespace SparseProduct

/-- What a product asks of its patterns: they are finalized, their dimensions agree, C has no more stored
vectors than B, and each passes the check. -/
structure Accepted (c a b : Pattern) (mask : Option Mask) : Prop where
  finalized : c.finalized = true ∧ a.finalized = true ∧ b.finalized = true
  rows : c.nRows = a.nRows
  columns : c.nCols = b.nCols
  inner : a.nCols = b.nRows
  vectors : c.slotCount ≤ b.slotCount
  a_check : a.check .a = .ok ()
  b_check : b.check .b = .ok ()
  c_check : c.check .c = .ok ()
  mask : ∀ m ∈ mask, m.check c.nRows c.nCols = .ok () ∧ m.pattern.check .mask = .ok ()

theorem Mask.size_of_check {m : Mask} {nRows nCols : Nat} (h : m.check nRows nCols = .ok ()) :
    ∀ values ∈ m.values, values.size = m.pattern.entryCount := by
  intro values hvalues
  rw [Mask.check, Result.refuse_eq_ok, Option.mem_def.1 hvalues] at h
  exact Decidable.not_not.1 (Result.refuse_last_eq_ok.1 h.2)

theorem checkFinalized_eq_ok {c a b : Pattern} :
    checkFinalized c a b = .ok () ↔
      c.finalized = true ∧ a.finalized = true ∧ b.finalized = true := by
  unfold checkFinalized
  rw [← Bool.and_eq_true_iff, ← Bool.and_eq_true_iff, ← Bool.and_assoc]
  split
  · next h => exact ⟨fun _ => h, fun _ => rfl⟩
  · next h => exact ⟨nofun, fun hall => absurd hall h⟩

theorem checkShapes_eq_ok {c a b : Pattern} :
    checkShapes c a b = .ok () ↔ c.nRows = a.nRows ∧ c.nCols = b.nCols ∧ a.nCols = b.nRows := by
  unfold checkShapes
  split
  · next h => exact ⟨nofun, fun hall => absurd hall.1 h⟩
  · next hrows =>
    split
    · next h => exact ⟨nofun, fun hall => absurd hall.2.1 h⟩
    · next hcolumns =>
      split
      · next h => exact ⟨nofun, fun hall => absurd hall.2.2 h⟩
      · next hinner =>
        exact ⟨fun _ => ⟨Decidable.not_not.1 hrows, Decidable.not_not.1 hcolumns,
          Decidable.not_not.1 hinner⟩, fun _ => rfl⟩

namespace Accepted

variable {c a b : Pattern} {mask : Option Mask}

theorem wellFormed (h : Accepted c a b mask) (search : SearchMode) :
    (Operands.mk a b c mask search).WellFormed where
  a := Pattern.wellFormed_of_check h.a_check
  b := Pattern.wellFormed_of_check h.b_check
  c := Pattern.wellFormed_of_check h.c_check
  rows := h.rows
  columns := h.columns
  inner := h.inner
  mask m hm := ⟨Pattern.wellFormed_of_check (h.mask m hm).2, Mask.size_of_check (h.mask m hm).1⟩

theorem checkOperands_eq (h : Accepted c a b mask) (settings : Settings) :
    checkOperands c a b mask settings = .ok () := by
  have hfinalized := checkFinalized_eq_ok.2 h.finalized
  have hshapes := checkShapes_eq_ok.2 ⟨h.rows, h.columns, h.inner⟩
  have hvectors : checkVectorCounts c b = .ok () := by
    rw [checkVectorCounts, (Pattern.wellFormed_of_check h.c_check).vectorCount_eq,
      (Pattern.wellFormed_of_check h.b_check).vectorCount_eq, Result.ok_bind, Result.ok_bind,
      if_neg (Nat.not_lt.2 h.vectors)]
    rfl
  have hpatterns : checkPatterns c a b mask = .ok () := by
    cases mask with
    | none => simp only [checkPatterns, h.a_check, h.b_check, h.c_check, Result.ok_bind, pure,
        Except.pure]
    | some m => simp only [checkPatterns, h.a_check, h.b_check, h.c_check, (h.mask m rfl).2,
        Result.ok_bind]
  cases mask with
  | none =>
    simp only [checkOperands, hfinalized, hshapes, hvectors, hpatterns, Result.ok_bind]
    split <;> rfl
  | some m =>
    simp only [checkOperands, hfinalized, hshapes, hvectors, hpatterns, (h.mask m rfl).1,
      Result.ok_bind]
    split <;> rfl

theorem of_checkOperands {settings : Settings} (h : checkOperands c a b mask settings = .ok ())
    (ha : a.check .a = .ok ()) (hb : b.check .b = .ok ()) (hc : c.check .c = .ok ())
    (hmask : ∀ m ∈ mask, m.pattern.check .mask = .ok ()) : Accepted c a b mask := by
  simp only [checkOperands, Result.bind_eq_ok] at h
  obtain ⟨⟨⟩, hfinalized, ⟨⟩, hshapes, ⟨⟩, hvectors, h⟩ := h
  have hmasks : ∀ m ∈ mask, m.check c.nRows c.nCols = .ok () := by
    intro m hm
    rw [Option.mem_def.1 hm] at h
    simp only [Result.bind_eq_ok] at h
    obtain ⟨_, hm, -⟩ := h
    exact hm
  rw [checkVectorCounts, (Pattern.wellFormed_of_check hc).vectorCount_eq,
    (Pattern.wellFormed_of_check hb).vectorCount_eq, Result.ok_bind, Result.ok_bind,
    Result.refuse_last_eq_ok] at hvectors
  obtain ⟨hrows, hcolumns, hinner⟩ := checkShapes_eq_ok.1 hshapes
  exact ⟨checkFinalized_eq_ok.1 hfinalized, hrows, hcolumns, hinner, Nat.not_lt.1 hvectors, ha, hb, hc,
    fun m hm => ⟨hmasks m hm, hmask m hm⟩⟩

end Accepted

/-! ### The run behind a product -/

theorem Pattern.WellFormed.size_colPtr_pos {b : Pattern} (wf : b.WellFormed) : 0 < b.colPtr.size := by
  have := wf.size_colPtr
  omega

theorem Pattern.vectorCount_eq {b : Pattern} (h : 0 < b.colPtr.size) :
    b.vectorCount = .ok b.slotCount := Size.sub_of_le h

theorem allSlots_eq {b : Pattern} (h : 0 < b.colPtr.size) : allSlots b = .ok ⟨0, b.slotCount⟩ := by
  rw [allSlots, Pattern.vectorCount_eq h]
  rfl

theorem checkSlots_eq_ok {b : Pattern} (hb : 0 < b.colPtr.size) {slots : Span} :
    checkSlots slots b = .ok () ↔ slots.start ≤ slots.stop ∧ slots.stop ≤ b.slotCount := by
  rw [checkSlots, Pattern.vectorCount_eq hb, Result.ok_bind, Result.refuse_last_eq_ok, not_or,
    Nat.not_lt, Nat.not_lt]

theorem checkSlots_all {b : Pattern} (hb : 0 < b.colPtr.size) :
    checkSlots ⟨0, b.slotCount⟩ b = .ok () :=
  (checkSlots_eq_ok hb).2 ⟨Nat.zero_le _, Nat.le_refl _⟩

theorem checkWorkspace_eq_ok {room required : Nat} :
    checkWorkspace room required = .ok () ↔ required ≤ room := by
  unfold checkWorkspace
  split
  · next h => exact ⟨nofun, fun hle => absurd h (Nat.not_lt.2 hle)⟩
  · next h => exact ⟨fun _ => Nat.not_lt.1 h, fun _ => rfl⟩

theorem runChecked_eq {σ : Type} {c a b : Pattern} {mask : Option Mask} {acc : Accumulator σ}
    {search : SearchMode} {settings : Settings} {t : σ} (hb : 0 < b.colPtr.size)
    (hroom : c.nRows ≤ acc.slotCount t) :
    runChecked acc ⟨a, b, c, mask, search⟩ ⟨0, b.slotCount⟩ settings t =
      (do
        checkOperands c a b mask settings
        Kernel.run acc ⟨a, b, c, mask, search⟩ ⟨0, b.slotCount⟩ 0 : Run σ Counters) t := by
  have hslots := checkSlots_all hb
  have hwork := checkWorkspace_eq_ok.2 hroom
  unfold runChecked
  cases checkOperands c a b mask settings with
  | error e => rfl
  | ok u => simp only [hslots, Run.lift_ok, pure_bind, Run.get_bind, hwork]

variable {L R O : Type}

/-- The checks that every product of elements makes, with as many values of C as are given. -/
def checkProduct (c : Pattern) (a : SparseMatrix L) (b : SparseMatrix R) (mask : Option Mask)
    (settings : Settings) (values : Nat) : Result Unit := do
  checkValueLength .a a.values.size a.pattern.entryCount
  checkValueLength .b b.values.size b.pattern.entryCount
  checkValueLength .c values c.entryCount
  checkOperands c a.pattern b.pattern mask settings

theorem checkValueLength_eq_ok {operand : Operand} {values entries : Nat} :
    checkValueLength operand values entries = .ok () ↔ values = entries := by
  unfold checkValueLength
  split
  · next h => exact ⟨fun _ => h, fun _ => rfl⟩
  · next h => exact ⟨nofun, fun heq => absurd heq h⟩

theorem checkProduct_eq_ok {c : Pattern} {a : SparseMatrix L} {b : SparseMatrix R}
    {mask : Option Mask} {settings : Settings} {values : Nat} :
    checkProduct c a b mask settings values = .ok () ↔ a.values.size = a.pattern.entryCount ∧
      b.values.size = b.pattern.entryCount ∧ values = c.entryCount ∧
      checkOperands c a.pattern b.pattern mask settings = .ok () := by
  simp only [checkProduct, Result.check_bind_eq_ok, checkValueLength_eq_ok]

theorem checkProduct_eq {c : Pattern} {a : SparseMatrix L} {b : SparseMatrix R}
    (ha : a.values.size = a.pattern.entryCount) (hb : b.values.size = b.pattern.entryCount)
    {values : Nat} (hc : values = c.entryCount) (mask : Option Mask) (settings : Settings) :
    checkProduct c a b mask settings values = checkOperands c a.pattern b.pattern mask settings := by
  rw [checkProduct, checkValueLength_eq_ok.2 ha, checkValueLength_eq_ok.2 hb,
    checkValueLength_eq_ok.2 hc]
  rfl

abbrev Operands.ofCall (c : Pattern) (a : SparseMatrix L) (b : SparseMatrix R) (mask : Option Mask)
    (settings : Settings) : Operands := ⟨a.pattern, b.pattern, c, mask, settings.search⟩

/-- The checks that a call makes, on buffers with the given numbers of values and of workspace slots. -/
def checkCall (c : Pattern) (a : SparseMatrix L) (b : SparseMatrix R) (mask : Option Mask)
    (slots : Span) (settings : Settings) (values room : Nat) : Result Unit := do
  checkProduct c a b mask settings values
  checkSlots slots b.pattern
  checkWorkspace room c.nRows

section Call

variable {s : SemiringOps L R O} {c : Pattern} {a : SparseMatrix L} {b : SparseMatrix R}
  {mask : Option Mask} {slots : Span} {settings : Settings}

theorem checkCall_eq_ok {values room : Nat} :
    checkCall c a b mask slots settings values room = .ok () ↔
      checkProduct c a b mask settings values = .ok () ∧ checkSlots slots b.pattern = .ok () ∧
        c.nRows ≤ room := by
  rw [checkCall, Result.check_bind_eq_ok, Result.check_bind_eq_ok, checkWorkspace_eq_ok]

theorem multiplySlots_eq_checked (s : SemiringOps L R O) (c : Pattern) (a : SparseMatrix L)
    (b : SparseMatrix R) (mask : Option Mask) (slots : Span) (settings : Settings) (t : Buffers O) :
    multiplySlots s c a b mask slots settings t =
      (do
        checkCall c a b mask slots settings t.values.size t.slots.size
        Kernel.run (Accumulator.typed s a.values b.values)
          ⟨a.pattern, b.pattern, c, mask, settings.search⟩ slots 0 : Run (Buffers O) Counters) t := by
  simp only [multiplySlots, checkCall, checkProduct, runChecked, Run.lift_bind, bind_assoc]
  cases checkValueLength .a a.values.size a.pattern.entryCount with
  | error e => rfl
  | ok u =>
    cases checkValueLength .b b.values.size b.pattern.entryCount with
    | error e => rfl
    | ok u =>
      simp only [Run.lift_ok, pure_bind, Run.get_bind]
      cases checkValueLength .c t.values.size c.entryCount with
      | error e => rfl
      | ok u =>
        cases checkOperands c a.pattern b.pattern mask settings with
        | error e => rfl
        | ok u =>
          cases checkSlots slots b.pattern with
          | error e => rfl
          | ok u => rfl

/-- A product is the call on all slots of B. -/
theorem multiply_eq_multiplySlots (s : SemiringOps L R O) (c : Pattern) (a : SparseMatrix L)
    (mask : Option Mask) (settings : Settings) (hb : 0 < b.pattern.colPtr.size) :
    multiply s c a b mask settings =
      multiplySlots s c a b mask ⟨0, b.pattern.slotCount⟩ settings := by
  rw [multiply, allSlots_eq hb]
  rfl

theorem multiply_eq_checked {t : Buffers O} (hb : 0 < b.pattern.colPtr.size)
    (hroom : c.nRows ≤ t.slots.size) :
    multiply s c a b mask settings t =
      (do
        checkProduct c a b mask settings t.values.size
        Kernel.run (Accumulator.typed s a.values b.values)
          ⟨a.pattern, b.pattern, c, mask, settings.search⟩ ⟨0, b.pattern.slotCount⟩ 0 :
        Run (Buffers O) Counters) t := by
  rw [multiply_eq_multiplySlots s c a mask settings hb, multiplySlots_eq_checked, checkCall,
    checkSlots_all hb, checkWorkspace_eq_ok.2 hroom]
  cases checkProduct c a b mask settings t.values.size with
  | error e => rfl
  | ok u => rfl

end Call

namespace Operands

theorem covered_of_occupied {op : Operands} (wf : op.WellFormed)
    (occupied : ∀ j, op.c.Occupied j → op.b.Occupied j) (j : Nat) : op.covered j = true := by
  rw [covered, Bool.or_eq_true, Bool.not_eq_true']
  cases hempty : (op.c.columnSpan j).isEmpty with
  | true => exact Or.inl rfl
  | false => exact Or.inr (wf.b.occupied_iff.1 (occupied j (wf.c.occupied_iff.2 hempty)))

theorem mem_columnsOf {op : Operands} (wf : op.WellFormed) {j : Nat} (h : op.b.Occupied j) :
    j ∈ op.columnsOf ⟨0, op.b.slotCount⟩ := by
  obtain ⟨slot, hslot, rfl⟩ := wf.b.exists_slot_of_occupied h
  exact List.mem_map.2 ⟨slot, Span.mem_positions.2 ⟨Nat.zero_le _, hslot⟩, rfl⟩

theorem columnsOf_split (op : Operands) {slots : Span} {slot : Nat} (h : slot ∈ slots.positions) :
    ∃ earlier later : List Nat, op.columnsOf slots =
        earlier.map op.b.slotColumn ++ op.b.slotColumn slot :: later.map op.b.slotColumn ∧
      (∀ k ∈ earlier, k < slot) ∧ ∀ k ∈ later, slot < k ∧ k ∈ slots.positions := by
  obtain ⟨earlier, later, hsplit⟩ := List.append_of_mem h
  have hsorted : slots.positions.Pairwise (· < ·) := List.pairwise_lt_range'
  rw [hsplit, List.pairwise_append, List.pairwise_cons] at hsorted
  obtain ⟨-, ⟨hlater, -⟩, hearlier⟩ := hsorted
  refine ⟨earlier, later, ?_, fun k hk => hearlier k hk slot List.mem_cons_self, fun k hk => ?_⟩
  · rw [columnsOf, hsplit, List.map_append, List.map_cons]
  · rw [hsplit]
    exact ⟨hlater k hk, List.mem_append_right _ (List.mem_cons_of_mem _ hk)⟩

end Operands

/-! ### A small product

A and C are stored hypersparse and B sparse. C leaves out positions that the product reaches, and stores
one in column 2 that it does not reach. -/

namespace Sample

/-- A semiring in which the order of all operands matters. -/
def leftFold : SemiringOps Int Int Int where
  name := "left_fold"
  identity := 1
  multiply x y := .ok (x + 2 * y)
  accumulate x y := .ok (2 * x - y)

def a : SparseMatrix Int := ⟨⟨3, 3, #[0, 2, 4], some #[0, 2], #[0, 2, 1, 2], true⟩, #[5, -3, 7, 2]⟩

def b : SparseMatrix Int :=
  ⟨⟨3, 4, #[0, 2, 2, 3, 6], none, #[0, 2, 1, 0, 1, 2], true⟩, #[4, -1, 6, 3, 8, -2]⟩

def c : Pattern := ⟨3, 4, #[0, 2, 3, 5], some #[0, 2, 3], #[0, 1, 0, 1, 2], true⟩

/-- Marks (1, 0), (2, 0) and (2, 3); it stores (1, 3) as false. -/
def mask : Mask :=
  .valued ⟨3, 4, #[0, 2, 4], some #[0, 3], #[1, 2, 1, 2], true⟩ #[true, true, false, true]

theorem total_leftFold : leftFold.Total := ⟨fun _ _ => ⟨_, rfl⟩, fun _ _ => ⟨_, rfl⟩⟩

theorem accepted_of_mask {mask : Option Mask}
    (hmask : ∀ m ∈ mask, m.check 3 4 = .ok () ∧ m.pattern.check .mask = .ok ()) :
    Accepted c a.pattern b.pattern mask where
  finalized := ⟨rfl, rfl, rfl⟩
  rows := rfl
  columns := rfl
  inner := rfl
  vectors := by decide
  a_check := rfl
  b_check := rfl
  c_check := rfl
  mask := hmask

theorem occupied (j : Nat) (h : c.Occupied j) : b.pattern.Occupied j := by
  have hlt : j < 4 := (Pattern.wellFormed_of_check (show c.check .c = .ok () from rfl)).lt_of_occupied h
  have hall : ∀ j < 4, c.Occupied j → b.pattern.Occupied j := by decide +kernel
  exact hall j hlt h

end Sample

end SparseProduct
