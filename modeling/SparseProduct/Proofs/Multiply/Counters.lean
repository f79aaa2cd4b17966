import Mathlib.Data.Set.Card
import SparseProduct.Block.Multiply
import SparseProduct.Proofs.Multiply.Storage

/-!
# What the counters count

The counters of a run can be read off the patterns, the mask and the slots, before anything is computed. A
run does no work in a column without entries in C. In any other column of its slots it looks every entry of
B up once, clears and writes rows of C, and folds in one product for each entry of A that an entry of B
meets, as far as the mask admits them.
-/

namespace SparseProduct

/-! ### Counting -/

theorem ncard_eq_length {α : Type} {s : Set α} {xs : List α} (nodup : xs.Nodup)
    (h : ∀ x, x ∈ s ↔ x ∈ xs) : s.ncard = xs.length := by
  classical
  have hset : s = (xs.toFinset : Set α) := by
    ext x
    rw [h, List.coe_toFinset]
    rfl
  rw [hset, Set.ncard_coe_finset, List.toFinset_card_of_nodup nodup]

theorem ncard_eq_length_flatMap {α : Type} {s : Set α} {columns : List Nat} {f : Nat → List α}
    (nodup : columns.Nodup) (each : ∀ j ∈ columns, (f j).Nodup)
    (unique : ∀ j k x, x ∈ f j → x ∈ f k → j = k) (h : ∀ x, x ∈ s ↔ ∃ j ∈ columns, x ∈ f j) :
    s.ncard = (columns.flatMap f).length := by
  refine ncard_eq_length (List.nodup_flatMap.2 ⟨each, ?_⟩) fun x => (h x).trans List.mem_flatMap.symm
  refine nodup.imp fun {j k} hne x hj hk => ?_
  exact hne (unique j k x hj hk)

namespace Counters

/-- One of the slots of B holds the column, and C stores something in it. -/
def Computed (c b : Pattern) (slots : Span) (j : Nat) : Prop :=
  c.Occupied j ∧ ∃ slot, slots.start ≤ slot ∧ slot < slots.stop ∧ b.vectorId slot = .ok j

/-- What a run over some slots of B counts. Each of the sets is finite: slots are below the end of the run,
and positions are those of entries. -/
noncomputable def ofPatterns (c a b : Pattern) (mask : Option Mask) (slots : Span) : Counters where
  columnsComputed := Set.ncard {slot | slots.start ≤ slot ∧ slot < slots.stop ∧
    ∃ j, b.vectorId slot = .ok j ∧ c.Occupied j}
  columnsSkipped := Set.ncard {slot | slots.start ≤ slot ∧ slot < slots.stop ∧
    ¬ ∃ j, b.vectorId slot = .ok j ∧ c.Occupied j}
  locateCalls := Set.ncard {q | ∃ k j, Computed c b slots j ∧ b.Stores q k j}
  workspaceClears := Set.ncard {p | ∃ i j, Computed c b slots j ∧ c.Stores p i j ∧ Admitted mask i j}
  multiplyAdds := Set.ncard {pair : Nat × Nat | ∃ i k j, Computed c b slots j ∧
    a.Stores pair.1 i k ∧ b.Stores pair.2 k j ∧ Admitted mask i j}
  gathers := Set.ncard {p | ∃ i j, Computed c b slots j ∧ c.Stores p i j}

end Counters

namespace Operands

variable {op : Operands}

/-! ### The work of some columns -/

theorem length_clears (c : Pattern) (admits : Nat → Bool) (entries : List Nat) :
    (Kernel.clears c admits entries).length =
      (entries.filter fun p => admits (c.rowAt p)).length := by
  rw [Kernel.clears, List.length_map, List.filter_map, List.length_map]
  rfl

theorem work_of_busy {j : Nat} (hbusy : op.busy j = true) :
    op.work j = {
      columnsComputed := 1
      columnsSkipped := 0
      locateCalls := (op.b.columnSpan j).positions.length
      workspaceClears :=
        ((op.c.columnSpan j).positions.filter fun p => op.admits (op.c.rowAt p) j).length
      multiplyAdds := ((op.pairs j).filter fun pair => op.admits (op.a.rowAt pair.1) j).length
      gathers := (op.c.columnSpan j).positions.length } := by
  have hempty : (op.c.columnSpan j).isEmpty = false := by
    rwa [busy, Bool.not_eq_true'] at hbusy
  rw [work, hempty, length_clears, Kernel.products, List.length_map, Kernel.length_positions,
    Kernel.length_positions]
  rfl

theorem work_of_not_busy {j : Nat} (hbusy : ¬ op.busy j = true) : op.work j = .skippedColumn := by
  rw [busy, Bool.not_eq_true', Bool.not_eq_false] at hbusy
  rw [work, if_pos hbusy]

theorem work_eq_lengths (op : Operands) (columns : List Nat) :
    Task.work op columns = {
      columnsComputed := (columns.filter op.busy).length
      columnsSkipped := (columns.filter fun j => !op.busy j).length
      locateCalls := ((columns.filter op.busy).flatMap fun j => (op.b.columnSpan j).positions).length
      workspaceClears := ((columns.filter op.busy).flatMap fun j =>
        (op.c.columnSpan j).positions.filter fun p => op.admits (op.c.rowAt p) j).length
      multiplyAdds := ((columns.filter op.busy).flatMap fun j =>
        (op.pairs j).filter fun pair => op.admits (op.a.rowAt pair.1) j).length
      gathers := ((columns.filter op.busy).flatMap fun j => (op.c.columnSpan j).positions).length } := by
  induction columns with
  | nil => rfl
  | cons j columns ih =>
    have hcons : Task.work op (j :: columns) = op.work j + Task.work op columns := List.sum_cons
    rw [hcons, ih]
    by_cases hbusy : op.busy j = true
    · rw [work_of_busy hbusy, List.filter_cons_of_pos hbusy,
        List.filter_cons_of_neg (by simpa using hbusy)]
      simp only [List.flatMap_cons, List.length_append, List.length_cons]
      show Counters.mk _ _ _ _ _ _ = _
      rw [Nat.add_comm 1, Nat.zero_add]
    · rw [work_of_not_busy hbusy, List.filter_cons_of_neg hbusy,
        List.filter_cons_of_pos (by simpa using hbusy)]
      simp only [List.length_cons]
      show Counters.mk _ _ _ _ _ _ = _
      simp only [Counters.skippedColumn, Nat.zero_add, Nat.add_comm 1]

/-! ### Lists of what the counters count -/

theorem nodup_positions (span : Span) : span.positions.Nodup := List.nodup_range'

theorem nodup_pairs (op : Operands) (j : Nat) : (op.pairs j).Nodup := by
  refine List.nodup_flatMap.2 ⟨fun right _ => ?_, ?_⟩
  · exact (nodup_positions _).map fun left other h => congrArg Prod.fst h
  · refine (nodup_positions _).imp fun {right later} hne pair hright hlater => ?_
    obtain ⟨left, -, rfl⟩ := List.mem_map.1 hright
    obtain ⟨other, -, h⟩ := List.mem_map.1 hlater
    exact hne (congrArg Prod.snd h).symm

theorem ncard_slots (op : Operands) {slots : Span} {passes : Nat → Prop} (test : Nat → Bool)
    (h : ∀ slot < slots.stop, test (op.b.slotColumn slot) = true ↔ passes slot) :
    Set.ncard {slot | slots.start ≤ slot ∧ slot < slots.stop ∧ passes slot} =
      ((op.columnsOf slots).filter test).length := by
  rw [columnsOf, List.filter_map, List.length_map]
  refine ncard_eq_length ((nodup_positions slots).filter _) fun slot => ?_
  rw [List.mem_filter, Span.mem_positions, and_assoc, Function.comp_apply]
  exact and_congr_right fun _ => and_congr_right fun hlt => (h slot hlt).symm

section Lists

variable (wf : op.WellFormed) {slots : Span} (hslots : slots.stop ≤ op.b.slotCount)
include wf

theorem busy_iff {j : Nat} : op.busy j = true ↔ op.c.Occupied j := by
  rw [busy, Bool.not_eq_true', wf.c.occupied_iff]

include hslots

theorem vectorId_eq_ok {slot j : Nat} (h : slot < slots.stop) :
    op.b.vectorId slot = .ok j ↔ op.b.slotColumn slot = j := by
  rw [wf.b.vectorId_eq (Nat.lt_of_lt_of_le h hslots), Except.ok.injEq]

theorem busy_slotColumn (slot : Nat) (h : slot < slots.stop) :
    op.busy (op.b.slotColumn slot) = true ↔ ∃ j, op.b.vectorId slot = .ok j ∧ op.c.Occupied j := by
  simp only [vectorId_eq_ok wf hslots h, exists_eq_left', busy_iff wf]

theorem mem_computed {j : Nat} :
    j ∈ (op.columnsOf slots).filter op.busy ↔ Counters.Computed op.c op.b slots j := by
  rw [List.mem_filter, busy_iff wf, and_comm, columnsOf, List.mem_map]
  refine and_congr_right fun _ => exists_congr fun slot => ?_
  rw [Span.mem_positions, and_assoc]
  exact and_congr_right fun _ => and_congr_right fun hlt => (vectorId_eq_ok wf hslots hlt).symm

theorem ncard_entries {p : Pattern} (wfp : p.WellFormed) (passes : Nat → Nat → Prop)
    (test : Nat → Nat → Bool) (htest : ∀ i j, test i j = true ↔ passes i j) :
    Set.ncard {q | ∃ i j, Counters.Computed op.c op.b slots j ∧ p.Stores q i j ∧ passes i j} =
    (((op.columnsOf slots).filter op.busy).flatMap fun j =>
      (p.columnSpan j).positions.filter fun q => test (p.rowAt q) j).length := by
  refine ncard_eq_length_flatMap ((nodup_columnsOf wf.b hslots).filter _)
    (fun j _ => (nodup_positions _).filter _) (fun j k q hj hk => ?_) fun q => ?_
  · exact wfp.column_unique (List.mem_of_mem_filter hj) (List.mem_of_mem_filter hk)
  · simp only [mem_computed wf hslots, List.mem_filter, htest, Set.mem_ofPred_eq]
    constructor
    · rintro ⟨i, j, hj, hstores, hpasses⟩
      obtain ⟨hq, rfl⟩ := wfp.stores_iff.1 hstores
      exact ⟨j, hj, hq, hpasses⟩
    · rintro ⟨j, hj, hq, hpasses⟩
      exact ⟨_, j, hj, wfp.stores_iff.2 ⟨hq, rfl⟩, hpasses⟩

theorem ncard_all_entries {p : Pattern} (wfp : p.WellFormed) :
    Set.ncard {q | ∃ i j, Counters.Computed op.c op.b slots j ∧ p.Stores q i j} =
    (((op.columnsOf slots).filter op.busy).flatMap fun j => (p.columnSpan j).positions).length := by
  have h := ncard_entries wf hslots wfp (fun _ _ => True) (fun _ _ => true) fun _ _ => by simp
  simpa only [and_true, List.filter_true] using h

theorem ncard_pairs :
    Set.ncard {pair : Nat × Nat | ∃ i k j, Counters.Computed op.c op.b slots j ∧
      op.a.Stores pair.1 i k ∧ op.b.Stores pair.2 k j ∧ Admitted op.mask i j} =
    (((op.columnsOf slots).filter op.busy).flatMap fun j =>
      (op.pairs j).filter fun pair => op.admits (op.a.rowAt pair.1) j).length := by
  refine ncard_eq_length_flatMap ((nodup_columnsOf wf.b hslots).filter _)
    (fun j _ => (nodup_pairs op j).filter _) (fun j k pair hj hk => ?_) fun pair => ?_
  · exact wf.b.column_unique (mem_pairs.1 (List.mem_of_mem_filter hj)).1
      (mem_pairs.1 (List.mem_of_mem_filter hk)).1
  · simp only [mem_computed wf hslots, List.mem_filter, mem_pairs, wf.admits_iff, Set.mem_ofPred_eq]
    constructor
    · rintro ⟨i, k, j, hj, hstoresA, hstoresB, hadmitted⟩
      obtain ⟨hleft, rfl⟩ := wf.a.stores_iff.1 hstoresA
      obtain ⟨hright, rfl⟩ := wf.b.stores_iff.1 hstoresB
      exact ⟨j, hj, ⟨hright, hleft⟩, hadmitted⟩
    · rintro ⟨j, hj, ⟨hright, hleft⟩, hadmitted⟩
      exact ⟨_, _, j, hj, wf.a.stores_iff.2 ⟨hleft, rfl⟩, wf.b.stores_iff.2 ⟨hright, rfl⟩, hadmitted⟩

theorem work_eq_ofPatterns :
    Task.work op (op.columnsOf slots) = Counters.ofPatterns op.c op.a op.b op.mask slots := by
  have hcomputed := busy_slotColumn wf hslots
  have hskipped : ∀ slot < slots.stop, (!op.busy (op.b.slotColumn slot)) = true ↔
      ¬ ∃ j, op.b.vectorId slot = .ok j ∧ op.c.Occupied j := by
    intro slot hlt
    rw [Bool.not_eq_true', ← Bool.not_eq_true, hcomputed slot hlt]
  rw [work_eq_lengths, Counters.ofPatterns, ncard_slots op _ hcomputed,
    ncard_slots op (fun j => !op.busy j) hskipped, ncard_all_entries wf hslots wf.b,
    ncard_entries wf hslots wf.c _ op.admits fun _ _ => wf.admits_iff, ncard_pairs wf hslots,
    ncard_all_entries wf hslots wf.c]

end Lists

end Operands

/-! ### The report of a run -/

/-- Whatever the elements are and the buffers hold, a run that completes reports what the patterns say. -/
theorem Kernel.run_counters {σ : Type} {acc : Accumulator σ} {op : Operands} (wf : op.WellFormed)
    {slots : Span} (hslots : slots.stop ≤ op.b.slotCount) {before after : σ} {counters : Counters}
    (h : run acc op slots 0 before = .ok counters after) :
    counters = .ofPatterns op.c op.a op.b op.mask slots := by
  rw [run_eq acc wf hslots fun j _ entry _ => Nat.zero_le entry] at h
  cases hscript : acc.performAll (op.scriptAll 0 (op.columnsOf slots)) before with
  | error e t =>
    rw [Run.bind_of_error hscript] at h
    cases h
  | ok u t =>
    rw [Run.bind_of_ok hscript] at h
    cases hreport : op.report (op.columnsOf slots) .zero with
    | error e =>
      rw [hreport] at h
      cases h
    | ok total =>
      rw [hreport] at h
      cases h
      rw [Task.report_eq (Operands.covered_of_report hreport), Except.ok.injEq] at hreport
      rw [← hreport, ← Operands.work_eq_ofPatterns wf hslots]
      exact zero_add _

theorem runChecked_counters {σ : Type} {acc : Accumulator σ} {op : Operands} (wf : op.WellFormed)
    {slots : Span} {settings : Settings} {before after : σ} {counters : Counters}
    (h : runChecked acc op slots settings before = .ok counters after) :
    counters = .ofPatterns op.c op.a op.b op.mask slots := by
  simp only [runChecked, Run.lift_bind_eq_ok, Run.get_bind] at h
  obtain ⟨_, -, _, hslots, _, -, h⟩ := h
  exact Kernel.run_counters wf ((checkSlots_eq_ok wf.b.size_colPtr_pos).1 hslots).2 h

theorem multiplyBlocks_counters {s : BlockSemiring} {c : Pattern} {elemSize : Nat} {x y : BlockMatrix}
    {mask : Option Mask} {settings : Settings}
    (wf : (Operands.mk x.pattern y.pattern c mask settings.search).WellFormed)
    {before after : BlockBuffers} {counters : Counters}
    (h : multiplyBlocks s c elemSize x y mask settings before = .ok counters after) :
    counters = .ofPatterns c x.pattern y.pattern mask ⟨0, y.pattern.slotCount⟩ := by
  simp only [multiplyBlocks, Run.lift_bind_eq_ok, Run.get_bind, allSlots_eq wf.b.size_colPtr_pos] at h
  obtain ⟨_, -, _, -, _, -, _, -, _, -, _, -, _, -, slots, hslots, h⟩ := h
  cases hslots
  exact runChecked_counters wf h

/-- The counters of every run over accepted patterns are those that can be read off them. If B stores
something in every column that C does, and no operation on elements fails, every call on some slots of B
completes. The elements, the semiring, the mode of search and what the buffers hold make no difference,
and neither does it if the elements are blocks of bytes. -/
theorem multiply_counters {c a b : Pattern} {mask : Option Mask} (accepted : Accepted c a b mask)
    (occupied : ∀ j, c.Occupied j → b.Occupied j) :
    (∀ {L R O : Type} (s : SemiringOps L R O) (left : Array L) (right : Array R) (settings : Settings)
        (before : Buffers O), s.Total → left.size = a.entryCount → right.size = b.entryCount →
      before.values.size = c.entryCount → c.nRows ≤ before.slots.size →
      (∃ after, multiply s c ⟨a, left⟩ ⟨b, right⟩ mask settings before =
        .ok (.ofPatterns c a b mask ⟨0, b.slotCount⟩) after) ∧
      ∀ slots : Span, slots.start ≤ slots.stop → slots.stop ≤ b.slotCount →
        ∃ after, multiplySlots s c ⟨a, left⟩ ⟨b, right⟩ mask slots settings before =
          .ok (.ofPatterns c a b mask slots) after) ∧
    (∀ {σ : Type} {acc : Accumulator σ} {search : SearchMode} {slots : Span} {settings : Settings}
        {before after : σ} {counters : Counters},
      runChecked acc ⟨a, b, c, mask, search⟩ slots settings before = .ok counters after →
      counters = .ofPatterns c a b mask slots) ∧
    ∀ {s : BlockSemiring} {elemSize : Nat} {x y : BlockMatrix} {settings : Settings}
        {before after : BlockBuffers} {counters : Counters}, x.pattern = a → y.pattern = b →
      multiplyBlocks s c elemSize x y mask settings before = .ok counters after →
      counters = .ofPatterns c a b mask ⟨0, b.slotCount⟩ := by
  refine ⟨?_, fun h => ?_, ?_⟩
  · intro L R O s left right settings before total hleft hright hvalues hroom
    have wf := accepted.wellFormed settings.search
    have hcall : ∀ slots : Span, slots.start ≤ slots.stop → slots.stop ≤ b.slotCount →
        ∃ after, multiplySlots s c ⟨a, left⟩ ⟨b, right⟩ mask slots settings before =
          .ok (.ofPatterns c a b mask slots) after := by
      intro slots hle hslots
      have hcheck : checkCall c ⟨a, left⟩ ⟨b, right⟩ mask slots settings before.values.size
          before.slots.size = .ok () :=
        checkCall_eq_ok.2 ⟨checkProduct_eq_ok.2 ⟨hleft, hright, hvalues, accepted.checkOperands_eq _⟩,
          (checkSlots_eq_ok wf.b.size_colPtr_pos).2 ⟨hle, hslots⟩, hroom⟩
      obtain ⟨value, hvalue⟩ := wf.exists_columnValues total hleft hright
      obtain ⟨after, hrun, -⟩ := multiplySlots_of_covered total wf hcheck hvalue fun j _ =>
        Operands.covered_of_occupied wf occupied j
      exact ⟨after, hrun.trans (congrArg (EStateM.Result.ok · after)
        (Operands.work_eq_ofPatterns wf hslots))⟩
    refine ⟨?_, hcall⟩
    rw [multiply_eq_multiplySlots s c _ mask settings wf.b.size_colPtr_pos]
    exact hcall ⟨0, b.slotCount⟩ (Nat.zero_le _) (Nat.le_refl _)
  · exact runChecked_counters (accepted.wellFormed _) h
  · rintro s elemSize x y settings before after counters rfl rfl h
    exact multiplyBlocks_counters (accepted.wellFormed _) h

/-- C stores something in three of the four columns of the small product, and in one of the two that slots
1 and 2 of B hold. -/
theorem multiply_counters_leftFold :
    Counters.ofPatterns Sample.c Sample.a.pattern Sample.b.pattern (some Sample.mask) ⟨0, 4⟩ =
      ⟨3, 1, 6, 2, 5, 5⟩ ∧
    Counters.ofPatterns Sample.c Sample.a.pattern Sample.b.pattern (some Sample.mask) ⟨1, 3⟩ =
      ⟨1, 1, 1, 0, 0, 1⟩ := by
  have accepted : Accepted Sample.c Sample.a.pattern Sample.b.pattern (some Sample.mask) :=
    Sample.accepted_of_mask fun m hm => by cases hm; exact ⟨rfl, rfl⟩
  obtain ⟨⟨after, hall⟩, hslots⟩ := (multiply_counters accepted Sample.occupied).1 Sample.leftFold
    Sample.a.values Sample.b.values (.standard 1) ⟨#[70, 71, 72, 73, 74], #[90, 91, 92]⟩
    Sample.total_leftFold rfl rfl rfl (by decide)
  obtain ⟨part, hpart⟩ := hslots ⟨1, 3⟩ (by decide) (by decide)
  have hrun : multiply Sample.leftFold Sample.c Sample.a Sample.b (some Sample.mask) (.standard 1)
      ⟨#[70, 71, 72, 73, 74], #[90, 91, 92]⟩ =
        .ok ⟨3, 1, 6, 2, 5, 5⟩ ⟨#[1, -3, 1, 1, 0], #[90, -3, 0]⟩ := by cbv
  have hslice : multiplySlots Sample.leftFold Sample.c Sample.a Sample.b (some Sample.mask) ⟨1, 3⟩
      (.standard 1) ⟨#[70, 71, 72, 73, 74], #[90, 91, 92]⟩ =
        .ok ⟨1, 1, 1, 0, 0, 1⟩ ⟨#[70, 71, 1, 73, 74], #[90, 91, 92]⟩ := by cbv
  exact ⟨(EStateM.Result.ok.inj (hall.symm.trans hrun)).1,
    (EStateM.Result.ok.inj (hpart.symm.trans hslice)).1⟩

end SparseProduct
