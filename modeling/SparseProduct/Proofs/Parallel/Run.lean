import Mathlib.Data.List.TakeWhile
import SparseProduct.Proofs.Kernel.Typed
import SparseProduct.Proofs.Parallel.Cut
import SparseProduct.Proofs.Parallel.Reports
import SparseProduct.Proofs.Splice

/-!
# Running tasks in any order

A task fills in the columns that its slots hold, whatever its workspace held, and leaves all other values
of C alone. So a list of tasks fills in the columns of all of them, and neither the order of the tasks nor
the workspaces they run in can be told from the values they leave.
-/

namespace SparseProduct

variable {L R O : Type}

namespace Task

theorem filled_splice {op : Operands} {entry : Nat → Nat → O} {columns : List Nat}
    {values part : Array O} {span : Span} (hle : span.start ≤ span.stop)
    (hstop : span.stop ≤ values.size)
    (hcolumns : ∀ j ∈ columns, ∀ p ∈ (op.c.columnSpan j).positions, span.start ≤ p ∧ p < span.stop)
    (h : Filled op entry span.start columns (values.extract span.start span.stop) part) :
    Filled op entry 0 columns values (splice values span part) := by
  show Filled op entry 0 columns values (span.splice values part)
  have hpart : part.size = span.stop - span.start := by
    rw [h.size, Array.size_extract, Nat.min_eq_left hstop]
  refine ⟨Span.size_splice hle hstop hpart, fun j hj p hp => ?_, fun q hq => ?_⟩
  · rw [Nat.sub_zero, Span.getElem?_splice hle hstop hpart, if_pos (hcolumns j hj p hp)]
    exact h.inside j hj p hp
  · rw [Span.getElem?_splice hle hstop hpart]
    split
    · next hin =>
      have hback : q - span.start + span.start = q := Nat.sub_add_cancel hin.1
      have hkept : ∀ j ∈ columns, q - span.start + span.start ∉ (op.c.columnSpan j).positions := by
        rw [hback]
        exact hq
      rw [h.outside _ hkept, Array.getElem?_extract, if_pos (by omega), Nat.add_sub_cancel' hin.1]
    · rfl

variable {op : Operands} {s : SemiringOps L R O} {left : Array L} {right : Array R}

def work (op : Operands) (columns : List Nat) : Counters := (columns.map op.work).sum

theorem work_flatMap {α : Type} (op : Operands) (xs : List α) (columns : α → List Nat) :
    work op (xs.flatMap columns) = (xs.map fun x => work op (columns x)).sum := by
  induction xs with
  | nil => rfl
  | cons x xs ih =>
    rw [List.flatMap_cons, work, List.map_append, List.sum_append, List.map_cons, List.sum_cons, ← ih]
    rfl

theorem report_eq {columns : List Nat} (covered : ∀ j ∈ columns, op.covered j = true)
    (counters : Counters) : op.report columns counters = .ok (counters + work op columns) := by
  induction columns generalizing counters with
  | nil => exact congrArg Except.ok (add_zero counters).symm
  | cons j columns ih =>
    rw [Operands.report_cons, if_pos (covered j List.mem_cons_self),
      ih fun k hk => covered k (List.mem_cons_of_mem _ hk), work, work, List.map_cons, List.sum_cons,
      add_assoc]

theorem run_filled (wf : op.WellFormed) (total : s.Total) (hleft : left.size = op.a.entryCount)
    (hright : right.size = op.b.entryCount) {value : Nat → Nat → O}
    (hvalue : ∀ j, op.columnValues s left right j = .ok (value j)) {tasks t : Nat} (ht : t < tasks)
    (covered : ∀ j ∈ op.columnsOf (nth op.c op.b tasks t).slots, op.covered j = true)
    {workspace : Array O} (hroom : op.c.nRows ≤ workspace.size) {values : Array O}
    (hvalues : values.size = op.c.entryCount) :
    ∃ after, (nth op.c op.b tasks t).run s op left right workspace values =
        .ok (work op (op.columnsOf (nth op.c op.b tasks t).slots)) after ∧
      Filled op (op.entryValue s.identity value) 0 (op.columnsOf (nth op.c op.b tasks t).slots)
        values after := by
  have hle : (nth op.c op.b tasks t).output.start ≤ (nth op.c op.b tasks t).output.stop :=
    bound_mono wf.c wf.b wf.columns (firstSlot_mono _ _ (Nat.le_succ t))
  have hstop : (nth op.c op.b tasks t).output.stop ≤ values.size :=
    hvalues ▸ bound_le wf.c wf.b wf.columns _
  have hslots : (nth op.c op.b tasks t).slots.stop ≤ op.b.slotCount := firstSlot_le ht
  have hcolumns : ∀ j ∈ op.columnsOf (nth op.c op.b tasks t).slots,
      ∀ p ∈ (op.c.columnSpan j).positions,
        (nth op.c op.b tasks t).output.start ≤ p ∧ p < (nth op.c op.b tasks t).output.stop := by
    intro j hj p hp
    obtain ⟨slot, hslot, rfl⟩ := List.mem_map.1 hj
    have hin := Span.mem_positions.1 hslot
    exact mem_bounds wf.c wf.b wf.columns hin.1 hin.2 (Nat.lt_of_lt_of_le hin.2 hslots) hp
  generalize nth op.c op.b tasks t = task at *
  have hbase : ∀ j ∈ op.columnsOf task.slots, ∀ p ∈ (op.c.columnSpan j).positions,
      task.output.start ≤ p ∧
        p < task.output.start + (values.extract task.output.start task.output.stop).size := by
    intro j hj p hp
    have := hcolumns j hj p hp
    rw [Array.size_extract]
    omega
  obtain ⟨after, hrun, hfilled, -⟩ := Kernel.run_typed
    (t := ⟨values.extract task.output.start task.output.stop, workspace⟩) wf hleft hright task.slots
    hslots (fun j _ => Or.inl total) (fun j _ => hvalue j) task.output.start hroom hbase
  rw [report_eq covered] at hrun
  rw [(List.takeWhile_eq_self_iff).2 covered] at hfilled
  refine ⟨splice values task.output after.values, ?_, filled_splice hle hstop hcolumns hfilled⟩
  rw [run, hrun]
  exact congrArg (EStateM.Result.ok · _) (zero_add _)

/-- Tasks that run one after another, in any order and each in any workspace, fill in the columns that the
slots of all of them hold. -/
theorem runAll_filled (wf : op.WellFormed) (total : s.Total) (hleft : left.size = op.a.entryCount)
    (hright : right.size = op.b.entryCount) {value : Nat → Nat → O}
    (hvalue : ∀ j, op.columnValues s left right j = .ok (value j)) {tasks : Nat}
    {runs : List (Task × Array O)}
    (hruns : ∀ run ∈ runs, (∃ t < tasks, run.1 = nth op.c op.b tasks t) ∧
      (∀ j ∈ op.columnsOf run.1.slots, op.covered j = true) ∧ op.c.nRows ≤ run.2.size)
    {values : Array O} (hvalues : values.size = op.c.entryCount) :
    ∃ after, runAll s op left right runs values =
        .ok (runs.map fun run => work op (op.columnsOf run.1.slots)) after ∧
      Filled op (op.entryValue s.identity value) 0
        (runs.flatMap fun run => op.columnsOf run.1.slots) values after := by
  induction runs generalizing values with
  | nil => exact ⟨values, rfl, rfl, nofun, fun _ _ => rfl⟩
  | cons run runs ih =>
    obtain ⟨task, workspace⟩ := run
    obtain ⟨⟨t, ht, heq⟩, covered, hroom⟩ := hruns (task, workspace) List.mem_cons_self
    simp only at heq covered hroom
    subst heq
    obtain ⟨next, hrun, hfilled⟩ :=
      run_filled wf total hleft hright hvalue ht covered hroom hvalues
    obtain ⟨after, hrest, hmore⟩ := ih (fun run h => hruns run (List.mem_cons_of_mem _ h))
      (hfilled.size.trans hvalues)
    refine ⟨after, ?_, hfilled.append wf (fun _ _ _ _ => Nat.zero_le _) hmore⟩
    rw [runAll, Run.bind_of_ok hrun, Run.bind_of_ok hrest]
    rfl

end Task

end SparseProduct
