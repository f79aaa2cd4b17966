import Mathlib
import SparseProduct.Proofs.Multiply.Accepted
import SparseProduct.Proofs.Parallel.Run
import SparseProduct.Proofs.Refusals

/-!
# The parallel product refines the sequential one

A schedule says in which order the tasks of a parallel product run, what the workspace of each holds when
it starts, and in which tree their reports are added up. Under every schedule the product leaves the
values and the report that it leaves without tasks, and reports the same broken contract if there is one.
-/

namespace SparseProduct

/-- How the tasks of a product are run. -/
structure Schedule (α : Type) where
  /-- The tasks by their index, in the order in which they run. -/
  order : List Nat
  /-- The contents of the workspace in which a task runs. -/
  held : Nat → Array α
  /-- The tree in which the reports are added up, each known by its place in the order. -/
  reduction : Reduction

namespace Schedule

variable {α : Type}

/-- Every task runs once in a workspace with a slot for every row, and every report is added once. -/
structure Fits (schedule : Schedule α) (tasks nRows : Nat) : Prop where
  order : schedule.order.Perm (List.range tasks)
  held : ∀ t, (schedule.held t).size = nRows
  reduction : schedule.reduction.indices.Perm (List.range tasks)

/-- The tasks as they run, each with its workspace. -/
def runs (schedule : Schedule α) (tasks : List Task) : List (Task × Array α) :=
  schedule.order.filterMap fun t => tasks[t]?.map fun task => (task, schedule.held t)

theorem filterMap_range (xs : List α) : (List.range xs.length).filterMap (xs[·]?) = xs := by
  induction xs with
  | nil => rfl
  | cons x xs ih =>
    rw [List.length_cons, List.range_succ_eq_map, List.filterMap_cons, List.filterMap_map]
    exact congrArg (x :: ·) ih

theorem Fits.runs_perm {schedule : Schedule α} {tasks : List Task} {nRows : Nat}
    (h : schedule.Fits tasks.length nRows) : ((schedule.runs tasks).map (·.1)).Perm tasks := by
  have htasks : (schedule.runs tasks).map (·.1) = schedule.order.filterMap (tasks[·]?) := by
    rw [runs, List.map_filterMap]
    refine congrArg (List.filterMap · schedule.order) (funext fun t => ?_)
    cases tasks[t]? <;> rfl
  rw [htasks]
  exact (h.order.filterMap _).trans (List.Perm.of_eq (filterMap_range tasks))

theorem Fits.size_of_mem {schedule : Schedule α} {tasks : List Task} {count nRows : Nat}
    (h : schedule.Fits count nRows) {run : Task × Array α} (hrun : run ∈ schedule.runs tasks) :
    run.2.size = nRows := by
  obtain ⟨t, -, hsome⟩ := List.mem_filterMap.1 hrun
  obtain ⟨task, -, rfl⟩ := Option.map_eq_some_iff.1 hsome
  exact h.held t

end Schedule

variable {L R O : Type}

/-- The parallel product, when `runs` says in which order and workspaces the tasks run, and `add` how
their reports are added up. -/
def multiplyTasks (s : SemiringOps L R O) (c : Pattern) (a : SparseMatrix L) (b : SparseMatrix R)
    (mask : Option Mask) (settings : Settings) (runs : List Task → List (Task × Array O))
    (add : List Counters → Counters) : Run (Array O) Counters := do
  checkValueLength .a a.values.size a.pattern.entryCount
  checkValueLength .b b.values.size b.pattern.entryCount
  checkValueLength .c (← get).size c.entryCount
  checkOperands c a.pattern b.pattern mask settings
  let tasks ← Task.cut c b.pattern settings
  let reports ← Task.runAll s ⟨a.pattern, b.pattern, c, mask, settings.search⟩ a.values b.values
    (runs tasks)
  return add reports

def multiplyScheduled (s : SemiringOps L R O) (c : Pattern) (a : SparseMatrix L) (b : SparseMatrix R)
    (mask : Option Mask) (settings : Settings) (schedule : Schedule O) : Run (Array O) Counters :=
  multiplyTasks s c a b mask settings schedule.runs schedule.reduction.total

theorem multiplyParallel_eq (s : SemiringOps L R O) (c : Pattern) (a : SparseMatrix L)
    (b : SparseMatrix R) (mask : Option Mask) (settings : Settings) :
    multiplyParallel s c a b mask settings = multiplyTasks s c a b mask settings
      (fun tasks => tasks.map fun task => (task, Buffers.workspace c.nRows s.identity))
      (·.foldl (· + ·) .zero) := rfl

namespace Task

variable {op : Operands} {s : SemiringOps L R O} {left : Array L} {right : Array R}

theorem columnsOf_tasks (op : Operands) (tasks n : Nat) :
    ((List.range n).map (nth op.c op.b tasks)).flatMap (fun task => op.columnsOf task.slots) =
      op.columnsOf ⟨0, firstSlot op.b.slotCount tasks n⟩ := by
  induction n with
  | zero =>
    rw [firstSlot_zero]
    rfl
  | succ n ih =>
    have hmono := firstSlot_mono op.b.slotCount tasks (Nat.le_succ n)
    rw [List.range_succ, List.map_append, List.flatMap_append, ih]
    simp only [List.map_singleton, List.flatMap_singleton, Operands.columnsOf, nth, Span.positions,
      Span.length, Nat.sub_zero, ← List.map_append]
    have hrange := List.range'_append_1 (s := 0) (m := firstSlot op.b.slotCount tasks n)
      (n := firstSlot op.b.slotCount tasks (n + 1) - firstSlot op.b.slotCount tasks n)
    rw [Nat.zero_add, Nat.add_sub_cancel' hmono] at hrange
    rw [hrange]

/-- However all tasks run, they leave the values that filling in every column leaves, and their reports
add up to the work of every column. -/
theorem runAll_eq (wf : op.WellFormed) (total : s.Total) (hleft : left.size = op.a.entryCount)
    (hright : right.size = op.b.entryCount) {value : Nat → Nat → O}
    (hvalue : ∀ j, op.columnValues s left right j = .ok (value j)) {tasks : Nat}
    (htasks : tasks = 0 ↔ op.b.slotCount = 0)
    (covered : ∀ j ∈ op.columnsOf ⟨0, op.b.slotCount⟩, op.covered j = true)
    {runs : List (Task × Array O)}
    (hruns : (runs.map (·.1)).Perm ((List.range tasks).map (nth op.c op.b tasks)))
    (hroom : ∀ run ∈ runs, op.c.nRows ≤ run.2.size) {values after : Array O}
    (hvalues : values.size = op.c.entryCount)
    (hfilled : Filled op (op.entryValue s.identity value) 0 (op.columnsOf ⟨0, op.b.slotCount⟩)
      values after) :
    ∃ reports, runAll s op left right runs values = .ok reports after ∧ reports.length = tasks ∧
      reports.sum = work op (op.columnsOf ⟨0, op.b.slotCount⟩) := by
  have hlast : firstSlot op.b.slotCount tasks tasks = op.b.slotCount := by
    rcases Nat.eq_zero_or_pos tasks with hzero | hpos
    · rw [htasks.1 hzero, hzero]
      rfl
    · exact firstSlot_last hpos _
  have hcolumns := columnsOf_tasks op tasks tasks
  rw [hlast] at hcolumns
  have hmem : ∀ j, j ∈ op.columnsOf ⟨0, op.b.slotCount⟩ ↔
      j ∈ runs.flatMap fun run => op.columnsOf run.1.slots := by
    intro j
    rw [← hcolumns, ← (hruns.flatMap_right _).mem_iff, List.flatMap_map]
  have hall : ∀ run ∈ runs, (∃ t < tasks, run.1 = nth op.c op.b tasks t) ∧
      (∀ j ∈ op.columnsOf run.1.slots, op.covered j = true) ∧ op.c.nRows ≤ run.2.size := by
    intro run hin
    obtain ⟨t, ht, heq⟩ := List.mem_map.1 (hruns.mem_iff.1 (List.mem_map_of_mem hin))
    refine ⟨⟨t, List.mem_range.1 ht, heq.symm⟩, fun j hj => ?_, hroom run hin⟩
    exact covered j ((hmem j).2 (List.mem_flatMap.2 ⟨run, hin, hj⟩))
  obtain ⟨last, hrun, hlastFilled⟩ :=
    runAll_filled wf total hleft hright hvalue hall hvalues
  refine ⟨runs.map fun run => work op (op.columnsOf run.1.slots), ?_, ?_, ?_⟩
  · rw [hrun, hlastFilled.unique hfilled fun j => (hmem j).symm]
  · have := hruns.length_eq
    simp only [List.length_map, List.length_range] at this
    rw [List.length_map, this]
  · rw [← hcolumns, work_flatMap, ← (hruns.map _).sum_eq, List.map_map]
    rfl

end Task

section Refinement

variable {s : SemiringOps L R O} {c : Pattern} {a : SparseMatrix L} {b : SparseMatrix R}
  {mask : Option Mask} {settings : Settings}

theorem multiplyTasks_eq_checked {runs : List Task → List (Task × Array O)}
    {add : List Counters → Counters} (values : Array O) :
    multiplyTasks s c a b mask settings runs add values = (do
      checkProduct c a b mask settings values.size
      let tasks ← Task.cut c b.pattern settings
      let reports ← Task.runAll s ⟨a.pattern, b.pattern, c, mask, settings.search⟩ a.values b.values
        (runs tasks)
      return add reports : Run (Array O) Counters) values := by
  simp only [multiplyTasks, checkProduct, Run.lift_bind, bind_assoc]
  cases checkValueLength .a a.values.size a.pattern.entryCount with
  | error e => rfl
  | ok u =>
    cases checkValueLength .b b.values.size b.pattern.entryCount with
    | error e => rfl
    | ok u => simp only [Run.lift_ok, pure_bind, Run.get_bind]

/-- However its tasks are run, a parallel product does what a product that completes does. -/
theorem multiplyTasks_eq_multiply (total : s.Total) (ha : a.pattern.check .a = .ok ())
    (hb : b.pattern.check .b = .ok ()) (hc : c.check .c = .ok ())
    (hmask : ∀ m ∈ mask, m.pattern.check .mask = .ok ())
    (hthreads : 4 * settings.threads < Size.limit)
    (hfit : ∀ tasks, settings.taskCount b.pattern.slotCount = .ok tasks →
      tasks * b.pattern.slotCount < Size.limit)
    {before after : Buffers O} {counters : Counters} (hroom : c.nRows ≤ before.slots.size)
    (h : multiply s c a b mask settings before = .ok counters after)
    {runs : List Task → List (Task × Array O)} {add : List Counters → Counters}
    (hruns : ∀ tasks, Task.cut c b.pattern settings = .ok tasks →
      ((runs tasks).map (·.1)).Perm tasks ∧ (∀ run ∈ runs tasks, c.nRows ≤ run.2.size) ∧
      ∀ reports : List Counters, reports.length = tasks.length → add reports = reports.sum) :
    multiplyTasks s c a b mask settings runs add before.values = .ok counters after.values := by
  have wfb := Pattern.wellFormed_of_check hb
  rw [multiply_eq_checked wfb.size_colPtr_pos hroom, Run.lift_bind_eq_ok] at h
  obtain ⟨⟨⟩, hchecks, hrun⟩ := h
  obtain ⟨hleft, hright, hvalues, hoperands⟩ := checkProduct_eq_ok.1 hchecks
  have wf := (Accepted.of_checkOperands hoperands ha hb hc hmask).wellFormed settings.search
  obtain ⟨value, hvalue⟩ := wf.exists_columnValues total hleft hright
  obtain ⟨last, heq, hfilled, -⟩ := Kernel.run_typed (t := before) wf hleft hright
    ⟨0, b.pattern.slotCount⟩ (Nat.le_refl _) (fun j _ => Or.inl total) (fun j _ => hvalue j) 0 hroom
    fun j _ p hp => wf.entry_lt hvalues hp
  rw [heq] at hrun
  generalize hreport : Operands.report _ _ _ = report at hrun
  cases report with
  | error e => cases hrun
  | ok sum =>
    cases hrun
    have covered := Operands.covered_of_report hreport
    rw [Task.report_eq covered, Except.ok.injEq] at hreport
    rw [(List.takeWhile_eq_self_iff).2 covered] at hfilled
    obtain ⟨tasks, htasks, hzero⟩ := Settings.taskCount_eq hthreads b.pattern.slotCount
    have hcut := Task.cut_eq wf.c wfb wf.columns htasks (hfit tasks htasks)
    obtain ⟨hperm, hworkspaces, hadd⟩ := hruns _ hcut
    obtain ⟨reports, hall, hlength, hsum⟩ := Task.runAll_eq wf total hleft hright hvalue hzero covered
      hperm hworkspaces hvalues hfilled
    rw [multiplyTasks_eq_checked, Run.lift_bind_eq_ok]
    refine ⟨(), hchecks, ?_⟩
    rw [Run.lift_bind_eq_ok]
    refine ⟨_, hcut, ?_⟩
    rw [Run.bind_of_ok hall, hadd reports (by simpa using hlength), hsum, ← hreport]
    exact congrArg (EStateM.Result.ok · _) (zero_add _).symm

theorem multiplyTasks_refuses_iff (total : s.Total) (hb : 0 < b.pattern.colPtr.size)
    {before : Buffers O} (hroom : c.nRows ≤ before.slots.size)
    (runs : List Task → List (Task × Array O)) (add : List Counters → Counters) (e : ContractError) :
    (∃ after, multiply s c a b mask settings before = .error (.contract e) after) ↔
      ∃ after, multiplyTasks s c a b mask settings runs add before.values =
        .error (.contract e) after := by
  rw [multiply_eq_checked hb hroom, multiplyTasks_eq_checked]
  cases checkProduct c a b mask settings before.values.size with
  | error failure =>
    constructor
    · rintro ⟨after, h⟩
      cases h
      exact ⟨_, rfl⟩
    · rintro ⟨after, h⟩
      cases h
      exact ⟨_, rfl⟩
  | ok u =>
    have hrun := Kernel.run_neverRefuses (Accumulator.typed_neverRefuses total a.values b.values)
      ⟨a.pattern, b.pattern, c, mask, settings.search⟩ ⟨0, b.pattern.slotCount⟩ 0
    have htasks : Run.NeverRefuses (do
        let tasks ← Task.cut c b.pattern settings
        let reports ← Task.runAll s ⟨a.pattern, b.pattern, c, mask, settings.search⟩ a.values
          b.values (runs tasks)
        return add reports : Run (Array O) Counters) :=
      (Run.NeverRefuses.lift (.taskCut _ _ _)).bind fun _ =>
        (Task.runAll_neverRefuses total _ _ _ _).bind fun _ => .pure _
    constructor
    · rintro ⟨after, h⟩
      exact absurd h (hrun _ _ _)
    · rintro ⟨after, h⟩
      exact absurd h (htasks _ _ _)

end Refinement

/-- Whenever a product completes, the parallel product completes with the same values and the same report,
under every schedule. On any operands, well formed or not, the two report the same broken contract. -/
theorem multiplyParallel_refines {s : SemiringOps L R O} (total : s.Total) (c : Pattern)
    (a : SparseMatrix L) (b : SparseMatrix R) (mask : Option Mask) (settings : Settings)
    {before : Buffers O} (hroom : before.slots.size = c.nRows) :
    (a.pattern.check .a = .ok () → b.pattern.check .b = .ok () → c.check .c = .ok () →
      (∀ m ∈ mask, m.pattern.check .mask = .ok ()) → 4 * settings.threads < Size.limit →
      (∀ tasks, settings.taskCount b.pattern.slotCount = .ok tasks →
        tasks * b.pattern.slotCount < Size.limit) →
      ∀ counters after, multiply s c a b mask settings before = .ok counters after →
        multiplyParallel s c a b mask settings before.values = .ok counters after.values ∧
        ∀ schedule : Schedule O,
          (∀ tasks, Task.cut c b.pattern settings = .ok tasks →
            schedule.Fits tasks.length c.nRows) →
          multiplyScheduled s c a b mask settings schedule before.values =
            .ok counters after.values) ∧
    (0 < b.pattern.colPtr.size → ∀ e,
      ((∃ after, multiply s c a b mask settings before = .error (.contract e) after) ↔
        ∃ after, multiplyParallel s c a b mask settings before.values =
          .error (.contract e) after) ∧
      ∀ schedule : Schedule O,
        (∃ after, multiply s c a b mask settings before = .error (.contract e) after) ↔
          ∃ after, multiplyScheduled s c a b mask settings schedule before.values =
            .error (.contract e) after) := by
  have hle : c.nRows ≤ before.slots.size := Nat.le_of_eq hroom.symm
  refine ⟨fun ha hb hc hmask hthreads hfit counters after h => ⟨?_, fun schedule hfits => ?_⟩,
    fun hb e => ⟨?_, fun schedule => ?_⟩⟩
  · rw [multiplyParallel_eq]
    refine multiplyTasks_eq_multiply total ha hb hc hmask hthreads hfit hle h fun tasks _ =>
      ⟨?_, fun run hrun => ?_, fun reports _ => ?_⟩
    · rw [List.map_map]
      exact List.Perm.of_eq (List.map_id' tasks)
    · obtain ⟨task, -, rfl⟩ := List.mem_map.1 hrun
      exact Nat.le_of_eq Array.size_replicate.symm
    · exact (Counters.foldl_add reports .zero).trans (zero_add _)
  · refine multiplyTasks_eq_multiply total ha hb hc hmask hthreads hfit hle h fun tasks hcut =>
      ⟨(hfits tasks hcut).runs_perm, fun run hrun => ?_, fun reports hlength => ?_⟩
    · exact Nat.le_of_eq ((hfits tasks hcut).size_of_mem hrun).symm
    · exact Reduction.total_eq_sum (hlength ▸ (hfits tasks hcut).reduction)
  · rw [multiplyParallel_eq]
    exact multiplyTasks_refuses_iff total hb hle _ _ e
  · exact multiplyTasks_refuses_iff total hb hle _ _ e

/-- Four tasks of one slot each, run out of order in workspaces that hold anything; and a pattern with
work pending, which no schedule accepts. -/
theorem multiplyParallel_refines_leftFold :
    multiplyScheduled Sample.leftFold Sample.c Sample.a Sample.b (some Sample.mask)
        ⟨.trimmed, 2, true, 1⟩
        ⟨[2, 0, 3, 1], fun t => #[40, t, 41],
          .join (.join (.report 3) .empty) (.join (.report 0) (.join (.report 2) (.report 1)))⟩
        #[70, 71, 72, 73, 74] =
      .ok ⟨3, 1, 6, 2, 5, 5⟩ #[1, -3, 1, 1, 0] ∧
    ∀ schedule : Schedule Int, ∃ after,
      multiplyScheduled Sample.leftFold { Sample.c with finalized := false } Sample.a Sample.b none
        (.standard 1) schedule #[70, 71, 72, 73, 74] =
      .error (.contract .patternNotFinalized) after := by
  have hrun : multiply Sample.leftFold Sample.c Sample.a Sample.b (some Sample.mask)
      ⟨.trimmed, 2, true, 1⟩ ⟨#[70, 71, 72, 73, 74], #[90, 91, 92]⟩ =
      .ok ⟨3, 1, 6, 2, 5, 5⟩ ⟨#[1, -3, 1, 1, 0], #[90, -3, 0]⟩ := by cbv
  have hcut : ∀ tasks, Task.cut Sample.c Sample.b.pattern ⟨.trimmed, 2, true, 1⟩ = .ok tasks →
      tasks.length = 4 := by
    have hfour : Task.cut Sample.c Sample.b.pattern ⟨.trimmed, 2, true, 1⟩ =
        .ok [⟨⟨0, 1⟩, ⟨0, 2⟩⟩, ⟨⟨1, 2⟩, ⟨2, 2⟩⟩, ⟨⟨2, 3⟩, ⟨2, 3⟩⟩, ⟨⟨3, 4⟩, ⟨3, 5⟩⟩] := by cbv
    intro tasks h
    rw [hfour] at h
    cases h
    rfl
  have hfit : ∀ tasks, (Settings.mk .trimmed 2 true 1).taskCount Sample.b.pattern.slotCount =
      .ok tasks → tasks * Sample.b.pattern.slotCount < Size.limit := by
    intro tasks h
    cases h
    decide
  have hroom : (Buffers.mk #[70, 71, 72, 73, 74] #[90, 91, 92] : Buffers Int).slots.size = 3 := rfl
  have hpending : multiply Sample.leftFold { Sample.c with finalized := false } Sample.a Sample.b none
      (.standard 1) ⟨#[70, 71, 72, 73, 74], #[90, 91, 92]⟩ =
      .error (.contract .patternNotFinalized) ⟨#[70, 71, 72, 73, 74], #[90, 91, 92]⟩ := by cbv
  constructor
  · refine ((multiplyParallel_refines Sample.total_leftFold Sample.c Sample.a Sample.b
      (some Sample.mask) ⟨.trimmed, 2, true, 1⟩ hroom).1 rfl rfl rfl
      (fun m hm => by cases hm; rfl) (by decide) hfit _ _ hrun).2 _ fun tasks h => ?_
    rw [hcut tasks h]
    exact ⟨by decide, fun _ => rfl, by decide⟩
  · exact fun schedule => (((multiplyParallel_refines Sample.total_leftFold
      { Sample.c with finalized := false } Sample.a Sample.b none (.standard 1) hroom).2 (by decide)
      .patternNotFinalized).2 schedule).1 ⟨_, hpending⟩

end SparseProduct
