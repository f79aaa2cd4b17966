import Mathlib.Data.List.Basic
import SparseProduct.Proofs.Parallel.Cut
import SparseProduct.Proofs.Pattern.Checked

/-!
# The tasks of a product tile its operands

There are never more tasks than slots of B, so a division that rounds down gives every task a slot, and
gives no task two slots more than another. The slots of the tasks follow one another from the first slot of
B to the last, and their outputs from where the first begins to the end of C. A task finds every position it
writes at its place in its own part of C's values.
-/

namespace SparseProduct

namespace Span

/-- The spans follow one another without gaps from `start` up to `stop`. -/
inductive Tile : Nat → List Span → Nat → Prop
  | nil {p : Nat} : Tile p [] p
  | cons {span : Span} {spans : List Span} {stop : Nat} : span.start ≤ span.stop →
      Tile span.stop spans stop → Tile span.start (span :: spans) stop

namespace Tile

theorem le {start stop : Nat} {spans : List Span} (h : Tile start spans stop) : start ≤ stop := by
  induction h with
  | nil => exact Nat.le_refl _
  | cons hle _ ih => exact Nat.le_trans hle ih

theorem flatMap_positions {start stop : Nat} {spans : List Span} (h : Tile start spans stop) :
    spans.flatMap positions = List.range' start (stop - start) := by
  induction h with
  | nil => rw [Nat.sub_self]; rfl
  | @cons span spans stop hle hrest ih =>
    have hstop := hrest.le
    have hnext : span.start + span.length = span.stop := by
      unfold length
      omega
    have hcount : stop - span.start = span.length + (stop - span.stop) := by
      unfold length
      omega
    rw [List.flatMap_cons, ih, positions, hcount, ← List.range'_append_1, hnext]

theorem mem_le {start stop : Nat} {spans : List Span} (h : Tile start spans stop) {span : Span}
    (hspan : span ∈ spans) : span.start ≤ span.stop ∧ span.stop ≤ stop := by
  induction h with
  | nil => cases hspan
  | cons hle hrest ih =>
    rcases List.mem_cons.1 hspan with rfl | hspan
    · exact ⟨hle, hrest.le⟩
    · exact ih hspan

theorem of_bounds {bound : Nat → Nat} (h : ∀ t, bound t ≤ bound (t + 1)) (first count : Nat) :
    Tile (bound first) ((List.range' first count).map fun t => ⟨bound t, bound (t + 1)⟩)
      (bound (first + count)) := by
  induction count generalizing first with
  | zero => exact .nil
  | succ count ih =>
    have hrest := ih (first + 1)
    rw [show first + 1 + count = first + (count + 1) by omega] at hrest
    have hle : (Span.mk (bound first) (bound (first + 1))).start ≤ bound (first + 1) := h first
    rw [List.range'_succ, List.map_cons]
    exact .cons hle hrest

end Tile

end Span

/-! ### The number of tasks -/

namespace Settings

theorem divCeil_le {x y : Nat} (hy : 0 < y) : divCeil x y ≤ x := by
  unfold divCeil
  split
  · exact Nat.div_le_self x y
  · next hrest =>
    -- a remainder is left, so something is divided by two at least
    have hy : 2 ≤ y := by
      refine Nat.lt_of_le_of_ne hy fun hone => hrest ?_
      rw [← hone]
      exact Nat.mod_one x
    have hx : 0 < x := Nat.pos_of_ne_zero fun hzero => hrest (hzero ▸ Nat.zero_mod y)
    exact Nat.div_lt_self hx hy

theorem taskCount_le {settings : Settings} {vectors tasks : Nat}
    (h : settings.taskCount vectors = .ok tasks) : tasks ≤ vectors := by
  unfold taskCount at h
  split at h
  · cases h
    exact Nat.zero_le _
  · next hpos =>
    have hsize : divCeil vectors (max settings.minSlotsPerTask 1) ≤ vectors := divCeil_le (by omega)
    simp only [Result.bind_eq_ok, Result.pure_eq_ok] at h
    obtain ⟨byThreads, -, rfl⟩ := h
    omega

end Settings

namespace Task

theorem firstSlot_succ {tasks : Nat} (h : 0 < tasks) (vectors t : Nat) :
    firstSlot vectors tasks t + vectors / tasks ≤ firstSlot vectors tasks (t + 1) ∧
      firstSlot vectors tasks (t + 1) ≤ firstSlot vectors tasks t + vectors / tasks + 1 := by
  unfold firstSlot
  rw [Nat.add_mul, Nat.one_mul, Nat.add_div h]
  split <;> omega

/-- Tasks that cut a product with the output C and the right operand B into parts. -/
structure Tiling (c b : Pattern) (tasks : List Task) : Prop where
  /-- The slots of the tasks are all slots of B, in order. -/
  slots : Span.Tile 0 (tasks.map (·.slots)) b.slotCount
  positions : tasks.flatMap (·.slots.positions) = List.range b.slotCount
  nonempty : ∀ task ∈ tasks, task.slots.start < task.slots.stop
  balanced : ∀ task ∈ tasks, ∀ other ∈ tasks, task.slots.length ≤ other.slots.length + 1
  /-- The outputs of the tasks are adjacent and end with C. -/
  output : ∃ first, Span.Tile first (tasks.map (·.output)) c.entryCount
  part : ∀ task ∈ tasks, ∀ (α : Type) (values : Array α), values.size = c.entryCount →
    (values.extract task.output.start task.output.stop).size = task.output.length
  /-- The column of a slot has its place in the part of C's values that the task gets. -/
  column : ∀ task ∈ tasks, ∀ slot ∈ task.slots.positions, ∃ j range,
    b.vectorId slot = .ok j ∧ c.columnRange j = .ok range ∧ ∀ p ∈ range.positions,
      Size.sub p task.output.start = .ok (p - task.output.start) ∧
        p - task.output.start < task.output.length

section Tiling

variable {c b : Pattern} (wfc : c.WellFormed) (wfb : b.WellFormed) (columns : c.nCols = b.nCols)
  {tasks : Nat}

theorem firstSlot_end (h : tasks = 0 → b.slotCount = 0) :
    firstSlot b.slotCount tasks tasks = b.slotCount := by
  rcases Nat.eq_zero_or_pos tasks with hzero | hpos
  · rw [h hzero, firstSlot, Nat.mul_zero, Nat.zero_div]
  · exact firstSlot_last hpos b.slotCount

theorem tile_slots (h : tasks = 0 → b.slotCount = 0) :
    Span.Tile 0 (((List.range tasks).map (nth c b tasks)).map (·.slots)) b.slotCount := by
  have htile := Span.Tile.of_bounds
    (fun t => firstSlot_mono b.slotCount tasks (Nat.le_succ t)) 0 tasks
  rw [firstSlot_zero, Nat.zero_add, firstSlot_end h] at htile
  rw [List.map_map, List.range_eq_range']
  exact htile

theorem flatMap_slots (h : tasks = 0 → b.slotCount = 0) :
    ((List.range tasks).map (nth c b tasks)).flatMap (·.slots.positions) =
      List.range b.slotCount := by
  have hpositions := (tile_slots (c := c) h).flatMap_positions
  rwa [List.flatMap_map, Nat.sub_zero, ← List.range_eq_range'] at hpositions

theorem nonempty_slots (hle : tasks ≤ b.slotCount) {t : Nat} (ht : t < tasks) :
    (nth c b tasks t).slots.start < (nth c b tasks t).slots.stop := by
  have hpos : 0 < b.slotCount / tasks := Nat.div_pos hle (Nat.zero_lt_of_lt ht)
  have hnext := (firstSlot_succ (Nat.zero_lt_of_lt ht) b.slotCount t).1
  exact Nat.lt_of_lt_of_le (Nat.lt_add_of_pos_right hpos) hnext

theorem balanced_slots (hpos : 0 < tasks) (t other : Nat) :
    (nth c b tasks t).slots.length ≤ (nth c b tasks other).slots.length + 1 := by
  have hmost := (firstSlot_succ hpos b.slotCount t).2
  have hleast := (firstSlot_succ hpos b.slotCount other).1
  simp only [nth, Span.length]
  omega

include wfc wfb columns

theorem tile_output (h : tasks = 0 → b.slotCount = 0) : ∃ first,
    Span.Tile first (((List.range tasks).map (nth c b tasks)).map (·.output)) c.entryCount := by
  have htile := Span.Tile.of_bounds (fun t => bound_mono wfc wfb columns
    (firstSlot_mono b.slotCount tasks (Nat.le_succ t))) 0 tasks
  have hend : bound c b (firstSlot b.slotCount tasks tasks) = c.entryCount := by
    rw [firstSlot_end h, bound, if_neg (Nat.lt_irrefl _)]
  rw [Nat.zero_add, hend] at htile
  rw [List.map_map, List.range_eq_range']
  exact ⟨_, htile⟩

theorem column_nth {t slot : Nat} (ht : t < tasks) (hslot : slot ∈ (nth c b tasks t).slots.positions) :
    ∃ j range, b.vectorId slot = .ok j ∧ c.columnRange j = .ok range ∧ ∀ p ∈ range.positions,
      Size.sub p (nth c b tasks t).output.start = .ok (p - (nth c b tasks t).output.start) ∧
        p - (nth c b tasks t).output.start < (nth c b tasks t).output.length := by
  obtain ⟨hstart, hstop⟩ := Span.mem_positions.1 hslot
  have hlt : slot < b.slotCount := Nat.lt_of_lt_of_le hstop (firstSlot_le ht)
  refine ⟨_, _, wfb.vectorId_eq hlt, wfc.columnRange_eq _, fun p hp => ?_⟩
  obtain ⟨hle, hbefore⟩ := mem_bounds wfc wfb columns hstart hstop hlt hp
  exact ⟨Size.sub_of_le hle, Nat.sub_lt_sub_right hle hbefore⟩

theorem tiling (hle : tasks ≤ b.slotCount) (h : tasks = 0 → b.slotCount = 0) :
    Tiling c b ((List.range tasks).map (nth c b tasks)) where
  slots := tile_slots h
  positions := flatMap_slots h
  nonempty task htask := by
    obtain ⟨t, ht, rfl⟩ := List.mem_map.1 htask
    exact nonempty_slots hle (List.mem_range.1 ht)
  balanced task htask other hother := by
    obtain ⟨t, ht, rfl⟩ := List.mem_map.1 htask
    obtain ⟨u, -, rfl⟩ := List.mem_map.1 hother
    exact balanced_slots (Nat.zero_lt_of_lt (List.mem_range.1 ht)) t u
  output := tile_output wfc wfb columns h
  part task htask _ values hvalues := by
    obtain ⟨first, htile⟩ := tile_output wfc wfb columns h
    have hstop := (htile.mem_le (List.mem_map_of_mem htask)).2
    rw [Array.size_extract, hvalues, Nat.min_eq_left hstop, Span.length]
  column task htask slot hslot := by
    obtain ⟨t, ht, rfl⟩ := List.mem_map.1 htask
    exact column_nth wfc wfb columns (List.mem_range.1 ht) hslot

end Tiling

end Task

namespace Sample

def spread : Pattern := ⟨2, 9, #[0, 2, 3, 5], some #[0, 3, 8], #[0, 1, 1, 0, 1], true⟩

/-- Has slots for columns 1, 3, 4, 6 and 8 of nine, and entries in all but column 4. -/
def scattered : Pattern := ⟨3, 9, #[0, 1, 2, 2, 3, 4], some #[1, 3, 4, 6, 8], #[0, 1, 2, 0], true⟩

end Sample

namespace Task

/-- If the numbers that come up are sizes, cutting succeeds: no subtraction goes below zero and no part lies
outside C. There are as many tasks as the settings ask for, and they tile the slots of B and the values of
C. -/
theorem cut_tiles {c b : Pattern} (hc : c.check .c = .ok ()) (hb : b.check .b = .ok ())
    (columns : c.nCols = b.nCols) {settings : Settings}
    (hthreads : 4 * settings.threads < Size.limit)
    (hfit : ∀ count, settings.taskCount b.slotCount = .ok count →
      count * b.slotCount < Size.limit) :
    ∃ count tasks, settings.taskCount b.slotCount = .ok count ∧ cut c b settings = .ok tasks ∧
      tasks.length = count ∧ Tiling c b tasks := by
  have wfc := Pattern.wellFormed_of_check hc
  have wfb := Pattern.wellFormed_of_check hb
  obtain ⟨count, hcount, hzero⟩ := Settings.taskCount_eq hthreads b.slotCount
  refine ⟨count, _, hcount, cut_eq wfc wfb columns hcount (hfit count hcount), ?_, ?_⟩
  · rw [List.length_map, List.length_range]
  · exact tiling wfc wfb columns (Settings.taskCount_le hcount) hzero.1

/-- Five slots are cut into three tasks. The entries in the first column of C belong to none of them. -/
theorem cut_tiles_hypersparse :
    cut Sample.spread Sample.scattered ⟨.trimmed, 1, true, 2⟩ =
      .ok [⟨⟨0, 1⟩, ⟨2, 2⟩⟩, ⟨⟨1, 3⟩, ⟨2, 3⟩⟩, ⟨⟨3, 5⟩, ⟨3, 5⟩⟩] ∧
    Tiling Sample.spread Sample.scattered
      [⟨⟨0, 1⟩, ⟨2, 2⟩⟩, ⟨⟨1, 3⟩, ⟨2, 3⟩⟩, ⟨⟨3, 5⟩, ⟨3, 5⟩⟩] := by
  have hthreads : 4 * (Settings.mk .trimmed 1 true 2).threads < Size.limit := by decide
  have hfit : ∀ count, (Settings.mk .trimmed 1 true 2).taskCount Sample.scattered.slotCount = .ok count →
      count * Sample.scattered.slotCount < Size.limit := by
    intro count h
    cases h
    decide
  have hcut : cut Sample.spread Sample.scattered ⟨.trimmed, 1, true, 2⟩ =
      .ok [⟨⟨0, 1⟩, ⟨2, 2⟩⟩, ⟨⟨1, 3⟩, ⟨2, 3⟩⟩, ⟨⟨3, 5⟩, ⟨3, 5⟩⟩] := by cbv
  have hc : Sample.spread.check .c = .ok () := rfl
  have hb : Sample.scattered.check .b = .ok () := rfl
  obtain ⟨_, tasks, -, htasks, -, htiling⟩ := cut_tiles hc hb rfl hthreads hfit
  cases htasks.symm.trans hcut
  exact ⟨hcut, htiling⟩

end Task

end SparseProduct
