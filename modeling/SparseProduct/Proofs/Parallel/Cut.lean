import SparseProduct.Parallel
import SparseProduct.Proofs.Pattern.Layout

/-!
# How a product is cut into tasks

The slots of B are cut at multiples of their number. The entries of C are cut where the column of the
first slot of a task begins, which a search finds without walking the columns before it. On well-formed
patterns both cuts are increasing, so every subtraction of the cutter succeeds, and the columns that the
slots of a task hold lie in the span of the task.
-/

namespace SparseProduct

namespace Task

/-- Where the output of the slots from `slot` on begins. -/
def bound (c b : Pattern) (slot : Nat) : Nat :=
  if slot < b.slotCount then c.entriesBefore (b.slotColumn slot) else c.entryCount

def firstSlot (vectors tasks t : Nat) : Nat := t * vectors / tasks

def nth (c b : Pattern) (tasks t : Nat) : Task where
  slots := ⟨firstSlot b.slotCount tasks t, firstSlot b.slotCount tasks (t + 1)⟩
  output := ⟨bound c b (firstSlot b.slotCount tasks t), bound c b (firstSlot b.slotCount tasks (t + 1))⟩

section Bound

variable {c b : Pattern} (wfc : c.WellFormed) (wfb : b.WellFormed) (columns : c.nCols = b.nCols)
include wfc wfb columns

omit wfc in
theorem slotColumn_le {slot : Nat} (h : slot < b.slotCount) : b.slotColumn slot ≤ c.nCols :=
  columns ▸ Nat.le_of_lt (wfb.slotColumn_lt h)

theorem outputPosition_eq (slot : Nat) : outputPosition c b slot = .ok (bound c b slot) := by
  rw [outputPosition, wfb.vectorCount_eq, Result.ok_bind, bound]
  by_cases hslot : slot < b.slotCount
  · rw [if_neg (Nat.not_le.2 hslot), if_pos hslot, wfb.vectorId_eq hslot, Result.ok_bind]
    have hle := wfc.slotsBefore_le (slotColumn_le wfb columns hslot)
    have hlt : c.slotsBefore (b.slotColumn slot) < c.colPtr.size := by
      have := wfc.size_colPtr
      omega
    have hfetch : fetch c.colPtr (c.slotsBefore (b.slotColumn slot)) =
        .ok (c.entriesBefore (b.slotColumn slot)) := by
      rw [fetch_of_lt hlt, Pattern.entriesBefore, Array.getElem?_eq_getElem hlt, Option.getD_some]
    unfold Pattern.slotsBefore at hfetch
    cases hids : c.colIds with
    | none =>
      rw [hids, Option.elim_none] at hfetch
      exact hfetch
    | some ids =>
      rw [hids, Option.elim_some] at hfetch
      exact hfetch
  · rw [if_pos (Nat.not_lt.1 hslot), if_neg hslot]
    rfl

theorem bound_le (slot : Nat) : bound c b slot ≤ c.entryCount := by
  unfold bound
  split
  · next hslot => exact wfc.entriesBefore_le (slotColumn_le wfb columns hslot)
  · exact Nat.le_refl _

theorem bound_mono {slot later : Nat} (h : slot ≤ later) : bound c b slot ≤ bound c b later := by
  by_cases hlater : later < b.slotCount
  · have hcolumn : b.slotColumn slot ≤ b.slotColumn later := by
      rcases Nat.lt_or_eq_of_le h with hlt | rfl
      · exact Nat.le_of_lt (wfb.slotColumn_lt_slotColumn hlt hlater)
      · exact Nat.le_refl _
    rw [bound, bound, if_pos (Nat.lt_of_le_of_lt h hlater), if_pos hlater]
    exact wfc.entriesBefore_mono hcolumn (slotColumn_le wfb columns hlater)
  · have := bound_le wfc wfb columns slot
    rwa [bound, bound, if_neg hlater]

theorem mem_bounds {start stop slot entry : Nat} (hstart : start ≤ slot) (hstop : slot < stop)
    (hslot : slot < b.slotCount) (h : entry ∈ (c.columnSpan (b.slotColumn slot)).positions) :
    bound c b start ≤ entry ∧ entry < bound c b stop := by
  constructor
  · have hbound := bound_mono wfc wfb columns hstart
    refine Nat.le_trans hbound (Nat.le_of_not_lt fun hlt => ?_)
    rw [bound, if_pos hslot] at hlt
    exact Nat.lt_irrefl _
      ((wfc.lt_entriesBefore_iff (slotColumn_le wfb columns hslot) h).1 hlt)
  · unfold bound
    split
    · next hlt =>
      exact (wfc.lt_entriesBefore_iff (slotColumn_le wfb columns hlt) h).2
        (wfb.slotColumn_lt_slotColumn hstop hlt)
    · exact wfc.lt_of_mem_columnSpan h

end Bound

/-! ### The cut -/

theorem firstSlot_zero (vectors tasks : Nat) : firstSlot vectors tasks 0 = 0 := by
  rw [firstSlot, Nat.zero_mul, Nat.zero_div]

theorem firstSlot_last {tasks : Nat} (h : 0 < tasks) (vectors : Nat) :
    firstSlot vectors tasks tasks = vectors := Nat.mul_div_cancel_left vectors h

theorem firstSlot_mono (vectors tasks : Nat) {t later : Nat} (h : t ≤ later) :
    firstSlot vectors tasks t ≤ firstSlot vectors tasks later :=
  Nat.div_le_div_right (Nat.mul_le_mul_right vectors h)

theorem firstSlot_le {vectors tasks t : Nat} (h : t < tasks) :
    firstSlot vectors tasks (t + 1) ≤ vectors := by
  have := firstSlot_mono vectors tasks h
  rwa [firstSlot_last (Nat.zero_lt_of_lt h)] at this

theorem slotRange_eq {vectors tasks t : Nat} (h : t < tasks) (hfit : tasks * vectors < Size.limit) :
    slotRange vectors tasks t =
      .ok ⟨firstSlot vectors tasks t, firstSlot vectors tasks (t + 1)⟩ := by
  have hstop : (t + 1) * vectors ≤ tasks * vectors := Nat.mul_le_mul_right vectors h
  have hstart : t * vectors ≤ (t + 1) * vectors := Nat.mul_le_mul_right vectors (Nat.le_succ t)
  rw [slotRange, Size.mul_of_lt (by omega), Size.mul_of_lt (by omega)]
  rfl

section Cut

variable {c b : Pattern} (wfc : c.WellFormed) (wfb : b.WellFormed) (columns : c.nCols = b.nCols)
include wfc wfb columns

theorem make_eq {tasks t consumed : Nat} (h : t < tasks) (hfit : tasks * b.slotCount < Size.limit)
    (hconsumed : consumed ≤ bound c b (firstSlot b.slotCount tasks t)) :
    make c b b.slotCount tasks consumed t = .ok (nth c b tasks t) := by
  have hmono := bound_mono wfc wfb columns
    (firstSlot_mono b.slotCount tasks (Nat.le_succ t))
  have hstop := bound_le wfc wfb columns (firstSlot b.slotCount tasks (t + 1))
  -- the last task ends with the last slot, where the bound is all of C
  have hlast : (if t + 1 = tasks then c.entryCount
      else bound c b (firstSlot b.slotCount tasks (t + 1))) =
      bound c b (firstSlot b.slotCount tasks (t + 1)) := by
    split
    · next heq =>
      rw [heq, firstSlot_last (Nat.zero_lt_of_lt h), bound, if_neg (Nat.lt_irrefl _)]
    · rfl
  simp only [make, slotRange_eq h hfit, outputPosition_eq wfc wfb columns, Result.ok_bind, hlast,
    Size.sub_of_le hconsumed, Size.sub_of_le hmono, if_neg (Nat.not_lt.2 hstop),
    if_neg (Nat.not_lt.2 (Nat.le_trans hmono hstop))]
  rfl

theorem makeFrom_eq {tasks : Nat} (hfit : tasks * b.slotCount < Size.limit) {count t consumed : Nat}
    (h : t + count = tasks) (hconsumed : consumed ≤ bound c b (firstSlot b.slotCount tasks t)) :
    makeFrom c b b.slotCount tasks count t consumed =
      .ok ((List.range' t count).map (nth c b tasks)) := by
  induction count generalizing t consumed with
  | zero => rfl
  | succ count ih =>
    have hnext : (nth c b tasks t).output.stop ≤ bound c b (firstSlot b.slotCount tasks (t + 1)) :=
      Nat.le_refl _
    have hrest := ih (by omega) hnext
    rw [makeFrom, make_eq wfc wfb columns (by omega) hfit hconsumed, Result.ok_bind, hrest]
    rfl

theorem cut_eq {settings : Settings} {tasks : Nat}
    (htasks : settings.taskCount b.slotCount = .ok tasks)
    (hfit : tasks * b.slotCount < Size.limit) :
    cut c b settings = .ok ((List.range tasks).map (nth c b tasks)) := by
  rw [cut, wfb.vectorCount_eq, Result.ok_bind, htasks, Result.ok_bind,
    makeFrom_eq wfc wfb columns hfit (Nat.zero_add tasks) (Nat.zero_le _), List.range_eq_range']

end Cut

end Task

theorem Settings.taskCount_eq {settings : Settings} (hthreads : 4 * settings.threads < Size.limit)
    (vectors : Nat) :
    ∃ tasks, settings.taskCount vectors = .ok tasks ∧ (tasks = 0 ↔ vectors = 0) := by
  rw [taskCount]
  by_cases hzero : vectors = 0
  · rw [if_pos hzero]
    exact ⟨0, rfl, by simp only [hzero]⟩
  · have hfit : max settings.threads 1 * 4 < Size.limit := by
      have : 4 < Size.limit := by decide
      omega
    rw [if_neg hzero, Size.mul_of_lt hfit, Result.ok_bind]
    exact ⟨_, rfl, by omega⟩

end SparseProduct
