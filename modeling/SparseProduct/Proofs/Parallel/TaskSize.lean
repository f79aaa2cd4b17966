import Mathlib.Algebra.GroupWithZero.Nat
import SparseProduct.Proofs.Parallel.Tiling

/-!
# How large the tasks are

The least task size enters the number of tasks through a division that rounds up. So there may be one task
more than the slots suffice for, and tasks smaller than asked for, though never smaller than half of that.
The number of tasks and the ends of their slots are computed through products, which are refused where they
are no sizes; otherwise there is a task as soon as there is a slot, and nothing is divided by zero.
-/

namespace SparseProduct

namespace Settings

/-- The number of slots that a task is asked to have at least. -/
def leastSlots (settings : Settings) : Nat := max settings.minSlotsPerTask 1

def mostTasks (settings : Settings) : Nat := max settings.threads 1 * 4

theorem leastSlots_pos (settings : Settings) : 0 < settings.leastSlots := Nat.le_max_right _ _

theorem mostTasks_pos (settings : Settings) : 0 < settings.mostTasks :=
  Nat.mul_pos (Nat.le_max_right _ _) (by decide)

theorem divCeil_le_iff {x y n : Nat} (hy : 0 < y) : divCeil x y ≤ n ↔ x ≤ n * y := by
  unfold divCeil
  by_cases hrest : x % y = 0
  · obtain ⟨q, rfl⟩ := Nat.dvd_of_mod_eq_zero hrest
    rw [if_pos hrest, Nat.mul_div_cancel_left _ hy, Nat.mul_comm]
    exact (Nat.mul_le_mul_right_iff hy).symm
  · rw [if_neg hrest, Nat.succ_le_iff, Nat.div_lt_iff_lt_mul hy]
    refine ⟨Nat.le_of_lt, fun hle => Nat.lt_of_le_of_ne hle fun heq => hrest ?_⟩
    rw [heq, Nat.mul_mod_left]

theorem lt_divCeil_iff {x y n : Nat} (hy : 0 < y) : n < divCeil x y ↔ n * y < x := by
  rw [← Nat.not_le, divCeil_le_iff hy, Nat.not_le]

theorem divCeil_mul_le_iff {x y : Nat} (hy : 0 < y) : divCeil x y * y ≤ x ↔ y ∣ x := by
  constructor
  · intro hle
    have hcover : x ≤ divCeil x y * y := (divCeil_le_iff hy).1 (Nat.le_refl _)
    exact ⟨divCeil x y, by rw [Nat.mul_comm]; exact Nat.le_antisymm hcover hle⟩
  · rintro ⟨q, rfl⟩
    have hceil : divCeil (y * q) y ≤ q := (divCeil_le_iff hy).2 (Nat.le_of_eq (Nat.mul_comm y q))
    rw [Nat.mul_comm]
    exact Nat.mul_le_mul_left y hceil

section TaskCount

variable {settings : Settings} {vectors : Nat} (hpos : 0 < vectors)
include hpos

theorem one_le_min : 1 ≤ min (divCeil vectors settings.leastSlots) settings.mostTasks := by
  have hsize : 0 < divCeil vectors settings.leastSlots :=
    (lt_divCeil_iff settings.leastSlots_pos).2 (by rwa [Nat.zero_mul])
  exact Nat.le_min.2 ⟨hsize, settings.mostTasks_pos⟩

theorem taskCount_of_pos (hthreads : settings.mostTasks < Size.limit) : settings.taskCount vectors =
    .ok (min (divCeil vectors settings.leastSlots) settings.mostTasks) := by
  rw [taskCount, if_neg (Nat.ne_of_gt hpos), Size.mul_of_lt hthreads, Result.ok_bind]
  exact congrArg Except.ok (Nat.max_eq_left (one_le_min hpos))

theorem taskCount_overflow (hthreads : Size.limit ≤ settings.mostTasks) :
    settings.taskCount vectors = .error (.overflow .multiply) := by
  have hmul : Size.mul (max settings.threads 1) 4 = .error (.overflow .multiply) :=
    if_neg (Nat.not_lt.2 hthreads)
  rw [taskCount, if_neg (Nat.ne_of_gt hpos), hmul]
  rfl

theorem eq_of_taskCount {tasks : Nat} (h : settings.taskCount vectors = .ok tasks) :
    tasks = min (divCeil vectors settings.leastSlots) settings.mostTasks := by
  by_cases hthreads : settings.mostTasks < Size.limit
  · cases (taskCount_of_pos hpos hthreads).symm.trans h
    rfl
  · cases (taskCount_overflow hpos (Nat.not_lt.1 hthreads)).symm.trans h

/-- The slots suffice for all tasks if there are too few of them for two, if they can be dealt out exactly,
or if it is the threads that limit the number of tasks. -/
theorem leastSlots_le_div_iff {tasks : Nat} (h : settings.taskCount vectors = .ok tasks) :
    min vectors settings.leastSlots ≤ vectors / tasks ↔ vectors ≤ settings.leastSlots ∨
      settings.leastSlots ∣ vectors ∨ settings.mostTasks * settings.leastSlots < vectors := by
  have hleast := settings.leastSlots_pos
  have htasks := eq_of_taskCount hpos h
  have hone : 1 ≤ tasks := htasks ▸ one_le_min hpos
  by_cases hfew : vectors ≤ settings.leastSlots
  · have hceil : divCeil vectors settings.leastSlots ≤ 1 :=
      (divCeil_le_iff hleast).2 (by rwa [Nat.one_mul])
    have hsingle : tasks = 1 := by omega
    rw [hsingle, Nat.div_one]
    exact iff_of_true (Nat.min_le_left _ _) (Or.inl hfew)
  rw [Nat.min_eq_right (Nat.le_of_not_le hfew), Nat.le_div_iff_mul_le hone, Nat.mul_comm]
  by_cases hthreads : settings.mostTasks * settings.leastSlots < vectors
  · have hmost : tasks = settings.mostTasks := by
      have := (lt_divCeil_iff hleast).2 hthreads
      omega
    rw [hmost]
    exact iff_of_true (Nat.le_of_lt hthreads) (Or.inr (Or.inr hthreads))
  · have hceil : tasks = divCeil vectors settings.leastSlots := by
      have := (divCeil_le_iff hleast).2 (Nat.not_lt.1 hthreads)
      omega
    rw [hceil, divCeil_mul_le_iff hleast]
    simp only [hfew, hthreads, false_or, or_false]

/-- No task has fewer than half of the slots it is asked to have. -/
theorem half_leastSlots_le_div {tasks : Nat} (h : settings.taskCount vectors = .ok tasks) :
    min vectors ((settings.leastSlots + 1) / 2) ≤ vectors / tasks := by
  have hleast := settings.leastSlots_pos
  have htasks := eq_of_taskCount hpos h
  have hone : 1 ≤ tasks := htasks ▸ one_le_min hpos
  obtain ⟨others, rfl⟩ := Nat.exists_eq_add_of_le' hone
  rcases Nat.eq_zero_or_pos others with rfl | hothers
  · rw [Nat.div_one]
    exact Nat.min_le_left _ _
  · -- the slots more than suffice for all tasks but one
    have hmore : others * settings.leastSlots < vectors := by
      have : others < divCeil vectors settings.leastSlots := by omega
      exact (lt_divCeil_iff hleast).1 this
    have hhalf : (settings.leastSlots + 1) / 2 * 2 ≤ settings.leastSlots + 1 := Nat.div_mul_le_self _ _
    refine Nat.le_trans (Nat.min_le_right _ _) ((Nat.le_div_iff_mul_le hone).2 ?_)
    generalize (settings.leastSlots + 1) / 2 = half at hhalf
    generalize settings.leastSlots = least at *
    have hsum : others + least ≤ others * least + 1 := by
      obtain ⟨m, rfl⟩ := Nat.exists_eq_add_of_le' hothers
      obtain ⟨n, rfl⟩ := Nat.exists_eq_add_of_le' hleast
      grind
    have hdouble : half * 2 * (others + 1) ≤ (least + 1) * (others + 1) := Nat.mul_le_mul_right _ hhalf
    grind

end TaskCount

end Settings

namespace Task

theorem forall_le_slots_iff {vectors tasks : Nat} (htasks : 0 < tasks)
    (hfit : tasks * vectors < Size.limit) (least : Nat) :
    (∀ t < tasks, ∃ slots, slotRange vectors tasks t = .ok slots ∧ least ≤ slots.length) ↔
      least ≤ vectors / tasks := by
  constructor
  · intro h
    obtain ⟨slots, hslots, hle⟩ := h 0 htasks
    rw [slotRange_eq htasks hfit] at hslots
    cases hslots
    rwa [Span.length, firstSlot_zero, Nat.sub_zero, firstSlot, Nat.zero_add, Nat.one_mul] at hle
  · intro hle t ht
    refine ⟨_, slotRange_eq ht hfit, ?_⟩
    have hnext := (firstSlot_succ htasks vectors t).1
    simp only [Span.length]
    omega

theorem slotRange_eq_ite (vectors tasks t : Nat) : slotRange vectors tasks t =
    if (t + 1) * vectors < Size.limit then .ok ⟨t * vectors / tasks, (t + 1) * vectors / tasks⟩
    else .error (.overflow .multiply) := by
  have hle : t * vectors ≤ (t + 1) * vectors := Nat.mul_le_mul_right vectors (Nat.le_succ t)
  by_cases hstop : (t + 1) * vectors < Size.limit
  · rw [if_pos hstop, slotRange, Size.mul_of_lt (Nat.lt_of_le_of_lt hle hstop), Size.mul_of_lt hstop]
    rfl
  · have hmul : Size.mul (t + 1) vectors = .error (.overflow .multiply) := if_neg hstop
    rw [if_neg hstop, slotRange, hmul]
    by_cases hstart : t * vectors < Size.limit
    · rw [Size.mul_of_lt hstart]
      rfl
    · rw [show Size.mul t vectors = .error (.overflow .multiply) from if_neg hstart]
      rfl

/-- Every task has as many slots as it is asked to have exactly if there are too few slots for two tasks, if
the slots can be dealt out without a rest, or if the threads allow no more tasks than the slots suffice for.
In every case it has at least half of them. -/
theorem slotRange_least {settings : Settings} {vectors tasks : Nat} (hpos : 0 < vectors)
    (hcount : settings.taskCount vectors = .ok tasks) (hfit : tasks * vectors < Size.limit) :
    ((∀ t < tasks, ∃ slots, slotRange vectors tasks t = .ok slots ∧
        min vectors settings.leastSlots ≤ slots.length) ↔
      vectors ≤ settings.leastSlots ∨ settings.leastSlots ∣ vectors ∨
        settings.mostTasks * settings.leastSlots < vectors) ∧
    ∀ t < tasks, ∃ slots, slotRange vectors tasks t = .ok slots ∧
      min vectors ((settings.leastSlots + 1) / 2) ≤ slots.length := by
  have htasks : 0 < tasks := Settings.eq_of_taskCount hpos hcount ▸ Settings.one_le_min hpos
  constructor
  · rw [forall_le_slots_iff htasks hfit]
    exact Settings.leastSlots_le_div_iff hpos hcount
  · exact (forall_le_slots_iff htasks hfit _).2 (Settings.half_leastSlots_le_div hpos hcount)

/-- Thirty-five slots are cut into four tasks that should have ten. Not all have, but all have five. -/
theorem slotRange_least_thirtyFive :
    Settings.taskCount ⟨.trimmed, 2, true, 10⟩ 35 = .ok 4 ∧
      ¬ (∀ t < 4, ∃ slots, slotRange 35 4 t = .ok slots ∧ min 35 10 ≤ slots.length) ∧
      ∀ t < 4, ∃ slots, slotRange 35 4 t = .ok slots ∧ min 35 5 ≤ slots.length := by
  have hcount : Settings.taskCount ⟨.trimmed, 2, true, 10⟩ 35 = .ok 4 := rfl
  obtain ⟨hiff, hhalf⟩ := slotRange_least (show 0 < 35 by decide) hcount (by decide)
  exact ⟨hcount, fun h => absurd (hiff.1 h) (by decide), hhalf⟩

/-- By the standard settings a task should have 64 slots. Of 65 slots, the first of two tasks has 32. -/
theorem slotRange_below_least :
    (Settings.standard 1).taskCount 65 = .ok 2 ∧ 2 * 65 < Size.limit ∧
      slotRange 65 2 0 = .ok ⟨0, 32⟩ ∧
      ¬ min 65 (max 1 (Settings.standard 1).minSlotsPerTask) ≤ (Span.mk 0 32).length :=
  ⟨rfl, by decide, rfl, by decide⟩

end Task

/-! ### Numbers that are no sizes -/

/-- Without slots there are no tasks. With slots the number of tasks is refused exactly if four times the
number of threads is no size; otherwise it lies between one and the number of slots. The slots of a task are
then computed exactly if the multiple of the number of slots that it ends with is a size. They are computed
for all tasks if the number of slots is below `2 ^ 32`, or if all tasks that the threads allow could take as
many slots as there are. -/
theorem taskCount_slotRange (settings : Settings) (vectors : Nat) :
    settings.taskCount 0 = .ok 0 ∧
    (0 < vectors → Size.limit ≤ max settings.threads 1 * 4 →
      settings.taskCount vectors = .error (.overflow .multiply)) ∧
    (0 < vectors → max settings.threads 1 * 4 < Size.limit →
      ∃ tasks, settings.taskCount vectors = .ok tasks ∧ 1 ≤ tasks ∧ tasks ≤ vectors ∧
        (∀ t < tasks, Task.slotRange vectors tasks t =
          if (t + 1) * vectors < Size.limit then
            .ok ⟨t * vectors / tasks, (t + 1) * vectors / tasks⟩
          else .error (.overflow .multiply)) ∧
        ((∀ t < tasks, ∃ slots, Task.slotRange vectors tasks t = .ok slots) ↔
          tasks * vectors < Size.limit) ∧
        (vectors < 2 ^ 32 ∨ max settings.threads 1 * 4 * vectors < Size.limit →
          tasks * vectors < Size.limit)) := by
  refine ⟨rfl, Settings.taskCount_overflow, fun hpos hthreads => ?_⟩
  have hcount := Settings.taskCount_of_pos hpos hthreads
  have hone : 1 ≤ min (Settings.divCeil vectors settings.leastSlots) settings.mostTasks :=
    Settings.one_le_min hpos
  have hle := Settings.taskCount_le hcount
  refine ⟨_, hcount, hone, hle, fun t _ => Task.slotRange_eq_ite vectors _ t, ?_, ?_⟩
  · constructor
    · intro h
      obtain ⟨slots, hslots⟩ := h _ (Nat.sub_lt hone Nat.one_pos)
      rw [Task.slotRange_eq_ite, Nat.sub_add_cancel hone] at hslots
      by_contra hover
      rw [if_neg hover] at hslots
      cases hslots
    · exact fun hfit t ht => ⟨_, Task.slotRange_eq ht hfit⟩
  · rintro (hvectors | hthreads)
    · calc _ ≤ vectors * vectors := Nat.mul_le_mul_right vectors hle
        _ < 2 ^ 32 * 2 ^ 32 := Nat.mul_lt_mul'' hvectors hvectors
        _ = Size.limit := rfl
    · exact Nat.lt_of_le_of_lt (Nat.mul_le_mul_right vectors (Nat.min_le_right _ _)) hthreads

/-- Of sixteen tasks for `2 ^ 60` slots the first is computed, and not all are. Twelve are. -/
theorem taskCount_slotRange_large :
    (∃ tasks, Settings.taskCount ⟨.trimmed, 4, true, 1⟩ (2 ^ 60) = .ok tasks ∧
      Task.slotRange (2 ^ 60) tasks 0 = .ok ⟨0, 2 ^ 56⟩ ∧
      ¬ ∀ t < tasks, ∃ slots, Task.slotRange (2 ^ 60) tasks t = .ok slots) ∧
    ∃ tasks, Settings.taskCount ⟨.trimmed, 3, true, 0⟩ (2 ^ 60) = .ok tasks ∧
      ∀ t < tasks, ∃ slots, Task.slotRange (2 ^ 60) tasks t = .ok slots := by
  constructor
  · obtain ⟨-, -, hcounted⟩ := taskCount_slotRange ⟨.trimmed, 4, true, 1⟩ (2 ^ 60)
    obtain ⟨tasks, hcount, -, -, hslots, hall, -⟩ := hcounted (by decide) (by decide)
    have hsixteen : Settings.taskCount ⟨.trimmed, 4, true, 1⟩ (2 ^ 60) = .ok 16 := by decide
    cases hcount.symm.trans hsixteen
    exact ⟨16, hcount, hslots 0 (by decide), fun h => absurd (hall.1 h) (by decide)⟩
  · obtain ⟨-, -, hcounted⟩ := taskCount_slotRange ⟨.trimmed, 3, true, 0⟩ (2 ^ 60)
    obtain ⟨tasks, hcount, -, -, -, hall, hfit⟩ := hcounted (by decide) (by decide)
    exact ⟨tasks, hcount, hall.2 (hfit (Or.inr (by decide)))⟩

/-- Four times the largest number of threads is no size, though the one slot makes one task. With four
threads there are sixteen tasks for `2 ^ 60` slots, and the last of them ends with a number that is no
size. -/
theorem taskCount_slotRange_overflow :
    Settings.taskCount ⟨.trimmed, 2 ^ 64 - 1, true, 64⟩ 1 = .error (.overflow .multiply) ∧
      Settings.taskCount ⟨.trimmed, 4, true, 1⟩ (2 ^ 60) = .ok 16 ∧
      Task.slotRange (2 ^ 60) 16 15 = .error (.overflow .multiply) := by decide

end SparseProduct
