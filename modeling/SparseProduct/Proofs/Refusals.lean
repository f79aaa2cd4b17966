import SparseProduct.Parallel
import SparseProduct.Proofs.ColumnValues

/-!
# Only checks refuse

A contract that operands break is reported by a check of the operands, never from within the kernel: on
any operands, well formed or not, the kernel and the cutter of tasks end or fail in some other way.
-/

namespace SparseProduct

/-- The computation does not report a broken contract. -/
def Result.NeverRefuses {α : Type} (x : Result α) : Prop := ∀ e, x ≠ .error (.contract e)

namespace Result.NeverRefuses

variable {α β : Type}

theorem ok (x : α) : NeverRefuses (.ok x) := fun _ h => by cases h

theorem outOfRange : NeverRefuses (.error .outOfRange : Result α) := fun _ h => by cases h

theorem overflow (step : ArithmeticStep) : NeverRefuses (.error (.overflow step) : Result α) :=
  fun _ h => by cases h

theorem bind {x : Result α} {f : α → Result β} (h : NeverRefuses x) (hf : ∀ a, NeverRefuses (f a)) :
    NeverRefuses (x >>= f) := by
  intro e
  cases x with
  | ok a => exact hf a e
  | error e' =>
    intro heq
    cases heq
    exact h e rfl

theorem of_eq_ok {x : Result α} (h : ∃ a, x = .ok a) : NeverRefuses x := by
  obtain ⟨a, rfl⟩ := h
  exact ok a

theorem fetch (xs : Array α) (i : Nat) : NeverRefuses (fetch xs i) := by
  unfold SparseProduct.fetch
  split
  · exact ok _
  · exact outOfRange

theorem sub (x y : Nat) : NeverRefuses (Size.sub x y) := by
  unfold Size.sub
  split
  · exact ok _
  · exact overflow _

theorem mul (x y : Nat) : NeverRefuses (Size.mul x y) := by
  unfold Size.mul
  split
  · exact ok _
  · exact overflow _

theorem cut (span : Span) (xs : Array α) : NeverRefuses (span.cut xs) := by
  unfold Span.cut
  split
  · exact ok _
  · exact outOfRange

theorem row (p : Pattern) (entry : Nat) : NeverRefuses (p.row entry) := fetch _ _

theorem vectorRange (p : Pattern) (slot : Nat) : NeverRefuses (p.vectorRange slot) :=
  (fetch _ _).bind fun _ => (fetch _ _).bind fun _ => ok _

theorem vectorId (p : Pattern) (slot : Nat) : NeverRefuses (p.vectorId slot) := by
  unfold Pattern.vectorId
  split
  · exact fetch _ _
  · exact ok _

theorem columnRange (p : Pattern) (j : Nat) : NeverRefuses (p.columnRange j) := by
  unfold Pattern.columnRange
  split
  · exact vectorRange _ _
  · exact ok _

theorem locate (w : Window) (ids : Array Nat) (column : Nat) : NeverRefuses (w.locate ids column) := by
  unfold Window.locate
  dsimp only
  split
  · exact ok _
  · refine (cut _ _).bind fun shown => ?_
    split <;> exact ok _

theorem lookup (w : Window) (p : Pattern) (k : Nat) : NeverRefuses (w.lookup p k) := by
  unfold Window.lookup
  split
  · exact (vectorRange _ _).bind fun _ => ok _
  · refine (locate _ _ _).bind fun found => ?_
    split
    · exact (vectorRange _ _).bind fun _ => ok _
    · exact ok _

theorem dropAfter (w : Window) (ids : Array Nat) (maxColumn : Nat) :
    NeverRefuses (w.dropAfter ids maxColumn) := by
  unfold Window.dropAfter
  split
  · exact ok _
  · refine (fetch _ _).bind fun last => ?_
    split
    · exact ok _
    · exact (cut _ _).bind fun _ => ok _

theorem openWindow (op : Operands) (w : Window) (source : Span) :
    NeverRefuses (Kernel.openWindow op w source) := by
  unfold Kernel.openWindow
  split
  · split
    · exact (row _ _).bind fun _ => dropAfter _ _ _
    · exact ok _
  · exact ok _

theorem admission (mask : Option Mask) (j : Nat) : NeverRefuses (Kernel.admission mask j) := by
  unfold Kernel.admission
  split
  · exact ok _
  · next m =>
    refine NeverRefuses.bind ?_ fun _ => ok _
    unfold Mask.column
    refine (columnRange _ _).bind fun _ => (cut _ _).bind fun _ => ?_
    split
    · exact ok _
    · exact (cut _ _).bind fun _ => ok _

theorem range (c : Pattern) (walk : ColumnWalk) (j : Nat) : NeverRefuses (walk.range c j) := by
  unfold ColumnWalk.range
  split
  · exact (vectorRange _ _).bind fun _ => ok _
  · dsimp only
    split
    · exact (vectorRange _ _).bind fun _ => ok _
    · exact ok _

theorem outputPosition (c b : Pattern) (slot : Nat) :
    NeverRefuses (outputPosition c b slot) := by
  unfold SparseProduct.outputPosition
  refine (sub _ _).bind fun vectors => ?_
  split
  · exact ok _
  · refine (vectorId _ _).bind fun j => ?_
    split <;> exact fetch _ _

theorem make (c b : Pattern) (vectors tasks consumed t : Nat) :
    NeverRefuses (Task.make c b vectors tasks consumed t) := by
  unfold Task.make Task.slotRange
  refine ((mul _ _).bind fun _ => (mul _ _).bind fun _ => ok _).bind fun slots => ?_
  refine (outputPosition _ _ _).bind fun start => (outputPosition _ _ _).bind fun stop => ?_
  refine (sub _ _).bind fun _ => ?_
  dsimp only
  generalize (if t + 1 = tasks then c.entryCount else stop) = last
  split
  · exact outOfRange
  · refine (sub _ _).bind fun _ => ?_
    split
    · exact outOfRange
    · exact ok _

theorem makeFrom (c b : Pattern) (vectors tasks count t consumed : Nat) :
    NeverRefuses (Task.makeFrom c b vectors tasks count t consumed) := by
  induction count generalizing t consumed with
  | zero => exact ok _
  | succ count ih => exact (make _ _ _ _ _ _).bind fun task => (ih _ _).bind fun _ => ok _

theorem taskCut (c b : Pattern) (settings : Settings) : NeverRefuses (Task.cut c b settings) := by
  refine (sub _ _).bind fun vectors => NeverRefuses.bind ?_ fun tasks => makeFrom _ _ _ _ _ _ _
  unfold Settings.taskCount
  split
  · exact ok _
  · exact (mul _ _).bind fun _ => ok _

end Result.NeverRefuses

/-- The computation does not report a broken contract, in whatever state it starts. -/
def Run.NeverRefuses {σ α : Type} (x : Run σ α) : Prop :=
  ∀ t e after, x t ≠ .error (.contract e) after

namespace Run.NeverRefuses

variable {σ α β : Type}

theorem pure (x : α) : NeverRefuses (pure x : Run σ α) := fun _ _ _ h => by cases h

theorem promise (cause : BrokenPromise) : NeverRefuses (throw (.promise cause) : Run σ α) :=
  fun _ _ _ h => by cases h

theorem get : NeverRefuses (get : Run σ σ) := fun _ _ _ h => by cases h

theorem bind {x : Run σ α} {f : α → Run σ β} (h : NeverRefuses x) (hf : ∀ a, NeverRefuses (f a)) :
    NeverRefuses (x >>= f) := by
  intro t e after
  cases hx : x t with
  | ok a next =>
    rw [bind_of_ok hx]
    exact hf a next e after
  | error e' next =>
    rw [bind_of_error hx]
    intro heq
    cases heq
    exact h t e after hx

theorem lift {x : Result α} (h : x.NeverRefuses) : NeverRefuses (liftM x : Run σ α) := by
  cases x with
  | ok a => exact pure a
  | error e' =>
    intro t e after heq
    cases heq
    exact h e rfl

theorem foldlM {f : β → α → Run σ β} (h : ∀ y x, NeverRefuses (f y x)) (xs : List α) (y : β) :
    NeverRefuses (xs.foldlM f y) := by
  induction xs generalizing y with
  | nil => exact pure y
  | cons x xs ih =>
    rw [List.foldlM_cons]
    exact (h y x).bind fun y => ih y

theorem foldM {f : β → Nat → Run σ β} (h : ∀ y p, NeverRefuses (f y p)) (span : Span) (y : β) :
    NeverRefuses (span.foldM f y) := by
  rw [Span.foldM_eq]
  exact foldlM h _ y

end Run.NeverRefuses

/-! ### The kernel -/

/-- The calls of an accumulator do not report broken contracts. -/
structure Accumulator.NeverRefuses {σ : Type} (acc : Accumulator σ) : Prop where
  clear : ∀ row, (acc.clear row).NeverRefuses
  multiplyAdd : ∀ row left right, (acc.multiplyAdd row left right).NeverRefuses
  gather : ∀ position row, (acc.gather position row).NeverRefuses
  writeIdentity : ∀ position, (acc.writeIdentity position).NeverRefuses

namespace Kernel

open Result (NeverRefuses)

variable {σ : Type} {acc : Accumulator σ} (h : acc.NeverRefuses)
include h

theorem clearEntry_neverRefuses (c : Pattern) (admits : Nat → Bool) (cleared entry : Nat) :
    (clearEntry acc c admits cleared entry).NeverRefuses := by
  refine (Run.NeverRefuses.lift (.row _ _)).bind fun i => ?_
  split
  · exact (h.clear i).bind fun _ => .pure _
  · exact .pure _

theorem addProduct_neverRefuses (a : Pattern) (admits : Nat → Bool) (right added left : Nat) :
    (addProduct acc a admits right added left).NeverRefuses := by
  refine (Run.NeverRefuses.lift (.row _ _)).bind fun i => ?_
  split
  · exact (h.multiplyAdd i left right).bind fun _ => .pure _
  · exact .pure _

theorem addEntry_neverRefuses (op : Operands) (admits : Nat → Bool) (progress : Progress)
    (right : Nat) : (addEntry acc op admits progress right).NeverRefuses := by
  refine (Run.NeverRefuses.lift (.row _ _)).bind fun k => ?_
  refine (Run.NeverRefuses.lift (.lookup _ _ _)).bind fun found => ?_
  exact (Run.NeverRefuses.foldM (addProduct_neverRefuses h _ _ _) _ _).bind fun _ => .pure _

theorem gatherEntry_neverRefuses (c : Pattern) (admits : Nat → Bool) (base gathered entry : Nat) :
    (gatherEntry acc c admits base gathered entry).NeverRefuses := by
  refine (Run.NeverRefuses.lift (.row _ _)).bind fun i => ?_
  refine (Run.NeverRefuses.lift (.sub _ _)).bind fun position => ?_
  split
  · exact (h.gather position i).bind fun _ => .pure _
  · exact (h.writeIdentity position).bind fun _ => .pure _

theorem computeColumn_neverRefuses (op : Operands) (base : Nat) (window : Window) (slot j : Nat)
    (target : Span) : (computeColumn acc op base window slot j target).NeverRefuses := by
  refine (Run.NeverRefuses.lift (.vectorRange _ _)).bind fun source => ?_
  split
  · exact .promise _
  · refine (Run.NeverRefuses.lift (.admission _ _)).bind fun admits => ?_
    refine (Run.NeverRefuses.foldM (clearEntry_neverRefuses h _ _) _ _).bind fun cleared => ?_
    refine (Run.NeverRefuses.lift (.openWindow _ _ _)).bind fun opened => ?_
    refine (Run.NeverRefuses.foldM (addEntry_neverRefuses h _ _) _ _).bind fun progress => ?_
    exact (Run.NeverRefuses.foldM (gatherEntry_neverRefuses h _ _ _) _ _).bind fun _ => .pure _

theorem visitSlot_neverRefuses (op : Operands) (base : Nat) (position : Position) (slot : Nat) :
    (visitSlot acc op base position slot).NeverRefuses := by
  refine (Run.NeverRefuses.lift (.vectorId _ _)).bind fun j => ?_
  refine (Run.NeverRefuses.lift (.range _ _ _)).bind fun (target, walk) => ?_
  dsimp only
  split
  · exact .pure _
  · exact (computeColumn_neverRefuses h _ _ _ _ _ _).bind fun _ => .pure _

/-- The kernel reports no broken contract, whatever its operands are. -/
theorem run_neverRefuses (op : Operands) (slots : Span) (base : Nat) :
    (run acc op slots base).NeverRefuses := by
  unfold run
  split
  · exact .pure _
  · refine (Run.NeverRefuses.lift ((Result.NeverRefuses.sub _ _).bind fun _ => .ok _)).bind
      fun window => ?_
    refine (Run.NeverRefuses.lift (.vectorId _ _)).bind fun first => ?_
    exact (Run.NeverRefuses.foldM (visitSlot_neverRefuses h _ _) _ _).bind fun _ => .pure _

end Kernel

variable {L R O : Type} {s : SemiringOps L R O}

theorem Buffers.setSlot_neverRefuses (row : Nat) (x : O) :
    (Buffers.setSlot row x).NeverRefuses := by
  intro t e after h
  unfold Buffers.setSlot at h
  split at h <;> cases h

theorem Buffers.setValue_neverRefuses (position : Nat) (x : O) :
    (Buffers.setValue position x).NeverRefuses := by
  intro t e after h
  unfold Buffers.setValue at h
  split at h <;> cases h

theorem Accumulator.typed_neverRefuses (total : s.Total) (left : Array L) (right : Array R) :
    (Accumulator.typed s left right).NeverRefuses where
  clear row := Buffers.setSlot_neverRefuses row s.identity
  multiplyAdd row p q := by
    refine (Run.NeverRefuses.lift (.fetch _ _)).bind fun x => ?_
    refine (Run.NeverRefuses.lift (.fetch _ _)).bind fun y => ?_
    refine (Run.NeverRefuses.lift (.of_eq_ok (total.multiply x y))).bind fun product => ?_
    refine Run.NeverRefuses.get.bind fun t => ?_
    refine (Run.NeverRefuses.lift (.fetch _ _)).bind fun existing => ?_
    refine (Run.NeverRefuses.lift (.of_eq_ok (total.accumulate existing product))).bind fun value => ?_
    exact Buffers.setSlot_neverRefuses row value
  gather position row := by
    refine Run.NeverRefuses.get.bind fun t => ?_
    refine (Run.NeverRefuses.lift (.fetch _ _)).bind fun x => ?_
    exact Buffers.setValue_neverRefuses position x
  writeIdentity position := Buffers.setValue_neverRefuses position s.identity

theorem Task.runAll_neverRefuses (total : s.Total) (op : Operands) (left : Array L) (right : Array R)
    (runs : List (Task × Array O)) : (Task.runAll s op left right runs).NeverRefuses := by
  induction runs with
  | nil => exact .pure _
  | cons run runs ih =>
    refine Run.NeverRefuses.bind ?_ fun _ => ih.bind fun _ => .pure _
    intro values e after heq
    unfold Task.run at heq
    dsimp only at heq
    split at heq
    · cases heq
    · next e' buffers hrun =>
      cases heq
      exact Kernel.run_neverRefuses (Accumulator.typed_neverRefuses total left right) op _ _ _ _ _ hrun

end SparseProduct
