import SparseProduct.Proofs.ColumnWalk
import SparseProduct.Proofs.Pattern.Checked

/-!
# Asking a walk for one column after another

If no column comes before the one asked for last, nor before the one where the walk was started, each of them
is answered as by a search of the whole pattern. The walk never turns back and never leaves the stored columns,
however many of them lie between two requests.
-/

namespace SparseProduct

namespace ColumnWalk

/-- A column that a walk was asked for: the walks before and after it, and the entries that were found. -/
structure Step where
  column : Nat
  before : ColumnWalk
  range : Span
  after : ColumnWalk
deriving DecidableEq, Repr

/-- Asks for columns, each of the walk that the one before it left. -/
def rangeAll (c : Pattern) (walk : ColumnWalk) : List Nat → Result (List Step)
  | [] => .ok []
  | j :: columns => do
      let (range, after) ← walk.range c j
      return ⟨j, walk, range, after⟩ :: (← after.rangeAll c columns)

/-- The step finds what a search finds: the entries of the slot that holds the column, and none if no slot
does. It goes forward, among the stored columns or right behind them, to where a walk starts at the column. -/
structure Step.Sound (c : Pattern) (step : Step) : Prop where
  searched : c.columnRange step.column = .ok step.range
  stored : ∀ slot < c.slotCount, c.vectorId slot = .ok step.column →
    c.vectorRange slot = .ok step.range
  absent : (∀ slot < c.slotCount, c.vectorId slot ≠ .ok step.column) → step.range = .empty
  forward : step.before.next ≤ step.after.next
  inside : step.after.next ≤ c.slotCount
  restarted : step.after = start c step.column

variable {c : Pattern} (wf : c.WellFormed)
include wf

theorem sound_start {first j : Nat} (h : first ≤ j) :
    Step.Sound c ⟨j, start c first, c.columnSpan j, start c j⟩ where
  searched := wf.columnRange_eq j
  stored slot hslot hid := by
    rw [wf.vectorId_eq hslot, Except.ok.injEq] at hid
    rw [Pattern.vectorRange_eq hslot, ← wf.columnSpan_slotColumn hslot, hid]
  absent hnone := by
    have hslot : c.slotOf j = none := Option.eq_none_iff_forall_ne_some.2 fun slot hslot => by
      obtain ⟨hlt, hcolumn⟩ := wf.slotOf_eq_some_iff.1 hslot
      exact hnone slot hlt (hcolumn ▸ wf.vectorId_eq hlt)
    show c.columnSpan j = .empty
    rw [Pattern.columnSpan, hslot]
  forward := next_start_mono wf h
  inside := next_start_le wf j
  restarted := rfl

omit wf

theorem rangeAll_cons {walk after : ColumnWalk} {j : Nat} {range : Span} (columns : List Nat)
    (h : walk.range c j = .ok (range, after)) :
    walk.rangeAll c (j :: columns) =
      (after.rangeAll c columns >>= fun steps => .ok (⟨j, walk, range, after⟩ :: steps)) := by
  rw [rangeAll, h, Result.ok_bind]
  rfl

/-- A pattern passes its check. A walk over it that was started at any column is then asked for columns from
there on that never decrease: every request is answered, and with the entries that a search of the whole
pattern finds. -/
theorem rangeAll_of_ordered {operand : Operand} (hcheck : c.check operand = .ok ()) {first : Nat}
    {columns : List Nat} (hfirst : ∀ j ∈ columns, first ≤ j) (hcolumns : ∀ j ∈ columns, j < c.nCols)
    (ordered : columns.Pairwise (· ≤ ·)) :
    ∃ steps, (start c first).rangeAll c columns = .ok steps ∧ steps.map (·.column) = columns ∧
      ∀ step ∈ steps, step.Sound c := by
  have wf := Pattern.wellFormed_of_check hcheck
  -- Each answer leaves the walk as started at the column asked for, so the start moves along.
  induction columns generalizing first with
  | nil => exact ⟨[], rfl, rfl, nofun⟩
  | cons j columns ih =>
    have hle := hfirst j List.mem_cons_self
    obtain ⟨hlater, hrest⟩ := List.pairwise_cons.1 ordered
    obtain ⟨steps, hsteps, hasked, hsound⟩ :=
      ih hlater (fun k hk => hcolumns k (List.mem_cons_of_mem _ hk)) hrest
    have hrange := range_start wf hle (hcolumns j List.mem_cons_self)
    refine ⟨⟨j, start c first, c.columnSpan j, start c j⟩ :: steps, ?_, ?_, ?_⟩
    · rw [rangeAll_cons columns hrange, hsteps, Result.ok_bind]
    · rw [List.map_cons, hasked]
    · intro step hstep
      rcases List.mem_cons.1 hstep with rfl | hstep
      · exact sound_start wf hle
      · exact hsound step hstep

/-- The slot of column 4 holds nothing, column 5 is passed over, column 6 has no slot, column 7 is asked for
twice, and column 9 lies behind the last slot. -/
theorem rangeAll_of_ordered_gapped :
    ∃ steps, (start ⟨3, 10, #[0, 1, 1, 3, 4], some #[1, 4, 5, 7], #[0, 1, 2, 0], true⟩ 2).rangeAll
        ⟨3, 10, #[0, 1, 1, 3, 4], some #[1, 4, 5, 7], #[0, 1, 2, 0], true⟩ [4, 6, 7, 7, 9] = .ok steps ∧
      steps.map (fun step => (step.range, step.after.next)) =
        [(⟨1, 1⟩, 1), (.empty, 3), (⟨3, 4⟩, 3), (⟨3, 4⟩, 3), (.empty, 4)] ∧
      ∀ step ∈ steps, step.Sound ⟨3, 10, #[0, 1, 1, 3, 4], some #[1, 4, 5, 7], #[0, 1, 2, 0], true⟩ := by
  have hcheck : Pattern.check ⟨3, 10, #[0, 1, 1, 3, 4], some #[1, 4, 5, 7], #[0, 1, 2, 0], true⟩ .c =
    .ok () := rfl
  obtain ⟨steps, hsteps, -, hsound⟩ := rangeAll_of_ordered hcheck
    (show ∀ j ∈ [4, 6, 7, 7, 9], 2 ≤ j by decide) (by decide) (by decide)
  have hread : ((start ⟨3, 10, #[0, 1, 1, 3, 4], some #[1, 4, 5, 7], #[0, 1, 2, 0], true⟩ 2).rangeAll
      ⟨3, 10, #[0, 1, 1, 3, 4], some #[1, 4, 5, 7], #[0, 1, 2, 0], true⟩ [4, 6, 7, 7, 9]).map
      (List.map fun step => (step.range, step.after.next)) =
      .ok [(⟨1, 1⟩, 1), (.empty, 3), (⟨3, 4⟩, 3), (⟨3, 4⟩, 3), (.empty, 4)] := by cbv
  rw [hsteps] at hread
  exact ⟨steps, hsteps, Except.ok.inj hread, hsound⟩

end ColumnWalk

end SparseProduct
