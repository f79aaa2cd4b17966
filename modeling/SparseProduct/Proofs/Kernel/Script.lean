import SparseProduct.Kernel
import SparseProduct.Proofs.ColumnWalk
import SparseProduct.Proofs.Mask
import SparseProduct.Proofs.Window

/-!
# The script of a run

Which calls the kernel makes of its accumulator, and in which order, depends on the patterns alone. On
well-formed operands a run is a script: a list of calls, and a report or the column that stops it. The
accumulator only carries the calls out. Searches and walks are gone from the script, so whatever is
shown of the script holds for every storage mode, every search mode and every type of elements.
-/

namespace SparseProduct

/-- A call of an accumulator. -/
inductive Action where
  | clear (row : Nat)
  | multiplyAdd (row left right : Nat)
  | gather (position row : Nat)
  | writeIdentity (position : Nat)
deriving DecidableEq, Repr

namespace Accumulator

variable {σ : Type}

def perform (acc : Accumulator σ) : Action → Run σ Unit
  | .clear row => acc.clear row
  | .multiplyAdd row left right => acc.multiplyAdd row left right
  | .gather position row => acc.gather position row
  | .writeIdentity position => acc.writeIdentity position

def performAll (acc : Accumulator σ) : List Action → Run σ Unit
  | [] => pure ()
  | action :: actions => do
      acc.perform action
      acc.performAll actions

theorem performAll_append (acc : Accumulator σ) (first second : List Action) :
    acc.performAll (first ++ second) = acc.performAll first >>= fun _ => acc.performAll second := by
  induction first with
  | nil => simp only [List.nil_append, performAll, pure_bind]
  | cons action actions ih => simp only [List.cons_append, performAll, ih, bind_assoc]

end Accumulator

namespace Operands

/-- The patterns are well formed and their dimensions fit. -/
structure WellFormed (op : Operands) : Prop where
  a : op.a.WellFormed
  b : op.b.WellFormed
  c : op.c.WellFormed
  rows : op.c.nRows = op.a.nRows
  columns : op.c.nCols = op.b.nCols
  inner : op.a.nCols = op.b.nRows
  mask : ∀ m ∈ op.mask, m.pattern.WellFormed ∧
    ∀ values ∈ m.values, values.size = m.pattern.entryCount

theorem WellFormed.entry_lt {op : Operands} (wf : op.WellFormed) {values : Nat}
    (h : values = op.c.entryCount) {j entry : Nat} (he : entry ∈ (op.c.columnSpan j).positions) :
    0 ≤ entry ∧ entry < 0 + values := by
  have : entry < op.c.entryCount := wf.c.lt_of_mem_columnSpan he
  omega

/-- Whether a position of the output is to be computed. -/
def admits (op : Operands) (i j : Nat) : Bool := op.mask.elim true fun m => m.admitsAt i j

/-- The pairs of an entry of A and one of the given entries of B that are multiplied, in the order in
which their products are folded in. -/
def pairsOf (op : Operands) (rights : List Nat) : List (Nat × Nat) :=
  rights.flatMap fun right =>
    (op.a.columnSpan (op.b.rowAt right)).positions.map fun left => (left, right)

theorem pairsOf_cons (op : Operands) (right : Nat) (rights : List Nat) :
    op.pairsOf (right :: rights) =
      ((op.a.columnSpan (op.b.rowAt right)).positions.map fun left => (left, right)) ++
        op.pairsOf rights := List.flatMap_cons

/-- The pairs whose products belong to a column. -/
def pairs (op : Operands) (j : Nat) : List (Nat × Nat) := op.pairsOf (op.b.columnSpan j).positions

/-- Nothing is stored in the column of C, or something in the column of B. -/
def covered (op : Operands) (j : Nat) : Bool :=
  (op.c.columnSpan j).isEmpty || !(op.b.columnSpan j).isEmpty

def columnsOf (op : Operands) (slots : Span) : List Nat := slots.positions.map op.b.slotColumn

end Operands

namespace Kernel

def clears (c : Pattern) (admits : Nat → Bool) (entries : List Nat) : List Action :=
  ((entries.map c.rowAt).filter admits).map .clear

def products (a : Pattern) (admits : Nat → Bool) (pairs : List (Nat × Nat)) : List Action :=
  (pairs.filter fun pair => admits (a.rowAt pair.1)).map fun pair =>
    .multiplyAdd (a.rowAt pair.1) pair.1 pair.2

/-- The calls that write some entries, whose values start at position `base`. -/
def gathers (c : Pattern) (admits : Nat → Bool) (base : Nat) (entries : List Nat) : List Action :=
  entries.map fun entry =>
    if admits (c.rowAt entry) then .gather (entry - base) (c.rowAt entry)
    else .writeIdentity (entry - base)

theorem clears_cons (c : Pattern) (admits : Nat → Bool) (entry : Nat) (entries : List Nat) :
    clears c admits (entry :: entries) =
      if admits (c.rowAt entry) then .clear (c.rowAt entry) :: clears c admits entries
      else clears c admits entries := by
  unfold clears
  rw [List.map_cons, List.filter_cons]
  split <;> rfl

theorem products_cons (a : Pattern) (admits : Nat → Bool) (pair : Nat × Nat)
    (pairs : List (Nat × Nat)) :
    products a admits (pair :: pairs) =
      if admits (a.rowAt pair.1) then
        .multiplyAdd (a.rowAt pair.1) pair.1 pair.2 :: products a admits pairs
      else products a admits pairs := by
  unfold products
  rw [List.filter_cons]
  split <;> rfl

theorem products_append (a : Pattern) (admits : Nat → Bool) (first second : List (Nat × Nat)) :
    products a admits (first ++ second) = products a admits first ++ products a admits second := by
  unfold products
  rw [List.filter_append, List.map_append]

variable {σ : Type}

theorem clear_entries (acc : Accumulator σ) {c : Pattern} (admits : Nat → Bool) {entries : List Nat}
    (h : ∀ entry ∈ entries, entry < c.entryCount) (cleared : Nat) :
    entries.foldlM (clearEntry acc c admits) cleared = do
      acc.performAll (clears c admits entries)
      return cleared + (clears c admits entries).length := by
  induction entries generalizing cleared with
  | nil => rfl
  | cons entry entries ih =>
    have ih := fun n => ih (fun e he => h e (List.mem_cons_of_mem _ he)) n
    simp only [List.foldlM_cons, clearEntry, Pattern.row_eq (h entry List.mem_cons_self),
      Run.lift_ok, pure_bind, clears_cons]
    split
    · simp only [bind_assoc, pure_bind, ih, Accumulator.performAll, Accumulator.perform,
        List.length_cons, Nat.add_assoc, Nat.add_comm 1]
    · simp only [pure_bind, ih]

theorem add_products (acc : Accumulator σ) {a : Pattern} (admits : Nat → Bool) (right : Nat)
    {lefts : List Nat} (h : ∀ left ∈ lefts, left < a.entryCount) (added : Nat) :
    lefts.foldlM (addProduct acc a admits right) added = do
      acc.performAll (products a admits (lefts.map fun left => (left, right)))
      return added + (products a admits (lefts.map fun left => (left, right))).length := by
  induction lefts generalizing added with
  | nil => rfl
  | cons left lefts ih =>
    have ih := fun n => ih (fun e he => h e (List.mem_cons_of_mem _ he)) n
    simp only [List.foldlM_cons, addProduct, Pattern.row_eq (h left List.mem_cons_self),
      Run.lift_ok, pure_bind, List.map_cons, products_cons]
    split
    · simp only [bind_assoc, pure_bind, ih, Accumulator.performAll, Accumulator.perform,
        List.length_cons, Nat.add_assoc, Nat.add_comm 1]
    · simp only [pure_bind, ih]

theorem gather_entries (acc : Accumulator σ) {c : Pattern} (admits : Nat → Bool) (base : Nat)
    {entries : List Nat} (h : ∀ entry ∈ entries, base ≤ entry ∧ entry < c.entryCount)
    (gathered : Nat) :
    entries.foldlM (gatherEntry acc c admits base) gathered = do
      acc.performAll (gathers c admits base entries)
      return gathered + entries.length := by
  induction entries generalizing gathered with
  | nil => rfl
  | cons entry entries ih =>
    have ih := fun n => ih (fun e he => h e (List.mem_cons_of_mem _ he)) n
    obtain ⟨hbase, hlt⟩ := h entry List.mem_cons_self
    simp only [List.foldlM_cons, gatherEntry, Pattern.row_eq hlt, Size.sub_of_le hbase,
      Run.lift_ok, pure_bind, gathers, List.map_cons]
    split
    · simp only [bind_assoc, pure_bind, ih, gathers, Accumulator.performAll, Accumulator.perform,
        List.length_cons, Nat.add_assoc, Nat.add_comm 1]
    · simp only [bind_assoc, pure_bind, ih, gathers, Accumulator.performAll, Accumulator.perform,
        List.length_cons, Nat.add_assoc, Nat.add_comm 1]

theorem add_entries (acc : Accumulator σ) {op : Operands} (wf : op.a.WellFormed)
    (admits : Nat → Bool) {rights : List Nat} (window : Window)
    (h : ∀ right ∈ rights, right < op.b.entryCount ∧ op.b.rowAt right < op.a.nCols)
    (inc : rights.Pairwise fun x y => op.b.rowAt x ≤ op.b.rowAt y)
    (serves : ∀ right ∈ rights, window.Serves op.a (op.b.rowAt right)) (lookups added : Nat) :
    ∃ after : Window, after.length = window.length ∧
      rights.foldlM (addEntry acc op admits) ⟨window, lookups, added⟩ = do
        acc.performAll (products op.a admits (op.pairsOf rights))
        return ⟨after, lookups + rights.length,
          added + (products op.a admits (op.pairsOf rights)).length⟩ := by
  induction rights generalizing window lookups added with
  | nil => exact ⟨window, rfl, rfl⟩
  | cons right rights ih =>
    obtain ⟨hlt, hcol⟩ := h right List.mem_cons_self
    obtain ⟨next, hlookup, hlen, hlater⟩ :=
      Window.lookup_eq wf hcol (serves right List.mem_cons_self)
    have hinc := List.pairwise_cons.1 inc
    obtain ⟨after, hafter, heq⟩ := ih next (fun r hr => h r (List.mem_cons_of_mem _ hr)) hinc.2
      (fun r hr => hlater _ (hinc.1 r hr) (serves r (List.mem_cons_of_mem _ hr))) (lookups + 1)
      (added + (products op.a admits
        ((op.a.columnSpan (op.b.rowAt right)).positions.map fun left => (left, right))).length)
    refine ⟨after, hafter.trans hlen, ?_⟩
    have hproducts := add_products acc admits right
      (fun left hl => wf.lt_of_mem_columnSpan (j := op.b.rowAt right) hl) added
    simp only [List.foldlM_cons, addEntry, Pattern.row_eq hlt, hlookup, Run.lift_ok, pure_bind,
      Span.foldM_eq, hproducts, bind_assoc, heq]
    rw [Operands.pairsOf_cons, products_append, Accumulator.performAll_append,
      bind_assoc, List.length_cons, List.length_append, Nat.add_assoc lookups, Nat.add_comm 1,
      Nat.add_assoc added]

theorem openWindow_eq {op : Operands} (wf : op.WellFormed) {window : Window}
    (hlen : window.length = op.a.slotCount) (j : Nat) :
    ∃ after : Window, openWindow op window (op.b.columnSpan j) = .ok after ∧
      after.length = window.length ∧
      ∀ right ∈ (op.b.columnSpan j).positions, after.Serves op.a (op.b.rowAt right) := by
  unfold openWindow
  cases hids : op.a.colIds with
  | none =>
    refine ⟨window.reset, rfl, rfl, fun right _ ids hids' => ?_⟩
    rw [hids] at hids'
    cases hids'
  | some ids =>
    have hsize : window.reset.length = ids.size := by
      have := wf.a.slotCount_eq
      rw [hids, Option.elim_some] at this
      exact hlen.trans this
    have hserves : ∀ after : Window, after.length = window.reset.length →
        (∀ right ∈ (op.b.columnSpan j).positions, after.Shows ids (op.b.rowAt right)) →
        ∀ right ∈ (op.b.columnSpan j).positions, after.Serves op.a (op.b.rowAt right) := by
      intro after hlength hshows right hright ids' hids'
      cases hids.symm.trans hids'
      exact ⟨hlength.trans hsize,
        Window.shows_opened (hlength.trans hsize) rfl (hshows right hright)⟩
    simp only
    by_cases htrim : 2 < (op.b.columnSpan j).length
    · have hlast : (op.b.columnSpan j).stop - 1 ∈ (op.b.columnSpan j).positions := by
        unfold Span.length at htrim
        exact Span.mem_positions.2 (by omega)
      obtain ⟨after, hdrop, hlength, hshows⟩ := Window.dropAfter_eq
        (wf.a.ids_increasing ids hids) (show window.reset.right ≤ ids.size from Nat.le_of_eq hsize)
        (op.b.rowAt ((op.b.columnSpan j).stop - 1))
      rw [if_pos htrim, Pattern.row_eq (wf.b.lt_of_mem_columnSpan hlast), Result.ok_bind, hdrop]
      refine ⟨after, rfl, hlength, hserves after hlength fun right hright => ?_⟩
      refine hshows _ ?_ (Window.shows_reset hsize _)
      have hin := Span.mem_positions.1 hright
      rcases Nat.lt_or_ge right ((op.b.columnSpan j).stop - 1) with hlt | hge
      · exact Nat.le_of_lt (wf.b.rowAt_lt_rowAt hright hlast hlt)
      · exact Nat.le_of_eq (congrArg op.b.rowAt (by omega))
    · rw [if_neg htrim]
      exact ⟨window.reset, rfl, rfl,
        hserves window.reset rfl fun right _ => Window.shows_reset hsize _⟩

theorem admission_eq {op : Operands} (wf : op.WellFormed) (j : Nat) :
    admission op.mask j = .ok (op.admits · j) := by
  unfold admission Operands.admits
  cases hm : op.mask with
  | none => rfl
  | some m =>
    obtain ⟨hpattern, hvalues⟩ := wf.mask m hm
    obtain ⟨column, hcolumn, hallows⟩ := Mask.allows_column hpattern hvalues j
    simp only [hcolumn, Result.ok_bind, hallows]
    rfl

end Kernel

namespace Operands

/-- The calls of a column, whose values start at position `base`. -/
def script (op : Operands) (base j : Nat) : List Action :=
  if (op.c.columnSpan j).isEmpty then []
  else Kernel.clears op.c (op.admits · j) (op.c.columnSpan j).positions ++
    Kernel.products op.a (op.admits · j) (op.pairs j) ++
    Kernel.gathers op.c (op.admits · j) base (op.c.columnSpan j).positions

def work (op : Operands) (j : Nat) : Counters :=
  if (op.c.columnSpan j).isEmpty then .skippedColumn
  else {
    columnsComputed := 1
    columnsSkipped := 0
    locateCalls := (op.b.columnSpan j).length
    workspaceClears := (Kernel.clears op.c (op.admits · j) (op.c.columnSpan j).positions).length
    multiplyAdds := (Kernel.products op.a (op.admits · j) (op.pairs j)).length
    gathers := (op.c.columnSpan j).length }

/-- The calls of some columns, up to the first that is not covered. -/
def scriptAll (op : Operands) (base : Nat) (columns : List Nat) : List Action :=
  (columns.takeWhile op.covered).flatMap (op.script base)

/-- How a run over some columns ends: with the work of all of them on top of `counters`, or at the first
that is not covered. -/
def report (op : Operands) (columns : List Nat) (counters : Counters) : Result Counters :=
  match columns.find? fun j => !op.covered j with
  | some j => .error (.promise (.emptyRightColumn j))
  | none => .ok (columns.foldl (fun counters j => counters + op.work j) counters)

theorem scriptAll_cons (op : Operands) (base j : Nat) (columns : List Nat) :
    op.scriptAll base (j :: columns) =
      if op.covered j then op.script base j ++ op.scriptAll base columns else [] := by
  unfold scriptAll
  rw [List.takeWhile_cons]
  split
  · rw [List.flatMap_cons]
  · rfl

theorem report_cons (op : Operands) (j : Nat) (columns : List Nat) (counters : Counters) :
    op.report (j :: columns) counters =
      if op.covered j then op.report columns (counters + op.work j)
      else .error (.promise (.emptyRightColumn j)) := by
  unfold report
  rw [List.find?_cons]
  cases op.covered j <;> rfl

theorem covered_of_report {op : Operands} {columns : List Nat} {counters total : Counters}
    (h : op.report columns counters = .ok total) : ∀ j ∈ columns, op.covered j = true := by
  intro j hj
  unfold report at h
  cases hfind : columns.find? fun j => !op.covered j with
  | some k =>
    rw [hfind] at h
    cases h
  | none =>
    have hnot := List.find?_eq_none.1 hfind j hj
    simpa using hnot

end Operands

namespace Kernel

variable {σ : Type}

theorem length_positions (s : Span) : s.positions.length = s.length := List.length_range'

theorem rights_increasing {op : Operands} (wf : op.WellFormed) (j : Nat) :
    (op.b.columnSpan j).positions.Pairwise fun x y => op.b.rowAt x ≤ op.b.rowAt y := by
  refine List.Pairwise.imp_of_mem ?_ (List.pairwise_lt_range' (n := (op.b.columnSpan j).length)
    (s := (op.b.columnSpan j).start))
  intro x y hx hy hlt
  exact Nat.le_of_lt (wf.b.rowAt_lt_rowAt hx hy hlt)

/-- A column of C with entries, whose column of B has entries too, takes the calls of its script. -/
theorem computeColumn_eq (acc : Accumulator σ) {op : Operands} (wf : op.WellFormed) {base : Nat}
    {window : Window} (hlen : window.length = op.a.slotCount) {slot : Nat}
    (hslot : slot < op.b.slotCount)
    (hbase : ∀ entry ∈ (op.c.columnSpan (op.b.slotColumn slot)).positions, base ≤ entry)
    (htarget : (op.c.columnSpan (op.b.slotColumn slot)).isEmpty = false) :
    ∃ after : Window, after.length = window.length ∧
      computeColumn acc op base window slot (op.b.slotColumn slot)
          (op.c.columnSpan (op.b.slotColumn slot)) =
        if op.covered (op.b.slotColumn slot) then do
          acc.performAll (op.script base (op.b.slotColumn slot))
          return (after, op.work (op.b.slotColumn slot))
        else throw (.promise (.emptyRightColumn (op.b.slotColumn slot))) := by
  generalize hj : op.b.slotColumn slot = j at *
  have hsource : op.b.vectorRange slot = .ok (op.b.columnSpan j) := by
    rw [← hj, wf.b.columnSpan_slotColumn hslot, Pattern.vectorRange_eq hslot]
  have hcovered : op.covered j = !(op.b.columnSpan j).isEmpty := by
    rw [Operands.covered, htarget, Bool.false_or]
  obtain ⟨opened, hopen, hopened, hserves⟩ := openWindow_eq wf hlen j
  obtain ⟨after, hafter, hadd⟩ := add_entries acc wf.a (op.admits · j) opened
    (fun right hr => ⟨wf.b.lt_of_mem_columnSpan hr, wf.inner ▸ wf.b.rowAt_lt hr⟩)
    (rights_increasing wf j) hserves 0 0
  refine ⟨after, hafter.trans hopened, ?_⟩
  have hclear := clear_entries acc (op.admits · j)
    (fun entry he => wf.c.lt_of_mem_columnSpan (j := j) he) 0
  have hgather := gather_entries acc (op.admits · j) base
    (fun entry he => ⟨hbase entry he, wf.c.lt_of_mem_columnSpan (j := j) he⟩) 0
  simp only [computeColumn, hsource, Run.lift_ok, pure_bind, admission_eq wf, hopen, Span.foldM_eq,
    hclear, hadd, hgather, hcovered]
  cases hempty : (op.b.columnSpan j).isEmpty with
  | true => rfl
  | false =>
    simp only [Bool.false_eq_true, if_false, Bool.not_false, if_true, bind_assoc, pure_bind,
      Operands.script, Operands.work, htarget, Accumulator.performAll_append, Nat.zero_add,
      length_positions]
    rfl

theorem visit_slots (acc : Accumulator σ) {op : Operands} (wf : op.WellFormed) {base : Nat}
    {slots : List Nat} (hslots : ∀ slot ∈ slots, slot < op.b.slotCount)
    (inc : slots.Pairwise (· < ·))
    (hbase : ∀ slot ∈ slots, ∀ entry ∈ (op.c.columnSpan (op.b.slotColumn slot)).positions,
      base ≤ entry)
    (position : Position) (hlen : position.window.length = op.a.slotCount) {first : Nat}
    (hwalk : position.walk = ColumnWalk.start op.c first)
    (hfirst : ∀ slot ∈ slots, first ≤ op.b.slotColumn slot) :
    (do
      let after ← slots.foldlM (visitSlot acc op base) position
      return after.counters) = (do
      acc.performAll (op.scriptAll base (slots.map op.b.slotColumn))
      Run.ofResult (op.report (slots.map op.b.slotColumn) position.counters)) := by
  induction slots generalizing position first with
  | nil => rfl
  | cons slot slots ih =>
    have hslot := hslots slot List.mem_cons_self
    have hinc := List.pairwise_cons.1 inc
    have hrange := ColumnWalk.range_start wf.c (hfirst slot List.mem_cons_self)
      (wf.columns ▸ wf.b.slotColumn_lt hslot)
    have hlater : ∀ later ∈ slots, op.b.slotColumn slot ≤ op.b.slotColumn later := fun later hl =>
      Nat.le_of_lt (wf.b.slotColumn_lt_slotColumn (hinc.1 later hl)
        (hslots later (List.mem_cons_of_mem _ hl)))
    have ih := ih (fun s hs => hslots s (List.mem_cons_of_mem _ hs)) hinc.2
      fun s hs => hbase s (List.mem_cons_of_mem _ hs)
    simp only [List.foldlM_cons, visitSlot, wf.b.vectorId_eq hslot, hwalk, hrange, Run.lift_ok, pure_bind,
      List.map_cons, Operands.scriptAll_cons, Operands.report_cons]
    cases hempty : (op.c.columnSpan (op.b.slotColumn slot)).isEmpty with
    | true =>
      have hcovered : op.covered (op.b.slotColumn slot) = true := by
        rw [Operands.covered, hempty, Bool.true_or]
      simp only [if_true, pure_bind, hcovered, Operands.script, Operands.work, hempty,
        List.nil_append]
      exact ih _ hlen rfl hlater
    | false =>
      obtain ⟨after, hafter, hcompute⟩ := computeColumn_eq acc wf hlen hslot
        (hbase slot List.mem_cons_self) hempty
      simp only [Bool.false_eq_true, if_false, hcompute]
      split
      · simp only [bind_assoc, pure_bind, Accumulator.performAll_append]
        exact congrArg _ (funext fun _ => ih _ (hafter.trans hlen) rfl hlater)
      · simp only [Run.throw_bind, Accumulator.performAll, pure_bind]
        rfl

/-- A run over slots of B carries out the script of their columns. -/
theorem run_eq (acc : Accumulator σ) {op : Operands} (wf : op.WellFormed) {slots : Span}
    (hslots : slots.stop ≤ op.b.slotCount) {base : Nat}
    (hbase : ∀ j ∈ op.columnsOf slots, ∀ entry ∈ (op.c.columnSpan j).positions, base ≤ entry) :
    run acc op slots base = (do
      acc.performAll (op.scriptAll base (op.columnsOf slots))
      Run.ofResult (op.report (op.columnsOf slots) .zero)) := by
  unfold run
  cases hempty : slots.isEmpty with
  | true =>
    rw [Operands.columnsOf, Span.positions_eq_nil hempty]
    rfl
  | false =>
    simp only [Span.isEmpty, Bool.not_eq_false', decide_eq_true_eq] at hempty
    have hwindow : Window.ofPattern op.a op.search =
        .ok (Window.ofLength op.a.slotCount op.search) := by
      rw [Window.ofPattern, wf.a.vectorCount_eq]
      rfl
    simp only [Bool.false_eq_true, if_false, hwindow, wf.b.vectorId_eq (show slots.start < _ by omega),
      Run.lift_ok, pure_bind, Span.foldM_eq]
    refine visit_slots acc wf (fun slot hs => ?_) (List.pairwise_lt_range' ..) (fun slot hs => ?_)
      _ rfl rfl fun slot hs => ?_
    · have := Span.mem_positions.1 hs
      omega
    · exact hbase _ (List.mem_map_of_mem hs)
    · have hin := Span.mem_positions.1 hs
      rcases Nat.lt_or_eq_of_le hin.1 with hlt | heq
      · exact Nat.le_of_lt (wf.b.slotColumn_lt_slotColumn hlt (by omega))
      · exact Nat.le_of_eq (congrArg op.b.slotColumn heq)

end Kernel

end SparseProduct
