import Mathlib
import SparseProduct.Block.Multiply
import SparseProduct.Proofs.Block.Codec
import SparseProduct.Proofs.Block.Simulation
import SparseProduct.Proofs.Multiply.Accepted

/-!
# A product of blocks is a product of elements

A product of block matrices makes the checks of a product of the elements that the blocks hold, and runs
the same script. It ends in the same way and with the same report, and its output holds the values of the
product of elements. What the workspaces of either product held before does not matter.
-/

namespace SparseProduct

variable {L R O : Type}

/-- The blocks hold the values of a matrix of elements, over the same pattern. -/
structure BlockMatrix.Holds {α : Type} (decode : Bytes → α) (size : Nat) (m : BlockMatrix)
    (n : SparseMatrix α) : Prop where
  pattern : m.pattern = n.pattern
  elemSize : m.elemSize = size
  values : m.values.Holds decode size n.values

namespace Kernel

variable {op : Operands} {s : SemiringOps L R O} {r : BlockSemiring} {d : BlockDecoding L R O}
  {left right : Bytes} {xs : Array L} {ys : Array R}

/-- A run on blocks ends as the run on the elements that they hold. -/
theorem run_blocks (wf : op.WellFormed) (total : s.Total) (implements : r.Implements s d)
    (hleft : left.Holds d.left r.left.size xs) (hright : right.Holds d.right r.right.size ys)
    (hxs : xs.size = op.a.entryCount) (hys : ys.size = op.b.entryCount) (slots : Span)
    (hslots : slots.stop ≤ op.b.slotCount) {t : BlockBuffers} {u : Buffers O}
    (sized : t.work.Sized r.output.size) (hroom : op.c.nRows ≤ t.work.length)
    (hroom' : op.c.nRows ≤ u.slots.size) (hvalues : t.values.Holds d.output r.output.size u.values)
    (hsize : u.values.size = op.c.entryCount) :
    ∃ t' u', t'.values.Holds d.output r.output.size u'.values ∧
      run (.blocks r left right) op slots 0 t =
        Run.ofResult (op.report (op.columnsOf slots) .zero) t' ∧
      (∀ e, run (.blocks (r.guarded e) left right) op slots 0 t =
        Run.ofResult (op.report (op.columnsOf slots) .zero) t') ∧
      run (.typed s xs ys) op slots 0 u =
        Run.ofResult (op.report (op.columnsOf slots) .zero) u' := by
  have hbase : ∀ j ∈ op.columnsOf slots, ∀ p ∈ (op.c.columnSpan j).positions,
      0 ≤ p ∧ p < 0 + u.values.size := fun j _ p hp => wf.entry_lt hsize hp
  have hrun : ∀ {σ : Type} (acc : Accumulator σ) {w w' : σ},
      acc.performAll (op.scriptAll 0 (op.columnsOf slots)) w = .ok () w' →
      run acc op slots 0 w = Run.ofResult (op.report (op.columnsOf slots) .zero) w' := by
    intro σ acc w w' h
    rw [run_eq acc wf hslots fun j hj p hp => (hbase j hj p hp).1]
    exact Run.bind_of_ok h
  -- the blocks run in step with typed buffers whose slots are those of the block workspace
  obtain ⟨rows, hrows, hslotsHold⟩ := sized.slots.exists_holds d.output
  have hholds : t.Holds d.output r.output.size ⟨u.values, rows⟩ :=
    ⟨sized, hrows.symm, hvalues, hslotsHold⟩
  obtain ⟨t', v, hblocks, hguarded, htyped, hend⟩ := performAll_blocks implements hleft hright hxs hys
    hholds (Operands.scriptAll_within wf (hrows.symm ▸ hroom) hbase)
  -- and the values that these leave do not depend on what the slots held
  obtain ⟨value, hvalue⟩ := wf.exists_columnValues total hxs hys
  have hfill : ∀ w : Buffers O, op.c.nRows ≤ w.slots.size → w.values = u.values →
      ∃ after, (Accumulator.typed s xs ys).performAll (op.scriptAll 0 (op.columnsOf slots)) w =
        .ok () after ∧ Filled op (op.entryValue s.identity value) 0
          ((op.columnsOf slots).takeWhile op.covered) u.values after.values := by
    intro w hw heq
    obtain ⟨after, hperform, hfilled, -⟩ := perform_columns (t := w) wf hxs hys
      (fun j _ => Or.inl total) (fun j _ => hvalue j) hw fun j hj =>
        heq ▸ hbase j ((List.takeWhile_sublist _).subset hj)
    exact ⟨after, hperform, heq ▸ hfilled⟩
  obtain ⟨v', hv, hfilled⟩ := hfill ⟨u.values, rows⟩ (hrows.symm ▸ hroom) rfl
  obtain ⟨u', hu, hfilled'⟩ := hfill u hroom' rfl
  cases htyped.symm.trans hv
  refine ⟨t', u', ?_, hrun _ hblocks, fun e => hrun _ (hguarded e), hrun _ hu⟩
  rw [← hfilled.unique hfilled' fun j => Iff.rfl]
  exact hend.values

end Kernel

theorem multiplyBlocks_eq_checked {r : BlockSemiring} {c : Pattern} {a b : BlockMatrix}
    (mask : Option Mask) (settings : Settings) {t : BlockBuffers} (ha : a.elemSize = r.left.size)
    (hb : b.elemSize = r.right.size) (hwork : t.work.elemSize = r.output.size)
    (hleft : a.values.InBlocks r.left.size a.pattern.entryCount)
    (hright : b.values.InBlocks r.right.size b.pattern.entryCount)
    (hvalues : t.values.InBlocks r.output.size c.entryCount) (hslots : 0 < b.pattern.colPtr.size)
    (hroom : c.nRows ≤ t.work.length) :
    multiplyBlocks r c r.output.size a b mask settings t =
      (do
        checkOperands c a.pattern b.pattern mask settings
        Kernel.run (Accumulator.blocks r a.values b.values)
          ⟨a.pattern, b.pattern, c, mask, settings.search⟩ ⟨0, b.pattern.slotCount⟩ 0 :
        Run BlockBuffers Counters) t := by
  have hlength : ∀ {operand : Operand} {values : Bytes} {p : Pattern} {size : Nat},
      values.InBlocks size p.entryCount → checkBlockLength operand values p size = .ok () := by
    intro operand values p size h
    rw [checkBlockLength, Size.mul_of_lt (h.size_eq ▸ h.size_lt), Result.ok_bind]
    exact checkValueLength_eq_ok.2 h.size_eq
  have hsize : ∀ {operand : Operand} {n m : Nat}, m = n → checkElementSize operand n m = .ok () :=
    fun h => if_pos h.symm
  simp only [multiplyBlocks, hsize ha, hsize hb, hsize rfl, hsize hwork, hlength (ha ▸ hleft),
    hlength (hb ▸ hright), hlength hvalues, allSlots_eq hslots, Run.lift_ok, pure_bind, Run.get_bind]
  exact runChecked_eq hslots hroom

structure Checked (c a b : Pattern) (mask : Option Mask) : Prop where
  a : a.check .a = .ok ()
  b : b.check .b = .ok ()
  c : c.check .c = .ok ()
  mask : ∀ m ∈ mask, m.pattern.check .mask = .ok ()

theorem Accepted.checked {c a b : Pattern} {mask : Option Mask} (h : Accepted c a b mask) :
    Checked c a b mask := ⟨h.a_check, h.b_check, h.c_check, fun m hm => (h.mask m hm).2⟩

section Agreement

variable {s : SemiringOps L R O} (total : s.Total) {c : Pattern} {a : SparseMatrix L}
  {b : SparseMatrix R} {mask : Option Mask} (checked : Checked c a.pattern b.pattern mask)
  (ha : a.values.size = a.pattern.entryCount) (hb : b.values.size = b.pattern.entryCount)
  (settings : Settings) {u : Buffers O} (hc : u.values.size = c.entryCount)
  (hroom : c.nRows ≤ u.slots.size)
include total checked ha hb hc hroom

/-- The product of blocks ends as the product of the elements that they hold, and hands out blocks of the
right sizes only. -/
theorem multiplyBlocks_agrees {r : BlockSemiring} {d : BlockDecoding L R O}
    (implements : r.Implements s d) {left right : BlockMatrix}
    (hleft : left.Holds d.left r.left.size a) (hright : right.Holds d.right r.right.size b)
    {t : BlockBuffers} (hvalues : t.values.Holds d.output r.output.size u.values)
    (sized : t.work.Sized r.output.size) (hwork : c.nRows ≤ t.work.length) :
    Run.Agree (fun t u => t.values.Holds d.output r.output.size u.values)
        (multiplyBlocks r c r.output.size left right mask settings t)
        (multiply s c a b mask settings u) ∧
      ∀ e, multiplyBlocks (r.guarded e) c r.output.size left right mask settings t =
        multiplyBlocks r c r.output.size left right mask settings t := by
  have wfB := Pattern.wellFormed_of_check checked.b
  have hblocks : ∀ r' : BlockSemiring, r'.left = r.left → r'.right = r.right → r'.output = r.output →
      multiplyBlocks r' c r.output.size left right mask settings t = (do
        checkOperands c a.pattern b.pattern mask settings
        Kernel.run (Accumulator.blocks r' left.values right.values)
          ⟨a.pattern, b.pattern, c, mask, settings.search⟩ ⟨0, b.pattern.slotCount⟩ 0 :
        Run BlockBuffers Counters) t := by
    intro r' hl hr ho
    have hchecked := multiplyBlocks_eq_checked (r := r') (c := c) mask settings
      (hl ▸ hleft.elemSize) (hr ▸ hright.elemSize) (ho ▸ sized.elemSize)
      (hl ▸ hleft.pattern ▸ ha ▸ hleft.values.inBlocks)
      (hr ▸ hright.pattern ▸ hb ▸ hright.values.inBlocks) (ho ▸ hc ▸ hvalues.inBlocks)
      (hright.pattern ▸ wfB.size_colPtr_pos) hwork
    rw [ho, hleft.pattern, hright.pattern] at hchecked
    exact hchecked
  have htyped : multiply s c a b mask settings u = _ := multiply_eq_checked wfB.size_colPtr_pos hroom
  rw [checkProduct_eq ha hb hc] at htyped
  rw [hblocks r rfl rfl rfl, htyped]
  cases hcheck : checkOperands c a.pattern b.pattern mask settings with
  | error e =>
    simp only [Run.lift_error, Run.throw_bind]
    refine ⟨.error e hvalues, fun e' => ?_⟩
    rw [hblocks (r.guarded e') rfl rfl rfl, hcheck, Run.lift_error, Run.throw_bind]
  | ok _ =>
    have accepted := Accepted.of_checkOperands hcheck checked.a checked.b checked.c checked.mask
    obtain ⟨t', u', hend, hrun, hguarded, hrunTyped⟩ := Kernel.run_blocks
      (accepted.wellFormed settings.search) total implements hleft.values hright.values ha hb
      ⟨0, b.pattern.slotCount⟩ (Nat.le_refl _) sized hwork hroom hvalues hc
    simp only [Run.lift_ok, pure_bind, hrun, hrunTyped]
    refine ⟨.ofResult ?_ _, fun e' => ?_⟩
    · exact hend
    · rw [hblocks (r.guarded e') rfl rfl rfl, hcheck]
      exact hguarded e'

end Agreement

section Tagged

variable [TaggedElement L] [TaggedElement R] [TaggedElement O]

theorem TaggedElement.size_encode (x : O) : (BlockCodec.encode x).size = (type O).size :=
  (encode_size x).trans size_eq

theorem readBlock_eq {block : Bytes} (h : block.size = (TaggedElement.type O).size) :
    (readBlock block : Result O) = .ok (BlockCodec.decode block) :=
  if_pos (h.trans TaggedElement.size_eq.symm)

theorem BlockSemiring.ofTyped_implements {s : SemiringOps L R O} (total : s.Total)
    (lawful : BlockCodec.Lawful O) :
    (ofTyped s).Implements s ⟨BlockCodec.decode, BlockCodec.decode, BlockCodec.decode⟩ where
  identity := lawful.decode_encode s.identity
  multiply z x y hz hx hy := by
    obtain ⟨value, hvalue⟩ := total.multiply (BlockCodec.decode x) (BlockCodec.decode y)
    have hsize := TaggedElement.size_encode value
    refine ⟨BlockCodec.encode value, ?_, hsize, hvalue.trans (congrArg _ (lawful.decode_encode _).symm)⟩
    simp only [ofTyped, readBlock_eq hx, readBlock_eq hy, Result.ok_bind, hvalue, Bytes.replace,
      if_pos (hsize.trans hz.symm)]
  accumulate z y hz hy := by
    obtain ⟨value, hvalue⟩ := total.accumulate (BlockCodec.decode z) (BlockCodec.decode y)
    have hsize := TaggedElement.size_encode value
    refine ⟨BlockCodec.encode value, ?_, hsize, hvalue.trans (congrArg _ (lawful.decode_encode _).symm)⟩
    simp only [ofTyped, readBlock_eq hz, readBlock_eq hy, Result.ok_bind, hvalue, Bytes.replace,
      if_pos (hsize.trans hz.symm)]

end Tagged

theorem BlockMatrix.inBlocks_ofTyped {α : Type} [BlockCodec α] (lawful : BlockCodec.Lawful α)
    {m : SparseMatrix α} (hcount : m.values.size < Size.limit)
    (hsize : m.values.size * BlockCodec.size α < Size.limit) :
    (ofTyped m).values.InBlocks (BlockCodec.size α) m.values.size :=
  Bytes.inBlocks_flatMap lawful hcount hsize

theorem BlockMatrix.holds_ofTyped {α : Type} [TaggedElement α] (lawful : BlockCodec.Lawful α)
    {m : SparseMatrix α} (h : (ofTyped m).values.InBlocks (BlockCodec.size α) m.values.size) :
    (ofTyped m).Holds BlockCodec.decode (TaggedElement.type α).size m where
  pattern := rfl
  elemSize := TaggedElement.size_eq
  values := TaggedElement.size_eq (α := α) ▸ h.holds_flatMap lawful

/-- A product of blocks simulates the product of the elements that they hold, under every semiring that
is implemented on blocks: both end in the same way with the same report, the output holds the values of
the product of elements, and only blocks of the right sizes are handed out. On the layouts of elements the
output is, byte for byte, the layout of the product of elements. -/
theorem multiplyBlocks_simulates {s : SemiringOps L R O} (total : s.Total) {c : Pattern}
    {a : SparseMatrix L} {b : SparseMatrix R} {mask : Option Mask}
    (checked : Checked c a.pattern b.pattern mask) (ha : a.values.size = a.pattern.entryCount)
    (hb : b.values.size = b.pattern.entryCount) (settings : Settings) {u : Buffers O}
    (hc : u.values.size = c.entryCount) (hroom : c.nRows ≤ u.slots.size) :
    (∀ (r : BlockSemiring) (d : BlockDecoding L R O), r.Implements s d →
      ∀ left right : BlockMatrix, left.Holds d.left r.left.size a →
      right.Holds d.right r.right.size b →
      ∀ t : BlockBuffers, t.values.Holds d.output r.output.size u.values →
      t.work.Sized r.output.size → c.nRows ≤ t.work.length →
      Run.Agree (fun t u => t.values.Holds d.output r.output.size u.values)
          (multiplyBlocks r c r.output.size left right mask settings t)
          (multiply s c a b mask settings u) ∧
        ∀ e, multiplyBlocks (r.guarded e) c r.output.size left right mask settings t =
          multiplyBlocks r c r.output.size left right mask settings t) ∧
    ∀ [TaggedElement L] [TaggedElement R] [TaggedElement O],
      BlockCodec.Lawful L → BlockCodec.Lawful R → BlockCodec.Lawful O →
      (BlockMatrix.ofTyped a).values.InBlocks (BlockCodec.size L) a.values.size →
      (BlockMatrix.ofTyped b).values.InBlocks (BlockCodec.size R) b.values.size →
      (BlockMatrix.ofTyped ⟨c, u.values⟩).values.InBlocks (BlockCodec.size O) u.values.size →
      ∀ work : BlockWorkspace, work.Sized (BlockCodec.size O) → c.nRows ≤ work.length →
      Run.Agree (fun t u => t.values = (BlockMatrix.ofTyped ⟨c, u.values⟩).values)
        (multiplyBlocks (.ofTyped s) c (BlockCodec.size O) (.ofTyped a) (.ofTyped b) mask settings
          ⟨(BlockMatrix.ofTyped ⟨c, u.values⟩).values, work⟩)
        (multiply s c a b mask settings u) := by
  constructor
  · intro r d implements left right hleft hright t hvalues sized hwork
    exact multiplyBlocks_agrees total checked ha hb settings hc hroom implements hleft hright hvalues
      sized hwork
  · intro _ _ _ lawfulL lawfulR lawfulO hleft hright houtput work sized hwork
    have hsize : BlockCodec.size O = (BlockSemiring.ofTyped s).output.size := TaggedElement.size_eq
    rw [hsize] at sized ⊢
    refine (multiplyBlocks_agrees total checked ha hb settings hc hroom
      (BlockSemiring.ofTyped_implements total lawfulO) (BlockMatrix.holds_ofTyped lawfulL hleft)
      (BlockMatrix.holds_ofTyped lawfulR hright) ?_ sized hwork).1.imp fun t u h => ?_
    · exact (BlockMatrix.holds_ofTyped lawfulO houtput).values
    · exact Bytes.Holds.eq_flatMap lawfulO (hsize ▸ h)

/-! ### A small product of blocks

The operands of the small product, as numbers of one, four and eight bytes. -/

namespace Sample

def numbers (k : IntKind) (values : List Int) : Array (Whole k) :=
  (values.map (Whole.wrap k)).toArray

def narrow : SparseMatrix (Whole Nat8Kind) := ⟨a.pattern, numbers _ [5, 253, 7, 2]⟩

def middle : SparseMatrix (Whole Int32Kind) := ⟨b.pattern, numbers _ [4, -1, 6, 3, 8, -2]⟩

def wide : SparseMatrix (Whole Int64Kind) := ⟨c, numbers _ [70, 71, 72, 73, 74]⟩

def widen : SemiringOps (Whole Nat8Kind) (Whole Int32Kind) (Whole Int64Kind) where
  name := "widen"
  identity := Whole.wrap _ 1
  multiply x y := .ok (Whole.wrap _ (x.val + 2 * y.val))
  accumulate x y := .ok (Whole.wrap _ (2 * x.val - y.val))

def stale : BlockWorkspace := ⟨Array.replicate 40 171, Array.replicate 8 205, 8, 5⟩

end Sample

theorem multiplyBlocks_simulates_widen :
    ∃ t, multiplyBlocks (.ofTyped Sample.widen) Sample.c 8 (.ofTyped Sample.narrow)
        (.ofTyped Sample.middle) (some Sample.mask) (.standard 1)
        ⟨(BlockMatrix.ofTyped Sample.wide).values, Sample.stale⟩ = .ok ⟨3, 1, 6, 2, 5, 5⟩ t ∧
      t.values = (BlockMatrix.ofTyped
        ⟨Sample.c, Sample.numbers Int64Kind [1, -3, 1, 1, -512]⟩).values ∧
      ∀ e, multiplyBlocks ((BlockSemiring.ofTyped Sample.widen).guarded e) Sample.c 8
        (.ofTyped Sample.narrow) (.ofTyped Sample.middle) (some Sample.mask) (.standard 1)
        ⟨(BlockMatrix.ofTyped Sample.wide).values, Sample.stale⟩ = .ok ⟨3, 1, 6, 2, 5, 5⟩ t := by
  have hrun : multiply Sample.widen Sample.c Sample.narrow Sample.middle (some Sample.mask)
      (.standard 1) ⟨Sample.wide.values, Sample.numbers _ [90, 91, 92, 93]⟩ =
        .ok ⟨3, 1, 6, 2, 5, 5⟩ ⟨Sample.numbers _ [1, -3, 1, 1, -512],
          Sample.numbers _ [90, -3, -512, 93]⟩ := by cbv
  have total : Sample.widen.Total := ⟨fun _ _ => ⟨_, rfl⟩, fun _ _ => ⟨_, rfl⟩⟩
  have checked : Checked Sample.c Sample.narrow.pattern Sample.middle.pattern (some Sample.mask) :=
    ⟨rfl, rfl, rfl, fun m hm => by cases hm; rfl⟩
  have hleft := BlockMatrix.inBlocks_ofTyped (m := Sample.narrow) (Whole.lawful _) (by decide)
    (by decide)
  have hright := BlockMatrix.inBlocks_ofTyped (m := Sample.middle) (Whole.lawful _) (by decide)
    (by decide)
  have houtput := BlockMatrix.inBlocks_ofTyped (m := Sample.wide) (Whole.lawful _) (by decide)
    (by decide)
  have sized : Sample.stale.Sized 8 := ⟨⟨rfl, by decide, by decide⟩, rfl, rfl⟩
  obtain ⟨hblocks, hbytes⟩ := multiplyBlocks_simulates total checked rfl rfl (.standard 1)
    (u := ⟨Sample.wide.values, Sample.numbers _ [90, 91, 92, 93]⟩) rfl (show 3 ≤ 4 by decide)
  have hagree := hbytes (Whole.lawful _) (Whole.lawful _) (Whole.lawful _) hleft hright houtput
    Sample.stale sized (show 3 ≤ 5 by decide)
  have hguarded := (hblocks _ _ (BlockSemiring.ofTyped_implements total (Whole.lawful _)) _ _
    (BlockMatrix.holds_ofTyped (Whole.lawful _) hleft)
    (BlockMatrix.holds_ofTyped (Whole.lawful _) hright)
    ⟨(BlockMatrix.ofTyped Sample.wide).values, Sample.stale⟩
    (BlockMatrix.holds_ofTyped (Whole.lawful _) houtput).values sized (show 3 ≤ 5 by decide)).2
  rw [hrun] at hagree
  obtain ⟨t, ht, hvalues⟩ := hagree.exists_ok
  exact ⟨t, ht, hvalues, fun e => (hguarded e).trans ht⟩

end SparseProduct
