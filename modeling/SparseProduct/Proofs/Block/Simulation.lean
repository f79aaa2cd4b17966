import SparseProduct.Block.Workspace
import SparseProduct.Proofs.Block.Layout
import SparseProduct.Proofs.Kernel.Within

/-!
# The script of a run on blocks

A block semiring implements a semiring of elements if its blocks decode to the elements that the semiring
computes. Buffers of blocks that hold the elements of typed buffers then keep holding them: every call of
a script is carried out on both in the same way. The calls hand out blocks of the right sizes only, so a
semiring that refuses all others would do no different.
-/

namespace SparseProduct

variable {L R O : Type}

/-- What the blocks of each of three element types mean. -/
structure BlockDecoding (L R O : Type) where
  left : Bytes → L
  right : Bytes → R
  output : Bytes → O

namespace BlockSemiring

/-- On blocks of the right sizes the operations never fail, and they decode to those of a semiring of
elements. What the block that a product overwrites held before does not matter. -/
structure Implements (r : BlockSemiring) (s : SemiringOps L R O) (d : BlockDecoding L R O) : Prop where
  identity : d.output r.identity = s.identity
  multiply : ∀ z x y : Bytes, z.size = r.output.size → x.size = r.left.size → y.size = r.right.size →
    ∃ t, r.multiply z x y = .ok t ∧ t.size = r.output.size ∧
      s.multiply (d.left x) (d.right y) = .ok (d.output t)
  accumulate : ∀ z y : Bytes, z.size = r.output.size → y.size = r.output.size →
    ∃ t, r.accumulate z y = .ok t ∧ t.size = r.output.size ∧
      s.accumulate (d.output z) (d.output y) = .ok (d.output t)

/-- The semiring that fails as soon as it is handed a block of a wrong size. -/
def guarded (r : BlockSemiring) (e : Failure) : BlockSemiring where
  __ := r
  multiply z x y :=
    if z.size = r.output.size ∧ x.size = r.left.size ∧ y.size = r.right.size then r.multiply z x y
    else .error e
  accumulate z y :=
    if z.size = r.output.size ∧ y.size = r.output.size then r.accumulate z y else .error e

end BlockSemiring

/-- The blocks of a workspace and its scratch block have the given size. -/
structure BlockWorkspace.Sized (w : BlockWorkspace) (size : Nat) : Prop where
  slots : w.slots.InBlocks size w.length
  scratch : w.scratch.size = size
  elemSize : w.elemSize = size

/-- The blocks hold the elements of typed buffers. -/
structure BlockBuffers.Holds (decode : Bytes → O) (size : Nat) (t : BlockBuffers) (u : Buffers O) :
    Prop where
  sized : t.work.Sized size
  length : t.work.length = u.slots.size
  values : t.values.Holds decode size u.values
  slots : t.work.slots.Holds decode size u.slots

/-- The buffers have as many values and as many slots. -/
structure Buffers.Resembles (u v : Buffers O) : Prop where
  values : u.values.size = v.values.size
  slots : u.slots.size = v.slots.size

namespace BlockBuffers.Holds

variable {decode : Bytes → O} {size : Nat} {t : BlockBuffers} {u : Buffers O}

theorem slot_eq (h : t.Holds decode size u) {row : Nat} (hrow : row < u.slots.size) :
    t.work.slot row = .ok (t.work.slots.blockAt size row) := by
  rw [BlockWorkspace.slot, h.sized.elemSize, h.slots.inBlocks.block_eq hrow]

theorem setSlot (h : t.Holds decode size u) {row : Nat} (hrow : row < u.slots.size) {block : Bytes}
    (hblock : block.size = size) :
    ∃ t' u', BlockBuffers.setSlot row block t = .ok () t' ∧
      Buffers.setSlot row (decode block) u = .ok () u' ∧ u'.Resembles u ∧
      t'.Holds decode size u' := by
  have hset : t.work.slots.setBlock t.work.elemSize row block =
      .ok ((Bytes.spanAt size row).splice t.work.slots block) := by
    rw [h.sized.elemSize, h.slots.inBlocks.setBlock_eq hrow hblock]
  refine ⟨{ t with work := { t.work with
    slots := (Bytes.spanAt size row).splice t.work.slots block } }, _, ?_,
    Buffers.setSlot_of_lt hrow, ⟨rfl, Array.size_set hrow⟩, ?_, ?_, h.values, h.slots.set hrow hblock⟩
  · simp only [BlockBuffers.setSlot, Run.get_bind, hset, Run.lift_ok, pure_bind]
    rfl
  · exact { h.sized with slots := h.sized.slots.splice (h.length ▸ hrow) hblock }
  · exact h.length.trans (Array.size_set hrow).symm

theorem setValue (h : t.Holds decode size u) {position : Nat} (hposition : position < u.values.size)
    {block : Bytes} (hblock : block.size = size) :
    ∃ t' u', BlockBuffers.setValue size position (.ok block) t = .ok () t' ∧
      Buffers.setValue position (decode block) u = .ok () u' ∧ u'.Resembles u ∧
      t'.Holds decode size u' := by
  refine ⟨{ t with values := (Bytes.spanAt size position).splice t.values block }, _, ?_,
    Buffers.setValue_of_lt hposition, ⟨Array.size_set hposition, rfl⟩, h.sized, h.length,
    h.values.set hposition hblock, h.slots⟩
  simp only [BlockBuffers.setValue, h.values.inBlocks.blockSpan_eq hposition, Run.get_bind,
    h.values.inBlocks.cut_eq hposition, h.values.inBlocks.overwrite_eq hposition hblock, Run.lift_ok,
    pure_bind]
  rfl

theorem setScratch (h : t.Holds decode size u) {block : Bytes} (hblock : block.size = size) :
    { t with work := { t.work with scratch := block } : BlockBuffers }.Holds decode size u :=
  { h with sized := { h.sized with scratch := hblock } }

end BlockBuffers.Holds

namespace Kernel

variable {op : Operands} {s : SemiringOps L R O} {r : BlockSemiring} {d : BlockDecoding L R O}
  {left right : Bytes} {xs : Array L} {ys : Array R} {t : BlockBuffers} {u : Buffers O}

theorem multiplyAdd_blocks {row p q : Nat} {x y product z sum : Bytes}
    (hx : left.block r.left.size p = .ok x) (hy : right.block r.right.size q = .ok y)
    (hproduct : r.multiply t.work.scratch x y = .ok product) (hz : t.work.slot row = .ok z)
    (hsum : r.accumulate z product = .ok sum) :
    (Accumulator.blocks r left right).perform (.multiplyAdd row p q) t =
      BlockBuffers.setSlot row sum { t with work := { t.work with scratch := product } } := by
  have hslot : BlockWorkspace.slot { t.work with scratch := product } row = .ok z := hz
  simp only [Accumulator.perform, Accumulator.blocks, hx, hy, Run.lift_ok, pure_bind, Run.get_bind,
    hproduct, BlockBuffers.setScratch]
  rw [Run.bind_of_ok (show (modify _ : Run BlockBuffers Unit) t = .ok () _ from rfl), Run.get_bind]
  simp only [hslot, Run.lift_ok, pure_bind, Run.get_bind, hsum]

theorem perform_blocks (implements : r.Implements s d) (hleft : left.Holds d.left r.left.size xs)
    (hright : right.Holds d.right r.right.size ys) (hxs : xs.size = op.a.entryCount)
    (hys : ys.size = op.b.entryCount) (h : t.Holds d.output r.output.size u) {action : Action}
    (within : action.Within op u.slots.size u.values.size) :
    ∃ t' u', (Accumulator.blocks r left right).perform action t = .ok () t' ∧
      (∀ e, (Accumulator.blocks (r.guarded e) left right).perform action t = .ok () t') ∧
      (Accumulator.typed s xs ys).perform action u = .ok () u' ∧ u'.Resembles u ∧
      t'.Holds d.output r.output.size u' := by
  cases action with
  | clear row =>
    obtain ⟨t', u', hblocks, htyped, hsame, hholds⟩ := h.setSlot within r.identity_size
    rw [implements.identity] at htyped
    exact ⟨t', u', hblocks, fun _ => hblocks, htyped, hsame, hholds⟩
  | writeIdentity position =>
    obtain ⟨t', u', hblocks, htyped, hsame, hholds⟩ := h.setValue within r.identity_size
    rw [implements.identity] at htyped
    exact ⟨t', u', hblocks, fun _ => hblocks, htyped, hsame, hholds⟩
  | gather position row =>
    obtain ⟨hposition, hrow⟩ := within
    obtain ⟨t', u', hblocks, htyped, hsame, hholds⟩ :=
      h.setValue hposition (h.slots.inBlocks.size_blockAt hrow)
    have hgather : ∀ r : BlockSemiring, (Accumulator.blocks r left right).perform
        (.gather position row) t = .ok () t' := by
      intro r
      simp only [Accumulator.perform, Accumulator.blocks, Run.get_bind, h.sized.elemSize,
        h.slot_eq hrow, hblocks]
    refine ⟨t', u', hgather r, fun e => hgather _, ?_, hsame, hholds⟩
    simp only [Accumulator.perform, Accumulator.typed, Run.get_bind, h.slots.fetch_eq hrow,
      Run.lift_ok, pure_bind, htyped]
  | multiplyAdd row p q =>
    obtain ⟨hrow, hp, hq⟩ := within
    rw [← hxs] at hp
    rw [← hys] at hq
    have hx := hleft.inBlocks.size_blockAt hp
    have hy := hright.inBlocks.size_blockAt hq
    have hz := h.slots.inBlocks.size_blockAt hrow
    obtain ⟨product, hproduct, hsize, hmultiply⟩ :=
      implements.multiply t.work.scratch _ _ h.sized.scratch hx hy
    obtain ⟨sum, hsum, hsumSize, haccumulate⟩ := implements.accumulate _ product hz hsize
    obtain ⟨t', u', hblocks, htyped, hsame, hholds⟩ := (h.setScratch hsize).setSlot hrow hsumSize
    refine ⟨t', u', ?_, fun e => ?_, ?_, hsame, hholds⟩
    · rw [multiplyAdd_blocks (hleft.inBlocks.block_eq hp) (hright.inBlocks.block_eq hq) hproduct
        (h.slot_eq hrow) hsum, hblocks]
    · rw [multiplyAdd_blocks (r := r.guarded e) (hleft.inBlocks.block_eq hp)
        (hright.inBlocks.block_eq hq) ((if_pos ⟨h.sized.scratch, hx, hy⟩).trans hproduct)
        (h.slot_eq hrow) ((if_pos ⟨hz, hsize⟩).trans hsum), hblocks]
    · simp only [Accumulator.perform, Accumulator.typed, hleft.fetch_eq hp, hright.fetch_eq hq,
        Run.lift_ok, pure_bind, hmultiply, Run.get_bind, h.slots.fetch_eq hrow, haccumulate, htyped]

/-- Calls are carried out on blocks as they are on elements. -/
theorem performAll_blocks (implements : r.Implements s d)
    (hleft : left.Holds d.left r.left.size xs) (hright : right.Holds d.right r.right.size ys)
    (hxs : xs.size = op.a.entryCount) (hys : ys.size = op.b.entryCount)
    (h : t.Holds d.output r.output.size u) {actions : List Action}
    (within : ∀ action ∈ actions, action.Within op u.slots.size u.values.size) :
    ∃ t' u', (Accumulator.blocks r left right).performAll actions t = .ok () t' ∧
      (∀ e, (Accumulator.blocks (r.guarded e) left right).performAll actions t = .ok () t') ∧
      (Accumulator.typed s xs ys).performAll actions u = .ok () u' ∧
      t'.Holds d.output r.output.size u' := by
  induction actions generalizing t u with
  | nil => exact ⟨t, u, rfl, fun _ => rfl, rfl, h⟩
  | cons action actions ih =>
    obtain ⟨t₁, u₁, hblocks, hguarded, htyped, hsame, hholds⟩ :=
      perform_blocks implements hleft hright hxs hys h (within action List.mem_cons_self)
    obtain ⟨t', u', hmore, hmoreGuarded, hmoreTyped, hend⟩ := ih hholds fun a ha => by
      rw [hsame.slots, hsame.values]
      exact within a (List.mem_cons_of_mem _ ha)
    refine ⟨t', u', ?_, fun e => ?_, ?_, hend⟩
    · rw [Accumulator.performAll, Run.bind_of_ok hblocks, hmore]
    · rw [Accumulator.performAll, Run.bind_of_ok (hguarded e), hmoreGuarded e]
    · rw [Accumulator.performAll, Run.bind_of_ok htyped, hmoreTyped]

end Kernel

end SparseProduct
