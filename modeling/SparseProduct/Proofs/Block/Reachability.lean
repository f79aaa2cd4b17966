import Mathlib
import SparseProduct.Block.Registry
import SparseProduct.Proofs.Block.Refinement
import SparseProduct.Proofs.Multiply.Hom

/-!
# Reachability on bytes

The catalog holds reachability over blocks of one byte. It is written for bytes and not derived from the
semiring of truth values, because it takes operands of any bytes: every byte other than zero is true. Its
results are the bytes 0 and 1. Both facts are read off one semiring that has truth values for operands and
bytes for results: the blocks implement it, and truth values are taken to it as they are written to bytes.
-/

namespace SparseProduct

namespace Bytes

def first (block : Bytes) : UInt8 := block[0]?.getD 0

theorem first_blockAt {bytes : Bytes} {index : Nat} (h : index < bytes.size) :
    first (bytes.blockAt 1 index) = bytes[index] := by
  simp [first, blockAt, spanAt, h]

theorem InBlocks.holds_first {bytes : Bytes} {count : Nat} (h : bytes.InBlocks 1 count) :
    Holds first 1 bytes bytes where
  inBlocks := by rwa [h.size_eq, Nat.mul_one]
  decode_blockAt _ hindex := first_blockAt hindex

theorem Holds.eq_of_first {bytes xs : Bytes} (h : Holds first 1 bytes xs) : bytes = xs := by
  have hsize : bytes.size = xs.size := by rw [h.inBlocks.size_eq, Nat.mul_one]
  refine Array.ext hsize fun index hindex hindex' => ?_
  rw [← first_blockAt hindex, h.decode_blockAt index hindex']

theorem Holds.map {α β : Type} {decode : Bytes → α} {size : Nat} {bytes : Bytes} {xs : Array α}
    (h : Holds decode size bytes xs) (f : α → β) :
    Holds (fun block => f (decode block)) size bytes (xs.map f) where
  inBlocks := by rw [Array.size_map]; exact h.inBlocks
  decode_blockAt index hindex := by
    rw [Array.size_map] at hindex
    rw [h.decode_blockAt index hindex, Array.getElem_map]

end Bytes

/-- The matrix of truth values that the bytes are read as. -/
def BlockMatrix.truths (m : BlockMatrix) : SparseMatrix Bool := ⟨m.pattern, m.values.map (· != 0)⟩

theorem BlockMatrix.size_truths {m : BlockMatrix} (h : m.values.InBlocks 1 m.pattern.entryCount) :
    m.truths.values.size = m.pattern.entryCount := by
  rw [truths, Array.size_map, h.size_eq, Nat.mul_one]

theorem BlockMatrix.holds_truths {m : BlockMatrix} (hsize : m.elemSize = 1)
    (h : m.values.InBlocks 1 m.pattern.entryCount) :
    m.Holds (fun block => block.first != 0) 1 m.truths where
  pattern := rfl
  elemSize := hsize
  values := h.holds_first.map (· != 0)

/-! ### Truth values in, bytes out -/

open BlockSemiring (truthByte)

/-- Reachability with bytes for results. Of the bytes to accumulate, all but zero are true. -/
def SemiringOps.lorLandBytes : SemiringOps Bool Bool UInt8 where
  name := SemiringOps.lorLand.name
  identity := 0
  multiply x y := .ok (truthByte (x && y))
  accumulate z y := .ok (truthByte (z != 0 || y != 0))

namespace BlockSemiring

theorem truthByte_ne_zero (x : Bool) : (truthByte x != 0) = x := by cases x <;> rfl

theorem truthByte_eq (x : Bool) : truthByte x = 0 ∨ truthByte x = 1 := by
  cases x
  · exact Or.inl rfl
  · exact Or.inr rfl

theorem firstTruth_eq {block : Bytes} (h : block.size = 1) :
    firstTruth block = .ok (block.first != 0) := by
  have hpos : 0 < block.size := by omega
  rw [firstTruth, fetch_of_lt hpos, Bytes.first, Array.getElem?_eq_getElem hpos]
  rfl

theorem exists_store {block : Bytes} (h : block.size = 1) (byte : UInt8) :
    ∃ t : Bytes, store block 0 byte = .ok t ∧ t.size = 1 ∧ t.first = byte := by
  have hpos : 0 < block.size := by omega
  refine ⟨_, store_of_lt hpos byte, (Array.size_set hpos).trans h, ?_⟩
  rw [Bytes.first, Array.getElem?_set_self hpos, Option.getD_some]

theorem lorLand_multiply_eq {z x y : Bytes} (hx : x.size = 1) (hy : y.size = 1) :
    lorLand.multiply z x y = store z 0 (truthByte (x.first != 0 && y.first != 0)) := by
  simp only [lorLand, firstTruth_eq hx, firstTruth_eq hy, Result.ok_bind]
  cases x.first != 0 <;> rfl

theorem lorLand_accumulate_eq {z y : Bytes} (hz : z.size = 1) (hy : y.size = 1) :
    lorLand.accumulate z y = store z 0 (truthByte (z.first != 0 || y.first != 0)) := by
  simp only [lorLand, firstTruth_eq hz, firstTruth_eq hy, Result.ok_bind]
  cases z.first != 0 <;> rfl

theorem lorLand_implements : lorLand.Implements SemiringOps.lorLandBytes
    ⟨fun block => block.first != 0, fun block => block.first != 0, Bytes.first⟩ where
  identity := rfl
  multiply z x y hz hx hy := by
    obtain ⟨t, ht, hsize, hfirst⟩ := exists_store hz (truthByte (x.first != 0 && y.first != 0))
    exact ⟨t, (lorLand_multiply_eq hx hy).trans ht, hsize, congrArg Except.ok hfirst.symm⟩
  accumulate z y hz hy := by
    obtain ⟨t, ht, hsize, hfirst⟩ := exists_store hz (truthByte (z.first != 0 || y.first != 0))
    exact ⟨t, (lorLand_accumulate_eq hz hy).trans ht, hsize, congrArg Except.ok hfirst.symm⟩

theorem lorLand_hom : SemiringOps.lorLand.Hom SemiringOps.lorLandBytes truthByte where
  identity := rfl
  multiply _ _ := .ok rfl
  accumulate z y := .ok (by rw [truthByte_ne_zero, truthByte_ne_zero])

theorem total_lorLand : SemiringOps.lorLand.Total := ⟨fun _ _ => ⟨_, rfl⟩, fun _ _ => ⟨_, rfl⟩⟩

theorem total_lorLandBytes : SemiringOps.lorLandBytes.Total :=
  ⟨fun _ _ => ⟨_, rfl⟩, fun _ _ => ⟨_, rfl⟩⟩

end BlockSemiring

/-- Over the record of the catalog, a product of blocks of one byte ends with the bytes of the product of
truth values, whatever bytes stand for true in the operands and whatever C and the workspace held. -/
theorem multiplyBlocks_lorLand {c : Pattern} {a b : BlockMatrix} {mask : Option Mask}
    (accepted : Accepted c a.pattern b.pattern mask)
    (occupied : ∀ j, c.Occupied j → b.pattern.Occupied j) (ha : a.elemSize = 1) (hb : b.elemSize = 1)
    (hleft : a.values.InBlocks 1 a.pattern.entryCount)
    (hright : b.values.InBlocks 1 b.pattern.entryCount) (settings : Settings) (before : BlockBuffers)
    (hvalues : before.values.InBlocks 1 c.entryCount) (sized : before.work.Sized 1)
    (hwork : c.nRows ≤ before.work.length) (before' : Buffers Bool)
    (hc : before'.values.size = c.entryCount) (hroom : c.nRows ≤ before'.slots.size) :
    ∃ r, Registry.withCatalog.getUniform "lor_land" .bool = .ok r ∧
      ∃ counters after after', multiplyBlocks r c 1 a b mask settings before = .ok counters after ∧
        multiply .lorLand c a.truths b.truths mask settings before' = .ok counters after' ∧
        after.values = after'.values.map truthByte ∧ ∀ byte ∈ after.values, byte = 0 ∨ byte = 1 := by
  have hsize : before.values.size = c.entryCount := by rw [hvalues.size_eq, Nat.mul_one]
  have hslots : c.nRows ≤ (Array.replicate c.nRows (0 : UInt8)).size := by rw [Array.size_replicate]
  have hA := BlockMatrix.size_truths hleft
  have hB := BlockMatrix.size_truths hright
  -- a product with bytes for results runs beside both, over a workspace of its own
  obtain ⟨counters, after', bytes, hrun, hbytes, heq⟩ := multiply_hom (a := a.truths) (b := b.truths)
    (v := ⟨before.values, Array.replicate c.nRows 0⟩) BlockSemiring.lorLand_hom
    BlockSemiring.total_lorLand BlockSemiring.total_lorLandBytes accepted hA hB occupied settings hc
    hsize hroom hslots
  obtain ⟨hagree, -⟩ := multiplyBlocks_agrees (u := ⟨before.values, Array.replicate c.nRows 0⟩)
    BlockSemiring.total_lorLandBytes accepted.checked hA hB settings hsize hslots
    BlockSemiring.lorLand_implements (BlockMatrix.holds_truths ha hleft)
    (BlockMatrix.holds_truths hb hright) hvalues.holds_first sized hwork
  rw [hbytes] at hagree
  obtain ⟨after, hblocks, hholds⟩ := hagree.exists_ok
  have hafter : after.values = after'.values.map truthByte := hholds.eq_of_first.trans heq.symm
  refine ⟨_, rfl, counters, after, after', hblocks, hrun, hafter, fun byte hbyte => ?_⟩
  rw [hafter] at hbyte
  obtain ⟨x, -, rfl⟩ := Array.mem_map.1 hbyte
  exact BlockSemiring.truthByte_eq x

/-! ### Many bytes for true -/

namespace Sample

def truthsA : BlockMatrix := ⟨a.pattern, #[5, 0, 128, 2], 1⟩

def truthsB : BlockMatrix := ⟨b.pattern, #[0, 255, 16, 3, 8, 64], 1⟩

def staleTruths : BlockWorkspace := ⟨#[171, 0, 3, 255, 1], #[205], 1, 5⟩

end Sample

theorem multiplyBlocks_lorLand_stale :
    ∃ after, multiplyBlocks .lorLand Sample.c 1 Sample.truthsA Sample.truthsB (some Sample.mask)
        (.standard 1) ⟨#[70, 71, 72, 73, 74], Sample.staleTruths⟩ = .ok ⟨3, 1, 6, 2, 5, 5⟩ after ∧
      after.values = #[0, 1, 0, 0, 1] := by
  have hrun : multiply .lorLand Sample.c Sample.truthsA.truths Sample.truthsB.truths (some Sample.mask)
      (.standard 1) ⟨Array.replicate 5 true, Array.replicate 3 true⟩ =
        .ok ⟨3, 1, 6, 2, 5, 5⟩ ⟨#[false, true, false, false, true], #[true, true, true]⟩ := by cbv
  have inBlocks : ∀ {bytes : Bytes} {count : Nat}, bytes.size = count → count < 9 →
      bytes.InBlocks 1 count := by
    rintro bytes _ rfl hcount
    have hlimit : 9 < Size.limit := by decide
    exact ⟨(Nat.mul_one _).symm, by omega, by omega⟩
  have sized : Sample.staleTruths.Sized 1 := ⟨inBlocks rfl (by decide), rfl, rfl⟩
  have accepted : Accepted Sample.c Sample.truthsA.pattern Sample.truthsB.pattern (some Sample.mask) :=
    Sample.accepted_of_mask fun m hm => by cases hm; exact ⟨rfl, rfl⟩
  obtain ⟨r, hr, counters, after, after', hblocks, htyped, hvalues, -⟩ := multiplyBlocks_lorLand
    accepted Sample.occupied rfl rfl (inBlocks rfl (by decide)) (inBlocks rfl (by decide)) (.standard 1)
    ⟨#[70, 71, 72, 73, 74], Sample.staleTruths⟩ (inBlocks rfl (by decide)) sized (by decide)
    ⟨Array.replicate 5 true, Array.replicate 3 true⟩ rfl (by decide)
  cases hr
  cases htyped.symm.trans hrun
  exact ⟨after, hblocks, hvalues.trans (by cbv)⟩

end SparseProduct
