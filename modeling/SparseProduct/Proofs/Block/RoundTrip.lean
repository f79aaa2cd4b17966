import Mathlib.Data.List.Basic
import SparseProduct.Proofs.Block.Codec

/-!
# From elements to blocks and back

Reading bytes as elements visits their whole blocks, from the first to the last. Where elements and blocks
determine each other, a matrix of elements comes back from its blocks as it was. A block matrix comes back
from its elements up to its last whole block; the bytes behind it belong to no element.
-/

namespace SparseProduct

namespace Bytes

variable {α : Type}

theorem blocksFrom_eq (bytes : Bytes) (size count index : Nat) :
    blocksFrom bytes size count (index * size) =
      (List.range' index count).map (bytes.blockAt size) := by
  induction count generalizing index with
  | zero => rfl
  | succ count ih =>
    rw [blocksFrom, ← Nat.succ_mul, ih, List.range'_succ, List.map_cons]
    rfl

theorem blocks_eq (bytes : Bytes) (size : Nat) :
    bytes.blocks size = (List.range (bytes.size / size)).map (bytes.blockAt size) := by
  rw [blocks, List.range_eq_range', ← blocksFrom_eq, Nat.zero_mul]

theorem blocks_flatMap {f : α → Bytes} {size : Nat} (hf : ∀ x, (f x).size = size) (hsize : 0 < size)
    (xs : Array α) : blocks (xs.flatMap f) size = xs.toList.map f := by
  rw [blocks_eq, size_flatMap hf, Nat.mul_div_cancel _ hsize]
  apply List.ext_getElem
  · rw [List.length_map, List.length_range, List.length_map, Array.length_toList]
  · intro index hindex _
    rw [List.length_map, List.length_range] at hindex
    rw [List.getElem_map, List.getElem_range, blockAt_flatMap hf hindex, List.getElem_map,
      Array.getElem_toList]

theorem flatMap_blockAt (bytes : Bytes) (size count : Nat) :
    ((List.range count).flatMap fun index => (bytes.blockAt size index).toList) =
      bytes.toList.take (count * size) := by
  induction count with
  | zero => rw [List.range_zero, List.flatMap_nil, Nat.zero_mul, List.take_zero]
  | succ count ih =>
    rw [List.range_succ, List.flatMap_append, ih, List.flatMap_singleton, blockAt,
      Array.toList_extract, List.extract_eq_take_drop, spanAt_length, Nat.succ_mul, List.take_add]
    rfl

theorem size_blockAt_of_lt {bytes : Bytes} {size index : Nat} (h : index < bytes.size / size) :
    (bytes.blockAt size index).size = size := by
  have hstop : (spanAt size index).stop ≤ bytes.size :=
    Nat.le_trans (Nat.mul_le_mul_right size h) (Nat.div_mul_le_self _ _)
  rw [blockAt, Array.size_extract, Nat.min_eq_left hstop, spanAt_length]

end Bytes

namespace BlockMatrix

/-- The matrix without the bytes behind its last whole block. -/
def wholeBlocks (m : BlockMatrix) : BlockMatrix :=
  { m with values := m.values.extract 0 (m.values.size - m.values.size % m.elemSize) }

theorem wholeBlocks_of_dvd {m : BlockMatrix} (h : m.elemSize ∣ m.values.size) : m.wholeBlocks = m := by
  rw [wholeBlocks, Nat.mod_eq_zero_of_dvd h, Nat.sub_zero, Array.extract_size]

section Codec

variable {α : Type} [BlockCodec α]

theorem toTyped_eq {m : BlockMatrix} (helem : m.elemSize = BlockCodec.size α)
    (hsize : 0 < BlockCodec.size α) : m.toTyped α =
      .ok ⟨m.pattern, ((m.values.blocks (BlockCodec.size α)).map BlockCodec.decode).toArray⟩ := by
  rw [toTyped, helem, if_neg (not_not.2 rfl), if_neg (Nat.ne_of_gt hsize)]
  rfl

variable (lawful : BlockCodec.Lawful α) (hsize : 0 < BlockCodec.size α)
include lawful

theorem valueBlock_ofTyped {m : SparseMatrix α} (hcount : m.values.size < Size.limit)
    (hlimit : m.values.size * BlockCodec.size α < Size.limit) {p : Nat} (hp : p < m.values.size) :
    (ofTyped m).valueBlock p = .ok (BlockCodec.encode m.values[p]) := by
  have hblocks := Bytes.inBlocks_flatMap lawful hcount hlimit
  rw [valueBlock, ofTyped, hblocks.block_eq hp, Bytes.blockAt_flatMap lawful.size_encode hp]

include hsize

theorem toTyped_ofTyped (m : SparseMatrix α) : (ofTyped m).toTyped α = .ok m := by
  rw [toTyped_eq rfl hsize, ofTyped, Bytes.blocks_flatMap lawful.size_encode hsize, List.map_map]
  have hdecode : BlockCodec.decode ∘ BlockCodec.encode = (id : α → α) := funext lawful.decode_encode
  rw [hdecode, List.map_id, Array.toArray_toList]

/-- The elements of a block matrix are laid out as its whole blocks. -/
theorem exists_toTyped {o : BlockMatrix} (helem : o.elemSize = BlockCodec.size α) :
    ∃ m : SparseMatrix α, o.toTyped α = .ok m ∧ ofTyped m = o.wholeBlocks := by
  refine ⟨_, toTyped_eq helem hsize, ?_⟩
  have hvalues : (((o.values.blocks (BlockCodec.size α)).map
      (BlockCodec.decode (α := α))).toArray.flatMap BlockCodec.encode) = o.wholeBlocks.values := by
    apply Array.toList_inj.1
    have hwhole : o.values.size - o.values.size % o.elemSize =
        o.values.size / BlockCodec.size α * BlockCodec.size α := by
      rw [helem, Nat.div_mul_self_eq_mod_sub_self]
    have hblock : ∀ index ∈ List.range (o.values.size / BlockCodec.size α),
        (BlockCodec.encode (BlockCodec.decode (o.values.blockAt (BlockCodec.size α) index) : α)).toList =
          (o.values.blockAt (BlockCodec.size α) index).toList := by
      intro index hindex
      rw [lawful.encode_decode _ (Bytes.size_blockAt_of_lt (List.mem_range.1 hindex))]
    rw [wholeBlocks, hwhole, Array.toList_extract, List.extract_eq_take_drop, List.drop_zero,
      Nat.sub_zero, ← Bytes.flatMap_blockAt, Bytes.blocks_eq, Array.toList_flatMap, List.map_map,
      List.flatMap_map]
    exact List.flatMap_congr hblock
  rw [ofTyped, hvalues, ← helem]
  rfl

/-- A matrix of elements that take up bytes is read back from its blocks as it was, and each of its blocks is
the encoding of the value at its place. A block matrix whose blocks have the size of the elements is laid
out again as it was from the elements that are read from it, except for the bytes that are left over behind
its last whole block. -/
theorem typed_roundTrip :
    (∀ m : SparseMatrix α, (ofTyped m).toTyped α = .ok m ∧
      (m.values.size * BlockCodec.size α < Size.limit → ∀ (p : Nat) (hp : p < m.values.size),
        (ofTyped m).valueBlock p = .ok (BlockCodec.encode m.values[p]))) ∧
    ∀ o : BlockMatrix, o.elemSize = BlockCodec.size α →
      ∃ m : SparseMatrix α, o.toTyped α = .ok m ∧ ofTyped m = o.wholeBlocks ∧
        (BlockCodec.size α ∣ o.values.size → ofTyped m = o) := by
  constructor
  · intro m
    refine ⟨toTyped_ofTyped lawful hsize m, fun hlimit p hp => ?_⟩
    have hcount := Nat.lt_of_le_of_lt (Nat.le_mul_of_pos_right m.values.size hsize) hlimit
    exact valueBlock_ofTyped lawful hcount hlimit hp
  · intro o helem
    obtain ⟨m, hm, hwhole⟩ := exists_toTyped lawful hsize helem
    refine ⟨m, hm, hwhole, fun hdvd => ?_⟩
    rw [hwhole, wholeBlocks_of_dvd (helem ▸ hdvd)]

end Codec

/-- Ten bytes hold two numbers of four bytes; the last two bytes are lost. -/
theorem typed_roundTrip_partial :
    toTyped (Whole Int32Kind) ⟨default, #[1, 0, 0, 0, 254, 255, 255, 255, 7, 7], 4⟩ =
        .ok ⟨default, #[.wrap _ 1, .wrap _ (-2)]⟩ ∧
      ofTyped ⟨default, #[Whole.wrap Int32Kind 1, .wrap _ (-2)]⟩ =
        ⟨default, #[1, 0, 0, 0, 254, 255, 255, 255], 4⟩ ∧
      (ofTyped ⟨default, #[Whole.wrap Int32Kind 1, .wrap _ (-2)]⟩).valueBlock 1 =
        .ok #[254, 255, 255, 255] := by
  obtain ⟨hfrom, hto⟩ := typed_roundTrip (Whole.lawful Int32Kind) (by decide)
  obtain ⟨m, hm, hwhole, -⟩ := hto ⟨default, #[1, 0, 0, 0, 254, 255, 255, 255, 7, 7], 4⟩ rfl
  have hread : toTyped (Whole Int32Kind) ⟨default, #[1, 0, 0, 0, 254, 255, 255, 255, 7, 7], 4⟩ =
      .ok ⟨default, #[.wrap _ 1, .wrap _ (-2)]⟩ := by cbv
  cases hm.symm.trans hread
  obtain ⟨-, hblock⟩ := hfrom ⟨default, #[.wrap _ 1, .wrap _ (-2)]⟩
  exact ⟨hm, hwhole, hblock (by decide) 1 (by decide)⟩

end BlockMatrix

end SparseProduct
