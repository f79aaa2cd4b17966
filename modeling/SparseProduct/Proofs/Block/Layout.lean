import SparseProduct.Block
import SparseProduct.Proofs.Sequencing
import SparseProduct.Proofs.Splice

/-!
# Reading and writing blocks

Bytes that are laid out in blocks are read and written by index. Writing a block changes what is read at
its index and nothing else, so bytes that hold some elements, one in each block, behave as the array of
these elements.
-/

namespace SparseProduct

namespace Bytes

variable {α : Type}

/-- The bytes are `count` blocks of `size` bytes, and all of these numbers are sizes. -/
structure InBlocks (bytes : Bytes) (size count : Nat) : Prop where
  size_eq : bytes.size = count * size
  count_lt : count < Size.limit
  size_lt : bytes.size < Size.limit

/-- The positions of a block. -/
def spanAt (size index : Nat) : Span := ⟨index * size, (index + 1) * size⟩

def blockAt (bytes : Bytes) (size index : Nat) : Bytes :=
  bytes.extract (spanAt size index).start (spanAt size index).stop

theorem spanAt_length (size index : Nat) :
    (spanAt size index).stop - (spanAt size index).start = size := by
  simp only [spanAt, Nat.succ_mul, Nat.add_sub_cancel_left]

theorem spanAt_le (size index : Nat) : (spanAt size index).start ≤ (spanAt size index).stop :=
  Nat.mul_le_mul_right size (Nat.le_succ index)

namespace InBlocks

variable {bytes part : Bytes} {size count index : Nat} (h : bytes.InBlocks size count)
  (hi : index < count)
include h hi

theorem spanAt_stop_le : (spanAt size index).stop ≤ bytes.size := by
  rw [h.size_eq]
  exact Nat.mul_le_mul_right size hi

theorem size_blockAt : (bytes.blockAt size index).size = size := by
  rw [blockAt, Array.size_extract, Nat.min_eq_left (h.spanAt_stop_le hi), spanAt_length]

theorem blockSpan_eq : blockSpan size index = .ok (spanAt size index) := by
  have hstop : (index + 1) * size ≤ bytes.size := h.spanAt_stop_le hi
  have hstart : index * size ≤ (index + 1) * size := spanAt_le size index
  have hcount := h.count_lt
  have hsize := h.size_lt
  rw [blockSpan, Size.mul_of_lt (by omega), Result.ok_bind, Size.add_of_lt (by omega), Result.ok_bind,
    Size.mul_of_lt (by omega)]
  rfl

theorem cut_eq : (spanAt size index).cut bytes = .ok (bytes.blockAt size index) :=
  Span.cut_of_le (spanAt_le size index) (h.spanAt_stop_le hi)

theorem block_eq : bytes.block size index = .ok (bytes.blockAt size index) := by
  rw [block, h.blockSpan_eq hi, Result.ok_bind, h.cut_eq hi]

theorem overwrite_eq (hpart : part.size = size) :
    bytes.overwrite (spanAt size index) part = .ok ((spanAt size index).splice bytes part) := by
  rw [overwrite, h.cut_eq hi, Result.ok_bind, if_pos (hpart.trans (h.size_blockAt hi).symm)]
  rfl

theorem setBlock_eq (hpart : part.size = size) :
    bytes.setBlock size index part = .ok ((spanAt size index).splice bytes part) := by
  rw [setBlock, h.blockSpan_eq hi, Result.ok_bind, h.overwrite_eq hi hpart]

theorem splice (hpart : part.size = size) :
    InBlocks ((spanAt size index).splice bytes part) size count := by
  have hsize := Span.size_splice (spanAt_le size index) (h.spanAt_stop_le hi)
    (hpart.trans (spanAt_length size index).symm)
  exact ⟨hsize.trans h.size_eq, h.count_lt, hsize ▸ h.size_lt⟩

theorem blockAt_splice (hpart : part.size = size) (other : Nat) :
    blockAt ((spanAt size index).splice bytes part) size other =
      if index = other then part else bytes.blockAt size other := by
  have hpart := hpart.trans (spanAt_length size index).symm
  have hle := spanAt_le size index
  have hstop := h.spanAt_stop_le hi
  split
  · next heq =>
    subst heq
    exact Span.extract_splice hle hstop hpart
  · next hne =>
    refine Span.extract_splice_of_disjoint hle hstop hpart ?_
    rcases Nat.lt_or_gt_of_ne hne with hlt | hlt
    · exact Or.inr (Nat.mul_le_mul_right size hlt)
    · exact Or.inl (Nat.mul_le_mul_right size hlt)

end InBlocks

/-- The bytes hold the given elements, one in each block. -/
structure Holds (decode : Bytes → α) (size : Nat) (bytes : Bytes) (xs : Array α) : Prop where
  inBlocks : bytes.InBlocks size xs.size
  decode_blockAt : ∀ (index : Nat) (h : index < xs.size),
    decode (bytes.blockAt size index) = xs[index]

theorem InBlocks.exists_holds {bytes : Bytes} {size count : Nat} (h : bytes.InBlocks size count)
    (decode : Bytes → α) : ∃ xs : Array α, xs.size = count ∧ Holds decode size bytes xs := by
  refine ⟨(Array.range count).map fun index => decode (bytes.blockAt size index), ?_, ?_, ?_⟩
  · rw [Array.size_map, Array.size_range]
  · rwa [Array.size_map, Array.size_range]
  · intro index hindex
    simp only [Array.getElem_map, Array.getElem_range]

namespace Holds

variable {decode : Bytes → α} {bytes part : Bytes} {size index : Nat} {xs : Array α}

theorem fetch_eq (h : Holds decode size bytes xs) (hi : index < xs.size) :
    fetch xs index = .ok (decode (bytes.blockAt size index)) := by
  rw [fetch_of_lt hi, h.decode_blockAt index hi]

theorem set (h : Holds decode size bytes xs) (hi : index < xs.size) (hpart : part.size = size) :
    Holds decode size ((spanAt size index).splice bytes part) (xs.set index (decode part)) where
  inBlocks := by
    rw [Array.size_set]
    exact h.inBlocks.splice hi hpart
  decode_blockAt other hother := by
    rw [h.inBlocks.blockAt_splice hi hpart, Array.getElem_set, apply_ite decode,
      h.decode_blockAt other (by rwa [Array.size_set] at hother)]

end Holds

end Bytes

end SparseProduct
