import Mathlib.Data.Int.ModEq
import SparseProduct.Block.Matrix
import SparseProduct.Block.Semiring
import SparseProduct.Proofs.Block.Layout

/-!
# Elements and their blocks

A codec is lawful if elements and blocks of its size determine each other. The bytes that hold some
elements are then the encodings of these elements, one after the other. Whole numbers of every kind are
laid out lawfully.
-/

namespace SparseProduct

namespace Bytes

theorem toNat_ofNat (count n : Nat) : toNat (ofNat count n) = n % 256 ^ count := by
  induction count generalizing n with
  | zero => rw [ofNat, toNat, Nat.pow_zero, Nat.mod_one]
  | succ count ih =>
    have hbyte : (UInt8.ofNat (n % 256)).toNat = n % 256 := by
      rw [UInt8.toNat_ofNat']
      omega
    rw [ofNat, toNat, ih, hbyte, Nat.pow_succ', Nat.mod_mul]

theorem toNat_lt (bytes : List UInt8) : toNat bytes < 256 ^ bytes.length := by
  induction bytes with
  | nil => exact Nat.one_pos
  | cons byte bytes ih =>
    have hbyte : byte.toNat < 256 := byte.toNat_lt
    rw [toNat, List.length_cons, Nat.pow_succ]
    omega

theorem ofNat_toNat (bytes : List UInt8) : ofNat bytes.length (toNat bytes) = bytes := by
  induction bytes with
  | nil => rfl
  | cons byte bytes ih =>
    have hbyte : byte.toNat < 256 := byte.toNat_lt
    have hlow : (byte.toNat + 256 * toNat bytes) % 256 = byte.toNat := by omega
    have hhigh : (byte.toNat + 256 * toNat bytes) / 256 = toNat bytes := by omega
    rw [List.length_cons, toNat, ofNat, hlow, hhigh, ih, UInt8.ofNat_toNat]

end Bytes

/-- Elements and blocks of their size determine each other. -/
structure BlockCodec.Lawful (α : Type) [BlockCodec α] : Prop where
  size_encode : ∀ x : α, (encode x).size = size α
  decode_encode : ∀ x : α, decode (encode x) = x
  encode_decode : ∀ block : Bytes, block.size = size α → encode (decode block : α) = block

namespace Whole

variable {k : IntKind}

theorem count_eq (k : IntKind) : k.count = 256 ^ k.width.bytes := by
  rw [IntKind.count, Nat.one_shiftLeft, Width.bits, Nat.pow_mul]

theorem wrap_emod (k : IntKind) (n : Int) : (wrap k n).val % k.count = n % k.count := by
  rw [wrap, Int.add_emod_emod, add_sub_cancel]

theorem wrap_eq {n : Int} {x : Whole k} (h : n % k.count = x.val % k.count) : wrap k n = x := by
  have hlow := x.least_le
  have hhigh := x.le_greatest
  have hmod : (n - k.least) % k.count = (x.val - k.least) % k.count := Int.ModEq.sub_right _ h
  have hsmall : (x.val - k.least) % k.count = x.val - k.least :=
    Int.emod_eq_of_lt (by omega) (by unfold IntKind.greatest at hhigh; omega)
  refine Whole.ext ?_
  change k.least + (n - k.least) % k.count = x.val
  rw [hmod, hsmall, add_sub_cancel]

theorem lawful (k : IntKind) : BlockCodec.Lawful (Whole k) where
  size_encode x := by simp only [BlockCodec.encode, BlockCodec.size, List.size_toArray,
    Bytes.length_ofNat]
  decode_encode x := by
    have hpos := Int.natCast_pos.2 k.count_pos
    have hlt := Int.emod_lt_of_pos x.val hpos
    have hnonneg := Int.emod_nonneg x.val (Int.ne_of_gt hpos)
    have hnat : (x.val % k.count).toNat % 256 ^ k.width.bytes = (x.val % k.count).toNat := by
      rw [← count_eq]
      exact Nat.mod_eq_of_lt (by omega)
    simp only [BlockCodec.encode, BlockCodec.decode, Bytes.toNat_ofNat, hnat]
    refine wrap_eq ?_
    rw [Int.toNat_of_nonneg hnonneg, Int.emod_emod]
  encode_decode block hblock := by
    have hlength : block.toList.length = k.width.bytes := hblock
    have hlt := Bytes.toNat_lt block.toList
    rw [hlength, ← count_eq] at hlt
    have hnat : ((Bytes.toNat block.toList : Int) % k.count).toNat = Bytes.toNat block.toList := by
      rw [Int.emod_eq_of_lt (Int.natCast_nonneg _) (by omega), Int.toNat_natCast]
    simp only [BlockCodec.encode, BlockCodec.decode, wrap_emod, hnat]
    rw [← hlength, Bytes.ofNat_toNat, Array.toArray_toList]

end Whole

namespace Bytes

variable {α : Type}

theorem take_drop_flatMap {f : α → List UInt8} {size : Nat} (hf : ∀ x, (f x).length = size)
    (xs : List α) {index : Nat} (h : index < xs.length) :
    ((xs.flatMap f).drop (index * size)).take size = f xs[index] := by
  induction xs generalizing index with
  | nil => cases h
  | cons x xs ih =>
    rw [List.flatMap_cons]
    cases index with
    | zero =>
      rw [Nat.zero_mul, List.drop_zero, List.getElem_cons_zero, ← hf x, List.take_left]
    | succ index =>
      rw [Nat.succ_mul, Nat.add_comm, ← List.drop_drop, ← hf x, List.drop_left, hf x,
        List.getElem_cons_succ]
      exact ih (Nat.lt_of_succ_lt_succ h)

theorem blockAt_flatMap {f : α → Bytes} {size : Nat} (hf : ∀ x, (f x).size = size) {xs : Array α}
    {index : Nat} (h : index < xs.size) : blockAt (xs.flatMap f) size index = f xs[index] := by
  have hlist := take_drop_flatMap (f := fun x => (f x).toList) hf xs.toList h
  refine Array.toList_inj.1 ?_
  rw [blockAt, Array.toList_extract, Array.toList_flatMap, List.extract_eq_take_drop, spanAt_length]
  exact hlist

theorem size_flatMap {f : α → Bytes} {size : Nat} (hf : ∀ x, (f x).size = size) (xs : Array α) :
    (xs.flatMap f).size = xs.size * size := by
  rw [Array.size_flatMap, show (fun x => (f x).size) = fun _ => size from funext hf, Array.map_const',
    Array.sum_replicate_nat]

theorem InBlocks.ext {bytes other : Bytes} {size count : Nat} (h : bytes.InBlocks size count)
    (h' : other.InBlocks size count)
    (hblocks : ∀ index < count, bytes.blockAt size index = other.blockAt size index) :
    bytes = other := by
  have hread : ∀ {b : Bytes}, b.InBlocks size count → ∀ q < count * size,
      b[q]? = (b.blockAt size (q / size))[q % size]? := by
    intro b hb q hq
    have hsize : 0 < size := Nat.pos_of_mul_pos_left (Nat.zero_lt_of_lt hq)
    have hmod := Nat.mod_lt q hsize
    have hindex : q / size < count := (Nat.div_lt_iff_lt_mul hsize).2 hq
    have hstop := hb.spanAt_stop_le hindex
    have hlength := spanAt_length size (q / size)
    rw [blockAt, Array.getElem?_extract, if_pos (by omega), spanAt, Nat.div_add_mod']
  refine Array.ext_getElem? fun q => ?_
  by_cases hq : q < count * size
  · rw [hread h q hq, hread h' q hq, hblocks _ ?_]
    exact Nat.div_lt_of_lt_mul (Nat.mul_comm count size ▸ hq)
  · rw [Array.getElem?_eq_none (h.size_eq ▸ Nat.not_lt.1 hq),
      Array.getElem?_eq_none (h'.size_eq ▸ Nat.not_lt.1 hq)]

variable [BlockCodec α]

theorem inBlocks_flatMap (lawful : BlockCodec.Lawful α) {xs : Array α}
    (hcount : xs.size < Size.limit) (hsize : xs.size * BlockCodec.size α < Size.limit) :
    InBlocks (xs.flatMap BlockCodec.encode) (BlockCodec.size α) xs.size :=
  ⟨size_flatMap lawful.size_encode xs, hcount, (size_flatMap lawful.size_encode xs).symm ▸ hsize⟩

theorem InBlocks.holds_flatMap (lawful : BlockCodec.Lawful α) {xs : Array α}
    (h : InBlocks (xs.flatMap BlockCodec.encode) (BlockCodec.size α) xs.size) :
    Holds BlockCodec.decode (BlockCodec.size α) (xs.flatMap BlockCodec.encode) xs where
  inBlocks := h
  decode_blockAt index hindex := by
    rw [blockAt_flatMap lawful.size_encode hindex, lawful.decode_encode]

theorem Holds.eq_flatMap (lawful : BlockCodec.Lawful α) {bytes : Bytes} {xs : Array α}
    (h : Holds BlockCodec.decode (BlockCodec.size α) bytes xs) :
    bytes = xs.flatMap BlockCodec.encode := by
  have hencoded := inBlocks_flatMap lawful h.inBlocks.count_lt (h.inBlocks.size_eq ▸ h.inBlocks.size_lt)
  refine h.inBlocks.ext hencoded fun index hindex => ?_
  rw [blockAt_flatMap lawful.size_encode hindex, ← h.decode_blockAt index hindex,
    lawful.encode_decode _ (h.inBlocks.size_blockAt hindex)]

end Bytes

end SparseProduct
