import SparseProduct.Span

/-!
# Replacing a span of an array

Both the values of a task and a block of bytes are written back into the array they were taken from. What
is read inside the span is the new part, what is read elsewhere is what was there.
-/

namespace SparseProduct

namespace Span

variable {α : Type}

/-- The array with the positions of a span replaced by a part. -/
def splice (span : Span) (xs part : Array α) : Array α :=
  xs.extract 0 span.start ++ part ++ xs.extract span.stop xs.size

variable {span : Span} {xs part : Array α}

theorem size_splice (hle : span.start ≤ span.stop) (hstop : span.stop ≤ xs.size)
    (hpart : part.size = span.stop - span.start) : (span.splice xs part).size = xs.size := by
  simp only [splice, Array.size_append, Array.size_extract, hpart]
  omega

theorem getElem?_splice (hle : span.start ≤ span.stop) (hstop : span.stop ≤ xs.size)
    (hpart : part.size = span.stop - span.start) (q : Nat) :
    (span.splice xs part)[q]? =
      if span.start ≤ q ∧ q < span.stop then part[q - span.start]? else xs[q]? := by
  have hfirst : (xs.extract 0 span.start).size = span.start := by
    rw [Array.size_extract]
    omega
  unfold splice
  by_cases hbefore : q < span.start
  · rw [if_neg (by omega), Array.getElem?_append_left (by rw [Array.size_append]; omega),
      Array.getElem?_append_left (by omega), Array.getElem?_extract, if_pos (by omega), Nat.zero_add]
  · by_cases hin : q < span.stop
    · rw [if_pos (by omega), Array.getElem?_append_left (by rw [Array.size_append]; omega),
        Array.getElem?_append_right (by omega), hfirst]
    · rw [if_neg (by omega), Array.getElem?_append_right (by rw [Array.size_append]; omega),
        Array.size_append, hfirst, hpart, Array.getElem?_extract]
      by_cases hsize : q < xs.size
      · rw [if_pos (by omega), show span.stop + (q - (span.start + (span.stop - span.start))) = q by
          omega]
      · rw [if_neg (by omega), Array.getElem?_eq_none (by omega)]

theorem extract_splice (hle : span.start ≤ span.stop) (hstop : span.stop ≤ xs.size)
    (hpart : part.size = span.stop - span.start) :
    (span.splice xs part).extract span.start span.stop = part := by
  refine Array.ext_getElem? fun q => ?_
  have hsize := size_splice hle hstop hpart
  rw [Array.getElem?_extract, getElem?_splice hle hstop hpart]
  by_cases hq : q < part.size
  · rw [if_pos (by omega), if_pos (by omega), Nat.add_sub_cancel_left]
  · rw [if_neg (by omega), Array.getElem?_eq_none (by omega)]

theorem extract_splice_of_disjoint (hle : span.start ≤ span.stop) (hstop : span.stop ≤ xs.size)
    (hpart : part.size = span.stop - span.start) {other : Span}
    (hother : other.stop ≤ span.start ∨ span.stop ≤ other.start) :
    (span.splice xs part).extract other.start other.stop = xs.extract other.start other.stop := by
  refine Array.ext_getElem? fun q => ?_
  have hsize := size_splice hle hstop hpart
  rw [Array.getElem?_extract, Array.getElem?_extract, hsize, getElem?_splice hle hstop hpart]
  split
  · rw [if_neg (by omega)]
  · rfl

end Span

end SparseProduct
