import SparseProduct.Proofs.ColumnValues

/-!
# Scripts stay within the buffers

Every call of a script names a slot, entries and an output position that exist. An accumulator that
carries out such calls therefore carries out every run on well-formed operands.
-/

namespace SparseProduct

/-- The slot, entries and position of a call exist. -/
def Action.Within (op : Operands) (slots positions : Nat) : Action → Prop
  | .clear row => row < slots
  | .multiplyAdd row left right => row < slots ∧ left < op.a.entryCount ∧ right < op.b.entryCount
  | .gather position row => position < positions ∧ row < slots
  | .writeIdentity position => position < positions

namespace Operands

variable {op : Operands} {slots positions base j : Nat}

theorem script_within (wf : op.WellFormed) (hroom : op.c.nRows ≤ slots)
    (hbase : ∀ p ∈ (op.c.columnSpan j).positions, base ≤ p ∧ p < base + positions) :
    ∀ action ∈ op.script base j, action.Within op slots positions := by
  have hrow : ∀ p ∈ (op.c.columnSpan j).positions, op.c.rowAt p < slots :=
    fun p hp => Nat.lt_of_lt_of_le (wf.c.rowAt_lt hp) hroom
  intro action haction
  unfold script at haction
  split at haction
  · cases haction
  · rw [List.mem_append, List.mem_append] at haction
    rcases haction with (hclear | hproduct) | hgather
    · obtain ⟨row, hmem, rfl⟩ := List.mem_map.1 hclear
      obtain ⟨p, hp, rfl⟩ := List.mem_map.1 (List.mem_of_mem_filter hmem)
      exact hrow p hp
    · obtain ⟨pair, hmem, rfl⟩ := List.mem_map.1 hproduct
      obtain ⟨hleft, hright, hlt⟩ := wf.pair_lt (List.mem_of_mem_filter hmem)
      exact ⟨Nat.lt_of_lt_of_le hlt hroom, hleft, hright⟩
    · obtain ⟨p, hp, rfl⟩ := List.mem_map.1 hgather
      have hposition : p - base < positions := by
        have := hbase p hp
        omega
      split
      · exact ⟨hposition, hrow p hp⟩
      · exact hposition

theorem scriptAll_within (wf : op.WellFormed) (hroom : op.c.nRows ≤ slots) {columns : List Nat}
    (hbase : ∀ j ∈ columns, ∀ p ∈ (op.c.columnSpan j).positions, base ≤ p ∧ p < base + positions) :
    ∀ action ∈ op.scriptAll base columns, action.Within op slots positions := by
  intro action haction
  obtain ⟨j, hj, hmem⟩ := List.mem_flatMap.1 haction
  exact script_within wf hroom (hbase j ((List.takeWhile_sublist _).subset hj)) action hmem

end Operands

end SparseProduct
