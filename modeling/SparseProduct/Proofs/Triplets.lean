import Mathlib
import SparseProduct.Matrix.Triplets
import SparseProduct.Proofs.Columns

/-!
# What is made of triplets

Triplets are reordered twice: into columns, and by row within each column. Neither moves two triplets of one
position past each other, so the values of a position meet in the order in which they were given. Merging
keeps one entry for each row so far, the fold of the values of that row; since the rows do not decrease,
only the last entry can still take another value.
-/

namespace SparseProduct

namespace SparseMatrix

variable {α : Type}

/-! ### The values of a position -/

/-- The values that triplets give a position, in their order. -/
def valuesAt (triplets : List (Nat × Nat × α)) (i j : Nat) : List α :=
  triplets.filterMap fun t => if t.1 = i ∧ t.2.1 = j then some t.2.2 else none

/-- The rows and values of the triplets of a column, in their order. -/
def inColumn (triplets : List (Nat × Nat × α)) (j : Nat) : List (Nat × α) :=
  triplets.filterMap fun t => if t.2.1 = j then some (t.1, t.2.2) else none

/-- The values that entries give a row, in their order. -/
def valuesOf (entries : List (Nat × α)) (i : Nat) : List α :=
  entries.filterMap fun entry => if entry.1 = i then some entry.2 else none

theorem valuesOf_inColumn (triplets : List (Nat × Nat × α)) (i j : Nat) :
    valuesOf (inColumn triplets j) i = valuesAt triplets i j := by
  rw [valuesOf, inColumn, valuesAt, List.filterMap_filterMap]
  congr 1
  funext t
  by_cases hj : t.2.1 = j <;> simp [hj]

theorem mem_valuesAt {triplets : List (Nat × Nat × α)} {i j : Nat} {v : α} :
    v ∈ valuesAt triplets i j ↔ (i, j, v) ∈ triplets := by
  simp only [valuesAt, List.mem_filterMap, Option.ite_none_right_eq_some, Option.some.injEq]
  constructor
  · rintro ⟨⟨i', j', v'⟩, ht, ⟨rfl, rfl⟩, rfl⟩
    exact ht
  · exact fun ht => ⟨(i, j, v), ht, ⟨rfl, rfl⟩, rfl⟩

theorem mem_valuesOf {entries : List (Nat × α)} {i : Nat} {v : α} :
    v ∈ valuesOf entries i ↔ (i, v) ∈ entries := by
  simp only [valuesOf, List.mem_filterMap, Option.ite_none_right_eq_some, Option.some.injEq]
  constructor
  · rintro ⟨⟨i', v'⟩, hentry, rfl, rfl⟩
    exact hentry
  · exact fun hentry => ⟨(i, v), hentry, rfl, rfl⟩

theorem mem_inColumn {triplets : List (Nat × Nat × α)} {i j : Nat} {v : α} :
    (i, v) ∈ inColumn triplets j ↔ (i, j, v) ∈ triplets := by
  rw [← mem_valuesAt, ← valuesOf_inColumn, mem_valuesOf]

theorem valuesOf_concat (entries : List (Nat × α)) (k : Nat) (v : α) (i : Nat) :
    valuesOf (entries ++ [(k, v)]) i =
      if k = i then valuesOf entries i ++ [v] else valuesOf entries i := by
  rw [valuesOf, List.filterMap_append]
  by_cases hk : k = i <;> simp [hk, valuesOf]

theorem valuesOf_append (entries more : List (Nat × α)) (i : Nat) :
    valuesOf (entries ++ more) i = valuesOf entries i ++ valuesOf more i := List.filterMap_append

/-! ### Sorting by row -/

section Sorting

variable (entries : List (Nat × α))

theorem rows_trans (x y z : Nat × α) (hxy : decide (x.1 ≤ y.1) = true)
    (hyz : decide (y.1 ≤ z.1) = true) : decide (x.1 ≤ z.1) = true :=
  decide_eq_true (Nat.le_trans (of_decide_eq_true hxy) (of_decide_eq_true hyz))

theorem rows_total (x y : Nat × α) : (decide (x.1 ≤ y.1) || decide (y.1 ≤ x.1)) = true := by
  simpa using Nat.le_total x.1 y.1

theorem pairwise_mergeSort :
    (entries.mergeSort fun x y => x.1 ≤ y.1).Pairwise fun x y => x.1 ≤ y.1 :=
  (List.pairwise_mergeSort rows_trans rows_total entries).imp of_decide_eq_true

/-- Sorting by row does not change the order of equal rows. -/
theorem filter_mergeSort (i : Nat) :
    ((entries.mergeSort fun x y => x.1 ≤ y.1).filter fun entry => entry.1 = i) =
      entries.filter fun entry => entry.1 = i := by
  have hstable : (entries.filter fun entry => entry.1 = i).Sublist
      (entries.mergeSort fun x y => x.1 ≤ y.1) := by
    apply List.sublist_mergeSort rows_trans rows_total _ List.filter_sublist
    apply List.pairwise_of_forall_mem_list
    intro x hx y hy
    have hx := of_decide_eq_true (List.mem_filter.1 hx).2
    have hy := of_decide_eq_true (List.mem_filter.1 hy).2
    exact decide_eq_true (Nat.le_of_eq (hx.trans hy.symm))
  have hsublist := hstable.filter fun entry => entry.1 = i
  simp only [List.filter_filter, Bool.and_self] at hsublist
  exact (hsublist.eq_of_length ((List.mergeSort_perm entries _).filter _).length_eq.symm).symm

theorem valuesOf_mergeSort (i : Nat) :
    valuesOf (entries.mergeSort fun x y => x.1 ≤ y.1) i = valuesOf entries i := by
  have hfilter : ∀ xs : List (Nat × α),
      valuesOf xs i = (xs.filter fun entry => entry.1 = i).map Prod.snd := by
    intro xs
    rw [valuesOf, ← List.filterMap_eq_map, List.filterMap_filter]
    simp
  rw [hfilter, hfilter, filter_mergeSort]

end Sorting

/-! ### Folding the values of a position -/

/-- The fold of some values from the first on, nothing without a value. -/
def foldValues (f : α → α → Result α) : List α → Result (Option α)
  | [] => .ok none
  | v :: vs => do return some (← vs.foldlM f v)

theorem foldValues_concat (f : α → α → Result α) (vs : List α) (v : α) :
    foldValues f (vs ++ [v]) = foldValues f vs >>= fun last =>
      match last with
      | none => .ok (some v)
      | some last => do return some (← f last v) := by
  cases vs with
  | nil => rfl
  | cons first vs =>
    rw [List.cons_append, foldValues, foldValues, List.foldlM_append]
    cases vs.foldlM f first with
    | error e => rfl
    | ok last => simp

theorem foldValues_eq_none_iff {f : α → α → Result α} {vs : List α} :
    foldValues f vs = .ok none ↔ vs = [] := by
  cases vs with
  | nil => exact ⟨fun _ => rfl, fun _ => rfl⟩
  | cons v vs =>
    simp only [foldValues, Result.bind_eq_ok, Result.pure_eq_ok, reduceCtorEq, and_false, exists_false]

theorem foldValues_append_of_error {f : α → α → Result α} {vs : List α} {e : Failure}
    (h : foldValues f vs = .error e) (more : List α) : foldValues f (vs ++ more) = .error e := by
  cases vs with
  | nil => cases h
  | cons v vs =>
    rw [foldValues] at h
    rw [List.cons_append, foldValues, List.foldlM_append]
    cases hfold : vs.foldlM f v with
    | error e' =>
      rw [hfold] at h
      exact h
    | ok last =>
      rw [hfold] at h
      cases h

/-- What two values at a position become: without a way to combine them the position is refused. -/
def mergeAt (combine : Option (α → α → Result α)) (i j : Nat) (x y : α) : Result α :=
  match combine with
  | some f => f x y
  | none => .error (.promise (.duplicateEntry i j))

/-! ### Merging a column -/

/-- Merging some entries of column `j` has made one entry of each of their rows, by increasing row. -/
structure Merged (combine : Option (α → α → Result α)) (j : Nat) (entries : List (Nat × α))
    (merged : Array (Nat × α)) : Prop where
  increasing : (merged.toList.map Prod.fst).Pairwise (· < ·)
  lookup : ∀ i, foldValues (mergeAt combine i j) (valuesOf entries i) = .ok (merged.toList.lookup i)

section Merging

variable {combine : Option (α → α → Result α)} {j : Nat}

theorem mergeEntry_of_absent {merged : Array (Nat × α)} {entry : Nat × α}
    (h : merged.toList.lookup entry.1 = none) :
    mergeEntry combine j merged entry = .ok (merged.push entry) := by
  unfold mergeEntry
  cases hback : merged.back? with
  | none => rfl
  | some last =>
    have hne := List.lookup_eq_none_iff.1 h last (Array.mem_toList_iff.2 (Array.mem_of_back? hback))
    exact if_neg (Ne.symm (bne_iff_ne.1 hne))

theorem mergeEntry_of_last {merged : Array (Nat × α)} {i : Nat} {last v : α} :
    mergeEntry combine j (merged.push (i, last)) (i, v) =
      (do return merged.push (i, ← mergeAt combine i j last v)) := by
  unfold mergeEntry mergeAt
  rw [Array.back?_push, Array.pop_push]
  cases combine with
  | none => simp only [if_true]; rfl
  | some f => simp only [if_true]

namespace Merged

variable {entries : List (Nat × α)} {merged : Array (Nat × α)}

theorem empty : Merged combine j [] #[] := ⟨List.Pairwise.nil, fun _ => rfl⟩

theorem exists_lookup_iff (h : Merged combine j entries merged) {i : Nat} :
    (∃ x, merged.toList.lookup i = some x) ↔ ∃ v, (i, v) ∈ entries := by
  have hnone : merged.toList.lookup i = none ↔ valuesOf entries i = [] := by
    rw [← foldValues_eq_none_iff (f := mergeAt combine i j), h.lookup, Except.ok.injEq]
  rw [← Option.ne_none_iff_exists', ne_eq, hnone, List.eq_nil_iff_forall_not_mem]
  simp only [mem_valuesOf, not_forall, not_not]

theorem exists_value (h : Merged combine j entries merged) {i : Nat} {x : α}
    (hx : (i, x) ∈ merged.toList) : ∃ v, (i, v) ∈ entries :=
  h.exists_lookup_iff.1 ⟨x, (lookup_eq_some_iff_mem h.increasing).2 hx⟩

section Step

variable {i : Nat} {v : α} (hlast : ∀ entry ∈ entries, entry.1 ≤ i)

section Push

include hlast

theorem push (h : Merged combine j entries merged) (habsent : merged.toList.lookup i = none) :
    Merged combine j (entries ++ [(i, v)]) (merged.push (i, v)) where
  increasing := by
    rw [Array.toList_push, List.map_append, List.pairwise_append]
    refine ⟨h.increasing, List.pairwise_singleton _ _, ?_⟩
    simp only [List.mem_map, List.map_cons, List.map_nil, List.mem_singleton]
    rintro _ ⟨⟨k, x⟩, hx, rfl⟩ _ rfl
    obtain ⟨w, hw⟩ := h.exists_value hx
    have hne := bne_iff_ne.1 (List.lookup_eq_none_iff.1 habsent (k, x) hx)
    exact Nat.lt_of_le_of_ne (hlast (k, w) hw) (Ne.symm hne)
  lookup k := by
    have hfold := h.lookup k
    rw [Array.toList_push, List.lookup_append, valuesOf_concat]
    by_cases hk : i = k
    · subst hk
      rw [if_pos rfl, foldValues_concat, hfold, habsent, List.lookup_cons_self]
      rfl
    · rw [if_neg hk, hfold, lookup_cons_of_ne (Ne.symm hk), List.lookup_nil, Option.or_none]

theorem exists_last (h : Merged combine j entries merged) {last : α}
    (hlookup : merged.toList.lookup i = some last) :
    ∃ init : Array (Nat × α), merged = init.push (i, last) := by
  have hmem := (lookup_eq_some_iff_mem h.increasing).1 hlookup
  have hinc := h.increasing
  rcases List.eq_nil_or_concat merged.toList with hnil | ⟨init, ⟨k, x⟩, hinit⟩
  · rw [hnil] at hmem
    cases hmem
  · rw [List.concat_eq_append] at hinit
    have hk : k ≤ i := by
      obtain ⟨w, hw⟩ := h.exists_value (i := k) (x := x) (by rw [hinit]; simp)
      exact hlast (k, w) hw
    rw [hinit, List.mem_append, List.mem_singleton] at hmem
    rw [hinit, List.map_append, List.pairwise_append] at hinc
    rcases hmem with hmem | hmem
    · have := hinc.2.2 i (List.mem_map_of_mem hmem) k (by simp)
      omega
    · refine ⟨init.toArray, ?_⟩
      apply Array.toList_inj.1
      rw [hinit, ← hmem, Array.toList_push]

end Push

theorem lookup_init {init : Array (Nat × α)} {last : α}
    (h : Merged combine j entries (init.push (i, last))) : init.toList.lookup i = none := by
  have hinc := h.increasing
  rw [Array.toList_push, List.map_append, List.pairwise_append] at hinc
  apply List.lookup_eq_none_iff.2
  intro entry hentry
  exact bne_iff_ne.2 (Nat.ne_of_gt (hinc.2.2 entry.1 (List.mem_map_of_mem hentry) i List.mem_cons_self))

theorem replace {init : Array (Nat × α)} {last x : α}
    (h : Merged combine j entries (init.push (i, last))) (hx : mergeAt combine i j last v = .ok x) :
    Merged combine j (entries ++ [(i, v)]) (init.push (i, x)) where
  increasing := by
    have hinc := h.increasing
    rw [Array.toList_push, List.map_append] at hinc ⊢
    exact hinc
  lookup k := by
    have hfold := h.lookup k
    rw [Array.toList_push, List.lookup_append] at hfold ⊢
    rw [valuesOf_concat]
    by_cases hk : i = k
    · subst hk
      rw [if_pos rfl, foldValues_concat, hfold, h.lookup_init, List.lookup_cons_self,
        List.lookup_cons_self]
      simp [hx]
    · rw [if_neg hk, hfold, lookup_cons_of_ne (Ne.symm hk), lookup_cons_of_ne (Ne.symm hk)]

include hlast in
theorem step (h : Merged combine j entries merged) :
    Result.Ends (Merged combine j (entries ++ [(i, v)]))
      (fun e => foldValues (mergeAt combine i j) (valuesOf (entries ++ [(i, v)]) i) = .error e)
      (mergeEntry combine j merged (i, v)) := by
  cases hlookup : merged.toList.lookup i with
  | none =>
    rw [mergeEntry_of_absent hlookup]
    exact .ok (h.push hlast hlookup)
  | some last =>
    have hfold := h.lookup i
    obtain ⟨init, rfl⟩ := h.exists_last hlast hlookup
    rw [mergeEntry_of_last, valuesOf_concat, if_pos rfl, foldValues_concat, hfold, hlookup]
    cases hx : mergeAt combine i j last v with
    | error e => exact .error (by rw [Result.ok_bind]; simp only [hx]; rfl)
    | ok x => exact .ok (h.replace hx)

end Step

/-- Merging entries by row succeeds exactly if the values of every row can be folded. -/
theorem run {rest : List (Nat × α)} (h : Merged combine j entries merged)
    (sorted : (entries ++ rest).Pairwise fun x y => x.1 ≤ y.1) :
    Result.Ends (Merged combine j (entries ++ rest))
      (fun e => ∃ i, foldValues (mergeAt combine i j) (valuesOf (entries ++ rest) i) = .error e)
      (rest.foldlM (mergeEntry combine j) merged) := by
  induction rest generalizing entries merged with
  | nil =>
    rw [List.append_nil]
    exact .ok h
  | cons entry rest ih =>
    obtain ⟨i, v⟩ := entry
    have hlast : ∀ entry ∈ entries, entry.1 ≤ i := fun entry hentry =>
      (List.pairwise_append.1 sorted).2.2 entry hentry (i, v) List.mem_cons_self
    have hstep := h.step (v := v) hlast
    rw [List.append_cons] at sorted ⊢
    rw [List.foldlM_cons]
    cases hnext : mergeEntry combine j merged (i, v) with
    | ok next => exact ih (hstep.of_ok hnext) sorted
    | error e =>
      refine .error ⟨i, ?_⟩
      rw [valuesOf_append]
      exact foldValues_append_of_error (hstep.of_error hnext) _

end Merged

theorem mergeColumn_ends (combine : Option (α → α → Result α)) (j : Nat) (column : Array (Nat × α)) :
    Result.Ends (Merged combine j column.toList)
      (fun e => ∃ i, foldValues (mergeAt combine i j) (valuesOf column.toList i) = .error e)
      (mergeColumn combine j column) := by
  have hempty : Merged combine j [] #[] := .empty
  have hrun := hempty.run (pairwise_mergeSort column.toList)
  simp only [List.nil_append, valuesOf_mergeSort] at hrun
  refine hrun.imp (fun merged h => ⟨h.increasing, fun i => ?_⟩) fun e he => he
  rw [← valuesOf_mergeSort]
  exact h.lookup i

theorem mergeColumns_ends (combine : Option (α → α → Result α)) (columns : List (Array (Nat × α)))
    (first : Nat) :
    Result.Ends
      (fun merged => merged.length = columns.length ∧ ∀ k column entries, columns[k]? = some column →
        merged[k]? = some entries → Merged combine (first + k) column.toList entries)
      (fun e => ∃ k column i, columns[k]? = some column ∧
        foldValues (mergeAt combine i (first + k)) (valuesOf column.toList i) = .error e)
      (mergeColumns combine first columns) := by
  induction columns generalizing first with
  | nil => exact .ok ⟨rfl, nofun⟩
  | cons column columns ih =>
    have hnumber : ∀ k, first + (k + 1) = first + 1 + k := fun k => by omega
    rw [mergeColumns]
    have hcolumn := mergeColumn_ends combine first column
    cases hmerge : mergeColumn combine first column with
    | error e =>
      obtain ⟨i, hi⟩ := hcolumn.of_error hmerge
      exact .error ⟨0, column, i, rfl, hi⟩
    | ok entries =>
      have hentries := hcolumn.of_ok hmerge
      rw [Result.ok_bind]
      refine ((ih (first + 1)).imp (fun merged h => h) ?_).bind fun merged h => ?_
      · rintro e ⟨k, column', i, hk, he⟩
        exact ⟨k + 1, column', i, hk, hnumber k ▸ he⟩
      · obtain ⟨hlength, hmerged⟩ := h
        refine .ok ⟨by rw [List.length_cons, hlength, List.length_cons], ?_⟩
        intro k column' entries' hk hk'
        cases k with
        | zero =>
          cases hk
          cases hk'
          exact hentries
        | succ k => exact hnumber k ▸ hmerged k column' entries' hk hk'

end Merging

/-! ### Putting triplets into columns -/

section Bucket

variable {nRows nCols : Nat}

theorem bucket_eq {triplets : List (Nat × Nat × α)} (h : ∀ t ∈ triplets, t.1 < nRows ∧ t.2.1 < nCols)
    (columns : Array (Array (Nat × α))) :
    bucket nRows nCols triplets columns =
      .ok (columns.mapIdx fun j column => column ++ (inColumn triplets j).toArray) := by
  induction triplets generalizing columns with
  | nil => exact congrArg _ (Array.ext (by simp) fun k hk hk' => by simp [inColumn])
  | cons t triplets ih =>
    obtain ⟨i, j, v⟩ := t
    obtain ⟨hi, hj⟩ := h (i, j, v) List.mem_cons_self
    rw [bucket, if_neg (Nat.not_le.2 hi), if_neg (Nat.not_le.2 hj),
      ih fun t ht => h t (List.mem_cons_of_mem _ ht)]
    refine congrArg _ (Array.ext (by simp) fun k hk hk' => ?_)
    rw [Array.getElem_mapIdx, Array.getElem_mapIdx, Array.getElem_modify]
    by_cases hjk : j = k <;> simp [hjk, inColumn]

/-- A triplet lies outside the matrix. -/
inductive Misplaced (nRows nCols : Nat) (triplets : List (Nat × Nat × α)) : Failure → Prop
  | row {i j : Nat} {v : α} : (i, j, v) ∈ triplets → nRows ≤ i →
      Misplaced nRows nCols triplets (.promise (.rowBound i nRows))
  | column {i j : Nat} {v : α} : (i, j, v) ∈ triplets → nCols ≤ j →
      Misplaced nRows nCols triplets (.promise (.columnBound j nCols))

theorem Misplaced.cons {triplets : List (Nat × Nat × α)} {e : Failure}
    (h : Misplaced nRows nCols triplets e) (t : Nat × Nat × α) :
    Misplaced nRows nCols (t :: triplets) e := by
  cases h with
  | row ht hi => exact .row (List.mem_cons_of_mem _ ht) hi
  | column ht hj => exact .column (List.mem_cons_of_mem _ ht) hj

theorem bucket_ends (nRows nCols : Nat) (triplets : List (Nat × Nat × α))
    (columns : Array (Array (Nat × α))) :
    Result.Ends (fun _ => ∀ t ∈ triplets, t.1 < nRows ∧ t.2.1 < nCols) (Misplaced nRows nCols triplets)
      (bucket nRows nCols triplets columns) := by
  induction triplets generalizing columns with
  | nil => exact .ok nofun
  | cons t triplets ih =>
    obtain ⟨i, j, v⟩ := t
    rw [bucket]
    by_cases hi : nRows ≤ i
    · rw [if_pos hi]
      exact .error (.row List.mem_cons_self hi)
    · rw [if_neg hi]
      by_cases hj : nCols ≤ j
      · rw [if_pos hj]
        exact .error (.column List.mem_cons_self hj)
      · rw [if_neg hj]
        refine (ih _).imp (fun _ h => ?_) fun e he => he.cons _
        exact List.forall_mem_cons.2 ⟨⟨Nat.not_le.1 hi, Nat.not_le.1 hj⟩, h⟩

theorem bucket_replicate_ends (nRows nCols : Nat) (triplets : List (Nat × Nat × α)) :
    Result.Ends
      (fun columns => (∀ t ∈ triplets, t.1 < nRows ∧ t.2.1 < nCols) ∧ columns.size = nCols ∧
        ∀ j column, columns[j]? = some column → column.toList = inColumn triplets j)
      (Misplaced nRows nCols triplets)
      (bucket nRows nCols triplets (Array.replicate nCols #[])) := by
  have hends := bucket_ends nRows nCols triplets (Array.replicate nCols #[])
  cases hbucket : bucket nRows nCols triplets (Array.replicate nCols #[]) with
  | error e => exact .error (hends.of_error hbucket)
  | ok columns =>
    have placed := hends.of_ok hbucket
    rw [bucket_eq placed] at hbucket
    cases hbucket
    refine .ok ⟨placed, by simp, fun j column hcolumn => ?_⟩
    obtain ⟨hj, rfl⟩ := Array.getElem?_eq_some_iff.1 hcolumn
    simp

end Bucket

/-! ### The matrix of some triplets -/

/-- Why triplets are refused: one lies outside the matrix, two share a position and there is no way to
combine them, or combining the values of a position fails. -/
inductive Refused (nRows nCols : Nat) (triplets : List (Nat × Nat × α)) :
    Option (α → α → Result α) → Failure → Prop
  | misplaced {combine : Option (α → α → Result α)} {e : Failure} :
      Misplaced nRows nCols triplets e → Refused nRows nCols triplets combine e
  | duplicate {i j : Nat} : 2 ≤ (valuesAt triplets i j).length →
      Refused nRows nCols triplets none (.promise (.duplicateEntry i j))
  | combine {f : α → α → Result α} {i j : Nat} {v : α} {vs : List α} {e : Failure} :
      valuesAt triplets i j = v :: vs → vs.foldlM f v = .error e →
      Refused nRows nCols triplets (some f) e

/-- `x` is the combination of `v` with more values, from the first to the last. Without a way to combine
values there are no more. -/
def Combines (combine : Option (α → α → Result α)) (v : α) (vs : List α) (x : α) : Prop :=
  match combine with
  | some f => vs.foldlM f v = .ok x
  | none => vs = [] ∧ v = x

/-- The matrix stores the positions of the triplets, each with the combination of its values. -/
structure Assembled (nRows nCols : Nat) (triplets : List (Nat × Nat × α))
    (combine : Option (α → α → Result α)) (m : SparseMatrix α) : Prop where
  isSparse : m.IsSparse nRows nCols
  stores : ∀ i j, (∃ p, m.pattern.Stores p i j) ↔ ∃ v, (i, j, v) ∈ triplets
  value : ∀ p i j, m.pattern.Stores p i j → ∃ v vs x, valuesAt triplets i j = v :: vs ∧
    m.values[p]? = some x ∧ Combines combine v vs x

section Assembly

variable {nRows nCols : Nat} {triplets : List (Nat × Nat × α)} {combine : Option (α → α → Result α)}

theorem Refused.of_foldValues {i j : Nat} {e : Failure}
    (h : foldValues (mergeAt combine i j) (valuesAt triplets i j) = .error e) :
    Refused nRows nCols triplets combine e := by
  cases hvalues : valuesAt triplets i j with
  | nil =>
    rw [hvalues] at h
    cases h
  | cons v vs =>
    rw [hvalues, foldValues] at h
    cases hfold : vs.foldlM (mergeAt combine i j) v with
    | ok x =>
      rw [hfold] at h
      cases h
    | error e' =>
      rw [hfold] at h
      cases h
      cases combine with
      | some f => exact .combine hvalues hfold
      | none =>
        cases vs with
        | nil => cases hfold
        | cons w vs =>
          cases hfold
          refine .duplicate ?_
          rw [hvalues, List.length_cons, List.length_cons]
          omega

theorem Refused.misplaced_of_foldValues {e : Failure} (h : Refused nRows nCols triplets combine e)
    (hfold : ∀ i j, ∃ x, foldValues (mergeAt combine i j) (valuesAt triplets i j) = .ok x) :
    Misplaced nRows nCols triplets e := by
  cases h with
  | misplaced h => exact h
  | @duplicate i j hlength =>
    obtain ⟨x, hx⟩ := hfold i j
    match hvalues : valuesAt triplets i j with
    | [] | [_] => simp [hvalues] at hlength
    | v :: w :: vs =>
      rw [hvalues] at hx
      cases hx
  | @combine f i j v vs e hvalues he =>
    obtain ⟨x, hx⟩ := hfold i j
    rw [hvalues, foldValues] at hx
    have he : vs.foldlM (mergeAt (some f) i j) v = .error e := he
    rw [he] at hx
    cases hx

theorem combines_of_foldValues {values : List α} {i j : Nat} {x : α}
    (h : foldValues (mergeAt combine i j) values = .ok (some x)) :
    ∃ v vs, values = v :: vs ∧ Combines combine v vs x := by
  cases values with
  | nil => cases h
  | cons v vs =>
    simp only [foldValues, Result.bind_eq_ok, Result.pure_eq_ok, Option.some.injEq] at h
    obtain ⟨last, hlast, rfl⟩ := h
    refine ⟨v, vs, rfl, ?_⟩
    cases combine with
    | some f => exact hlast
    | none =>
      cases vs with
      | nil =>
        cases hlast
        exact ⟨rfl, rfl⟩
      | cons w vs => cases hlast

section Placed

variable {columns : Array (Array (Nat × α))} (placed : ∀ t ∈ triplets, t.1 < nRows ∧ t.2.1 < nCols)
  (hsize : columns.size = nCols)
  (hmerged : ∀ j entries, columns[j]? = some entries → Merged combine j (inColumn triplets j) entries)
include placed hmerged

theorem ordered_merged : Ordered nRows columns where
  increasing entries hentries := by
    obtain ⟨j, hj⟩ := Array.getElem?_of_mem hentries
    exact (hmerged j entries hj).increasing
  bounded entries hentries entry hentry := by
    obtain ⟨j, hj⟩ := Array.getElem?_of_mem hentries
    obtain ⟨v, hv⟩ := (hmerged j entries hj).exists_value (Array.mem_toList_iff.2 hentry)
    exact (placed _ (mem_inColumn.1 hv)).1

include hsize

theorem assembled_merged : Assembled nRows nCols triplets combine (laidOut nRows columns) := by
  have ordered := ordered_merged placed hmerged
  have isSparse := isSparse_laidOut ordered
  rw [hsize] at isSparse
  refine ⟨isSparse, fun i j => ⟨?_, ?_⟩, fun p i j hp => ?_⟩
  · rintro ⟨p, hp⟩
    obtain ⟨x, entries, -, hentries, hmem⟩ := exists_of_stores_laidOut ordered hp
    obtain ⟨v, hv⟩ := (hmerged j entries hentries).exists_value (Array.mem_toList_iff.2 hmem)
    exact ⟨v, mem_inColumn.1 hv⟩
  · rintro ⟨v, hv⟩
    have hj : j < columns.size := hsize ▸ (placed _ hv).2
    have merged := hmerged j columns[j] (Array.getElem?_eq_getElem hj)
    obtain ⟨x, hx⟩ := merged.exists_lookup_iff.2 ⟨v, mem_inColumn.2 hv⟩
    have hmem := Array.mem_toList_iff.1 ((lookup_eq_some_iff_mem merged.increasing).1 hx)
    obtain ⟨p, hp, -⟩ := stores_laidOut ordered (Array.getElem?_eq_getElem hj) hmem
    exact ⟨p, hp⟩
  · obtain ⟨x, entries, hx, hentries, hmem⟩ := exists_of_stores_laidOut ordered hp
    have merged := hmerged j entries hentries
    have hfold := merged.lookup i
    rw [(lookup_eq_some_iff_mem merged.increasing).2 (Array.mem_toList_iff.2 hmem),
      valuesOf_inColumn] at hfold
    obtain ⟨v, vs, hvalues, hcombines⟩ := combines_of_foldValues hfold
    exact ⟨v, vs, x, hvalues, hx, hcombines⟩

theorem not_refused_of_merged (e : Failure) : ¬ Refused nRows nCols triplets combine e := by
  intro hrefused
  have hfold : ∀ i j, ∃ x, foldValues (mergeAt combine i j) (valuesAt triplets i j) = .ok x := by
    intro i j
    by_cases hj : j < columns.size
    · have hlookup := (hmerged j columns[j] (Array.getElem?_eq_getElem hj)).lookup i
      rw [valuesOf_inColumn] at hlookup
      exact ⟨_, hlookup⟩
    · have hnil : valuesAt triplets i j = [] := by
        rw [List.eq_nil_iff_forall_not_mem]
        intro v hv
        exact hj (hsize ▸ (placed _ (mem_valuesAt.1 hv)).2)
      exact ⟨none, foldValues_eq_none_iff.2 hnil⟩
  cases hrefused.misplaced_of_foldValues hfold with
  | row ht hi => exact Nat.not_lt.2 hi (placed _ ht).1
  | column ht hj => exact Nat.not_lt.2 hj (placed _ ht).2

end Placed

/-- Triplets are assembled, unless there is a reason to refuse them. -/
theorem ofTriplets_ends (hcolumns : nCols + 1 < Size.limit) (triplets : Array (Nat × Nat × α)) :
    Result.Ends (fun m => Assembled nRows nCols triplets.toList combine m ∧
        ∀ e, ¬ Refused nRows nCols triplets.toList combine e)
      (Refused nRows nCols triplets.toList combine) (ofTriplets nRows nCols triplets combine) := by
  refine ((bucket_replicate_ends nRows nCols triplets.toList).imp (fun _ h => h)
    fun e he => .misplaced he).bind ?_
  rintro columns ⟨placed, hsize, hcolumn⟩
  refine ((mergeColumns_ends combine columns.toList 0).imp (fun _ h => h) ?_).bind ?_
  · rintro e ⟨j, column, i, hj, he⟩
    rw [Array.getElem?_toList] at hj
    rw [hcolumn j column hj, Nat.zero_add, valuesOf_inColumn] at he
    exact .of_foldValues he
  · rintro merged ⟨hlength, hmerged⟩
    have hmerged' : ∀ j entries, merged.toArray[j]? = some entries →
        Merged combine j (inColumn triplets.toList j) entries := by
      intro j entries hentries
      rw [List.getElem?_toArray] at hentries
      have hj : j < columns.size := by
        rw [← Array.length_toList, ← hlength]
        exact (List.getElem?_eq_some_iff.1 hentries).1
      have hentries := hmerged j columns[j] entries
        (by rw [Array.getElem?_toList, Array.getElem?_eq_getElem hj]) hentries
      rwa [hcolumn j columns[j] (Array.getElem?_eq_getElem hj), Nat.zero_add] at hentries
    have hsize' : merged.toArray.size = nCols := by
      rw [List.size_toArray, hlength, Array.length_toList, hsize]
    rw [ofColumns_eq (hsize' ▸ hcolumns) (ordered_merged placed hmerged').bounded]
    exact .ok ⟨assembled_merged placed hsize' hmerged', not_refused_of_merged placed hsize' hmerged'⟩

end Assembly

/-- Triplets are refused exactly if one lies outside the matrix, two share a position without a way to
combine them, or combining values fails. Otherwise they are assembled: each position that occurs is stored,
with the fold of its values in the order in which they were given. -/
theorem ofTriplets_assembled {nRows nCols : Nat} (hcolumns : nCols + 1 < Size.limit)
    (triplets : Array (Nat × Nat × α)) (combine : Option (α → α → Result α)) :
    ((∃ e, ofTriplets nRows nCols triplets combine = .error e) ↔
        ∃ e, Refused nRows nCols triplets.toList combine e) ∧
      (∀ e, ofTriplets nRows nCols triplets combine = .error e →
        Refused nRows nCols triplets.toList combine e) ∧
      ∀ m, ofTriplets nRows nCols triplets combine = .ok m →
        Assembled nRows nCols triplets.toList combine m := by
  have hends : Result.Ends _ (Refused nRows nCols triplets.toList combine) _ :=
    ofTriplets_ends hcolumns triplets
  refine ⟨⟨?_, ?_⟩, fun e he => hends.of_error he, fun m hm => (hends.of_ok hm).1⟩
  · rintro ⟨e, he⟩
    exact ⟨e, hends.of_error he⟩
  · rintro ⟨e, he⟩
    cases hresult : ofTriplets nRows nCols triplets combine with
    | ok m => exact absurd he ((hends.of_ok hresult).2 e)
    | error e' => exact ⟨e', rfl⟩

/-- Three values meet at (1, 0), the second of them after a value of another column. -/
theorem ofTriplets_assembled_leftFold :
    Assembled 3 2 [(1, 0, 4), (0, 1, 1), (1, 0, 5), (2, 0, 3), (1, 0, 7)]
      (some fun x y => .ok (2 * x - y))
      (⟨⟨3, 2, #[0, 2, 3], none, #[1, 2, 0], true⟩, #[-1, 3, 1]⟩ : SparseMatrix Int) := by
  have hcolumns : 2 + 1 < Size.limit := by decide
  have hrun : ofTriplets 3 2 #[(1, 0, 4), (0, 1, 1), (1, 0, 5), (2, 0, 3), (1, 0, 7)]
      (some fun x y => .ok (2 * x - y)) =
        .ok (⟨⟨3, 2, #[0, 2, 3], none, #[1, 2, 0], true⟩, #[-1, 3, 1]⟩ : SparseMatrix Int) := by
    cbv
  exact (ofTriplets_assembled hcolumns _ _).2.2 _ hrun

end SparseMatrix

end SparseProduct
