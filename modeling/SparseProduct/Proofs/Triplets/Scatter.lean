import Mathlib
import SparseProduct.Matrix.Triplets.Scatter
import SparseProduct.Proofs.Growing
import SparseProduct.Proofs.Lockstep
import SparseProduct.Proofs.Triplets

/-!
# Scattering triplets in place

The counts of the columns are their sizes, so a column starts where the columns before it end. The cursor of a
column stands behind the triplets of the column that have been placed, and a place is filled once: the places
of two columns lie apart. The columns that are cut out of the places are therefore those that hold the triplets
column by column, and the arrays of the matrix grow as the merged columns do.
-/

namespace SparseProduct

variable {α : Type}

/-! ### Counting -/

namespace Size

theorem prefixSumsFrom_sizes {columns : List (Array α)} (sums : Array Nat) {total : Nat}
    (h : total + (columns.map Array.size).sum < limit) :
    prefixSumsFrom sums total (columns.map Array.size) =
      .ok (sums ++ (Pattern.columnEnds total columns).toArray) := by
  induction columns generalizing sums total with
  | nil => simp [prefixSumsFrom, Pattern.columnEnds]
  | cons column columns ih =>
    rw [List.map_cons, List.sum_cons, ← Nat.add_assoc] at h
    rw [List.map_cons, prefixSumsFrom, add_of_lt (Nat.lt_of_le_of_lt (Nat.le_add_right _ _) h),
      Result.ok_bind, ih _ h, Pattern.columnEnds]
    simp

theorem prefixSums_sizes {columns : Array (Array α)} (h : columns.flatten.size < limit) :
    prefixSums (columns.map Array.size) = .ok (Pattern.pointersOf columns) := by
  rw [Array.size_flatten, ← Array.sum_toList, Array.toList_map] at h
  rw [prefixSums, Array.toList_map, prefixSumsFrom_sizes #[0] (by rwa [Nat.zero_add]),
    Pattern.pointersOf]
  simp

end Size

namespace SparseMatrix

section Counting

variable {nRows nCols : Nat}

theorem countTriplets_related {triplets : List (Nat × Nat × α)} {columns : Array (Array (Nat × α))}
    (hsize : columns.size = nCols)
    (hlimit : ∀ (j : Nat) (hj : j < columns.size), columns[j].size + triplets.length < Size.limit) :
    Result.Related (fun counts columns => counts = columns.map Array.size)
      (triplets.foldlM (countTriplet nRows nCols) (columns.map Array.size))
      (bucket nRows nCols triplets columns) := by
  induction triplets generalizing columns with
  | nil => exact .ok rfl
  | cons t triplets ih =>
    obtain ⟨i, j, v⟩ := t
    rw [List.foldlM_cons, countTriplet, bucket]
    by_cases hi : nRows ≤ i
    · rw [if_pos hi, if_pos hi]
      exact .error _
    rw [if_neg hi, if_neg hi]
    by_cases hj : nCols ≤ j
    · rw [if_pos hj, if_pos hj]
      exact .error _
    rw [if_neg hj, if_neg hj]
    have hj : j < columns.size := hsize ▸ Nat.not_le.1 hj
    have hcounts : j < (columns.map Array.size).size := by rwa [Array.size_map]
    have hlt : columns[j].size + 1 < Size.limit := by
      have := hlimit j hj
      rw [List.length_cons] at this
      omega
    have hnext : (columns.map Array.size).set j (columns[j].size + 1) hcounts =
        (columns.modify j (·.push (i, v))).map Array.size := by
      apply Array.ext
      · simp
      · intro k hk hk'
        rw [Array.getElem_set, Array.getElem_map, Array.getElem_map, Array.getElem_modify]
        split <;> simp_all
    rw [fetch_of_lt hcounts, Result.ok_bind, Array.getElem_map, Size.add_of_lt hlt, Result.ok_bind,
      store_of_lt hcounts, Result.ok_bind, hnext]
    apply ih
    · rw [Array.size_modify, hsize]
    · intro k hk
      have := hlimit k (by rwa [Array.size_modify] at hk)
      rw [List.length_cons] at this
      rw [Array.getElem_modify]
      split
      · rw [Array.size_push]
        omega
      · omega

theorem sum_set_succ {xs : List Nat} {j : Nat} (hj : j < xs.length) :
    (xs.set j (xs[j] + 1)).sum = xs.sum + 1 := by
  have hsum : xs.sum = (xs.take j).sum + xs[j] + (xs.drop (j + 1)).sum := by
    rw [← List.sum_take_succ xs j hj, List.sum_take_add_sum_drop]
  rw [List.sum_set, if_pos hj, hsum]
  omega

theorem sum_of_countTriplets {triplets : List (Nat × Nat × α)} {counts filled : Array Nat}
    (h : triplets.foldlM (countTriplet nRows nCols) counts = .ok filled) :
    filled.toList.sum = counts.toList.sum + triplets.length := by
  induction triplets generalizing counts with
  | nil =>
    cases h
    rfl
  | cons t triplets ih =>
    rw [List.foldlM_cons, Result.bind_eq_ok] at h
    obtain ⟨next, hnext, h⟩ := h
    simp only [countTriplet, Result.refuse_eq_ok, Result.bind_eq_ok, Size.add_eq_ok, fetch_eq_ok,
      store_eq_ok] at hnext
    obtain ⟨-, -, count, hcount, _, ⟨-, rfl⟩, hlt, rfl⟩ := hnext
    obtain ⟨_, rfl⟩ := Array.getElem?_eq_some_iff.1 hcount
    rw [ih h, Array.toList_set, List.length_cons, ← Array.getElem_toList, sum_set_succ]
    omega

end Counting

/-! ### Scattering -/

section Scattering

/-- The triplets so far are in their places, and the cursor of each column stands behind its own. -/
structure Placed (columns : Array (Array (Nat × α))) (done : List (Nat × Nat × α))
    (scattered : Scattered α) : Prop where
  places_size : scattered.places.size = columns.flatten.size
  next : ∀ j < columns.size,
    scattered.next[j]? = some (Pattern.laidBefore columns j + (inColumn done j).length)
  places : ∀ j < columns.size, ∀ k entry, (inColumn done j)[k]? = some entry →
    scattered.places[Pattern.laidBefore columns j + k]? = some (some entry)

theorem inColumn_concat (done : List (Nat × Nat × α)) (i j : Nat) (v : α) (k : Nat) :
    inColumn (done ++ [(i, j, v)]) k =
      if j = k then inColumn done k ++ [(i, v)] else inColumn done k := by
  rw [inColumn, List.filterMap_append]
  by_cases hj : j = k <;> simp [hj, inColumn]

theorem length_inColumn_le (done rest : List (Nat × Nat × α)) (j : Nat) :
    (inColumn done j).length ≤ (inColumn (done ++ rest) j).length := by
  rw [inColumn, inColumn, List.filterMap_append, List.length_append]
  exact Nat.le_add_right _ _

theorem laidBefore_succ {columns : Array (Array α)} {j : Nat} (hj : j < columns.size) :
    Pattern.laidBefore columns (j + 1) = Pattern.laidBefore columns j + columns[j].size := by
  rw [Pattern.laidBefore, List.sum_take_succ _ j (by simpa using hj)]
  simp [Pattern.laidBefore]

theorem place_ne {columns : Array (Array α)} {j k p q : Nat} (hj : j < columns.size)
    (hk : k < columns.size) (hp : p < columns[j].size) (hq : q < columns[k].size) (hne : j ≠ k) :
    Pattern.laidBefore columns j + p ≠ Pattern.laidBefore columns k + q := by
  have hafter := laidBefore_succ hj
  have hafter' := laidBefore_succ hk
  rcases Nat.lt_or_gt_of_ne hne with hlt | hlt
  · have hle : Pattern.laidBefore columns (j + 1) ≤ _ := Pattern.laidBefore_mono hlt
    omega
  · have hle : Pattern.laidBefore columns (k + 1) ≤ _ := Pattern.laidBefore_mono hlt
    omega

theorem place_lt {columns : Array (Array α)} {j p : Nat} (hj : j < columns.size)
    (hp : p < columns[j].size) : Pattern.laidBefore columns j + p < columns.flatten.size := by
  have hafter := laidBefore_succ hj
  have hle : Pattern.laidBefore columns (j + 1) ≤ _ := Pattern.laidBefore_mono hj
  rw [← Pattern.laidBefore_size]
  omega

namespace Placed

variable {columns : Array (Array (Nat × α))} {triplets : List (Nat × Nat × α)}

theorem empty : Placed columns [] ⟨Pattern.pointersOf columns, Array.replicate columns.flatten.size none⟩ where
  places_size := Array.size_replicate
  next j hj := Pattern.getElem?_pointersOf (Nat.le_of_lt hj)
  places j hj k entry hentry := by cases hentry

variable (hcolumns : ∀ (j : Nat) (hj : j < columns.size), columns[j].toList = inColumn triplets j)
  (hlimit : columns.flatten.size < Size.limit)
include hcolumns

theorem lt_size {done rest : List (Nat × Nat × α)} (hdone : done ++ rest = triplets) {j : Nat}
    (hj : j < columns.size) {k : Nat} (hk : k < (inColumn done j).length) : k < columns[j].size := by
  have hle := length_inColumn_le done rest j
  rw [hdone, ← hcolumns j hj, Array.length_toList] at hle
  exact Nat.lt_of_lt_of_le hk hle

theorem length_lt_size {done rest : List (Nat × Nat × α)} {i j : Nat} {v : α}
    (hdone : done ++ (i, j, v) :: rest = triplets) (hj : j < columns.size) :
    (inColumn done j).length < columns[j].size := by
  have hdone' : (done ++ [(i, j, v)]) ++ rest = triplets := by
    rw [← hdone, ← List.append_cons]
  apply lt_size hcolumns hdone' hj
  simp [inColumn_concat]

theorem place {done rest : List (Nat × Nat × α)} {i j : Nat} {v : α} {scattered : Scattered α}
    (h : Placed columns done scattered) (hdone : done ++ (i, j, v) :: rest = triplets)
    (hj : j < columns.size) (hcursor : j < scattered.next.size)
    (hroom : Pattern.laidBefore columns j + (inColumn done j).length < scattered.places.size) :
    Placed columns (done ++ [(i, j, v)])
      ⟨scattered.next.set j (Pattern.laidBefore columns j + (inColumn done j).length + 1) hcursor,
        scattered.places.set (Pattern.laidBefore columns j + (inColumn done j).length) (some (i, v))
          hroom⟩ where
  places_size := by
    rw [Array.size_set, h.places_size]
  next k hk := by
    rw [inColumn_concat]
    by_cases hjk : j = k
    · subst hjk
      rw [if_pos rfl, Array.getElem?_set_self hcursor, List.length_append]
      rfl
    · rw [if_neg hjk, Array.getElem?_set_ne hcursor hjk, h.next k hk]
  places k hk p entry hentry := by
    rw [inColumn_concat] at hentry
    by_cases hjk : j = k
    · subst hjk
      rw [if_pos rfl] at hentry
      by_cases hp : p < (inColumn done j).length
      · rw [List.getElem?_append_left hp] at hentry
        rw [Array.getElem?_set_ne _ (by omega), h.places j hk p entry hentry]
      · obtain ⟨hlt, rfl⟩ := List.getElem?_eq_some_iff.1 hentry
        have hlast : p = (inColumn done j).length := by
          rw [List.length_append, List.length_singleton] at hlt
          omega
        subst hlast
        simp
    · -- the place of the triplet is none of another column
      rw [if_neg hjk] at hentry
      have hinner := length_lt_size hcolumns hdone hj
      have hp := lt_size hcolumns hdone hk (List.getElem?_eq_some_iff.1 hentry).1
      rw [Array.getElem?_set_ne _ (place_ne hj hk hinner hp hjk), h.places k hk p entry hentry]

include hlimit

theorem step {done rest : List (Nat × Nat × α)} {i j : Nat} {v : α} {scattered : Scattered α}
    (h : Placed columns done scattered) (hdone : done ++ (i, j, v) :: rest = triplets)
    (hj : j < columns.size) : ∃ after, scatterTriplet scattered (i, j, v) = .ok after ∧
      Placed columns (done ++ [(i, j, v)]) after := by
  have hplace := place_lt hj (length_lt_size hcolumns hdone hj)
  have hroom : Pattern.laidBefore columns j + (inColumn done j).length < scattered.places.size :=
    h.places_size ▸ hplace
  have hcursor := (Array.getElem?_eq_some_iff.1 (h.next j hj)).1
  refine ⟨_, ?_, h.place hcolumns hdone hj hcursor hroom⟩
  rw [scatterTriplet, fetch_eq_ok.2 (h.next j hj), Result.ok_bind, store_of_lt hroom, Result.ok_bind,
    Size.add_of_lt (by omega), Result.ok_bind, store_of_lt hcursor]
  rfl

/-- Once all triplets are placed, each column is cut out of the places. -/
theorem run {done rest : List (Nat × Nat × α)} (hdone : done ++ rest = triplets)
    (hplaced : ∀ t ∈ rest, t.2.1 < columns.size) {scattered : Scattered α}
    (h : Placed columns done scattered) :
    ∃ after, rest.foldlM scatterTriplet scattered = .ok after ∧ Placed columns triplets after := by
  induction rest generalizing done scattered with
  | nil =>
    rw [List.append_nil] at hdone
    exact ⟨scattered, rfl, hdone ▸ h⟩
  | cons t rest ih =>
    obtain ⟨i, j, v⟩ := t
    obtain ⟨next, hnext, h⟩ := h.step hcolumns hlimit hdone (hplaced (i, j, v) List.mem_cons_self)
    rw [List.foldlM_cons, hnext]
    apply ih _ (fun t ht => hplaced t (List.mem_cons_of_mem _ ht)) h
    rw [← hdone, ← List.append_cons]

omit hlimit in
theorem cut_eq {scattered : Scattered α} (h : Placed columns triplets scattered) {j : Nat}
    (hj : j < columns.size) :
    (Span.mk (Pattern.laidBefore columns j) (Pattern.laidBefore columns (j + 1))).cut scattered.places =
      .ok (columns[j].map some) := by
  have hsucc := laidBefore_succ hj
  have hle : Pattern.laidBefore columns (j + 1) ≤ scattered.places.size := by
    rw [h.places_size, ← Pattern.laidBefore_size]
    exact Pattern.laidBefore_mono hj
  rw [Span.cut_of_le (Pattern.laidBefore_mono (Nat.le_succ j)) hle]
  apply congrArg Except.ok
  apply Array.ext_getElem?
  intro k
  have hlength : min (Pattern.laidBefore columns (j + 1)) scattered.places.size -
      Pattern.laidBefore columns j = columns[j].size := by omega
  simp only [Array.getElem?_extract, Array.getElem?_map, hlength]
  by_cases hk : k < columns[j].size
  · have hentry : (inColumn triplets j)[k]? = some columns[j][k] := by
      rw [← hcolumns j hj, Array.getElem?_toList, Array.getElem?_eq_getElem hk]
    rw [if_pos hk, h.places j hj k _ hentry, Array.getElem?_eq_getElem hk]
    rfl
  · rw [if_neg hk, Array.getElem?_eq_none (Nat.le_of_not_lt hk)]
    rfl

end Placed

end Scattering

/-! ### Merging -/

section Merging

open GrowingMatrix (laid combineLast addEntry addPlaces)

variable {combine : Option (α → α → Result α)} {j : Nat} {closed : Array (Array (Nat × α))}

theorem combineLast_laid (closed : Array (Array (Nat × α))) (column : Array (Nat × α)) (i : Nat) (x v : α) :
    combineLast combine j (laid closed (column.push (i, x))) (i, v) =
      (do return laid closed (column.push (i, ← mergeAt combine i j x v))) := by
  unfold combineLast mergeAt
  rw [GrowingMatrix.values_laid_push, Array.back?_push, Array.pop_push]
  cases combine with
  | none => rfl
  | some f =>
    cases hvalue : f x v with
    | error e => simp only [hvalue]; rfl
    | ok y => simp only [hvalue, laid]; simp

/-- An entry is appended to the open column as it is to a column kept apart. -/
theorem addEntry_related (h : closed.size = j) (column : Array (Nat × α)) (entry : Nat × α) :
    Result.Related (fun g merged => g = laid closed merged)
      (addEntry combine j (laid closed column) entry) (mergeEntry combine j column entry) := by
  rw [addEntry, GrowingMatrix.fetch_colPtr_laid h, Result.ok_bind, GrowingMatrix.size_rowIdx_laid]
  cases hback : column.back? with
  | none =>
    have hempty : column = #[] := Array.back?_eq_none_iff.1 hback
    subst hempty
    rw [if_neg (by simp)]
    exact .ok (GrowingMatrix.pushEntry_laid closed #[] entry.1 entry.2)
  | some last =>
    obtain ⟨i, x⟩ := last
    obtain ⟨k, v⟩ := entry
    obtain ⟨init, rfl⟩ := Array.back?_eq_some_iff.1 hback
    by_cases hi : i = k
    · subst hi
      rw [if_pos (by simp), combineLast_laid, mergeEntry_of_last]
      cases mergeAt combine i j x v with
      | error e => exact .error e
      | ok y => exact .ok rfl
    · rw [if_neg (by simp [hi])]
      unfold mergeEntry
      rw [hback]
      simp only [if_neg hi]
      exact .ok (GrowingMatrix.pushEntry_laid closed _ k v)

theorem addEntries_related (h : closed.size = j) (entries : List (Nat × α)) (column : Array (Nat × α)) :
    Result.Related (fun g merged => g = laid closed merged)
      (entries.foldlM (addEntry combine j) (laid closed column))
      (entries.foldlM (mergeEntry combine j) column) := by
  refine Result.Related.foldlM_same ?_ entries rfl
  intro g merged hg entry
  rw [hg]
  exact addEntry_related h merged entry

section Places

variable {columns : Array (Array (Nat × α))} {triplets : List (Nat × Nat × α)} {scattered : Scattered α}
  (hcolumns : ∀ (j : Nat) (hj : j < columns.size), columns[j].toList = inColumn triplets j)
  (placed : Placed columns triplets scattered)
include hcolumns placed

theorem addPlaces_related (h : closed.size = j) (hj : j < columns.size) :
    Result.Related (fun g merged => g = laid (closed.push merged) #[])
      (addPlaces combine (Pattern.pointersOf columns) scattered.places (laid closed #[]) j)
      (mergeColumn combine j columns[j]) := by
  have hentries : (columns[j].map some).toList.filterMap id = columns[j].toList := by simp
  rw [addPlaces, fetch_eq_ok.2 (Pattern.getElem?_pointersOf (Nat.le_of_lt hj)), Result.ok_bind,
    fetch_eq_ok.2 (Pattern.getElem?_pointersOf hj), Result.ok_bind, placed.cut_eq hcolumns hj,
    Result.ok_bind, hentries, mergeColumn, ← bind_pure (List.foldlM (mergeEntry combine j) _ _)]
  refine (addEntries_related h _ #[]).bind fun g merged hg => .ok ?_
  rw [hg, GrowingMatrix.closeColumn_laid]

theorem addColumns_related {rest : List (Array (Nat × α))}
    (hrest : columns.toList.drop closed.size = rest) :
    Result.Related (fun g merged => g = laid (closed ++ merged.toArray) #[])
      ((List.range' closed.size rest.length).foldlM
        (addPlaces combine (Pattern.pointersOf columns) scattered.places) (laid closed #[]))
      (mergeColumns combine closed.size rest) := by
  induction rest generalizing closed with
  | nil => exact .ok (by simp)
  | cons column rest ih =>
    have hj : closed.size < columns.size := by
      have := congrArg List.length hrest
      rw [List.length_drop, List.length_cons, Array.length_toList] at this
      omega
    rw [List.drop_eq_getElem_cons (by simpa using hj), List.cons.injEq] at hrest
    obtain ⟨hcolumn, hrest⟩ := hrest
    rw [Array.getElem_toList] at hcolumn
    rw [List.length_cons, List.range'_succ, List.foldlM_cons, mergeColumns, ← hcolumn]
    refine (addPlaces_related hcolumns placed rfl hj).bind fun g merged hg => ?_
    rw [← Array.size_push merged] at hrest
    have hnext := ih hrest
    rw [Array.size_push] at hnext
    rw [hg, ← bind_pure (List.foldlM _ _ _)]
    refine hnext.bind fun g merged hg => .ok ?_
    rw [hg]
    simp

theorem finish_addColumns (combine : Option (α → α → Result α)) (nRows : Nat) :
    (do
      let g ← Span.foldM ⟨0, columns.size⟩
        (addPlaces combine (Pattern.pointersOf columns) scattered.places) .start
      g.finish nRows columns.size) = (do
      let merged ← mergeColumns combine 0 columns.toList
      ofColumns nRows merged.toArray) := by
  have hrelated : Result.Related (fun g merged => g = laid merged.toArray #[])
      ((List.range' 0 columns.size).foldlM
        (addPlaces combine (Pattern.pointersOf columns) scattered.places) (laid #[] #[]))
      (mergeColumns combine 0 columns.toList) := by
    have hall : columns.toList.drop (#[] : Array (Array (Nat × α))).size = columns.toList := List.drop_zero
    simpa using addColumns_related hcolumns placed hall
  rw [Span.foldM_eq, GrowingMatrix.start_eq_laid]
  cases hmerged : mergeColumns combine 0 columns.toList with
  | error e =>
    rw [hmerged] at hrelated
    exact congrArg (· >>= _) (hrelated.eq_error rfl)
  | ok merged =>
    obtain ⟨g, hg, rfl⟩ := hrelated.exists_ok hmerged
    have hlength : merged.toArray.size = columns.size := by
      simpa using ((mergeColumns_ends combine columns.toList 0).of_ok hmerged).1
    rw [Span.positions, Span.length, Nat.sub_zero, hg, Result.ok_bind, Result.ok_bind,
      GrowingMatrix.finish_laid hlength]

end Places

end Merging

/-- The matrix put together in place is the matrix of the triplets. -/
theorem scatterTriplets_eq (nRows nCols : Nat) {triplets : Array (Nat × Nat × α)}
    (htriplets : triplets.size < Size.limit) (combine : Option (α → α → Result α)) :
    scatterTriplets nRows nCols triplets combine = ofTriplets nRows nCols triplets combine := by
  have hcount : Result.Related (fun counts columns => counts = columns.map Array.size)
      (triplets.toList.foldlM (countTriplet nRows nCols) (Array.replicate nCols 0))
      (bucket nRows nCols triplets.toList (Array.replicate nCols #[])) := by
    rw [show Array.replicate nCols 0 = (Array.replicate nCols (#[] : Array (Nat × α))).map Array.size by simp]
    apply countTriplets_related
    · exact Array.size_replicate
    · simpa using fun _ _ => htriplets
  rw [scatterTriplets, ofTriplets]
  cases hbucket : bucket nRows nCols triplets.toList (Array.replicate nCols #[]) with
  | error e =>
    rw [hcount.eq_error hbucket]
    rfl
  | ok columns =>
    obtain ⟨counts, hcounts, rfl⟩ := hcount.exists_ok hbucket
    obtain ⟨inside, hsize, hcolumn⟩ := (bucket_replicate_ends nRows nCols triplets.toList).of_ok hbucket
    have htotal : columns.flatten.size = triplets.size := by
      simpa [Array.size_flatten, ← Array.sum_toList] using sum_of_countTriplets hcounts
    have hcolumns : ∀ (j : Nat) (hj : j < columns.size), columns[j].toList = inColumn triplets.toList j :=
      fun j hj => hcolumn j columns[j] (Array.getElem?_eq_getElem hj)
    have hlimit : columns.flatten.size < Size.limit := htotal ▸ htriplets
    obtain ⟨scattered, hscattered, placed⟩ := Placed.empty.run hcolumns hlimit
      (List.nil_append triplets.toList) fun t ht => hsize ▸ (inside t ht).2
    rw [hcounts, Result.ok_bind, Size.prefixSums_sizes hlimit, Result.ok_bind, ← htotal, hscattered,
      Result.ok_bind, Result.ok_bind, ← hsize, finish_addColumns hcolumns placed]

end SparseMatrix

end SparseProduct
