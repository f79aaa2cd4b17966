/-!
# Searching an increasing list

One halving loop serves both searches. It keeps a place and a number of candidates after it, and moves
the place to the middle candidate unless that one is beyond the key. On a list whose places beyond the
key come last, it ends at the last place that is not beyond.

On an increasing array `find` finds a key exactly where it is, and otherwise splits the array into what
is below the key and what is above. `countWhile` gives the length of the part that a test holds on.
-/

namespace SparseProduct

namespace Search

/-- Narrows `size` candidate places from `base` on to one place. -/
def narrow (beyond : Nat → Bool) (base size : Nat) : Nat :=
  if size ≤ 1 then base
  else if beyond (base + size / 2) then narrow beyond base (size - size / 2)
  else narrow beyond (base + size / 2) (size - size / 2)
termination_by size

/-- Where a search for a key ends: at the key, or where the key would be inserted. -/
inductive Place where
  | found (index : Nat)
  | absent (index : Nat)
deriving DecidableEq, Repr

namespace Place

def index? : Place → Option Nat
  | found index => some index
  | absent _ => none

def below : Place → Nat
  | found index => index
  | absent index => index

end Place

/-- Searches an increasing array for a key. -/
def find (xs : Array Nat) (key : Nat) : Place :=
  let i := narrow (fun i => xs[i]?.any (key < ·)) 0 xs.size
  match xs[i]? with
  | none => .absent 0
  | some x => if x = key then .found i else .absent (if x < key then i + 1 else i)

/-- The length of the part of an array that `keep` holds on, when that part comes first. -/
def countWhile (xs : Array Nat) (keep : Nat → Bool) : Nat :=
  let i := narrow (fun i => xs[i]?.any (fun x => !keep x)) 0 xs.size
  match xs[i]? with
  | none => 0
  | some x => if keep x then i + 1 else i

/-- The loop stays among the candidates, and after the first of them its place divides those that are
not beyond from those that are. -/
theorem narrow_spec (beyond : Nat → Bool) (base size : Nat)
    (mono : ∀ i j, i ≤ j → j < base + size → beyond i = true → beyond j = true) :
    base ≤ narrow beyond base size ∧ (0 < size → narrow beyond base size < base + size) ∧
      ∀ i, base < i → i < base + size → (beyond i = false ↔ i ≤ narrow beyond base size) := by
  fun_induction narrow beyond base size with
  | case1 base size h => exact ⟨Nat.le_refl _, by omega, fun i hi hlt => by omega⟩
  | case2 base size h hmid ih =>
      obtain ⟨hle, hlt, hiff⟩ := ih fun i j hij hj => mono i j hij (by omega)
      have hlt := hlt (by omega)
      refine ⟨hle, fun _ => by omega, fun i hi hup => ?_⟩
      by_cases hin : i < base + (size - size / 2)
      · exact hiff i hi hin
      · have hbeyond := mono _ i (by omega) hup hmid
        simp only [hbeyond, Bool.true_eq_false, false_iff]
        omega
  | case3 base size h hmid ih =>
      obtain ⟨hle, hlt, hiff⟩ := ih fun i j hij hj => mono i j hij (by omega)
      have hlt := hlt (by omega)
      refine ⟨by omega, fun _ => by omega, fun i hi hup => ?_⟩
      by_cases hin : base + size / 2 < i
      · exact hiff i hin (by omega)
      · have hkept : beyond i = false := by
          by_cases hb : beyond i = true
          · exact absurd (mono i _ (by omega) (by omega) hb) hmid
          · exact Bool.eq_false_iff.2 hb
        simp only [hkept, true_iff]
        omega

theorem countWhile_le (xs : Array Nat) (keep : Nat → Bool) : countWhile xs keep ≤ xs.size := by
  unfold countWhile
  simp only
  split
  · exact Nat.zero_le _
  · next x hx =>
    have hlt := (Array.getElem?_eq_some_iff.1 hx).1
    split <;> omega

theorem below_find_le (xs : Array Nat) (key : Nat) : (find xs key).below ≤ xs.size := by
  unfold find
  simp only
  split
  · exact Nat.zero_le _
  · next x hx =>
    have hlt := (Array.getElem?_eq_some_iff.1 hx).1
    split
    · exact Nat.le_of_lt hlt
    · show (if x < key then _ else _) ≤ _
      split <;> omega

theorem lt_countWhile_iff {xs : Array Nat} {keep : Nat → Bool}
    (mono : ∀ i j (hij : i ≤ j) (hj : j < xs.size), keep xs[j] = true → keep xs[i] = true)
    {i : Nat} (hi : i < xs.size) : i < countWhile xs keep ↔ keep xs[i] = true := by
  have hbeyond : ∀ k (hk : k < xs.size), xs[k]?.any (fun x => !keep x) = !keep xs[k] := by
    intro k hk
    simp only [Array.getElem?_eq_getElem hk, Option.any_some]
  obtain ⟨-, hlt, hiff⟩ := narrow_spec (fun i => xs[i]?.any (fun x => !keep x)) 0 xs.size
    (by
      intro a b hab hb ha
      rw [hbeyond b (by omega)]
      rw [hbeyond a (by omega)] at ha
      by_cases hk : keep xs[b] = true
      · rw [mono a b hab (by omega) hk] at ha
        cases ha
      · simpa using hk)
  have hlt := hlt (by omega)
  unfold countWhile
  simp only
  generalize hn : narrow (fun i => xs[i]?.any (fun x => !keep x)) 0 xs.size = n at hlt hiff
  have hn : n < xs.size := by omega
  simp only [Array.getElem?_eq_getElem hn]
  have hpos : 0 < i → (keep xs[i] = true ↔ i ≤ n) := fun h => by
    rw [← hiff i h (by omega), hbeyond i hi]
    simp
  by_cases hkeep : keep xs[n] = true
  · rw [if_pos hkeep]
    rcases Nat.eq_zero_or_pos i with rfl | h
    · exact ⟨fun _ => mono 0 n (by omega) hn hkeep, fun _ => by omega⟩
    · rw [hpos h]
      omega
  · rw [if_neg hkeep]
    have hzero : n = 0 := by
      rcases Nat.eq_zero_or_pos n with h | h
      · exact h
      · have := (hiff n h (by omega)).2 (Nat.le_refl _)
        rw [hbeyond n hn] at this
        exact absurd (by simpa using this) hkeep
    subst hzero
    rcases Nat.eq_zero_or_pos i with rfl | h
    · exact ⟨fun h => by omega, fun h => absurd h hkeep⟩
    · rw [hpos h]
      omega

theorem getElem_lt_getElem {xs : Array Nat} (inc : xs.toList.Pairwise (· < ·)) {i j : Nat}
    (hij : i < j) (hj : j < xs.size) : xs[i] < xs[j] := by
  have := List.pairwise_iff_getElem.1 inc i j (by simp; omega) (by simpa using hj) hij
  simpa using this

theorem getElem_le_getElem {xs : Array Nat} (inc : xs.toList.Pairwise (· < ·)) {i j : Nat}
    (hij : i ≤ j) (hj : j < xs.size) : xs[i] ≤ xs[j] := by
  rcases Nat.lt_or_eq_of_le hij with h | rfl
  · exact Nat.le_of_lt (getElem_lt_getElem inc h hj)
  · exact Nat.le_refl _

theorem pairwise_of_neighbours {xs : List Nat}
    (h : (xs.zip xs.tail).all (fun pair => pair.1 < pair.2) = true) : xs.Pairwise (· < ·) := by
  induction xs with
  | nil => exact List.Pairwise.nil
  | cons x xs ih =>
      cases xs with
      | nil => exact List.pairwise_singleton _ _
      | cons y xs =>
          simp only [List.tail_cons, List.zip_cons_cons, List.all_cons, Bool.and_eq_true,
            decide_eq_true_eq] at h
          have hrest := ih h.2
          refine List.Pairwise.cons (fun z hz => ?_) hrest
          rcases List.mem_cons.1 hz with rfl | hz
          · exact h.1
          · exact Nat.lt_trans h.1 (List.rel_of_pairwise_cons hrest hz)

theorem lt_countWhile_le_iff {xs : Array Nat} (inc : xs.toList.Pairwise (· < ·)) (key : Nat) {i : Nat}
    (hi : i < xs.size) : i < countWhile xs (· ≤ key) ↔ xs[i] ≤ key := by
  have h := @lt_countWhile_iff xs (· ≤ key) (fun a b hab hb hle => by
    have := getElem_le_getElem inc hab hb
    simp only [decide_eq_true_eq] at hle ⊢
    omega) i hi
  simpa only [decide_eq_true_eq] using h

theorem lt_countWhile_lt_iff {xs : Array Nat} (inc : xs.toList.Pairwise (· < ·)) (key : Nat) {i : Nat}
    (hi : i < xs.size) : i < countWhile xs (· < key) ↔ xs[i] < key := by
  have h := @lt_countWhile_iff xs (· < key) (fun a b hab hb hlt => by
    have := getElem_le_getElem inc hab hb
    simp only [decide_eq_true_eq] at hlt ⊢
    omega) i hi
  simpa only [decide_eq_true_eq] using h

theorem countWhile_lt_mono {xs : Array Nat} (inc : xs.toList.Pairwise (· < ·)) {key later : Nat}
    (h : key ≤ later) : countWhile xs (· < key) ≤ countWhile xs (· < later) := by
  refine Nat.le_of_not_lt fun hlt => ?_
  have hin := Nat.lt_of_lt_of_le hlt (countWhile_le xs _)
  have hbelow := (lt_countWhile_lt_iff inc key hin).1 hlt
  exact Nat.lt_irrefl _ ((lt_countWhile_lt_iff inc later hin).2 (Nat.lt_of_lt_of_le hbelow h))

theorem countWhile_lt_eq {xs : Array Nat} (inc : xs.toList.Pairwise (· < ·)) {key i : Nat}
    (h : xs[i]? = some key) : countWhile xs (· < key) = i := by
  obtain ⟨hi, rfl⟩ := Array.getElem?_eq_some_iff.1 h
  refine Nat.le_antisymm (Nat.le_of_not_lt fun hlt => ?_) (Nat.le_of_not_lt fun hlt => ?_)
  · exact Nat.lt_irrefl _ ((lt_countWhile_lt_iff inc xs[i] hi).1 hlt)
  · have hin := Nat.lt_trans hlt hi
    exact Nat.lt_irrefl _ ((lt_countWhile_lt_iff inc xs[i] hin).2 (getElem_lt_getElem inc hlt hi))

theorem countWhile_le_eq {xs : Array Nat} (inc : xs.toList.Pairwise (· < ·)) {key k : Nat}
    (hk : k + 1 < xs.size) (hlow : xs[k] ≤ key) (hhigh : key < xs[k + 1]) :
    countWhile xs (· ≤ key) = k + 1 := by
  have hin := lt_countWhile_le_iff inc key (show k < xs.size by omega)
  have hout := lt_countWhile_le_iff inc key hk
  omega

/-- On an increasing array the search ends at the key if the array holds it, and the elements below the
key are those before the place where it ends. -/
theorem find_spec {xs : Array Nat} (inc : xs.toList.Pairwise (· < ·)) (key : Nat) :
    (∀ i, find xs key = .found i → xs[i]? = some key) ∧
      (∀ i, find xs key = .absent i → ∀ j : Nat, xs[j]? ≠ some key) ∧
      ∀ i (hi : i < xs.size), xs[i] < key ↔ i < (find xs key).below := by
  have hbeyond : ∀ k (hk : k < xs.size), xs[k]?.any (key < ·) = decide (key < xs[k]) := by
    intro k hk
    simp only [Array.getElem?_eq_getElem hk, Option.any_some]
  obtain ⟨-, hlt, hiff⟩ := narrow_spec (fun i => xs[i]?.any (key < ·)) 0 xs.size (by
      intro a b hab hb ha
      rw [hbeyond b (by omega)]
      rw [hbeyond a (by omega)] at ha
      have := getElem_le_getElem inc hab (by omega)
      simp only [decide_eq_true_eq] at ha ⊢
      omega)
  unfold find
  simp only
  generalize narrow (fun i => xs[i]?.any (key < ·)) 0 xs.size = n at hlt hiff
  rcases Nat.eq_zero_or_pos xs.size with hzero | hpos
  · have hnone : ∀ i : Nat, xs[i]? = none := fun i => Array.getElem?_eq_none (by omega)
    simp only [hnone]
    exact ⟨fun _ h => (by cases h), fun _ _ _ h => (by cases h), fun i hi => by omega⟩
  · have hn : n < xs.size := by have := hlt hpos; omega
    have habove : ∀ i (hi : i < xs.size), n < i → key < xs[i] := fun i hi h => by
      have := hiff i (by omega) (by omega)
      rw [hbeyond i hi] at this
      by_cases hk : key < xs[i]
      · exact hk
      · exact absurd (this.1 (by simpa using hk)) (by omega)
    have hbelow : 0 < n → xs[n] ≤ key := fun h => by
      have := (hiff n h (by omega)).2 (Nat.le_refl _)
      rw [hbeyond n hn] at this
      simpa using this
    simp only [Array.getElem?_eq_getElem hn]
    split
    · next heq =>
      refine ⟨fun i h => ?_, fun _ h => (by cases h), fun i hi => ?_⟩
      · cases h
        rw [Array.getElem?_eq_getElem hn, heq]
      · show xs[i] < key ↔ i < n
        rcases Nat.lt_trichotomy i n with h | rfl | h
        · have := getElem_lt_getElem inc h hn
          omega
        · omega
        · have := habove i hi h
          omega
    · next hne =>
      refine ⟨fun _ h => (by cases h), fun _ _ j hj => ?_, fun i hi => ?_⟩
      · obtain ⟨hlt, heq⟩ := Array.getElem?_eq_some_iff.1 hj
        rcases Nat.lt_trichotomy j n with h | rfl | h
        · have := getElem_lt_getElem inc h hn
          have := hbelow (by omega)
          omega
        · exact hne heq
        · have := habove j hlt h
          omega
      · show xs[i] < key ↔ i < if xs[n] < key then n + 1 else n
        rcases Nat.lt_trichotomy i n with h | rfl | h
        · have := getElem_lt_getElem inc h hn
          have := hbelow (by omega)
          split <;> omega
        · split <;> omega
        · have := habove i hi h
          split <;> omega

theorem index?_find_eq_some_iff {xs : Array Nat} (inc : xs.toList.Pairwise (· < ·)) {key i : Nat} :
    (find xs key).index? = some i ↔ xs[i]? = some key := by
  obtain ⟨hfound, habsent, -⟩ := find_spec inc key
  cases hf : find xs key with
  | absent p => exact ⟨fun h => (by cases h), fun h => absurd h (habsent p hf i)⟩
  | found p =>
      have hp := hfound p hf
      simp only [Place.index?, Option.some.injEq]
      refine ⟨fun h => h ▸ hp, fun h => ?_⟩
      obtain ⟨hplt, hpeq⟩ := Array.getElem?_eq_some_iff.1 hp
      obtain ⟨hilt, hieq⟩ := Array.getElem?_eq_some_iff.1 h
      rcases Nat.lt_trichotomy p i with hlt | rfl | hlt
      · have := getElem_lt_getElem inc hlt hilt
        omega
      · rfl
      · have := getElem_lt_getElem inc hlt hplt
        omega

theorem index?_find_eq_none {xs : Array Nat} (inc : xs.toList.Pairwise (· < ·)) {key : Nat}
    (h : ∀ i : Nat, xs[i]? ≠ some key) : (find xs key).index? = none :=
  Option.eq_none_iff_forall_ne_some.2 fun i hi => h i ((index?_find_eq_some_iff inc).1 hi)

end Search

end SparseProduct
