import SparseProduct.Failure

/-!
# Spans of positions

A span is the half-open interval of positions that one vector occupies in an array. A span taken from
unchecked data may run backwards or past the end of the array. Walking it visits one position at a
time, so such a walk stops at the first position outside the data; cutting it out of an array fails at
once.
-/

namespace SparseProduct

def fetch {α : Type} (xs : Array α) (i : Nat) : Result α :=
  match xs[i]? with
  | some x => .ok x
  | none => .error .outOfRange

def store {α : Type} (xs : Array α) (i : Nat) (x : α) : Result (Array α) :=
  if h : i < xs.size then .ok (xs.set i x) else .error .outOfRange

theorem fetch_of_lt {α : Type} {xs : Array α} {i : Nat} (h : i < xs.size) :
    fetch xs i = .ok xs[i] := by
  simp only [fetch, Array.getElem?_eq_getElem h]

theorem store_of_lt {α : Type} {xs : Array α} {i : Nat} (h : i < xs.size) (x : α) :
    store xs i x = .ok (xs.set i x) := dif_pos h

/-- The positions from `start` up to, but not including, `stop`. -/
structure Span where
  start : Nat
  stop : Nat
deriving DecidableEq, Repr, Inhabited

namespace Span

/-- The span of a column that is not stored. -/
def empty : Span := ⟨0, 0⟩

def isEmpty (s : Span) : Bool := !decide (s.start < s.stop)

def length (s : Span) : Nat := s.stop - s.start

def positions (s : Span) : List Nat := List.range' s.start s.length

/-- Runs `step` at `count` positions from `position` on. -/
@[specialize]
def foldFrom {m : Type → Type} [Monad m] {β : Type} (step : β → Nat → m β) :
    (count position : Nat) → β → m β
  | 0, _, acc => pure acc
  | count + 1, position, acc => do
      let acc ← step acc position
      foldFrom step count (position + 1) acc

@[inline]
def foldM {m : Type → Type} [Monad m] {β : Type} (s : Span) (step : β → Nat → m β) (acc : β) :
    m β :=
  foldFrom step s.length s.start acc

theorem foldFrom_eq {m : Type → Type} [Monad m] {β : Type} (step : β → Nat → m β)
    (count position : Nat) (acc : β) :
    foldFrom step count position acc = (List.range' position count).foldlM step acc := by
  induction count generalizing position acc with
  | zero => rfl
  | succ count ih => simp only [foldFrom, ih, List.range'_succ, List.foldlM_cons]

theorem foldM_eq {m : Type → Type} [Monad m] {β : Type} (s : Span) (step : β → Nat → m β)
    (acc : β) : s.foldM step acc = s.positions.foldlM step acc :=
  foldFrom_eq step s.length s.start acc

theorem mem_positions {s : Span} {p : Nat} : p ∈ s.positions ↔ s.start ≤ p ∧ p < s.stop := by
  simp only [positions, length, List.mem_range'_1]
  omega

/-- The part of an array at the span's positions. -/
def cut {α : Type} (s : Span) (xs : Array α) : Result (Array α) :=
  if s.start ≤ s.stop ∧ s.stop ≤ xs.size then .ok (xs.extract s.start s.stop)
  else .error .outOfRange

theorem cut_of_le {α : Type} {s : Span} {xs : Array α} (h : s.start ≤ s.stop)
    (hstop : s.stop ≤ xs.size) : s.cut xs = .ok (xs.extract s.start s.stop) :=
  if_pos ⟨h, hstop⟩

end Span

end SparseProduct
