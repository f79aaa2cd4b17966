import SparseProduct.Accumulator
import SparseProduct.Size

/-!
# Sequences of steps that may fail

A check is a sequence of steps, each of which may refuse. What a sequence that succeeds has established
is read off it step by step: every step of it succeeded, and none of its conditions for refusing held.
-/

namespace SparseProduct

namespace Result

variable {α β : Type}

@[simp]
theorem pure_eq_ok {x y : α} : (pure x : Result α) = .ok y ↔ x = y := by
  simp only [pure, Except.pure, Except.ok.injEq]

@[simp]
theorem ok_bind {x : α} {f : α → Result β} : ((.ok x : Result α) >>= f) = f x := rfl

theorem check_bind_eq_ok {x : Result Unit} {rest : Unit → Result α} {y : α} :
    (x >>= rest) = .ok y ↔ x = .ok () ∧ rest () = .ok y := by
  rw [bind_eq_ok]
  constructor
  · rintro ⟨⟨⟩, hx, hrest⟩
    exact ⟨hx, hrest⟩
  · exact fun h => ⟨(), h⟩

theorem refuse_eq_ok {c : Prop} [Decidable c] {e : Failure} {f : β → Result α} {rest : Result α}
    {y : α} : (if c then (throw e : Result β) >>= f else rest) = .ok y ↔ ¬c ∧ rest = .ok y := by
  by_cases hc : c
  · rw [if_pos hc]
    constructor
    · intro h
      cases h
    · intro h
      exact absurd hc h.1
  · rw [if_neg hc]
    exact ⟨fun h => ⟨hc, h⟩, fun h => h.2⟩

theorem refuse_last_eq_ok {c : Prop} [Decidable c] {e : Failure} :
    (if c then throw e else pure () : Result Unit) = .ok () ↔ ¬c := by
  by_cases hc : c
  · rw [if_pos hc]
    constructor
    · intro h
      cases h
    · intro h
      exact absurd hc h
  · rw [if_neg hc]
    exact ⟨fun _ => hc, fun _ => rfl⟩

theorem foldlM_check_eq_ok {xs : List α} {check : α → Result Unit} :
    xs.foldlM (fun _ x => check x) () = .ok () ↔ ∀ x ∈ xs, check x = .ok () := by
  induction xs with
  | nil => simp only [List.foldlM_nil, pure_eq_ok, List.not_mem_nil, false_implies, implies_true]
  | cons x xs ih =>
    rw [List.foldlM_cons, bind_eq_ok, List.forall_mem_cons, ← ih]
    constructor
    · rintro ⟨⟨⟩, hx, hxs⟩
      exact ⟨hx, hxs⟩
    · rintro ⟨hx, hxs⟩
      exact ⟨(), hx, hxs⟩

theorem foldlM_total {xs : List α} {f : β → α → Result β}
    (step : ∀ y, ∀ x ∈ xs, ∃ z, f y x = .ok z) (y : β) : ∃ z, xs.foldlM f y = .ok z := by
  induction xs generalizing y with
  | nil => exact ⟨y, rfl⟩
  | cons x xs ih =>
    obtain ⟨next, hnext⟩ := step y x List.mem_cons_self
    rw [List.foldlM_cons, hnext]
    exact ih (fun y x hx => step y x (List.mem_cons_of_mem _ hx)) next

theorem foldlM_preserves {P : β → Prop} {f : β → α → Result β}
    (step : ∀ y x z, P y → f y x = .ok z → P z) {xs : List α} {y z : β} (hy : P y)
    (h : xs.foldlM f y = .ok z) : P z := by
  induction xs generalizing y with
  | nil =>
    cases h
    exact hy
  | cons x xs ih =>
    rw [List.foldlM_cons, bind_eq_ok] at h
    obtain ⟨next, hnext, h⟩ := h
    exact ih (step y x next hy hnext) h

/-- Whenever the computation fails, the failure is an allowed one. -/
def FailsOnly (allowed : Failure → Prop) (x : Result α) : Prop := ∀ e, x = .error e → allowed e

namespace FailsOnly

variable {allowed : Failure → Prop}

theorem ok (x : α) : FailsOnly allowed (.ok x) := nofun

theorem error {e : Failure} (h : allowed e) : FailsOnly allowed (.error e : Result α) := by
  intro e' heq
  cases heq
  exact h

theorem bind {x : Result α} {f : α → Result β} (h : FailsOnly allowed x)
    (hf : ∀ a, x = .ok a → FailsOnly allowed (f a)) : FailsOnly allowed (x >>= f) := by
  cases x with
  | ok a => exact hf a rfl
  | error e => exact error (h e rfl)

theorem refuse {c : Prop} [Decidable c] {e : Failure} {f : β → Result α} {rest : Result α}
    (h : c → allowed e) (hrest : ¬c → FailsOnly allowed rest) :
    FailsOnly allowed (if c then (throw e : Result β) >>= f else rest) := by
  split
  · next hc => exact error (h hc)
  · next hc => exact hrest hc

theorem refuse_last {c : Prop} [Decidable c] {e : Failure} (h : c → allowed e) :
    FailsOnly allowed (if c then throw e else pure () : Result Unit) := by
  split
  · next hc => exact error (h hc)
  · exact ok ()

theorem foldlM_check {xs : List α} {check : α → Result Unit}
    (h : ∀ x ∈ xs, FailsOnly allowed (check x)) :
    FailsOnly allowed (xs.foldlM (fun _ x => check x) ()) := by
  induction xs with
  | nil => exact ok ()
  | cons x xs ih =>
    rw [List.foldlM_cons]
    apply bind (h x List.mem_cons_self)
    intro _ _
    exact ih fun y hy => h y (List.mem_cons_of_mem _ hy)

end FailsOnly

/-- The computation gives a result with a property, or it fails with an allowed failure. -/
inductive Ends (P : α → Prop) (allowed : Failure → Prop) : Result α → Prop
  | ok {x : α} : P x → Ends P allowed (.ok x)
  | error {e : Failure} : allowed e → Ends P allowed (.error e)

namespace Ends

variable {P : α → Prop} {S : β → Prop} {allowed : Failure → Prop}

theorem bind {x : Result α} {f : α → Result β} (h : Ends P allowed x)
    (hf : ∀ a, P a → Ends S allowed (f a)) : Ends S allowed (x >>= f) := by
  cases h with
  | ok h => exact hf _ h
  | error h => exact .error h

theorem imp {Q : α → Prop} {permitted : Failure → Prop} {x : Result α} (h : Ends P allowed x)
    (hok : ∀ a, P a → Q a) (herror : ∀ e, allowed e → permitted e) : Ends Q permitted x := by
  cases h with
  | ok h => exact .ok (hok _ h)
  | error h => exact .error (herror _ h)

theorem of_ok {x : Result α} (h : Ends P allowed x) {a : α} (hx : x = .ok a) : P a := by
  subst hx
  cases h with
  | ok h => exact h

theorem of_error {x : Result α} (h : Ends P allowed x) {e : Failure} (hx : x = .error e) :
    allowed e := by
  subst hx
  cases h with
  | error h => exact h

end Ends

end Result

theorem Run.throw_bind {σ α β : Type} (e : Failure) (f : α → Run σ β) :
    (throw e >>= f : Run σ β) = throw e := rfl

theorem Run.state_ofResult {σ α : Type} {x : Result α} {t after : σ}
    (h : (∃ y, ofResult x t = .ok y after) ∨ ∃ e, ofResult x t = .error e after) : after = t := by
  cases x with
  | ok y =>
    rcases h with ⟨y', h⟩ | ⟨e, h⟩
    · cases h
      rfl
    · cases h
  | error e =>
    rcases h with ⟨y, h⟩ | ⟨e', h⟩
    · cases h
    · cases h
      rfl

theorem Run.lift_bind {σ α β : Type} (x : Result α) (f : α → Result β) :
    (liftM (x >>= f) : Run σ β) = liftM x >>= fun a => liftM (f a) := by
  cases x <;> rfl

theorem Run.lift_bind_eq_ok {σ α β : Type} {x : Result α} {f : α → Run σ β} {t after : σ} {y : β} :
    (liftM x >>= f : Run σ β) t = .ok y after ↔ ∃ a, x = .ok a ∧ f a t = .ok y after := by
  cases x with
  | error e =>
    constructor
    · intro h
      cases h
    · rintro ⟨a, ha, -⟩
      cases ha
  | ok a =>
    constructor
    · exact fun h => ⟨a, rfl, h⟩
    · rintro ⟨a', ha, h⟩
      cases ha
      exact h

theorem Run.get_bind {σ α : Type} (f : σ → Run σ α) (t : σ) :
    (get >>= f : Run σ α) t = f t t := rfl

theorem Size.add_eq_ok {x y z : Nat} : Size.add x y = .ok z ↔ x + y < Size.limit ∧ x + y = z := by
  unfold Size.add
  by_cases h : x + y < Size.limit
  · rw [if_pos h, Except.ok.injEq]
    exact ⟨fun hz => ⟨h, hz⟩, fun hz => hz.2⟩
  · rw [if_neg h]
    exact ⟨fun hz => (by cases hz), fun hz => absurd hz.1 h⟩

theorem Size.sub_eq_ok {x y z : Nat} : Size.sub x y = .ok z ↔ y ≤ x ∧ x - y = z := by
  unfold Size.sub
  by_cases h : y ≤ x
  · rw [if_pos h, Except.ok.injEq]
    exact ⟨fun hz => ⟨h, hz⟩, fun hz => hz.2⟩
  · rw [if_neg h]
    exact ⟨fun hz => (by cases hz), fun hz => absurd hz.1 h⟩

theorem fetch_eq_ok {α : Type} {xs : Array α} {i : Nat} {x : α} :
    fetch xs i = .ok x ↔ xs[i]? = some x := by
  unfold fetch
  cases xs[i]? with
  | none => simp only [reduceCtorEq]
  | some y => simp only [Except.ok.injEq, Option.some.injEq]

theorem store_eq_ok {α : Type} {xs ys : Array α} {i : Nat} {x : α} :
    store xs i x = .ok ys ↔ ∃ h : i < xs.size, xs.set i x = ys := by
  unfold store
  by_cases h : i < xs.size
  · rw [dif_pos h, Except.ok.injEq]
    exact ⟨fun hset => ⟨h, hset⟩, fun ⟨_, hset⟩ => hset⟩
  · rw [dif_neg h]
    exact ⟨fun hset => (by cases hset), fun ⟨hlt, _⟩ => absurd hlt h⟩

end SparseProduct
