import Mathlib.Data.List.Forall2
import SparseProduct.Accumulator

/-!
# Computations in lockstep

Two computations over different data can do the same thing step by step. They are related if both fail
with the same failure, or both give results that are related. Sequences and folds of related steps are
related.
-/

namespace SparseProduct

/-- Both fail in the same way, or both succeed with related results. -/
inductive Result.Related {α β : Type} (R : α → β → Prop) : Result α → Result β → Prop
  | ok {x : α} {y : β} : R x y → Related R (.ok x) (.ok y)
  | error (e : Failure) : Related R (.error e) (.error e)

namespace Result.Related

variable {α β γ δ ε ζ : Type} {R : α → β → Prop} {S : γ → δ → Prop}

theorem bind {x : Result α} {y : Result β} (h : Related R x y) {f : α → Result γ} {g : β → Result δ}
    (hfg : ∀ x y, R x y → Related S (f x) (g y)) : Related S (x >>= f) (y >>= g) := by
  cases h with
  | ok h => exact hfg _ _ h
  | error e => exact .error e

theorem foldlM {Q : ε → ζ → Prop} {f : α → ε → Result α} {g : β → ζ → Result β}
    (step : ∀ x y, R x y → ∀ a b, Q a b → Related R (f x a) (g y b)) {xs : List ε} {ys : List ζ}
    (hxs : List.Forall₂ Q xs ys) {x : α} {y : β} (h : R x y) :
    Related R (xs.foldlM f x) (ys.foldlM g y) := by
  induction hxs generalizing x y with
  | nil => exact .ok h
  | cons hab _ ih =>
    rw [List.foldlM_cons, List.foldlM_cons]
    exact (step x y h _ _ hab).bind fun _ _ h => ih h

theorem foldlM_same {f : α → ε → Result α} {g : β → ε → Result β}
    (step : ∀ x y, R x y → ∀ a, Related R (f x a) (g y a)) (xs : List ε) {x : α} {y : β} (h : R x y) :
    Related R (xs.foldlM f x) (xs.foldlM g y) := by
  refine foldlM (Q := Eq) ?_ (List.forall₂_refl xs) h
  intro x y h a b hab
  rw [← hab]
  exact step x y h a

theorem exists_ok {x : Result α} {y : Result β} (h : Related R x y) {b : β} (hy : y = .ok b) :
    ∃ a, x = .ok a ∧ R a b := by
  subst hy
  cases h with
  | ok h => exact ⟨_, rfl, h⟩

theorem eq_error {x : Result α} {y : Result β} (h : Related R x y) {e : Failure} (hy : y = .error e) :
    x = .error e := by
  subst hy
  cases h with
  | error e => rfl

theorem eq_iff {x y : Result α} : Related Eq x y ↔ x = y := by
  constructor
  · intro h
    cases h with
    | ok h => exact congrArg _ h
    | error e => rfl
  · rintro rfl
    cases x with
    | ok x => exact .ok rfl
    | error e => exact .error e

end Result.Related

/-- A run over buffers follows a pure computation: it fails in the same way, or ends in a state that
belongs to the result. -/
inductive Run.Follows {α σ : Type} (R : α → σ → Prop) : Result α → EStateM.Result Failure σ Unit → Prop
  | ok {x : α} {t : σ} : R x t → Follows R (.ok x) (.ok () t)
  | error (e : Failure) (t : σ) : Follows R (.error e) (.error e t)

namespace Run.Follows

variable {α β σ : Type} {R : α → σ → Prop} {S : β → σ → Prop}

theorem bind {x : Result α} {run next : Run σ Unit} {t : σ} (h : Follows R x (run t))
    {f : α → Result β} (hnext : ∀ x t, R x t → Follows S (f x) (next t)) :
    Follows S (x >>= f) ((run >>= fun _ => next) t) := by
  generalize hrun : run t = outcome at h
  cases h with
  | ok h =>
    rw [bind_of_ok hrun]
    exact hnext _ _ h
  | error e t' =>
    rw [bind_of_error hrun]
    exact .error e t'

theorem exists_ok {x : Result α} {outcome : EStateM.Result Failure σ Unit} (h : Follows R x outcome)
    {a : α} (hx : x = .ok a) : ∃ t, outcome = .ok () t ∧ R a t := by
  subst hx
  cases h with
  | ok h => exact ⟨_, rfl, h⟩

theorem exists_error {x : Result α} {outcome : EStateM.Result Failure σ Unit} (h : Follows R x outcome)
    {e : Failure} (hx : x = .error e) : ∃ t, outcome = .error e t := by
  subst hx
  cases h with
  | error e t => exact ⟨t, rfl⟩

end Run.Follows

/-- Two runs over different buffers end in the same way, and their buffers are related when they do. -/
inductive Run.Agree {α σ τ : Type} (R : σ → τ → Prop) :
    EStateM.Result Failure σ α → EStateM.Result Failure τ α → Prop
  | ok (x : α) {t : σ} {u : τ} : R t u → Agree R (.ok x t) (.ok x u)
  | error (e : Failure) {t : σ} {u : τ} : R t u → Agree R (.error e t) (.error e u)

theorem Run.Agree.ofResult {α σ τ : Type} {R : σ → τ → Prop} {t : σ} {u : τ} (h : R t u)
    (x : Result α) : Agree R (Run.ofResult x t) (Run.ofResult x u) := by
  cases x with
  | ok x => exact .ok x h
  | error e => exact .error e h

theorem Run.Agree.exists_ok {α σ τ : Type} {R : σ → τ → Prop} {x : EStateM.Result Failure σ α} {a : α}
    {u : τ} (h : Agree R x (.ok a u)) : ∃ t, x = .ok a t ∧ R t u := by
  cases h with
  | ok _ h => exact ⟨_, rfl, h⟩

theorem Run.Agree.imp {α σ τ : Type} {R S : σ → τ → Prop} (hRS : ∀ t u, R t u → S t u)
    {x : EStateM.Result Failure σ α} {y : EStateM.Result Failure τ α} (h : Agree R x y) :
    Agree S x y := by
  cases h with
  | ok x h => exact .ok x (hRS _ _ h)
  | error e h => exact .error e (hRS _ _ h)

end SparseProduct
