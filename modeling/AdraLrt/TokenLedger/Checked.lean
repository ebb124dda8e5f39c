import Mathlib.Logic.Basic
import Mathlib.Tactic.TypeStar

/-!
# Checked computations

Programs that fail with an error are written in `Except`. This module gives the guard `require`, the
checked additions and subtractions on 64-bit amounts, and one inversion lemma for each of them and
for a sequence of two computations: a sequence succeeds exactly when its parts do
(`bind_eq_ok_iff`). Every later success lemma is obtained by rewriting with these. For failures
there is a rule for each as well, about the errors that are possible at all (`FailsWithin`).
-/

set_option autoImplicit false

namespace Checked

variable {ε α β : Type}

/-- Largest value of an unsigned 64-bit amount. -/
def u64Max : Nat := 18446744073709551615

/-- Fail with `e` unless `p` holds. -/
def require (p : Prop) [Decidable p] (e : ε) : Except ε Unit :=
  if p then .ok () else .error e

/-- 64-bit addition, failing with `e` on overflow. -/
def addU64 (e : ε) (a b : Nat) : Except ε Nat :=
  if a + b ≤ u64Max then .ok (a + b) else .error e

/-- Subtraction of amounts, failing with `e` below zero. -/
def subU64 (e : ε) (a b : Nat) : Except ε Nat :=
  if b ≤ a then .ok (a - b) else .error e

/-- The value of an option, or the error `e`. -/
def orError (e : ε) : Option α → Except ε α
  | some a => .ok a
  | none => .error e

/-- Change the error of a failed computation. -/
def mapError {ε' : Type} (f : ε → ε') : Except ε α → Except ε' α
  | .ok a => .ok a
  | .error e => .error (f e)

/-- A sequence succeeds exactly when the first part does and then the second. -/
@[simp] theorem bind_eq_ok_iff (x : Except ε α) (f : α → Except ε β) (b : β) :
    (x >>= f) = .ok b ↔ ∃ a, x = .ok a ∧ f a = .ok b := by
  cases x with
  | error e => simp [bind, Except.bind]
  | ok a => simp [bind, Except.bind]

@[simp] theorem map_eq_ok_iff (x : Except ε α) (f : α → β) (b : β) :
    (f <$> x) = .ok b ↔ ∃ a, x = .ok a ∧ f a = b := by
  cases x with
  | error e => simp [Functor.map, Except.map]
  | ok a => simp [Functor.map, Except.map]

@[simp] theorem pure_eq_ok_iff (a b : α) : (pure a : Except ε α) = .ok b ↔ a = b := by
  simp [pure, Except.pure]

@[simp] theorem require_eq_ok_iff (p : Prop) [Decidable p] (e : ε) (u : Unit) :
    require p e = .ok u ↔ p := by
  unfold require
  split <;> simp_all

@[simp] theorem addU64_eq_ok_iff (e : ε) (a b c : Nat) :
    addU64 e a b = .ok c ↔ a + b ≤ u64Max ∧ a + b = c := by
  unfold addU64
  split
  · simp_all
  · constructor
    · simp
    · rintro ⟨hle, -⟩
      contradiction

@[simp] theorem subU64_eq_ok_iff (e : ε) (a b c : Nat) :
    subU64 e a b = .ok c ↔ b ≤ a ∧ a - b = c := by
  unfold subU64
  split
  · simp_all
  · constructor
    · simp
    · rintro ⟨hle, -⟩
      contradiction

@[simp] theorem orError_eq_ok_iff (e : ε) (x : Option α) (a : α) :
    orError e x = .ok a ↔ x = some a := by
  cases x <;> simp [orError]

@[simp] theorem mapError_eq_ok_iff {ε' : Type} (f : ε → ε') (x : Except ε α) (a : α) :
    mapError f x = .ok a ↔ x = .ok a := by
  cases x <;> simp [mapError]

/-! ## Possible errors -/

/-- A sequence fails in its first part, or in the second on the result of the first. -/
theorem bind_eq_error_iff (x : Except ε α) (f : α → Except ε β) (e : ε) :
    (x >>= f) = .error e ↔ x = .error e ∨ ∃ a, x = .ok a ∧ f a = .error e := by
  cases x with
  | error e' => simp [bind, Except.bind]
  | ok a => simp [bind, Except.bind]

theorem require_eq_error_iff (p : Prop) [Decidable p] (e e' : ε) :
    require p e = .error e' ↔ ¬p ∧ e = e' := by
  unfold require
  by_cases hp : p
  · simp [hp]
  · simp [hp]

/-- Every error of the computation is in `P`. -/
def FailsWithin (P : ε → Prop) (x : Except ε α) : Prop :=
  ∀ e, x = .error e → P e

section FailsWithin

variable {P : ε → Prop}

@[simp] theorem failsWithin_error_iff (e : ε) : FailsWithin P (.error e : Except ε α) ↔ P e := by
  simp [FailsWithin]

@[simp] theorem failsWithin_bind_iff (x : Except ε α) (f : α → Except ε β) :
    FailsWithin P (x >>= f) ↔ FailsWithin P x ∧ ∀ a, x = .ok a → FailsWithin P (f a) := by
  cases x with
  | error e => simp [FailsWithin, bind, Except.bind]
  | ok a => simp [FailsWithin, bind, Except.bind]

@[simp] theorem failsWithin_map_iff (x : Except ε α) (f : α → β) :
    FailsWithin P (f <$> x) ↔ FailsWithin P x := by
  cases x with
  | error e => simp [FailsWithin, Functor.map, Except.map]
  | ok a => simp [FailsWithin, Functor.map, Except.map]

@[simp] theorem failsWithin_pure (a : α) : FailsWithin P (pure a : Except ε α) := by
  simp [FailsWithin, pure, Except.pure]

@[simp] theorem failsWithin_require_iff (p : Prop) [Decidable p] (e : ε) :
    FailsWithin P (require p e) ↔ (¬p → P e) := by
  unfold FailsWithin require
  by_cases hp : p
  · simp [hp]
  · simp [hp]

@[simp] theorem failsWithin_orError_iff (e : ε) (x : Option α) :
    FailsWithin P (orError e x) ↔ (x = none → P e) := by
  cases x with
  | none => simp [FailsWithin, orError]
  | some a => simp [FailsWithin, orError]

/-- Errors that are all renamed to one of `P`. -/
theorem failsWithin_mapError {ε' : Type} {f : ε' → ε} (h : ∀ e, P (f e)) (x : Except ε' α) :
    FailsWithin P (mapError f x) := by
  cases x with
  | error e =>
      intro e' he'
      obtain rfl : f e = e' := by simpa [mapError] using he'
      exact h e
  | ok a => simp [FailsWithin, mapError]

end FailsWithin

/-- A computation whose result passes a test has a result. -/
theorem exists_eq_ok {x : Except ε α} {test : α → Bool} (h : x.toOption.any test = true) :
    ∃ a, x = .ok a ∧ test a = true := by
  cases x with
  | error e => cases h
  | ok a => exact ⟨a, rfl, h⟩

end Checked
