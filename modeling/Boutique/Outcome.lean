import Mathlib.Tactic.Common
/-!
# Outcome — what a sequence of fallible steps came to

A sequence succeeds where every step does, and fails with the failure of the first step that fails.
-/
namespace Outcome

variable {ε α β : Type} {P : ε → Prop}

def Fails (P : ε → Prop) (r : Except ε α) : Prop := ∃ e, r = .error e ∧ P e

theorem fails_ok (a : α) : ¬Fails P (.ok a : Except ε α) := by
  rintro ⟨e, he, -⟩
  cases he

theorem fails_error (e : ε) : Fails P (.error e : Except ε α) ↔ P e := by
  constructor
  · rintro ⟨e', he, hP⟩
    cases he
    exact hP
  · intro hP
    exact ⟨e, rfl, hP⟩

theorem fails_bind (x : Except ε α) (f : α → Except ε β) : Fails P (x >>= f) ↔ Fails P x ∨ ∃ a, x = .ok a ∧ Fails P (f a) := by
  cases x with
  | error e =>
    have hbind : (Except.error e >>= f : Except ε β) = .error e := rfl
    simp [hbind, fails_error]
  | ok a =>
    have hbind : (Except.ok a >>= f : Except ε β) = f a := rfl
    simp [hbind, fails_ok]

theorem ok_of_bind {x : Except ε α} {f : α → Except ε β} {b : β} (h : (x >>= f) = .ok b) : ∃ a, x = .ok a ∧ f a = .ok b := by
  cases x with
  | error e => cases h
  | ok a => exact ⟨a, rfl, h⟩

end Outcome
