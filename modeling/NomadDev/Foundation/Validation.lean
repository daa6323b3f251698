import Mathlib.Tactic.Common

namespace Foundation.Validation

variable {ε α β : Type} {x : Except ε α} {a : α}

theorem bind_eq_ok_iff {f : α → Except ε β} {b : β} : (x >>= f) = .ok b ↔ ∃ a, x = .ok a ∧ f a = .ok b := by
  cases x with
  | error e =>
    constructor
    · nofun
    · nofun
  | ok a =>
    constructor
    · intro h
      exact ⟨a, rfl, h⟩
    · rintro ⟨_, ha, h⟩
      cases ha
      exact h

theorem guard_eq_ok_iff {p : Prop} [Decidable p] {e : ε} : (if p then .error e else x) = .ok a ↔ ¬p ∧ x = .ok a := by
  by_cases hp : p
  · rw [if_pos hp]
    constructor
    · nofun
    · exact fun h => absurd hp h.1
  · rw [if_neg hp, and_iff_right hp]

theorem mapError_eq_ok_iff {δ : Type} {f : ε → δ} : x.mapError f = .ok a ↔ x = .ok a := by
  cases x <;> simp [Except.mapError]

end Foundation.Validation
