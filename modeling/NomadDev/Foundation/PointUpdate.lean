import Mathlib.Logic.Function.Basic

namespace Foundation.PointUpdate

open Function

variable {α β : Type} [DecidableEq α] {f : α → β} {a b : α} {v : β}

theorem update_cases (P : β → Prop) (h : P (update f a v b)) : b = a ∧ P v ∨ b ≠ a ∧ P (f b) := by
  by_cases hb : b = a
  · subst hb
    rw [update_self] at h
    exact .inl ⟨rfl, h⟩
  · rw [update_of_ne hb] at h
    exact .inr ⟨hb, h⟩

theorem update_of_forall {P : α → β → Prop} (hv : P a v) (hf : ∀ b, b ≠ a → P b (f b)) (b : α) :
    P b (update f a v b) := by
  by_cases hb : b = a
  · subst hb
    rw [update_self]
    exact hv
  · rw [update_of_ne hb]
    exact hf b hb

theorem of_update_some {f : α → Option β} {w : β} (h : update f a (some w) b = some v) :
    b = a ∧ v = w ∨ b ≠ a ∧ f b = some v := by
  rcases update_cases (· = some v) h with ⟨hb, hv⟩ | hold
  · exact .inl ⟨hb, (Option.some.inj hv).symm⟩
  · exact .inr hold

theorem of_update_none {f : α → Option β} (h : update f a none b = some v) : b ≠ a ∧ f b = some v := by
  rcases update_cases (· = some v) h with ⟨-, hv⟩ | hold
  · cases hv
  · exact hold

end Foundation.PointUpdate
