import Mathlib.Data.List.DropRight

namespace Foundation.Streaks

open List

variable {α : Type*} {p : α → Bool} {n : ℕ} {l : List α}

def streak (p : α → Bool) (l : List α) : ℕ := (l.rtakeWhile p).length

@[simp]
theorem streak_nil (p : α → Bool) : streak p [] = 0 := by
  rw [streak, rtakeWhile_nil, length_nil]

theorem streak_concat (p : α → Bool) (l : List α) (x : α) :
    streak p (l ++ [x]) = if p x then streak p l + 1 else 0 := by
  unfold streak
  rw [rtakeWhile_concat]
  split
  · exact length_append
  · rfl

theorem foldl_counter (p : α → Bool) (l : List α) : l.foldl (fun n x => if p x then n + 1 else 0) 0 = streak p l := by
  induction l using List.reverseRecOn with
  | nil => exact (streak_nil p).symm
  | append_singleton l x ih => rw [foldl_append, ih, streak_concat]; rfl

theorem le_streak_iff : n ≤ streak p l ↔ List.replicate n true <:+ l.map p := by
  induction l using List.reverseRecOn generalizing n with
  | nil => simp [replicate_eq_nil_iff]
  | append_singleton l x ih =>
    cases n with
    | zero => simp
    | succ n =>
      have hlast : [true].length = [p x].length := rfl
      rw [streak_concat, replicate_succ', map_append, map_singleton, suffix_append_inj_of_length_eq hlast, ← ih]
      by_cases hx : p x <;> simp [hx]

theorem replicate_infix_iff : List.replicate n true <:+: l.map p ↔ ∃ xs ys, l = xs ++ ys ∧ n ≤ streak p xs := by
  constructor
  · rintro ⟨before, after, hsplit⟩
    obtain ⟨xs, ys, rfl, hxs, -⟩ := map_eq_append_iff.mp hsplit.symm
    exact ⟨xs, ys, rfl, le_streak_iff.mpr ⟨before, hxs.symm⟩⟩
  · rintro ⟨xs, ys, rfl, hn⟩
    rw [map_append]
    exact (le_streak_iff.mp hn).isInfix.trans (prefix_append _ _).isInfix

end Foundation.Streaks
