import Mathlib.Data.List.Infix

/-!
The longest tail of a list that fits a bound, the last element always kept.
-/

namespace Foundation.Window

open List

variable {α : Type} (fits : List α → Prop) [DecidablePred fits]

def window : List α → List α
  | e :: f :: rest => if fits (e :: f :: rest) then e :: f :: rest else window (f :: rest)
  | xs => xs

variable {fits} {xs ys : List α}

theorem window_cons_of_not_fits {e : α} (hne : xs ≠ []) (h : ¬ fits (e :: xs)) :
    window fits (e :: xs) = window fits xs := by
  cases xs with
  | nil => exact absurd rfl hne
  | cons f rest => exact if_neg h

theorem window_of_fits (h : fits xs) : window fits xs = xs := by
  cases xs with
  | nil => rfl
  | cons e rest =>
    cases rest with
    | nil => rfl
    | cons f rest => exact if_pos h

variable (fits) in
theorem window_suffix (xs : List α) : window fits xs <:+ xs := by
  induction xs with
  | nil => exact suffix_rfl
  | cons e rest ih =>
    by_cases hf : fits (e :: rest)
    · rw [window_of_fits hf]
    by_cases hne : rest = []
    · rw [hne]
      exact suffix_rfl
    · rw [window_cons_of_not_fits hne hf]
      exact ih.trans (suffix_cons e rest)

variable (fits) in
theorem fits_window (xs : List α) : fits (window fits xs) ∨ (window fits xs).length ≤ 1 := by
  induction xs with
  | nil => exact .inr (Nat.zero_le 1)
  | cons e rest ih =>
    by_cases hf : fits (e :: rest)
    · rw [window_of_fits hf]
      exact .inl hf
    by_cases hne : rest = []
    · rw [hne]
      exact .inr le_rfl
    · rw [window_cons_of_not_fits hne hf]
      exact ih

theorem suffix_window (hf : fits ys) (h : ys <:+ xs) : ys <:+ window fits xs := by
  induction xs with
  | nil => exact h
  | cons e rest ih =>
    by_cases hfits : fits (e :: rest)
    · rwa [window_of_fits hfits]
    rcases suffix_cons_iff.mp h with rfl | hrest
    · exact absurd hf hfits
    by_cases hne : rest = []
    · rw [hne] at hrest
      rw [suffix_nil.mp hrest]
      exact nil_suffix
    · rw [window_cons_of_not_fits hne hfits]
      exact ih hrest

theorem window_ne_nil (h : xs ≠ []) : window fits xs ≠ [] := by
  induction xs with
  | nil => exact absurd rfl h
  | cons e rest ih =>
    by_cases hf : fits (e :: rest)
    · rwa [window_of_fits hf]
    by_cases hne : rest = []
    · rw [hne]
      exact cons_ne_nil e []
    · rw [window_cons_of_not_fits hne hf]
      exact ih hne

structure IsLongest (fits : List α → Prop) (xs ys : List α) : Prop where
  suffix : ys <:+ xs
  holds : fits ys
  longest : ∀ zs, zs <:+ xs → fits zs → zs <:+ ys

theorem isLongest_window (h : fits (window fits xs)) : IsLongest fits xs (window fits xs) :=
  ⟨window_suffix fits xs, h, fun _ hsuf hfits => suffix_window hfits hsuf⟩

variable (fits) in
theorem singleton_suffix_window (xs : List α) (x : α) : [x] <:+ window fits (xs ++ [x]) := by
  have hne : window fits (xs ++ [x]) ≠ [] :=
    window_ne_nil (append_ne_nil_of_right_ne_nil _ (cons_ne_nil x []))
  apply suffix_of_suffix_length_le (suffix_append xs [x]) (window_suffix fits (xs ++ [x]))
  exact length_pos_of_ne_nil hne

theorem fits_window_concat {x : α} (h : fits [x]) (xs : List α) : fits (window fits (xs ++ [x])) := by
  rcases fits_window fits (xs ++ [x]) with hfits | hlen
  · exact hfits
  · rwa [← (singleton_suffix_window fits xs x).eq_of_length_le hlen]

theorem window_concat_of_not_fits (hdown : ∀ xs ys : List α, ys <:+ xs → fits xs → fits ys) {x : α}
    (h : ¬ fits [x]) (xs : List α) : window fits (xs ++ [x]) = [x] := by
  have hsuf := singleton_suffix_window fits xs x
  rcases fits_window fits (xs ++ [x]) with hfits | hlen
  · exact absurd (hdown _ _ hsuf hfits) h
  · exact (hsuf.eq_of_length_le hlen).symm

theorem window_of_suffix (hne : ys ≠ []) (hys : ys <:+ xs) (h : window fits xs <:+ ys) :
    window fits ys = window fits xs := by
  induction xs with
  | nil => exact absurd (suffix_nil.mp hys) hne
  | cons e rest ih =>
    rcases suffix_cons_iff.mp hys with rfl | hrest
    · rfl
    have hnil : rest ≠ [] := by
      intro hnil
      rw [hnil] at hrest
      exact hne (suffix_nil.mp hrest)
    have hnot : ¬ fits (e :: rest) := by
      intro hf
      rw [window_of_fits hf] at h
      have hlen := h.length_le.trans hrest.length_le
      rw [length_cons] at hlen
      omega
    rw [window_cons_of_not_fits hnil hnot] at h ⊢
    exact ih hrest h

theorem window_concat_suffix (hcl : ∀ (xs : List α) (x : α), fits (xs ++ [x]) → fits xs) (xs : List α) (x : α) :
    window fits (xs ++ [x]) <:+ window fits xs ++ [x] := by
  rcases suffix_concat_iff.mp (window_suffix fits (xs ++ [x])) with hnil | ⟨ys, hys, hsuf⟩
  · rw [hnil]
    exact nil_suffix
  rw [hys]
  refine (suffix_append_inj_of_length_eq rfl).mpr ⟨?_, rfl⟩
  have hfits := fits_window fits (xs ++ [x])
  rw [hys] at hfits
  rcases hfits with hfits | hlen
  · exact suffix_window (hcl ys x hfits) hsuf
  · rw [length_append, length_singleton] at hlen
    rw [length_eq_zero_iff.mp (Nat.le_zero.mp (Nat.le_of_succ_le_succ hlen))]
    exact nil_suffix

theorem window_concat (hcl : ∀ (xs : List α) (x : α), fits (xs ++ [x]) → fits xs) (xs : List α) (x : α) :
    window fits (window fits xs ++ [x]) = window fits (xs ++ [x]) := by
  apply window_of_suffix
  · exact append_ne_nil_of_right_ne_nil _ (cons_ne_nil x [])
  · exact (suffix_append_inj_of_length_eq rfl).mpr ⟨window_suffix fits xs, rfl⟩
  · exact window_concat_suffix hcl xs x

end Foundation.Window
