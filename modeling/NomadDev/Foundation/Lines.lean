import Mathlib.Data.List.DropRight

namespace Foundation.Lines

open List

variable {α : Type} (blank : α → Bool)

def trim (s : List α) : List α := (s.rdropWhile blank).dropWhile blank

def nonblank (lines : List (List α)) : List (List α) := (lines.map (trim blank)).filter fun l => !l.isEmpty

theorem nonblank_append (xs ys : List (List α)) :
    nonblank blank (xs ++ ys) = nonblank blank xs ++ nonblank blank ys := by
  rw [nonblank, map_append, filter_append]
  rfl

variable {blank}

theorem trim_concat {c : α} (hc : blank c = true) (s : List α) : trim blank (s ++ [c]) = trim blank s := by
  rw [trim, rdropWhile_concat_pos _ _ _ hc]
  rfl

theorem trim_eq_self {s : List α} (hhead : ∀ c ∈ s.head?, blank c = false)
    (hlast : ∀ c ∈ s.getLast?, blank c = false) : trim blank s = s := by
  have hright : s.rdropWhile blank = s := by
    rw [rdropWhile_eq_self_iff]
    intro hne
    rw [hlast (s.getLast hne) (List.getLast?_eq_some_getLast hne)]
    exact Bool.false_ne_true
  rw [trim, hright]
  cases s with
  | nil => rfl
  | cons c s => exact dropWhile_cons_of_neg (by rw [hhead c rfl]; exact Bool.false_ne_true)

section ReadLines

variable [DecidableEq α]

def readLines (blank : α → Bool) (sep : α) (s : List α) : List (List α) := nonblank blank (s.splitOn sep)

variable {sep : α}

theorem readLines_sep (s t : List α) :
    readLines blank sep (s ++ sep :: t) = readLines blank sep s ++ readLines blank sep t := by
  rw [readLines, splitOn_append_cons_self, nonblank_append]
  rfl

theorem readLines_line {s : List α} (h : sep ∉ s) : readLines blank sep s = nonblank blank [s] := by
  have hs : (s ++ sep :: []).splitOn sep = s :: [].splitOn sep := splitOn_append_cons_self_of_not_mem h []
  rw [splitOn_append_cons_self, splitOn_nil] at hs
  rw [readLines, append_cancel_right (hs.trans (singleton_append).symm)]

theorem readLines_concat {c : α} (hc : blank c = true) (s : List α) :
    readLines blank sep (s ++ [c]) = readLines blank sep s := by
  by_cases hsep : c = sep
  · subst hsep
    rw [readLines_sep]
    exact append_nil _
  · -- The blank stands on the last line, which is what comes after any separator of `s`.
    induction hn : s.length using Nat.strong_induction_on generalizing s with
    | _ n ih =>
      by_cases hs : sep ∈ s
      · obtain ⟨a, b, rfl⟩ := append_of_mem hs
        have hb : b.length < n := by
          rw [← hn, length_append, length_cons]
          omega
        rw [append_assoc, cons_append, readLines_sep, readLines_sep, ih b.length hb b rfl]
      · have hsc : sep ∉ s ++ [c] := by simpa [hs] using Ne.symm hsep
        rw [readLines_line hsc, readLines_line hs, nonblank, map_singleton, trim_concat hc]
        rfl

theorem readLines_rdropWhile {cut : α → Bool} (hcut : ∀ c, cut c = true → blank c = true) (s : List α) :
    readLines blank sep (s.rdropWhile cut) = readLines blank sep s := by
  induction s using List.reverseRecOn with
  | nil => rfl
  | append_singleton s c ih =>
    rw [rdropWhile_concat]
    split
    next h => rw [ih, readLines_concat (hcut c h)]
    · rfl

theorem readLines_unlines {lines : List (List α)} (h : ∀ l ∈ lines, sep ∉ l) :
    readLines blank sep (lines.flatMap fun l => l ++ [sep]) = nonblank blank lines := by
  induction lines with
  | nil => rfl
  | cons l lines ih =>
    rw [forall_mem_cons] at h
    rw [flatMap_cons, append_assoc, singleton_append, readLines_sep, readLines_line h.1, ih h.2, ← nonblank_append]
    rfl

end ReadLines

section Fragments

variable [DecidableEq α] (sep : α)

def completed (s : List α) : List (List α) := (s.splitOn sep).dropLast

def fragment (s : List α) : List α := (s.splitOn sep).getLastD []

variable {sep} {s t : List α}

theorem not_mem_of_mem_splitOn (ht : t ∈ s.splitOn sep) : sep ∉ t := by
  induction s generalizing t with
  | nil =>
    rw [splitOn_nil, mem_singleton] at ht
    simp [ht]
  | cons c s ih =>
    obtain ⟨u, us, hsplit⟩ := exists_cons_of_ne_nil (splitOn_ne_nil sep s)
    rw [splitOn_cons_eq_if_modifyHead, hsplit] at ht
    rw [hsplit] at ih
    split at ht
    · rcases mem_cons.mp ht with rfl | ht
      · exact not_mem_nil
      · exact ih ht
    next hc =>
      rcases mem_cons.mp ht with rfl | ht
      · have hu : sep ∉ u := ih mem_cons_self
        simpa [hu] using Ne.symm (by simpa using hc)
      · exact ih (mem_cons_of_mem u ht)

theorem not_mem_of_mem_completed (ht : t ∈ completed sep s) : sep ∉ t :=
  not_mem_of_mem_splitOn (dropLast_subset _ ht)

theorem not_mem_fragment (s : List α) : sep ∉ fragment sep s := by
  rw [fragment, getLastD_eq_getLast?, List.getLast?_eq_some_getLast (splitOn_ne_nil sep s)]
  exact not_mem_of_mem_splitOn (getLast_mem _)

theorem fragment_of_not_mem (h : sep ∉ s) : fragment sep s = s := by
  rw [fragment, splitOn_eq_singleton h]
  rfl

theorem completed_eq_nil_iff : completed sep s = [] ↔ sep ∉ s := by
  constructor
  · intro h hmem
    obtain ⟨a, b, rfl⟩ := append_of_mem hmem
    rw [completed, splitOn_append_cons_self, dropLast_append_of_ne_nil (splitOn_ne_nil sep b)] at h
    exact splitOn_ne_nil sep a (append_eq_nil_iff.mp h).1
  · intro h
    rw [completed, splitOn_eq_singleton h]
    rfl

theorem completed_append_fragment (s : List α) : completed sep s ++ [fragment sep s] = s.splitOn sep := by
  have hne := splitOn_ne_nil sep s
  rw [completed, fragment, getLastD_eq_getLast?, List.getLast?_eq_some_getLast hne]
  exact dropLast_concat_getLast hne

theorem completed_cons (c : α) (s : List α) : completed sep (c :: s) =
      if c = sep then [] :: completed sep s else (completed sep s).modifyHead (c :: ·) := by
  obtain ⟨u, us, hsplit⟩ := exists_cons_of_ne_nil (splitOn_ne_nil sep s)
  rw [completed, completed, splitOn_cons_eq_if_modifyHead, hsplit]
  by_cases hc : c = sep
  · simp [hc]
  · cases us with
    | nil => simp [hc]
    | cons v vs => simp [hc]

theorem length_completed (s : List α) : (completed sep s).length = s.count sep := by
  induction s with
  | nil => rfl
  | cons c s ih =>
    rw [completed_cons]
    by_cases hc : c = sep
    · subst hc
      rw [if_pos rfl, length_cons, ih, count_cons_self]
    · rw [if_neg hc, length_modifyHead, ih, count_cons_of_ne hc]

theorem fragment_cons (c : α) (s : List α) :
    fragment sep (c :: s) = if c = sep ∨ completed sep s ≠ [] then fragment sep s else c :: fragment sep s := by
  obtain ⟨u, us, hsplit⟩ := exists_cons_of_ne_nil (splitOn_ne_nil sep s)
  rw [fragment, fragment, completed, splitOn_cons_eq_if_modifyHead, hsplit]
  by_cases hc : c = sep
  · simp [hc]
  · cases us with
    | nil => simp [hc]
    | cons v vs => simp [hc]

theorem splitOn_append (s t : List α) :
    (s ++ t).splitOn sep = completed sep s ++ (t.splitOn sep).modifyHead (fragment sep s ++ ·) := by
  induction s with
  | nil =>
    obtain ⟨u, us, hsplit⟩ := exists_cons_of_ne_nil (splitOn_ne_nil sep t)
    rw [nil_append, hsplit]
    rfl
  | cons c s ih =>
    rw [cons_append, splitOn_cons_eq_if_modifyHead, ih, completed_cons, fragment_cons]
    by_cases hc : c = sep
    · simp [hc]
    · cases hcompleted : completed sep s with
      | nil => simp [hc, Function.comp_def]
      | cons v vs => simp [hc]

theorem splitOn_append_fragment (s t : List α) :
    (s ++ t).splitOn sep = completed sep s ++ (fragment sep s ++ t).splitOn sep := by
  have hfragment : sep ∉ fragment sep s := not_mem_fragment s
  rw [splitOn_append s t, splitOn_append (fragment sep s) t, completed_eq_nil_iff.mpr hfragment,
    fragment_of_not_mem hfragment, nil_append]

theorem completed_append (s t : List α) :
    completed sep (s ++ t) = completed sep s ++ completed sep (fragment sep s ++ t) := by
  rw [completed, splitOn_append_fragment, dropLast_append_of_ne_nil (splitOn_ne_nil sep _)]
  rfl

theorem fragment_append (s t : List α) : fragment sep (s ++ t) = fragment sep (fragment sep s ++ t) := by
  rw [fragment, splitOn_append_fragment, getLastD_eq_getLast?,
    List.getLast?_append_of_ne_nil _ (splitOn_ne_nil sep _), ← getLastD_eq_getLast?]
  rfl

theorem exists_line_of_fragment (sep : α) (s t : List α) : ∃ u, fragment sep s ++ u ∈ (s ++ t).splitOn sep := by
  obtain ⟨u, us, hsplit⟩ := exists_cons_of_ne_nil (splitOn_ne_nil sep t)
  refine ⟨u, ?_⟩
  rw [splitOn_append, hsplit]
  exact mem_append_right _ mem_cons_self

theorem completed_line {l : List α} (hl : sep ∉ l) (r : List α) :
    completed sep (l ++ sep :: r) = l :: completed sep r := by
  rw [completed, splitOn_append_cons_self_of_not_mem hl, dropLast_cons_of_ne_nil (splitOn_ne_nil sep r)]
  rfl

theorem completed_append_of_not_mem {x : List α} (hx : sep ∉ x) (r : List α) :
    completed sep (x ++ r) = (completed sep r).modifyHead (x ++ ·) := by
  obtain ⟨u, us, hsplit⟩ := exists_cons_of_ne_nil (splitOn_ne_nil sep r)
  rw [completed, completed, splitOn_append, completed_eq_nil_iff.mpr hx, fragment_of_not_mem hx, hsplit]
  cases us with
  | nil => rfl
  | cons v vs => rfl

theorem flatMap_completed (s : List α) : (completed sep s).flatMap (· ++ [sep]) ++ fragment sep s = s := by
  induction s with
  | nil => rfl
  | cons c s ih =>
    rw [completed_cons, fragment_cons]
    by_cases hc : c = sep
    · simpa [hc] using ih
    · cases hcompleted : completed sep s <;> simpa [hc, hcompleted] using ih

section Middle

variable (p s r : List α)

theorem take_splitOn_append : ((p ++ s).splitOn sep).take (p.count sep) = completed sep p := by
  rw [splitOn_append]
  exact take_left' (length_completed p)

theorem drop_splitOn_append : ((p ++ s).splitOn sep).drop (p.count sep + 1) = (s.splitOn sep).tail := by
  obtain ⟨u, us, hsplit⟩ := exists_cons_of_ne_nil (splitOn_ne_nil sep s)
  rw [splitOn_append, ← drop_drop, drop_left' (length_completed p), hsplit]
  rfl

theorem length_splitOn (s : List α) : (s.splitOn sep).length = s.count sep + 1 := by
  rw [← completed_append_fragment, length_append, length_completed]
  rfl

def touched (sep : α) (p s r : List α) : List (List α) :=
  (((p ++ s ++ r).splitOn sep).drop (p.count sep)).take ((p ++ s).count sep + 1 - p.count sep)

theorem length_touched : (touched sep p s r).length = s.count sep + 1 := by
  simp only [touched, length_take, length_drop, length_splitOn, count_append]
  omega

theorem splitOn_eq_touched :
    (p ++ s ++ r).splitOn sep = completed sep p ++ touched sep p s r ++ (r.splitOn sep).tail := by
  have hle : p.count sep ≤ (p ++ s).count sep + 1 := by
    rw [count_append]
    omega
  have htake : ((p ++ s ++ r).splitOn sep).take (p.count sep) = completed sep p := by
    rw [append_assoc]
    exact take_splitOn_append p (s ++ r)
  have hdrop : (((p ++ s ++ r).splitOn sep).drop (p.count sep)).drop ((p ++ s).count sep + 1 - p.count sep) =
      (r.splitOn sep).tail := by
    rw [drop_drop, Nat.add_sub_cancel' hle]
    exact drop_splitOn_append (p ++ s) r
  rw [← htake, ← hdrop, touched, append_assoc (List.take _ _), take_append_drop, take_append_drop]

end Middle

end Fragments

end Foundation.Lines
