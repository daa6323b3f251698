import Mathlib.Data.List.Forall2
import Mathlib.Data.List.Infix
import Mathlib.Data.List.TakeWhile

namespace Foundation.Pattern

open List

variable {α : Type}

inductive Piece (α : Type)
  | one (cls : α → Bool)
  | star (cls : α → Bool)

def Piece.accepts : Piece α → α → Bool
  | .one cls => cls
  | .star cls => cls

def Matches : List (Piece α) → List α → Prop
  | [], m => m = []
  | .one cls :: p, m => ∃ c s, m = c :: s ∧ cls c = true ∧ Matches p s
  | .star cls :: p, m => ∃ r s, m = r ++ s ∧ (∀ c ∈ r, cls c = true) ∧ Matches p s

def Begins (p : List (Piece α)) (s : List α) : Prop := ∃ m rest, s = m ++ rest ∧ Matches p m

def Occurs (p : List (Piece α)) (s : List α) : Prop := ∃ t, t <:+ s ∧ Begins p t

def begins : List (Piece α) → List α → Bool
  | [], _ => true
  | .one cls :: p, s => s.head?.any cls && begins p s.tail
  | .star cls :: p, s => (List.range ((s.takeWhile cls).length + 1)).any fun n => begins p (s.drop n)

def search (p : List (Piece α)) (s : List α) : Bool := s.tails.any (begins p)

variable {p : List (Piece α)} {s t a b : List α} {c : α}

theorem begins_iff : begins p s = true ↔ Begins p s := by
  induction p generalizing s with
  | nil => exact ⟨fun _ => ⟨[], s, rfl, rfl⟩, fun _ => rfl⟩
  | cons piece p ih =>
    cases piece with
    | one cls =>
      rw [begins, Bool.and_eq_true, ih]
      constructor
      · rintro ⟨hc, m, rest, htail, hm⟩
        cases s with
        | nil => cases hc
        | cons c s => exact ⟨c :: m, rest, congrArg (c :: ·) htail, c, m, rfl, hc, hm⟩
      · rintro ⟨m, rest, rfl, c, m, rfl, hc, hm⟩
        exact ⟨hc, m, rest, rfl, hm⟩
    | star cls =>
      rw [begins, any_eq_true]
      constructor
      · rintro ⟨n, hn, hbegins⟩
        obtain ⟨m, rest, hdrop, hm⟩ := ih.mp hbegins
        refine ⟨s.take n ++ m, rest, ?_, s.take n, m, rfl, fun c hc => ?_, hm⟩
        · rw [append_assoc, ← hdrop, take_append_drop]
        · have htake : s.take n <+: s.takeWhile cls :=
            prefix_of_prefix_length_le (List.take_prefix n s) (List.takeWhile_prefix cls)
              (Nat.le_trans (length_take_le n s) (Nat.lt_succ_iff.mp (mem_range.mp hn)))
          exact mem_takeWhile_imp (htake.subset hc)
      · rintro ⟨m, rest, rfl, r, m, rfl, hr, hm⟩
        refine ⟨r.length, mem_range.mpr ?_, ih.mpr ⟨m, rest, ?_, hm⟩⟩
        · rw [append_assoc, takeWhile_append_of_pos hr, length_append]
          omega
        · rw [append_assoc, drop_left]

theorem search_iff : search p s = true ↔ Occurs p s := by
  simp only [search, any_eq_true, mem_tails, begins_iff, Occurs]

theorem Occurs.mono (h : Occurs p s) (hs : s <:+: t) : Occurs p t := by
  obtain ⟨u, hu, m, rest, rfl, hm⟩ := h
  obtain ⟨x, y, rfl⟩ := hs
  obtain ⟨z, rfl⟩ := hu
  exact ⟨m ++ rest ++ y, ⟨x ++ z, by simp⟩, m, rest ++ y, by simp, hm⟩

theorem occurs_cons : Occurs p (c :: s) ↔ Begins p (c :: s) ∨ Occurs p s := by
  constructor
  · rintro ⟨t, ht, hbegins⟩
    rcases suffix_cons_iff.mp ht with rfl | ht
    · exact Or.inl hbegins
    · exact Or.inr ⟨t, ht, hbegins⟩
  · rintro (h | h)
    · exact ⟨c :: s, suffix_refl _, h⟩
    · exact h.mono (suffix_cons c s).isInfix

def Avoids (p : List (Piece α)) (c : α) : Prop := ∀ piece ∈ p, piece.accepts c = false

theorem Matches.not_mem {m : List α} (h : Matches p m) (hc : Avoids p c) : c ∉ m := by
  induction p generalizing m with
  | nil => simp [show m = [] from h]
  | cons piece p ih =>
    have hrest : Avoids p c := fun q hq => hc q (mem_cons_of_mem _ hq)
    have hpiece := hc piece mem_cons_self
    cases piece with
    | one cls =>
      obtain ⟨d, s, rfl, hd, hs⟩ := h
      rw [mem_cons, not_or]
      refine ⟨?_, ih hs hrest⟩
      rintro rfl
      exact Bool.false_ne_true (hpiece.symm.trans hd)
    | star cls =>
      obtain ⟨r, s, rfl, hr, hs⟩ := h
      rw [mem_append, not_or]
      exact ⟨fun hmem => Bool.false_ne_true (hpiece.symm.trans (hr c hmem)), ih hs hrest⟩

theorem Begins.before (h : Begins p (a ++ c :: b)) (hc : Avoids p c) : Begins p a := by
  obtain ⟨m, rest, heq, hm⟩ := h
  rcases append_eq_append_iff.mp heq with ⟨u, rfl, hu⟩ | ⟨u, rfl, hu⟩
  · cases u with
    | nil => exact ⟨a, [], a.append_nil.symm, by rwa [append_nil] at hm⟩
    | cons d u =>
      obtain ⟨rfl, -⟩ := List.cons.inj hu
      exact absurd (mem_append_right a mem_cons_self) (hm.not_mem hc)
  · exact ⟨m, u, rfl, hm⟩

theorem Begins.of_nil (h : Begins p []) (s : List α) : Begins p s := by
  obtain ⟨m, rest, heq, hm⟩ := h
  obtain ⟨rfl, -⟩ := append_eq_nil_iff.mp heq.symm
  exact ⟨[], s, rfl, hm⟩

theorem occurs_append_cons (hc : Avoids p c) : Occurs p (a ++ c :: b) ↔ Occurs p a ∨ Occurs p b := by
  constructor
  · intro h
    induction a with
    | nil =>
      rcases occurs_cons.mp h with h | h
      · exact Or.inl ⟨[], suffix_refl _, Begins.before h hc⟩
      · exact Or.inr h
    | cons d a ih =>
      rcases occurs_cons.mp h with h | h
      · exact Or.inl ⟨d :: a, suffix_refl _, Begins.before h hc⟩
      · exact (ih h).imp_left fun h => h.mono (suffix_cons d a).isInfix
  · rintro (h | h)
    · exact h.mono (prefix_append a _).isInfix
    · exact h.mono ((suffix_cons c b).trans (suffix_append a _)).isInfix

theorem occurs_intercalate (hc : Avoids p c) (x : List α) (l : List (List α)) :
    Occurs p ([c].intercalate (x :: l)) ↔ ∃ t ∈ x :: l, Occurs p t := by
  induction l generalizing x with
  | nil => simp [List.intercalate]
  | cons y l ih =>
    rw [intercalate_cons_cons, append_assoc, singleton_append, occurs_append_cons hc, ih]
    simp

section Replace

variable (hc : Avoids p c)

include hc

theorem Begins.replace (h : Begins p s) (hst : List.Forall₂ (fun x y => x = y ∨ x = c) s t) : Begins p t := by
  obtain ⟨m, rest, rfl, hm⟩ := h
  obtain ⟨rest', rfl⟩ : ∃ rest', t = m ++ rest' := by
    have hmem := hm.not_mem hc
    clear hm
    induction m generalizing t with
    | nil => exact ⟨t, rfl⟩
    | cons x m ih =>
      obtain ⟨hx, hm⟩ := not_or.mp (mem_cons.not.mp hmem)
      obtain ⟨y, t, hxy, hrest, rfl⟩ := forall₂_cons_left_iff.mp hst
      obtain ⟨rest', rfl⟩ := ih hrest hm
      exact ⟨rest', by rw [hxy.resolve_right (Ne.symm hx), cons_append]⟩
  exact ⟨m, rest', rfl, hm⟩

theorem Occurs.replace (h : Occurs p s) (hst : List.Forall₂ (fun x y => x = y ∨ x = c) s t) : Occurs p t := by
  induction hst with
  | nil => exact h
  | cons hxy hst ih =>
    rcases occurs_cons.mp h with h | h
    · exact occurs_cons.mpr (Or.inl (h.replace hc (.cons hxy hst)))
    · exact occurs_cons.mpr (Or.inr (ih h))

end Replace

end Foundation.Pattern
