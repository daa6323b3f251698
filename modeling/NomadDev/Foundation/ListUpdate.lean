import Mathlib.Data.List.Forall2
import Mathlib.Data.List.Lookmap

namespace Foundation.ListUpdate

open List

variable {α β κ : Type}

def updateFirst (p : α → Bool) (f : α → α) (l : List α) : List α := l.lookmap fun a => if p a then some (f a) else none

def updateAll (p : α → Bool) (f : α → α) (l : List α) : List α := l.map fun a => if p a then f a else a

variable {p : α → Bool} {f : α → α} {a : α} {l : List α} {P : α → Prop} {R : α → β → Prop} {m : List β} {g : α → List β}
  {x : β}

theorem updateFirst_cons_pos (l : List α) (h : p a = true) : updateFirst p f (a :: l) = f a :: l :=
  lookmap_cons_some _ l (if_pos h)

theorem updateFirst_cons_neg (l : List α) (h : ¬p a = true) : updateFirst p f (a :: l) = a :: updateFirst p f l :=
  lookmap_cons_none _ l (if_neg h)

theorem updateAll_cons (a : α) (l : List α) :
    updateAll p f (a :: l) = (if p a then f a else a) :: updateAll p f l := rfl

theorem updateAll_eq_self_iff : updateAll p f l = l ↔ ∀ a ∈ l, p a = true → f a = a := by
  induction l with
  | nil => simp [updateAll]
  | cons a l ih =>
    rw [updateAll_cons, List.cons.injEq, ih, forall_mem_cons]
    exact and_congr_left' ite_eq_right_iff

theorem updateAll_of_forall_not (h : ∀ a ∈ l, ¬p a = true) : updateAll p f l = l :=
  updateAll_eq_self_iff.mpr fun a ha hp => absurd hp (h a ha)

theorem updateFirst_eq_self_iff : updateFirst p f l = l ↔ ∀ a, l.find? p = some a → f a = a := by
  induction l with
  | nil => simp [updateFirst]
  | cons a l ih =>
    by_cases ha : p a = true
    · rw [updateFirst_cons_pos l ha, List.find?_cons_of_pos ha, List.cons.injEq]
      simp
    · rw [updateFirst_cons_neg l ha, List.find?_cons_of_neg ha, List.cons.injEq, ih]
      simp

theorem forall_mem_updateFirst (h : ∀ a ∈ l, P a) (hf : ∀ a, P a → P (f a)) : ∀ a ∈ updateFirst p f l, P a := by
  induction l with
  | nil => exact h
  | cons a l ih =>
    obtain ⟨ha, hl⟩ := forall_mem_cons.mp h
    by_cases hp : p a = true
    · rw [updateFirst_cons_pos l hp]
      exact forall_mem_cons.mpr ⟨hf a ha, hl⟩
    · rw [updateFirst_cons_neg l hp]
      exact forall_mem_cons.mpr ⟨ha, ih hl⟩

theorem forall_mem_updateAll (h : ∀ a ∈ l, P a) (hf : ∀ a, P a → P (f a)) : ∀ a ∈ updateAll p f l, P a := by
  intro b hb
  obtain ⟨a, ha, rfl⟩ := mem_map.mp hb
  split
  · exact hf a (h a ha)
  · exact h a ha

theorem map_updateFirst (g : α → β) (h : ∀ a, g (f a) = g a) (l : List α) : (updateFirst p f l).map g = l.map g := by
  apply lookmap_map_eq
  intro a b hb
  obtain ⟨-, hb⟩ := Option.ite_none_right_eq_some.mp hb
  cases hb
  exact (h a).symm

def AtMostOne (p : α → Bool) (l : List α) : Prop := l.Pairwise fun a b => p a = true → ¬p b = true

theorem atMostOne_of_nodup [DecidableEq κ] {key : α → κ} (h : (l.map key).Nodup) (k : κ) :
    AtMostOne (fun a => key a = k) l := by
  refine (pairwise_map.mp h).imp ?_
  intro a b hne ha hb
  exact hne ((of_decide_eq_true ha).trans (of_decide_eq_true hb).symm)

theorem forall_mem_of_forall₂ {Q : β → Prop} (h : List.Forall₂ R l m) (hPQ : ∀ a b, R a b → P a → Q b)
    (hl : ∀ a ∈ l, P a) : ∀ b ∈ m, Q b := by
  induction h with
  | nil => simp
  | cons hab _ ih =>
    obtain ⟨ha, hl⟩ := forall_mem_cons.mp hl
    exact forall_mem_cons.mpr ⟨hPQ _ _ hab ha, ih hl⟩

theorem forall₂_update {q : β → Bool} {g : β → β} (h : List.Forall₂ R l m) (hpq : ∀ a b, R a b → p a = q b)
    (hone : AtMostOne p l) (hupd : ∀ a ∈ l, ∀ b, R a b → p a = true → R (f a) (g b)) :
    List.Forall₂ R (updateFirst p f l) (updateAll q g m) := by
  induction h with
  | nil => exact .nil
  | @cons a b l m hab hlm ih =>
    obtain ⟨hrest, hone⟩ := pairwise_cons.mp hone
    have hq := hpq a b hab
    rw [updateAll_cons, ← hq]
    by_cases ha : p a = true
    · have hnone : ∀ c ∈ m, ¬q c = true := by
        refine forall_mem_of_forall₂ hlm ?_ fun d hd => hrest d hd ha
        intro d c hdc hd hc
        exact hd ((hpq d c hdc).trans hc)
      rw [updateFirst_cons_pos l ha, if_pos ha, updateAll_of_forall_not hnone]
      exact .cons (hupd a mem_cons_self b hab ha) hlm
    · rw [updateFirst_cons_neg l ha, if_neg ha]
      exact .cons hab (ih hone fun c hc => hupd c (mem_cons_of_mem a hc))

theorem updateFirst_eq_updateAll {g : α → α} (hone : AtMostOne p l)
    (hfg : ∀ a ∈ l, p a = true → f a = g a) : updateFirst p f l = updateAll p g l := by
  rw [← forall₂_eq_eq_eq]
  have hself : List.Forall₂ (· = ·) l l := forall₂_same.mpr fun _ _ => rfl
  refine forall₂_update hself ?_ hone ?_
  · rintro a _ rfl
    rfl
  · rintro a ha _ rfl hp
    exact hfg a ha hp

theorem map_eq_updateFirst {u v : β → α} {k : β} {ks : List β} (hks : ks.Nodup)
    (hfind : ks.find? (fun x => p (u x)) = some k) (hself : v k = f (u k)) (hother : ∀ x ∈ ks, x ≠ k → v x = u x) :
    ks.map v = updateFirst p f (ks.map u) := by
  induction ks with
  | nil => cases hfind
  | cons x ks ih =>
    obtain ⟨hx, hks⟩ := nodup_cons.mp hks
    rw [map_cons, map_cons]
    by_cases hp : p (u x) = true
    · cases (find?_cons_of_pos (p := fun x => p (u x)) hp).symm.trans hfind
      have hrest : ks.map v = ks.map u :=
        map_congr_left fun y hy => hother y (mem_cons_of_mem k hy) fun heq => hx (heq ▸ hy)
      rw [updateFirst_cons_pos _ hp, hself, hrest]
    · rw [find?_cons_of_neg (p := fun x => p (u x)) hp] at hfind
      have hk : k ∈ ks := mem_of_find?_eq_some hfind
      rw [updateFirst_cons_neg _ hp, hother x mem_cons_self fun heq => hx (heq ▸ hk),
        ih hks hfind fun y hy => hother y (mem_cons_of_mem x hy)]

theorem find?_part_of_find?_flatMap {q : β → Bool} (h : (l.flatMap g).find? q = some x) :
    ∃ a, l.find? (fun a => (g a).any q) = some a ∧ (g a).find? q = some x := by
  induction l with
  | nil => cases h
  | cons a l ih =>
    rw [flatMap_cons, find?_append] at h
    cases hpart : (g a).find? q with
    | none =>
      rw [hpart, Option.none_or] at h
      obtain ⟨a', hfind, hin⟩ := ih h
      have hany : ¬(g a).any q = true := by simpa using hpart
      exact ⟨a', (find?_cons_of_neg (p := fun a => (g a).any q) hany).trans hfind, hin⟩
    | some y =>
      rw [hpart] at h
      have hany : (g a).any q = true := any_eq_true.mpr ⟨y, mem_of_find?_eq_some hpart, find?_some hpart⟩
      exact ⟨a, find?_cons_of_pos (p := fun a => (g a).any q) hany, hpart.trans h⟩

theorem flatten_updateFirst_concat (hf : ∀ a, g (f a) = g a ++ [x]) (l : List α) :
    ((updateFirst p f l).map g).flatten = (l.map g).flatten ∨
      (((updateFirst p f l).map g).flatten).Perm (x :: (l.map g).flatten) := by
  induction l with
  | nil => exact .inl rfl
  | cons a l ih =>
    by_cases hp : p a = true
    · right
      rw [updateFirst_cons_pos l hp, map_cons, flatten_cons, hf, append_assoc, singleton_append]
      exact perm_middle
    · rw [updateFirst_cons_neg l hp]
      simp only [map_cons, flatten_cons]
      rcases ih with heq | hperm
      · exact .inl (by rw [heq])
      · exact .inr ((hperm.append_left (g a)).trans perm_middle)

theorem nodup_flatten_updateFirst_concat (hf : ∀ a, g (f a) = g a ++ [x]) (h : (l.map g).flatten.Nodup)
    (hx : x ∉ (l.map g).flatten) : ((updateFirst p f l).map g).flatten.Nodup := by
  rcases flatten_updateFirst_concat (p := p) hf l with heq | hperm
  · rw [heq]
    exact h
  · exact hperm.nodup_iff.mpr (nodup_cons.mpr ⟨hx, h⟩)

end Foundation.ListUpdate
