import Mathlib.Data.List.Basic

namespace Foundation.Delivery

open List

variable {α : Type} {l : List α} {x y : α}

def Before (l : List α) (e x : α) : Prop := ∃ pre post, l = pre ++ x :: post ∧ e ∈ pre

theorem split_snoc {pre post : List α} (h : l ++ [y] = pre ++ x :: post) :
    l = pre ∧ y = x ∨ ∃ post', l = pre ++ x :: post' := by
  cases eq_nil_or_concat post with
  | inl hp =>
    subst hp
    obtain ⟨hl, hy⟩ := append_inj' h rfl
    simp only [List.cons.injEq, and_true] at hy
    exact .inl ⟨hl, hy⟩
  | inr hp =>
    obtain ⟨post', z, rfl⟩ := hp
    rw [concat_eq_append, ← cons_append, ← append_assoc] at h
    exact .inr ⟨post', (append_inj' h rfl).1⟩

theorem Before.of_append {e : α} (h : Before (l ++ [y]) e x) : Before l e x ∨ x = y ∧ e ∈ l := by
  obtain ⟨pre, post, hl, he⟩ := h
  rcases split_snoc hl with ⟨rfl, hy⟩ | ⟨post', hl⟩
  · exact .inr ⟨hy.symm, he⟩
  · exact .inl ⟨pre, post', hl, he⟩

def Served (dep : α → α → Prop) (got waived : α → Prop) (q : List α) : Prop :=
  ∀ pre x post, q = pre ++ x :: post → waived x ∨ (∃ z ∈ pre, waived z) ∨ ∀ e, dep e x → got e ∨ e ∈ pre

variable {dep dep' : α → α → Prop} {got got' waived : α → Prop} {q r : List α} {x : α} {p : α → Bool}

theorem served_nil : Served dep got waived [] := by
  intro pre x post h
  simp at h

theorem Served.snoc (hq : Served dep got waived q)
    (hx : waived x ∨ (∃ z ∈ q, waived z) ∨ ∀ e, dep e x → got e ∨ e ∈ q) :
    Served dep got waived (q ++ [x]) := by
  intro pre y post h
  rcases split_snoc h with ⟨rfl, rfl⟩ | ⟨post', hpost⟩
  · exact hx
  · exact hq pre y post' hpost

theorem Served.of_append (h : Served dep got waived (q ++ r)) : Served dep got waived q := by
  intro pre x post hq
  exact h pre x (post ++ r) (by simp [hq])

theorem Served.head (h : Served dep got waived (x :: q)) (hx : ¬ waived x) : ∀ e, dep e x → got e := by
  have hd := h [] x q rfl
  simpa [hx] using hd

theorem Served.tail (h : Served dep got waived (x :: q)) (hx : ¬ waived x)
    (hgot : ∀ e, got e ∨ e = x → got' e) : Served dep got' waived q := by
  intro pre y post hq
  rcases h (x :: pre) y post (by simp [hq]) with hw | ⟨z, hz, hw⟩ | hd
  · exact .inl hw
  · rcases mem_cons.mp hz with rfl | hz
    · exact absurd hw hx
    · exact .inr (.inl ⟨z, hz, hw⟩)
  · refine .inr (.inr ?_)
    intro e he
    rcases hd e he with hg | hm
    · exact .inl (hgot e (.inl hg))
    · rcases mem_cons.mp hm with rfl | hm
      · exact .inl (hgot e (.inr rfl))
      · exact .inr hm

theorem Served.mono (h : Served dep got waived q) (hgot : ∀ e, got e → got' e)
    (hdep : ∀ x ∈ q, ∀ e, dep' e x → dep e x) : Served dep' got' waived q := by
  intro pre x post hq
  rcases h pre x post hq with hw | hw | hd
  · exact .inl hw
  · exact .inr (.inl hw)
  refine .inr (.inr ?_)
  intro e he
  have hx : x ∈ q := by simp [hq]
  exact (hd e (hdep x hx e he)).imp_left (hgot e)

def lastOnly (p : α → Bool) : List α → Bool
  | [] => false
  | a :: as => if p a then as.isEmpty else lastOnly p as

theorem lastOnly_append {as : List α} (bs : List α) (h : ∀ a ∈ as, p a = false) :
    lastOnly p (as ++ bs) = lastOnly p bs := by
  induction as with
  | nil => rfl
  | cons a as ih =>
    have ha : p a = false := h a mem_cons_self
    simp only [cons_append, lastOnly, ha]
    exact ih fun b hb => h b (mem_cons_of_mem a hb)

theorem lastOnly_map {β : Type} (p : β → Bool) (f : α → β) (as : List α) :
    lastOnly p (as.map f) = lastOnly (fun a => p (f a)) as := by
  induction as with
  | nil => rfl
  | cons a as ih => simp only [map_cons, lastOnly, ih, isEmpty_map]

theorem lastOnly_iff : lastOnly p l = true ↔ ∃ as a, l = as ++ [a] ∧ p a = true ∧ ∀ b ∈ as, p b = false := by
  constructor
  · intro h
    induction l with
    | nil => cases h
    | cons a l ih =>
      cases ha : p a with
      | true =>
        simp only [lastOnly, ha, ↓reduceIte, List.isEmpty_iff] at h
        exact ⟨[], a, by rw [h]; rfl, ha, by simp⟩
      | false =>
        simp only [lastOnly, ha] at h
        obtain ⟨as, b, rfl, hb, has⟩ := ih h
        exact ⟨a :: as, b, rfl, hb, List.forall_mem_cons.mpr ⟨ha, has⟩⟩
  · rintro ⟨as, a, rfl, ha, has⟩
    rw [lastOnly_append _ has]
    simp [lastOnly, ha]

end Foundation.Delivery
