import NomadDev.Foundation.Pattern

namespace Foundation.Percent

open Pattern List

def hexVal (c : UInt8) : Option UInt8 :=
  if 48 ≤ c && c ≤ 57 then some (c - 48)
  else if 97 ≤ c && c ≤ 102 then some (c - 87)
  else if 65 ≤ c && c ≤ 70 then some (c - 55)
  else none

def escaped (a b c : UInt8) : Option UInt8 :=
  if a = 37 then (hexVal b).bind fun x => (hexVal c).map fun y => 16 * x + y else none

-- A sign that no two digits follow stands for itself.
def decode : List UInt8 → List UInt8
  | a :: b :: c :: s =>
    match escaped a b c with
    | some d => d :: decode s
    | none => a :: decode (b :: c :: s)
  | s => s

def wellFormed : List UInt8 → Bool
  | a :: b :: c :: s =>
    match escaped a b c with
    | some _ => wellFormed s
    | none => a != 37 && wellFormed (b :: c :: s)
  | s => !s.contains 37

def upperDigit (n : UInt8) : UInt8 := if n < 10 then 48 + n else 55 + n

def encode (keep : UInt8 → Bool) (s : List UInt8) : List UInt8 :=
  s.flatMap fun c => if keep c then [c] else [37, upperDigit (c / 16), upperDigit (c % 16)]

variable {a b c : UInt8} {s t m : List UInt8}

theorem escaped_of_ne (h : a ≠ 37) : escaped a b c = none := if_neg h

theorem escaped_eq_some {d : UInt8} (h : escaped a b c = some d) : a = 37 ∧ (hexVal b).isSome ∧ (hexVal c).isSome := by
  obtain ⟨ha, h⟩ := Option.ite_none_right_eq_some.mp h
  obtain ⟨x, hx, h⟩ := Option.bind_eq_some_iff.mp h
  obtain ⟨y, hy, -⟩ := Option.map_eq_some_iff.mp h
  exact ⟨ha, Option.isSome_of_eq_some hx, Option.isSome_of_eq_some hy⟩

theorem decode_cons_of_ne (h : a ≠ 37) (s : List UInt8) : decode (a :: s) = a :: decode s := by
  rcases s with - | ⟨b, - | ⟨c, s⟩⟩
  · rfl
  · rfl
  · rw [decode, escaped_of_ne h]

theorem decode_append_of_not_mem (h : 37 ∉ m) (s : List UInt8) : decode (m ++ s) = m ++ decode s := by
  induction m with
  | nil => rfl
  | cons a m ih =>
    obtain ⟨ha, hm⟩ := not_or.mp (mem_cons.not.mp h)
    rw [cons_append, decode_cons_of_ne (Ne.symm ha), ih hm, cons_append]

theorem decode_of_no_escape (h : escaped a b c = none) (s : List UInt8) :
    decode (a :: b :: c :: s) = a :: decode (b :: c :: s) := by
  rw [decode, h]

theorem decode_append_cons (hsign : c ≠ 37) (hdigit : hexVal c = none) (s t : List UInt8) :
    decode (s ++ c :: t) = decode s ++ c :: decode t := by
  have hbefore : ∀ a b : UInt8, escaped a b c = none := by simp [escaped, hdigit]
  have hone : ∀ b : UInt8, decode (b :: c :: t) = b :: c :: decode t := by
    intro b
    rcases t with - | ⟨d, t⟩
    · rfl
    · have hafter : escaped b c d = none := by simp [escaped, hdigit]
      rw [decode_of_no_escape hafter, decode_cons_of_ne hsign]
  fun_induction decode s with
  | case1 a b d s e he ih => simp only [cons_append, decode, he, ih]
  | case2 a b d s he ih =>
    rw [cons_append, cons_append, cons_append, decode_of_no_escape he, cons_append]
    exact congrArg (a :: ·) ih
  | case3 s hs =>
    rcases s with - | ⟨a, - | ⟨b, - | ⟨d, s⟩⟩⟩
    · exact decode_cons_of_ne hsign t
    · exact hone a
    · exact (decode_of_no_escape (hbefore a b) t).trans (congrArg (a :: ·) (hone b))
    · exact absurd rfl (hs a b d s)

theorem decode_intercalate (hsign : c ≠ 37) (hdigit : hexVal c = none) (x : List UInt8) (l : List (List UInt8)) :
    decode ([c].intercalate (x :: l)) = [c].intercalate ((x :: l).map decode) := by
  induction l generalizing x with
  | nil => simp [List.intercalate]
  | cons y l ih =>
    rw [intercalate_cons_cons, append_assoc, singleton_append, decode_append_cons hsign hdigit, ih]
    simp only [map_cons, intercalate_cons_cons, append_assoc, singleton_append]

theorem decode_encode {keep : UInt8 → Bool} (h : keep 37 = false) (s : List UInt8) : decode (encode keep s) = s := by
  have hdigits : ∀ n < 256, escaped 37 (upperDigit (UInt8.ofNat n / 16)) (upperDigit (UInt8.ofNat n % 16)) =
      some (UInt8.ofNat n) := by decide +kernel
  induction s with
  | nil => rfl
  | cons a s ih =>
    rw [encode, flatMap_cons, ← encode]
    split
    next hkeep =>
      have ha : a ≠ 37 := by
        rintro rfl
        exact Bool.false_ne_true (h.symm.trans hkeep)
      rw [singleton_append, decode_cons_of_ne ha, ih]
    · have hescaped := hdigits a.toNat a.toNat_lt
      rw [UInt8.ofNat_toNat] at hescaped
      simp only [cons_append, nil_append, decode, hescaped, ih]

def plusToSpace (c : UInt8) : UInt8 := if c = 43 then 32 else c

theorem escaped_plusToSpace (a b c : UInt8) :
    escaped (plusToSpace a) (plusToSpace b) (plusToSpace c) = escaped a b c := by
  have hsign : ∀ a, plusToSpace a = 37 ↔ a = 37 := by
    intro a
    unfold plusToSpace
    split
    next ha => simp [ha]
    · rfl
  have hdigit : ∀ b, hexVal (plusToSpace b) = hexVal b := by
    intro b
    unfold plusToSpace
    split
    next hb => rw [hb]; rfl
    · rfl
  simp only [escaped, hsign, hdigit]

theorem decode_map_plusToSpace (s : List UInt8) :
    List.Forall₂ (fun x y => x = y ∨ x = 43) (decode s) (decode (s.map plusToSpace)) := by
  have hself : ∀ c : UInt8, c = plusToSpace c ∨ c = 43 := by
    intro c
    by_cases hc : c = 43
    · exact Or.inr hc
    · exact Or.inl (if_neg hc).symm
  fun_induction decode s with
  | case1 a b c s d hd ih =>
    simp only [map_cons, decode, escaped_plusToSpace, hd]
    exact .cons (Or.inl rfl) ih
  | case2 a b c s hd ih =>
    simp only [map_cons, decode, escaped_plusToSpace, hd]
    exact .cons (hself a) ih
  | case3 s hs =>
    rcases s with - | ⟨a, - | ⟨b, - | ⟨d, s⟩⟩⟩
    · exact .nil
    · exact .cons (hself a) .nil
    · exact .cons (hself a) (.cons (hself b) .nil)
    · exact absurd rfl (hs a b d s)

section Occurrences

variable {p : List (Piece UInt8)}

def StartsInEscape (p : List (Piece UInt8)) (s : List UInt8) : Prop :=
  ∃ b c rest, 37 :: b :: c :: rest <:+ s ∧ (escaped 37 b c).isSome ∧ (Begins p (b :: c :: rest) ∨ Begins p (c :: rest))

theorem StartsInEscape.occurs (h : StartsInEscape p s) : Occurs p s := by
  obtain ⟨b, c, rest, hs, -, h | h⟩ := h
  · exact ⟨_, (suffix_cons 37 _).trans hs, h⟩
  · exact ⟨_, ((suffix_cons b _).trans (suffix_cons 37 _)).trans hs, h⟩

theorem StartsInEscape.of_suffix (h : StartsInEscape p s) (hs : s <:+ t) : StartsInEscape p t := by
  obtain ⟨b, c, rest, hrest, h⟩ := h
  exact ⟨b, c, rest, hrest.trans hs, h⟩

theorem Begins.decode (hp : Avoids p 37) (h : Begins p s) : Begins p (decode s) := by
  obtain ⟨m, rest, rfl, hm⟩ := h
  exact ⟨m, Percent.decode rest, decode_append_of_not_mem (hm.not_mem hp) rest, hm⟩

theorem occurs_decode_or_startsInEscape (hp : Avoids p 37) (h : Occurs p s) :
    Occurs p (decode s) ∨ StartsInEscape p s := by
  fun_induction Percent.decode s with
  | case1 a b c s d hd ih =>
    obtain ⟨rfl, -⟩ := escaped_eq_some hd
    rcases occurs_cons.mp h with h | h
    · exact Or.inl ⟨_, suffix_refl _, (Begins.before (a := []) h hp).of_nil _⟩
    have hstarts : ∀ hbegins : Begins p (b :: c :: s) ∨ Begins p (c :: s), StartsInEscape p (37 :: b :: c :: s) :=
      fun hbegins => ⟨b, c, s, suffix_refl _, Option.isSome_of_eq_some hd, hbegins⟩
    rcases occurs_cons.mp h with h | h
    · exact Or.inr (hstarts (Or.inl h))
    rcases occurs_cons.mp h with h | h
    · exact Or.inr (hstarts (Or.inr h))
    exact (ih h).imp (fun h => occurs_cons.mpr (Or.inr h)) fun h => h.of_suffix ⟨[37, b, c], rfl⟩
  | case2 a b c s hd ih =>
    rcases occurs_cons.mp h with h | h
    · have hdecode := Begins.decode hp h
      rw [decode_of_no_escape hd] at hdecode
      exact Or.inl (occurs_cons.mpr (Or.inl hdecode))
    · exact (ih h).imp (fun h => occurs_cons.mpr (Or.inr h)) fun h => h.of_suffix (suffix_cons a _)
  | case3 s hs => exact Or.inl h

end Occurrences

end Foundation.Percent
