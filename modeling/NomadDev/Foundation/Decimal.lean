import Mathlib.Data.Nat.Digits.Lemmas

namespace Foundation.Decimal

open List

def digit (d : ℕ) : UInt8 := UInt8.ofNat (48 + d)

def isDigit (c : UInt8) : Bool := 48 ≤ c && c ≤ 57

def render (n : ℕ) : List UInt8 := if n = 0 then [48] else ((Nat.digits 10 n).map digit).reverse

def renderInt (z : ℤ) : List UInt8 := if z < 0 then 45 :: render z.natAbs else render z.natAbs

def value (s : List UInt8) : ℕ := Nat.ofDigits 10 (s.reverse.map fun c => c.toNat - 48)

def parseNat (s : List UInt8) : Option ℕ := if s ≠ [] ∧ s.all isDigit then some (value s) else none

def parseInt : List UInt8 → Option ℤ
  | 45 :: s => (parseNat s).map fun n => -(n : ℤ)
  | 43 :: s => (parseNat s).map Int.ofNat
  | s => (parseNat s).map Int.ofNat

variable {n d k : ℕ}

theorem toNat_digit (hd : d < 10) : (digit d).toNat = 48 + d := by
  have hsize : 48 + d < UInt8.size := by
    rw [UInt8.size]
    omega
  exact UInt8.toNat_ofNat_of_lt hsize

theorem isDigit_digit (hd : d < 10) : isDigit (digit d) = true := by
  have hnat := toNat_digit hd
  simp only [isDigit, Bool.and_eq_true, decide_eq_true_eq, UInt8.le_iff_toNat_le, hnat]
  exact ⟨Nat.le_add_right 48 d, Nat.add_le_add_left (Nat.le_of_lt_succ hd) 48⟩

theorem render_ne_nil (n : ℕ) : render n ≠ [] := by
  unfold render
  split
  · exact cons_ne_nil _ _
  next hn => simpa using Nat.digits_ne_nil_iff_ne_zero.mpr hn

theorem isDigit_of_mem_render {c : UInt8} (hc : c ∈ render n) : isDigit c = true := by
  unfold render at hc
  split at hc
  · rw [mem_singleton.mp hc]
    decide
  · obtain ⟨d, hd, rfl⟩ := mem_map.mp (mem_reverse.mp hc)
    exact isDigit_digit (Nat.digits_lt_base (by decide) hd)

theorem value_render (n : ℕ) : value (render n) = n := by
  unfold render
  split
  next hn =>
    subst hn
    rfl
  · have hdigits : ((Nat.digits 10 n).map digit).map (fun c => c.toNat - 48) = Nat.digits 10 n := by
      rw [map_map]
      refine (map_congr_left fun d hd => ?_).trans (map_id _)
      have hnat := toNat_digit (Nat.digits_lt_base (by decide) hd)
      simp only [Function.comp_apply, hnat, id_eq]
      omega
    rw [value, reverse_reverse, hdigits, Nat.ofDigits_digits]

theorem parseNat_render (n : ℕ) : parseNat (render n) = some n := by
  have hall : (render n).all isDigit = true := all_eq_true.mpr fun c hc => isDigit_of_mem_render hc
  rw [parseNat, if_pos ⟨render_ne_nil n, hall⟩, value_render]

theorem parseInt_render (n : ℕ) : parseInt (render n) = some (n : ℤ) := by
  have hhead : ∀ c ∈ render n, c ≠ 45 ∧ c ≠ 43 := by
    intro c hc
    have hdigit := isDigit_of_mem_render hc
    constructor <;> (rintro rfl; exact absurd hdigit (by decide))
  have hparse := parseNat_render n
  unfold parseInt
  split
  next s hs => exact absurd rfl (hhead 45 (by rw [hs]; exact mem_cons_self)).1
  next s hs => exact absurd rfl (hhead 43 (by rw [hs]; exact mem_cons_self)).2
  next => rw [hparse]; rfl

theorem eq_zero_of_head_render (h : (render n).head? = some 48) : n = 0 := by
  by_contra hn
  have hne : Nat.digits 10 n ≠ [] := Nat.digits_ne_nil_iff_ne_zero.mpr hn
  rw [render, if_neg hn, List.head?_reverse, List.getLast?_map, List.getLast?_eq_some_getLast hne, Option.map_some] at h
  have hlt : (Nat.digits 10 n).getLast hne < 10 := Nat.digits_lt_base (by decide) (getLast_mem hne)
  have hdigit := congrArg UInt8.toNat (Option.some.inj h)
  rw [toNat_digit hlt] at hdigit
  exact Nat.getLast_digit_ne_zero 10 hn (Nat.add_eq_left.mp hdigit)

theorem length_render_le (hk : 0 < k) (hn : n < 10 ^ k) : (render n).length ≤ k := by
  unfold render
  split
  · exact hk
  · rw [length_reverse, length_map]
    exact (Nat.digits_length_le_iff (by decide) n).mpr hn

theorem length_renderInt_le {z : ℤ} (hk : 0 < k) (hz : z.natAbs < 10 ^ k) : (renderInt z).length ≤ k + 1 := by
  have hlen := length_render_le hk hz
  unfold renderInt
  split
  · rw [length_cons]
    exact Nat.succ_le_succ hlen
  · exact Nat.le_succ_of_le hlen

end Foundation.Decimal
