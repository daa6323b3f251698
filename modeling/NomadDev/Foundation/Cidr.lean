import Mathlib.Algebra.Order.Ring.Nat
import Mathlib.Data.List.Basic

namespace Foundation.Cidr

structure Block where
  base : List UInt8
  bits : ℕ
  deriving DecidableEq

def agree : ℕ → List UInt8 → List UInt8 → Bool
  | n, c :: cs, b :: bs =>
    if n < 8 then b.toNat / 2 ^ (8 - n) == c.toNat / 2 ^ (8 - n) else b == c && agree (n - 8) cs bs
  | _, _, _ => true

def Block.contains (r : Block) (address : List UInt8) : Bool := agree r.bits r.base address

theorem agree_bytes {cs bs : List UInt8} (h : cs.length = bs.length) : agree (8 * cs.length) cs bs = true ↔ bs = cs := by
  induction cs generalizing bs with
  | nil => simp [agree, List.length_eq_zero_iff.mp h.symm]
  | cons c cs ih =>
    obtain ⟨b, bs, rfl⟩ := List.exists_cons_of_length_eq_add_one h.symm
    have hlength : 8 * (c :: cs).length - 8 = 8 * cs.length := by
      rw [List.length_cons]
      omega
    rw [agree, if_neg (by rw [List.length_cons]; omega), hlength, Bool.and_eq_true, beq_iff_eq,
      ih (Nat.succ.inj h), List.cons.injEq]

theorem mask_eq_iff (mask value : UInt8) (k : ℕ)
    (h : ∀ n < 256, UInt8.ofNat n &&& mask = value ↔ n / 2 ^ k = value.toNat / 2 ^ k) (b : UInt8) :
    b &&& mask = value ↔ b.toNat / 2 ^ k = value.toNat / 2 ^ k := by
  have hb := h b.toNat b.toNat_lt
  rwa [UInt8.ofNat_toNat] at hb

end Foundation.Cidr
