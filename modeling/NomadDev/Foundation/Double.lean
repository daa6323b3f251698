import Mathlib.Algebra.Order.Ring.Int
import Mathlib.Data.Nat.Log

/-!
Integers held in 53 bit floating point numbers: every operation rounds to the nearest number, ties to the even one.
-/

namespace Foundation.Double

def spacing (n : ℕ) : ℕ := 2 ^ (n.log2 - 52)

def roundHalfEven (n d : ℕ) : ℕ :=
  if 2 * (n % d) < d ∨ 2 * (n % d) = d ∧ n / d % 2 = 0 then n / d else n / d + 1

def toDouble (z : ℤ) : ℤ := z.sign * (roundHalfEven z.natAbs (spacing z.natAbs) * spacing z.natAbs : ℕ)

def Safe (z : ℤ) : Prop := z.natAbs < 2 ^ 53

instance (z : ℤ) : Decidable (Safe z) := inferInstanceAs (Decidable (_ < _))

theorem spacing_eq_one {n : ℕ} (h : n < 2 ^ 53) : spacing n = 1 := by
  rcases Nat.eq_zero_or_pos n with rfl | hn
  · rfl
  · have hlog : n.log2 < 53 := (Nat.log2_lt hn.ne').mpr h
    rw [spacing, Nat.sub_eq_zero_of_le (Nat.le_of_lt_succ hlog), pow_zero]

theorem roundHalfEven_one (n : ℕ) : roundHalfEven n 1 = n := by
  simp [roundHalfEven, Nat.mod_one]

theorem toDouble_of_safe {z : ℤ} (h : Safe z) : toDouble z = z := by
  rw [toDouble, spacing_eq_one h, roundHalfEven_one, mul_one, Int.sign_mul_natAbs]

theorem bmod_of_safe {z : ℤ} (h : Safe z) : z.bmod (2 ^ 64) = z := by
  have hz : z.natAbs < 2 ^ 53 := h
  apply Int.bmod_eq_of_le <;> omega

end Foundation.Double
