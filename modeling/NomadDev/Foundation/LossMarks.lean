import Mathlib.Data.List.Basic

/-!
A stream of numbered lines that may lose some on the way to a first station, which puts markers in between, and any of
its items from there on.
-/

namespace Foundation.LossMarks

inductive Item
  | line (index : ℕ)
  | marker
  deriving DecidableEq

structure Mark where
  next : ℕ
  marked : Bool

namespace Mark

def start : Mark := ⟨0, false⟩

def after (m : Mark) : Item → Mark
  | .line i => ⟨i + 1, false⟩
  | .marker => ⟨m.next, true⟩

def Allows (m : Mark) : Item → Prop
  | .line i => i = m.next ∨ m.marked = true
  | .marker => True

instance (m : Mark) : (x : Item) → Decidable (m.Allows x)
  | .line i => inferInstanceAs (Decidable (i = m.next ∨ m.marked = true))
  | .marker => inferInstanceAs (Decidable True)

end Mark

def Chain : Mark → List Item → Prop
  | _, [] => True
  | m, x :: xs => m.Allows x ∧ Chain (m.after x) xs

variable {m : Mark} {xs ys : List Item}

theorem chain_append : Chain m (xs ++ ys) ↔ Chain m xs ∧ Chain (xs.foldl Mark.after m) ys := by
  induction xs generalizing m with
  | nil => simp [Chain]
  | cons x xs ih => simp [Chain, ih, and_assoc]

theorem chain_left (h : Chain m (xs ++ ys)) : Chain m xs := (chain_append.mp h).1

variable {x : Item}

theorem chain_snoc (h : Chain m xs) (hx : (xs.foldl Mark.after m).Allows x) : Chain m (xs ++ [x]) := by
  apply chain_append.mpr
  exact ⟨h, hx, trivial⟩

structure Frame where
  seq : ℕ
  item : Item
  deriving DecidableEq

structure Seen where
  seq : ℕ
  mark : Mark

namespace Seen

def start : Seen := ⟨0, .start⟩

def after (v : Seen) (f : Frame) : Seen := ⟨f.seq + 1, v.mark.after f.item⟩

end Seen

def Explained : Seen → List Frame → Prop
  | _, [] => True
  | v, f :: fs => (v.mark.Allows f.item ∨ f.seq ≠ v.seq) ∧ Explained (v.after f) fs

instance decidableExplained : (v : Seen) → (fs : List Frame) → Decidable (Explained v fs)
  | _, [] => inferInstanceAs (Decidable True)
  | v, f :: fs =>
    have := decidableExplained (v.after f) fs
    inferInstanceAs (Decidable (_ ∧ _))

def delivered : ℕ → List (Item × Bool) → List Frame
  | _, [] => []
  | k, (x, true) :: rest => ⟨k, x⟩ :: delivered (k + 1) rest
  | k, (_, false) :: rest => delivered (k + 1) rest

theorem delivered_append (k : ℕ) (xs ys : List (Item × Bool)) :
    delivered k (xs ++ ys) = delivered k xs ++ delivered (k + xs.length) ys := by
  induction xs generalizing k with
  | nil => rfl
  | cons x xs ih =>
    obtain ⟨x, b⟩ := x
    have hk : k + 1 + xs.length = k + (xs.length + 1) := by omega
    cases b <;> simp [delivered, ih, hk]

def Mark.Covers (v m : Mark) : Prop := v = m ∨ v.marked = true

theorem Mark.Covers.allows {v : Mark} (h : v.Covers m) (hx : m.Allows x) : v.Allows x := by
  rcases h with rfl | h
  · exact hx
  · cases x with
    | line i => exact .inr h
    | marker => trivial

theorem Mark.after_covers (v m : Mark) (x : Item) : (v.after x).Covers (m.after x) := by
  cases x with
  | line i => exact .inl rfl
  | marker => exact .inr rfl

theorem explained_delivered {items : List (Item × Bool)} (h : Chain m (items.map Prod.fst)) {v : Seen} {k : ℕ}
    (hle : v.seq ≤ k) (hcov : v.seq = k → v.mark.Covers m) : Explained v (delivered k items) := by
  induction items generalizing m v k with
  | nil => trivial
  | cons x items ih =>
    obtain ⟨x, b⟩ := x
    obtain ⟨hx, hrest⟩ := h
    cases b with
    | true =>
      refine ⟨?_, ih hrest (Nat.le_refl _) fun _ => Mark.after_covers v.mark m x⟩
      by_cases hk : v.seq = k
      · exact .inl ((hcov hk).allows hx)
      · exact .inr (Ne.symm hk)
    | false =>
      apply ih hrest
      · omega
      · intro hk
        omega

end Foundation.LossMarks
