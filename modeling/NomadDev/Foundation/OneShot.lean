import Mathlib.Data.List.Basic
import Mathlib.Data.Option.Basic

/-!
A channel with one buffered place whose senders never block. `sent` lists every attempt in order and `taken` is the
first value received.
-/

namespace Foundation.OneShot

structure Slot (β : Type) where
  buffer : Option β
  sent : List β
  taken : Option β
  buffer_first : taken = none → buffer = sent.head?
  taken_first : ∀ v, taken = some v → sent.head? = some v

variable {β : Type}

def Slot.empty : Slot β := ⟨none, [], none, fun _ => rfl, nofun⟩

theorem head?_snoc {l : List β} {v w : β} (h : l.head? = some v) : (l ++ [w]).head? = some v := by
  cases l with
  | nil => cases h
  | cons a l => exact h

def Slot.offer (s : Slot β) (v : β) : Slot β where
  buffer := s.buffer.or (some v)
  sent := s.sent ++ [v]
  taken := s.taken
  buffer_first := by
    intro h
    rw [s.buffer_first h]
    cases s.sent with
    | nil => rfl
    | cons a l => rfl
  taken_first := fun w h => head?_snoc (s.taken_first w h)

def Slot.take (s : Slot β) (v : β) (h : s.buffer = some v) : Slot β where
  buffer := none
  sent := s.sent
  taken := s.taken.or (some v)
  buffer_first := by
    intro hn
    cases ht : s.taken <;> simp [ht] at hn
  taken_first := by
    intro w hw
    cases ht : s.taken with
    | none =>
      rw [ht] at hw
      cases hw
      rw [← s.buffer_first ht, h]
    | some u =>
      rw [ht] at hw
      exact s.taken_first w (ht.trans hw)

@[simp] theorem Slot.sent_offer (s : Slot β) (v : β) : (s.offer v).sent = s.sent ++ [v] := rfl

@[simp] theorem Slot.sent_take (s : Slot β) (v : β) (h : s.buffer = some v) : (s.take v h).sent = s.sent := rfl

theorem Slot.taken_take (s : Slot β) (v : β) (h : s.buffer = some v) (hn : s.taken = none) :
    (s.take v h).taken = some v := by
  simp [Slot.take, hn]

end Foundation.OneShot
