import Mathlib.Data.List.Basic

namespace Foundation.Base64

def alphabet : List Char := "ABCDEFGHIJKLMNOPQRSTUVWXYZabcdefghijklmnopqrstuvwxyz0123456789+/".toList

def digit (n : ℕ) : Char := alphabet.getD n 'A'

def value (c : Char) : Option ℕ := alphabet.findIdx? (· == c)

def lineBreak (c : Char) : Bool := c.toNat == 10 || c.toNat == 13

def encodeChars : List UInt8 → List Char
  | [] => []
  | [a] => [digit (a.toNat / 4), digit (a.toNat % 4 * 16), '=', '=']
  | [a, b] => [digit (a.toNat / 4), digit (a.toNat % 4 * 16 + b.toNat / 16), digit (b.toNat % 16 * 4), '=']
  | a :: b :: c :: rest =>
    digit (a.toNat / 4) :: digit (a.toNat % 4 * 16 + b.toNat / 16) :: digit (b.toNat % 16 * 4 + c.toNat / 64) ::
      digit (c.toNat % 64) :: encodeChars rest

def first (i j : ℕ) : UInt8 := UInt8.ofNat (i * 4 + j / 16)
def second (j k : ℕ) : UInt8 := UInt8.ofNat (j % 16 * 16 + k / 4)
def third (k l : ℕ) : UInt8 := UInt8.ofNat (k % 4 * 64 + l)

def decodeChars : List Char → Option (List UInt8)
  | [] => some []
  | w :: x :: y :: z :: rest =>
    if y = '=' then
      if z = '=' ∧ rest = [] then do
        let i ← value w
        let j ← value x
        some [first i j]
      else none
    else if z = '=' then
      if rest = [] then do
        let i ← value w
        let j ← value x
        let k ← value y
        some [first i j, second j k]
      else none
    else do
      let i ← value w
      let j ← value x
      let k ← value y
      let l ← value z
      let bytes ← decodeChars rest
      some (first i j :: second j k :: third k l :: bytes)
  | _ => none

def encode (bytes : List UInt8) : String := String.ofList (encodeChars bytes)

def decode (s : String) : Option (List UInt8) := decodeChars (s.toList.filter fun c => !lineBreak c)

theorem value_digit : ∀ n < 64, value (digit n) = some n := by decide +kernel

theorem digit_mem (n : ℕ) : digit n ∈ alphabet := by
  rw [digit, List.getD_eq_getElem?_getD]
  by_cases hn : n < alphabet.length
  · rw [List.getElem?_eq_getElem hn, Option.getD_some]
    exact List.getElem_mem hn
  · rw [List.getElem?_eq_none (Nat.le_of_not_lt hn)]
    decide

@[simp] theorem digit_ne_pad (n : ℕ) : digit n ≠ '=' := by
  intro h
  have hm := digit_mem n
  rw [h] at hm
  revert hm
  decide

@[simp] theorem lineBreak_digit (n : ℕ) : lineBreak (digit n) = false := by
  have hall : (alphabet.all fun c => !lineBreak c) = true := rfl
  simpa using List.all_eq_true.mp hall _ (digit_mem n)

@[simp] theorem lineBreak_pad : lineBreak '=' = false := rfl

theorem first_split (a b : UInt8) : first (a.toNat / 4) (a.toNat % 4 * 16 + b.toNat / 16) = a := by
  have ha := a.toNat_lt
  have hb := b.toNat_lt
  have h : a.toNat / 4 * 4 + (a.toNat % 4 * 16 + b.toNat / 16) / 16 = a.toNat := by omega
  rw [first, h, UInt8.ofNat_toNat]

theorem second_split (a b c : UInt8) :
    second (a.toNat % 4 * 16 + b.toNat / 16) (b.toNat % 16 * 4 + c.toNat / 64) = b := by
  have hb := b.toNat_lt
  have hc := c.toNat_lt
  have h : (a.toNat % 4 * 16 + b.toNat / 16) % 16 * 16 + (b.toNat % 16 * 4 + c.toNat / 64) / 4 = b.toNat := by omega
  rw [second, h, UInt8.ofNat_toNat]

theorem third_split (b c : UInt8) : third (b.toNat % 16 * 4 + c.toNat / 64) (c.toNat % 64) = c := by
  have hc := c.toNat_lt
  have h : (b.toNat % 16 * 4 + c.toNat / 64) % 4 * 64 + c.toNat % 64 = c.toNat := by omega
  rw [third, h, UInt8.ofNat_toNat]

theorem decodeChars_encodeChars (bytes : List UInt8) : decodeChars (encodeChars bytes) = some bytes := by
  induction bytes using encodeChars.induct with
  | case1 => rfl
  | case2 a =>
    have ha := a.toNat_lt
    have h₁ := value_digit (a.toNat / 4) (by omega)
    have h₂ := value_digit (a.toNat % 4 * 16) (by omega)
    have hf := first_split a 0
    simp only [UInt8.toNat_ofNat, Nat.zero_mod, Nat.zero_div, Nat.add_zero] at hf
    simp [encodeChars, decodeChars, h₁, h₂, hf]
  | case3 a b =>
    have ha := a.toNat_lt
    have hb := b.toNat_lt
    have h₁ := value_digit (a.toNat / 4) (by omega)
    have h₂ := value_digit (a.toNat % 4 * 16 + b.toNat / 16) (by omega)
    have h₃ := value_digit (b.toNat % 16 * 4) (by omega)
    have hs := second_split a b 0
    simp only [UInt8.toNat_ofNat, Nat.zero_mod, Nat.zero_div, Nat.add_zero] at hs
    simp [encodeChars, decodeChars, h₁, h₂, h₃, first_split, hs]
  | case4 a b c rest ih =>
    have ha := a.toNat_lt
    have hb := b.toNat_lt
    have hc := c.toNat_lt
    have h₁ := value_digit (a.toNat / 4) (by omega)
    have h₂ := value_digit (a.toNat % 4 * 16 + b.toNat / 16) (by omega)
    have h₃ := value_digit (b.toNat % 16 * 4 + c.toNat / 64) (by omega)
    have h₄ := value_digit (c.toNat % 64) (by omega)
    simp [encodeChars, decodeChars, h₁, h₂, h₃, h₄, first_split, second_split, third_split, ih]

theorem encodeChars_lineBreak (bytes : List UInt8) : ∀ c ∈ encodeChars bytes, lineBreak c = false := by
  induction bytes using encodeChars.induct with
  | case1 | case2 | case3 => simp [encodeChars]
  | case4 a b c rest ih => simpa [encodeChars] using ih

theorem decode_encode (bytes : List UInt8) : decode (encode bytes) = some bytes := by
  have hfilter : (encodeChars bytes).filter (fun c => !lineBreak c) = encodeChars bytes := by
    apply List.filter_eq_self.mpr
    intro c hc
    simp [encodeChars_lineBreak bytes c hc]
  rw [decode, encode, String.toList_ofList, hfilter]
  exact decodeChars_encodeChars bytes

theorem encode_ne_empty {bytes : List UInt8} (h : bytes ≠ []) : encode bytes ≠ "" := by
  intro he
  have hd := decode_encode bytes
  rw [he] at hd
  exact h (Option.some.inj hd).symm

end Foundation.Base64
