import NomadDev.Foundation.Decimal
import NomadDev.Foundation.Utf8

/-!
JSON as an encoder writes it that also escapes what HTML would read.
-/

namespace Foundation.JsonText

open List

def hexDigit (n : UInt8) : UInt8 := if n < 10 then 48 + n else 87 + n

def escapeByte (b : UInt8) : List UInt8 :=
  if b = 34 ∨ b = 92 then [92, b]
  else if b = 8 then [92, 98]
  else if b = 12 then [92, 102]
  else if b = 10 then [92, 110]
  else if b = 13 then [92, 114]
  else if b = 9 then [92, 116]
  else if b < 32 ∨ b = 60 ∨ b = 62 ∨ b = 38 then [92, 117, 48, 48, hexDigit (b / 16), hexDigit (b % 16)]
  else [b]

def escapeFrom : ℕ → List UInt8 → List UInt8
  | _, [] => []
  | skip + 1, b :: s => b :: escapeFrom skip s
  | 0, 0xE2 :: 0x80 :: 0xA8 :: s => [92, 117, 50, 48, 50, 56] ++ escapeFrom 0 s
  | 0, 0xE2 :: 0x80 :: 0xA9 :: s => [92, 117, 50, 48, 50, 57] ++ escapeFrom 0 s
  | 0, b :: s =>
    if b < 0x80 then escapeByte b ++ escapeFrom 0 s
    else match Utf8.runeLength b s with
      | some n => b :: escapeFrom (n - 1) s
      | none => [92, 117, 102, 102, 102, 100] ++ escapeFrom 0 s

def quote (s : List UInt8) : List UInt8 := 34 :: escapeFrom 0 s ++ [34]

def commas (items : List (List UInt8)) : List UInt8 := [44].intercalate items

def array (items : List (List UInt8)) : List UInt8 := 91 :: commas items ++ [93]

abbrev Field : Type := List UInt8 × List UInt8

def object (fields : List Field) : List UInt8 :=
  123 :: commas (fields.map fun f => 34 :: f.1 ++ [34, 58] ++ f.2) ++ [125]

def fieldIf (p : Prop) [Decidable p] (f : Field) : List Field := if p then [f] else []

theorem length_escapeByte_le (b : UInt8) : (escapeByte b).length ≤ 6 := by
  unfold escapeByte
  repeat' split
  all_goals simp

theorem length_escapeFrom_le (skip : ℕ) (s : List UInt8) : (escapeFrom skip s).length ≤ 6 * s.length := by
  fun_induction escapeFrom skip s with
  | case1 => exact Nat.zero_le _
  | case5 b s _ _ _ ih =>
    have hb := length_escapeByte_le b
    simp only [length_append, length_cons]
    omega
  | _ => simp only [length_append, length_cons, length_nil]; omega

theorem length_quote_le (s : List UInt8) : (quote s).length ≤ 6 * s.length + 2 := by
  have h := length_escapeFrom_le 0 s
  simp only [quote, length_append, length_cons, length_nil]
  omega

theorem escapeFrom_append_ascii {s : List UInt8} (h : ∀ b ∈ s, b < 0x80) (t : List UInt8) :
    escapeFrom 0 (s ++ t) = s.flatMap escapeByte ++ escapeFrom 0 t := by
  induction s with
  | nil => rfl
  | cons b s ih =>
    obtain ⟨hb, hs⟩ := forall_mem_cons.mp h
    have hcons : escapeFrom 0 (b :: (s ++ t)) = escapeByte b ++ escapeFrom 0 (s ++ t) := by
      rw [escapeFrom.eq_5, if_pos hb]
      · rintro s' rfl
        exact absurd hb (by decide)
      · rintro s' rfl
        exact absurd hb (by decide)
    rw [cons_append, hcons, ih hs, flatMap_cons, append_assoc]

theorem escapeFrom_append_render (n : ℕ) (t : List UInt8) :
    escapeFrom 0 (Decimal.render n ++ t) = Decimal.render n ++ escapeFrom 0 t := by
  have hall : ∀ k < 256, Decimal.isDigit (UInt8.ofNat k) = true →
      escapeByte (UInt8.ofNat k) = [UInt8.ofNat k] ∧ UInt8.ofNat k < 0x80 := by decide +kernel
  have hdigit : ∀ c ∈ Decimal.render n, escapeByte c = [c] ∧ c < 0x80 := by
    intro c hc
    have hbyte := hall c.toNat c.toNat_lt
    rw [UInt8.ofNat_toNat] at hbyte
    exact hbyte (Decimal.isDigit_of_mem_render hc)
  rw [escapeFrom_append_ascii fun c hc => (hdigit c hc).2, flatMap_congr fun c hc => (hdigit c hc).1, flatMap_singleton']

theorem length_commas {items : List (List UInt8)} (h : items ≠ []) :
    (commas items).length + 1 = (items.map fun i => i.length + 1).sum := by
  induction items with
  | nil => exact absurd rfl h
  | cons x items ih =>
    cases items with
    | nil => simp [commas, List.intercalate]
    | cons y items =>
      have hrest := ih (cons_ne_nil y items)
      have hcons : commas (x :: y :: items) = x ++ 44 :: commas (y :: items) := by
        simp [commas, List.intercalate, List.intersperse]
      rw [map_cons, sum_cons, ← hrest, hcons, length_append, length_cons]
      omega

def weight (fields : List Field) : ℕ := (fields.map fun f => f.1.length + f.2.length + 4).sum

theorem length_object {fields : List Field} (h : fields ≠ []) : (object fields).length = weight fields + 1 := by
  have hne : fields.map (fun f => 34 :: f.1 ++ [34, 58] ++ f.2) ≠ [] := by simpa using h
  have hcommas := length_commas hne
  have hweight : ((fields.map fun f : Field => 34 :: f.1 ++ [34, 58] ++ f.2).map fun i => i.length + 1).sum =
      weight fields := by
    rw [weight, map_map]
    congr 1
    refine map_congr_left fun f _ => ?_
    simp only [Function.comp_apply, length_append, length_cons, length_nil]
    omega
  rw [hweight] at hcommas
  simp only [object, length_append, length_cons, length_nil]
  omega

theorem weight_nil : weight [] = 0 := rfl

theorem weight_append (xs ys : List Field) : weight (xs ++ ys) = weight xs + weight ys := by
  simp only [weight, map_append, sum_append]

theorem weight_cons (f : Field) (xs : List Field) : weight (f :: xs) = f.1.length + f.2.length + 4 + weight xs := by
  simp only [weight, map_cons, sum_cons]

theorem weight_fieldIf (p : Prop) [Decidable p] (f : Field) :
    weight (fieldIf p f) = if p then f.1.length + f.2.length + 4 else 0 := by
  unfold fieldIf
  split <;> simp [weight]

theorem weight_fieldIf_le (p : Prop) [Decidable p] (f : Field) : weight (fieldIf p f) ≤ f.1.length + f.2.length + 4 := by
  rw [weight_fieldIf]
  split
  · exact Nat.le_refl _
  · exact Nat.zero_le _

section Grammar

def isHex (c : UInt8) : Bool := Decimal.isDigit c || (65 ≤ c && c ≤ 70) || (97 ≤ c && c ≤ 102)

inductive Chars : List UInt8 → Prop
  | nil : Chars []
  | plain {b : UInt8} {s : List UInt8} (hb : 32 ≤ b ∧ b ≠ 34 ∧ b ≠ 92) (hs : Chars s) : Chars (b :: s)
  | escape {b : UInt8} {s : List UInt8} (hb : b ∈ [34, 92, 47, 98, 102, 110, 114, 116]) (hs : Chars s) :
      Chars (92 :: b :: s)
  | hex {a b c d : UInt8} {s : List UInt8} (hdigits : ∀ e ∈ [a, b, c, d], isHex e = true) (hs : Chars s) :
      Chars (92 :: 117 :: a :: b :: c :: d :: s)

def Digits (s : List UInt8) : Prop := s ≠ [] ∧ ∀ c ∈ s, Decimal.isDigit c = true

structure Number (s : List UInt8) : Prop where
  parts : ∃ sign int frac exp, s = sign ++ int ++ frac ++ exp ∧ (sign = [] ∨ sign = [45]) ∧
    Digits int ∧ (int.head? = some 48 → int = [48]) ∧ (frac = [] ∨ ∃ ds, Digits ds ∧ frac = 46 :: ds) ∧
    (exp = [] ∨ ∃ e sign ds, (e = 69 ∨ e = 101) ∧ (sign = [] ∨ sign = [43] ∨ sign = [45]) ∧ Digits ds ∧
      exp = e :: (sign ++ ds))

inductive Valid : List UInt8 → Prop
  | null : Valid [110, 117, 108, 108]
  | true : Valid [116, 114, 117, 101]
  | false : Valid [102, 97, 108, 115, 101]
  | number {s : List UInt8} (h : Number s) : Valid s
  | string {s : List UInt8} (h : Chars s) : Valid (34 :: s ++ [34])
  | array {items : List (List UInt8)} (h : ∀ i ∈ items, Valid i) : Valid (array items)
  | object {fields : List Field} (hnames : ∀ f ∈ fields, Chars f.1) (hvalues : ∀ f ∈ fields, Valid f.2) :
      Valid (object fields)

variable {s : List UInt8}

theorem chars_of_plain (h : ∀ b ∈ s, 32 ≤ b ∧ b ≠ 34 ∧ b ≠ 92) : Chars s := by
  induction s with
  | nil => exact .nil
  | cons b s ih => exact .plain (h b mem_cons_self) (ih fun c hc => h c (mem_cons_of_mem b hc))

theorem isHex_hexDigit (b : UInt8) : isHex (hexDigit (b / 16)) = true ∧ isHex (hexDigit (b % 16)) = true := by
  have hall : ∀ n < 256, isHex (hexDigit (UInt8.ofNat n / 16)) = true ∧ isHex (hexDigit (UInt8.ofNat n % 16)) = true := by
    decide +kernel
  have hb := hall b.toNat b.toNat_lt
  rwa [UInt8.ofNat_toNat] at hb

theorem Chars.escapeByte (hs : Chars s) (b : UInt8) : Chars (escapeByte b ++ s) := by
  unfold JsonText.escapeByte
  split_ifs with h34 h8 h12 h10 h13 h9 hhex
  · refine .escape ?_ hs
    rcases h34 with rfl | rfl <;> decide
  · exact .escape (by decide) hs
  · exact .escape (by decide) hs
  · exact .escape (by decide) hs
  · exact .escape (by decide) hs
  · exact .escape (by decide) hs
  · refine .hex ?_ hs
    simpa [show isHex 48 = true by decide] using isHex_hexDigit b
  · obtain ⟨h34, h92⟩ := not_or.mp h34
    exact .plain ⟨UInt8.not_lt.mp (not_or.mp hhex).1, h34, h92⟩ hs

theorem plain_of_high {b : UInt8} (hb : 0x80 ≤ b) : 32 ≤ b ∧ b ≠ 34 ∧ b ≠ 92 := by
  refine ⟨UInt8.le_trans (by decide) hb, ?_, ?_⟩
  · rintro rfl
    exact absurd hb (by decide)
  · rintro rfl
    exact absurd hb (by decide)

theorem high_of_runeLength {b : UInt8} {n : ℕ} (h : Utf8.runeLength b s = some n) : ∀ c ∈ s.take (n - 1), 0x80 ≤ c := by
  obtain ⟨-, t, r, rfl, hc⟩ := Utf8.runeLength_some h
  rw [← hc.length, Nat.add_sub_cancel, take_left]
  intro c hmem
  have htail := hc.tail c hmem
  simp only [Utf8.lead, Utf8.continues, Bool.not_eq_false', Bool.and_eq_true, decide_eq_true_eq] at htail
  exact htail.1

theorem chars_escapeFrom (skip : ℕ) (h : ∀ b ∈ s.take skip, 0x80 ≤ b) : Chars (escapeFrom skip s) := by
  have hnone : ∀ s : List UInt8, ∀ b ∈ s.take 0, 0x80 ≤ b := fun s b hb => by simp at hb
  fun_induction escapeFrom skip s with
  | case1 => exact .nil
  | case2 skip b s ih =>
    obtain ⟨hb, hs⟩ := forall_mem_cons.mp h
    exact .plain (plain_of_high hb) (ih hs)
  | case3 s ih => exact .hex (by decide +kernel) (ih (hnone s))
  | case4 s ih => exact .hex (by decide +kernel) (ih (hnone s))
  | case5 b s _ _ _ ih => exact (ih (hnone s)).escapeByte b
  | case6 b s _ _ hb n hn ih => exact .plain (plain_of_high (UInt8.not_lt.mp hb)) (ih (high_of_runeLength hn))
  | case7 b s _ _ _ _ ih => exact .hex (by decide +kernel) (ih (hnone s))

theorem valid_quote (s : List UInt8) : Valid (quote s) := .string (chars_escapeFrom 0 (by simp))

theorem valid_render (n : ℕ) : Valid (Decimal.render n) := by
  have hdigits : Digits (Decimal.render n) := ⟨Decimal.render_ne_nil n, fun _ => Decimal.isDigit_of_mem_render⟩
  have hzero : (Decimal.render n).head? = some 48 → Decimal.render n = [48] := by
    intro h
    rw [Decimal.eq_zero_of_head_render h]
    rfl
  exact .number ⟨[], Decimal.render n, [], [], by simp, .inl rfl, hdigits, hzero, .inl rfl, .inl rfl⟩

end Grammar

end Foundation.JsonText
