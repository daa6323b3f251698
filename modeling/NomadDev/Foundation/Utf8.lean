import Mathlib.Data.List.Basic

/-!
Byte strings read as UTF-8, and the two ways of writing one that is not well formed with U+FFFD in place of what
cannot be read.
-/

namespace Foundation.Utf8

open List

def continues (lo hi : UInt8) (b : UInt8) : Bool := lo ≤ b && b ≤ hi

def tail1 (lo hi : UInt8) : List UInt8 → Option ℕ
  | b :: _ => if continues lo hi b then some 2 else none
  | [] => none

def tail2 (lo hi : UInt8) : List UInt8 → Option ℕ
  | b :: c :: _ => if continues lo hi b && continues 0x80 0xBF c then some 3 else none
  | _ => none

def tail3 (lo hi : UInt8) : List UInt8 → Option ℕ
  | b :: c :: d :: _ =>
    if continues lo hi b && continues 0x80 0xBF c && continues 0x80 0xBF d then some 4 else none
  | _ => none

def runeLength (b : UInt8) (s : List UInt8) : Option ℕ :=
  if b < 0x80 then some 1
  else if b < 0xC2 then none
  else if b < 0xE0 then tail1 0x80 0xBF s
  else if b = 0xE0 then tail2 0xA0 0xBF s
  else if b = 0xED then tail2 0x80 0x9F s
  else if b < 0xF0 then tail2 0x80 0xBF s
  else if b = 0xF0 then tail3 0x90 0xBF s
  else if b < 0xF4 then tail3 0x80 0xBF s
  else if b = 0xF4 then tail3 0x80 0x8F s
  else none

def replacement : List UInt8 := [0xEF, 0xBF, 0xBD]

def coerceFrom : ℕ → List UInt8 → List UInt8
  | _, [] => []
  | skip + 1, b :: s => b :: coerceFrom skip s
  | 0, b :: s =>
    match runeLength b s with
    | some n => b :: coerceFrom (n - 1) s
    | none => replacement ++ coerceFrom 0 s

def coerce (s : List UInt8) : List UInt8 := coerceFrom 0 s

def validFrom : ℕ → List UInt8 → Bool
  | _, [] => true
  | skip + 1, _ :: s => validFrom skip s
  | 0, b :: s =>
    match runeLength b s with
    | some n => validFrom (n - 1) s
    | none => false

def valid (s : List UInt8) : Bool := validFrom 0 s

def toValidFrom : ℕ → Bool → List UInt8 → List UInt8
  | _, _, [] => []
  | skip + 1, _, b :: s => b :: toValidFrom skip false s
  | 0, bad, b :: s =>
    match runeLength b s with
    | some n => b :: toValidFrom (n - 1) false s
    | none => (if bad then [] else replacement) ++ toValidFrom 0 true s

def toValid (s : List UInt8) : List UInt8 := toValidFrom 0 false s

theorem length_le_coerceFrom (skip : ℕ) (s : List UInt8) : s.length ≤ (coerceFrom skip s).length := by
  fun_induction coerceFrom skip s with
  | case1 => exact Nat.le_refl 0
  | case2 skip b s ih => simpa using ih
  | case3 b s n _ ih => simpa using ih
  | case4 b s _ ih =>
    simp only [length_append, length_cons, replacement]
    omega

theorem coerceFrom_eq_self_iff (skip : ℕ) (s : List UInt8) : coerceFrom skip s = s ↔ validFrom skip s = true := by
  fun_induction coerceFrom skip s with
  | case1 => simp [validFrom]
  | case2 skip b s ih => simp [validFrom, ih]
  | case3 b s n h ih => simp [validFrom, h, ih]
  | case4 b s h ih =>
    have hlen := length_le_coerceFrom 0 s
    refine iff_of_false (fun heq => ?_) (by simp [validFrom, h])
    have hcount := congrArg List.length heq
    simp only [length_append, length_cons, replacement] at hcount
    omega

theorem coerce_eq_self_iff (s : List UInt8) : coerce s = s ↔ valid s = true := coerceFrom_eq_self_iff 0 s

variable {b hi lo : UInt8} {q s : List UInt8}

def lead (b : UInt8) : Bool := !continues 0x80 0xBF b

def leads (s : List UInt8) : ℕ := s.countP lead

structure Completes (f : List UInt8 → Option ℕ) (n : ℕ) (t : List UInt8) : Prop where
  length : t.length + 1 = n
  tail : ∀ c ∈ t, lead c = false
  enough : ∀ r, f (t ++ r) = some n
  short : ∀ k < t.length, f (t.take k) = none

def Reads (f : List UInt8 → Option ℕ) : Prop := ∀ s n, f s = some n → ∃ t r, s = t ++ r ∧ Completes f n t

theorem reads_one : Reads fun _ => some 1 := by
  intro s n h
  cases h
  exact ⟨[], s, rfl, rfl, by simp, fun _ => rfl, by simp⟩

theorem reads_none : Reads fun _ => none := by
  nofun

theorem reads_ite {p : Prop} [Decidable p] {f g : List UInt8 → Option ℕ} (hf : Reads f) (hg : Reads g) :
    Reads (if p then f else g) := by
  split
  · exact hf
  · exact hg

theorem continues_mono (hlo : 0x80 ≤ lo) (hhi : hi ≤ 0xBF) (h : continues lo hi b = true) : lead b = false := by
  simp only [continues, lead, Bool.and_eq_true, decide_eq_true_eq, Bool.not_eq_false'] at *
  exact ⟨UInt8.le_trans hlo h.1, UInt8.le_trans h.2 hhi⟩

theorem reads_tail1 (hlo : 0x80 ≤ lo) (hhi : hi ≤ 0xBF) : Reads (tail1 lo hi) := by
  intro s n h
  unfold tail1 at h
  split at h
  next b r =>
    split at h <;> cases h
    next hb =>
      refine ⟨[b], r, rfl, rfl, ?_, fun r => ?_, fun k hk => ?_⟩
      · simpa using continues_mono hlo hhi hb
      · simp [tail1, hb]
      · simp_all [tail1]
  next => cases h

theorem reads_tail2 (hlo : 0x80 ≤ lo) (hhi : hi ≤ 0xBF) : Reads (tail2 lo hi) := by
  intro s n h
  unfold tail2 at h
  split at h
  next b c r =>
    split at h <;> cases h
    next hbc =>
      obtain ⟨hb, hc⟩ := Bool.and_eq_true_iff.mp hbc
      refine ⟨[b, c], r, rfl, rfl, ?_, fun r => ?_, fun k hk => ?_⟩
      · simpa using ⟨continues_mono hlo hhi hb, continues_mono (by decide) (by decide) hc⟩
      · simp [tail2, hbc]
      · match k, hk with
        | 0, _ | 1, _ => rfl
  next => cases h

theorem reads_tail3 (hlo : 0x80 ≤ lo) (hhi : hi ≤ 0xBF) : Reads (tail3 lo hi) := by
  intro s n h
  unfold tail3 at h
  split at h
  next b c d r =>
    split at h <;> cases h
    next hbcd =>
      obtain ⟨hbc, hd⟩ := Bool.and_eq_true_iff.mp hbcd
      obtain ⟨hb, hc⟩ := Bool.and_eq_true_iff.mp hbc
      refine ⟨[b, c, d], r, rfl, rfl, ?_, fun r => ?_, fun k hk => ?_⟩
      · simpa using ⟨continues_mono hlo hhi hb, continues_mono (by decide) (by decide) hc,
          continues_mono (by decide) (by decide) hd⟩
      · simp [tail3, hbcd]
      · match k, hk with
        | 0, _ | 1, _ | 2, _ => rfl
  next => cases h

theorem runeLength_of_not_lead (hb : lead b = false) (s : List UInt8) : runeLength b s = none := by
  simp only [lead, continues, Bool.not_eq_false', Bool.and_eq_true, decide_eq_true_eq] at hb
  have hlo : ¬b < 0x80 := UInt8.not_lt.mpr hb.1
  have hhi : b < 0xC2 := UInt8.lt_of_le_of_lt hb.2 (by decide)
  rw [runeLength, if_neg hlo, if_pos hhi]

def runeTail (b : UInt8) : List UInt8 → Option ℕ :=
  if b < 0x80 then fun _ => some 1
  else if b < 0xC2 then fun _ => none
  else if b < 0xE0 then tail1 0x80 0xBF
  else if b = 0xE0 then tail2 0xA0 0xBF
  else if b = 0xED then tail2 0x80 0x9F
  else if b < 0xF0 then tail2 0x80 0xBF
  else if b = 0xF0 then tail3 0x90 0xBF
  else if b < 0xF4 then tail3 0x80 0xBF
  else if b = 0xF4 then tail3 0x80 0x8F
  else fun _ => none

theorem runeLength_eq (b : UInt8) : runeLength b = runeTail b := by
  funext s
  simp only [runeLength, runeTail, ite_apply]

theorem reads_runeTail (b : UInt8) : Reads (runeTail b) := by
  unfold runeTail
  apply reads_ite reads_one
  apply reads_ite reads_none
  apply reads_ite (reads_tail1 (by decide) (by decide))
  apply reads_ite (reads_tail2 (by decide) (by decide))
  apply reads_ite (reads_tail2 (by decide) (by decide))
  apply reads_ite (reads_tail2 (by decide) (by decide))
  apply reads_ite (reads_tail3 (by decide) (by decide))
  apply reads_ite (reads_tail3 (by decide) (by decide))
  exact reads_ite (reads_tail3 (by decide) (by decide)) reads_none

theorem runeLength_some {n : ℕ} (h : runeLength b s = some n) :
    lead b = true ∧ ∃ t r, s = t ++ r ∧ Completes (runeLength b) n t := by
  constructor
  · by_contra hb
    rw [runeLength_of_not_lead (eq_false_of_ne_true hb)] at h
    cases h
  · rw [runeLength_eq] at h ⊢
    exact reads_runeTail b s n h

theorem validFrom_skip (t r : List UInt8) : validFrom t.length (t ++ r) = valid r := by
  induction t with
  | nil => rfl
  | cons c t ih => exact ih

theorem toValidFrom_skip (t q : List UInt8) : toValidFrom t.length false (t ++ q) = t ++ toValidFrom 0 false q := by
  induction t with
  | nil => rfl
  | cons c t ih => exact congrArg (c :: ·) ih

section Character

variable {b : UInt8} {n : ℕ} {t : List UInt8} (ht : Completes (runeLength b) n t)
include ht

theorem Completes.valid (r : List UInt8) : valid (b :: (t ++ r)) = Utf8.valid r := by
  rw [Utf8.valid, validFrom, ht.enough r]
  have hn : n - 1 = t.length := by
    rw [← ht.length]
    rfl
  simp only [hn]
  exact validFrom_skip t r

theorem Completes.toValidFrom (bad : Bool) (q : List UInt8) :
    toValidFrom 0 bad (b :: (t ++ q)) = b :: (t ++ Utf8.toValidFrom 0 false q) := by
  rw [Utf8.toValidFrom, ht.enough q]
  have hn : n - 1 = t.length := by
    rw [← ht.length]
    rfl
  simp only [hn]
  rw [toValidFrom_skip]

end Character

theorem valid_induction {motive : (s : List UInt8) → valid s = true → Prop} (nil : motive [] rfl)
    (char : ∀ b n t s (_ : lead b = true) (ht : Completes (runeLength b) n t) (hs : valid s = true), motive s hs →
      motive (b :: (t ++ s)) ((ht.valid s).trans hs)) (h : valid s = true) : motive s h := by
  induction hn : s.length using Nat.strongRecOn generalizing s with
  | ind k ih =>
    cases s with
    | nil => exact nil
    | cons b s =>
      cases hrune : runeLength b s with
      | none => simp [valid, validFrom, hrune] at h
      | some n =>
        obtain ⟨hb, t, rest, rfl, ht⟩ := runeLength_some hrune
        have hrest : valid rest = true := (ht.valid rest).symm.trans h
        have hlt : rest.length < k := by
          rw [← hn, length_cons, length_append]
          omega
        exact char b n t rest hb ht hrest (ih rest.length hlt hrest rfl)

inductive Cut (q r : List UInt8) : Prop
  | between (hq : valid q = true) (hr : valid r = true)
  | inside (mid : List UInt8) (b : UInt8) (u v r' : List UInt8) (hq : q = mid ++ b :: u) (hr : r = v ++ r')
      (hmid : valid mid = true) (hb : lead b = true) (hu : ∀ c ∈ u, lead c = false) (hnone : runeLength b u = none)
      (hv : ∀ c ∈ v, lead c = false) (hne : v ≠ []) (hr' : valid r' = true)

theorem valid_cut {r : List UInt8} (h : valid (q ++ r) = true) : Cut q r := by
  generalize hs : q ++ r = s at h
  induction h using valid_induction generalizing q with
  | nil =>
    obtain ⟨rfl, rfl⟩ := append_eq_nil_iff.mp hs
    exact .between rfl rfl
  | char b n t s hb ht hvalid ih =>
    cases q with
    | nil =>
      subst hs
      exact .between rfl ((ht.valid s).trans hvalid)
    | cons b' q =>
      obtain ⟨rfl, hsplit⟩ := List.cons.inj hs
      rcases append_eq_append_iff.mp hsplit with ⟨v, rfl, rfl⟩ | ⟨q', rfl, hrest⟩
      · cases v with
        | nil =>
          rw [append_nil] at ht
          have hq := ht.valid []
          rw [append_nil] at hq
          exact .between hq hvalid
        | cons c v =>
          have hshort := ht.short q.length (by simp)
          rw [take_left] at hshort
          refine .inside [] b' q (c :: v) s rfl rfl rfl hb ?_ hshort ?_ (cons_ne_nil c v) hvalid
          · exact fun x hx => ht.tail x (mem_append_left _ hx)
          · exact fun x hx => ht.tail x (mem_append_right _ hx)
      · cases ih hrest.symm with
        | between hq hr => exact .between ((ht.valid q').trans hq) hr
        | inside mid b u v r' hq hr hmid hb' hu hnone hv hne hr' =>
          refine .inside (b' :: (t ++ mid)) b u v r' ?_ hr ((ht.valid mid).trans hmid) hb' hu hnone hv hne hr'
          rw [hq, cons_append, append_assoc]

theorem toValidFrom_valid (h : valid s = true) (bad : Bool) (q : List UInt8) :
    toValidFrom 0 bad (s ++ q) = s ++ toValidFrom 0 (bad && s.isEmpty) q := by
  induction h using valid_induction generalizing bad with
  | nil => simp
  | char b n t s _ ht _ ih =>
    rw [cons_append, append_assoc, ht.toValidFrom, ih]
    simp

theorem toValid_of_valid (h : valid s = true) : toValid s = s := by
  have hcopy := toValidFrom_valid h false []
  rw [append_nil] at hcopy
  exact hcopy.trans (append_nil s)

theorem toValidFrom_tail {t : List UInt8} (ht : ∀ c ∈ t, lead c = false) (hne : t ≠ []) (bad : Bool) (q : List UInt8) :
    toValidFrom 0 bad (t ++ q) = (if bad then [] else replacement) ++ toValidFrom 0 true q := by
  induction t generalizing bad with
  | nil => exact absurd rfl hne
  | cons c t ih =>
    rw [forall_mem_cons] at ht
    rw [cons_append, toValidFrom, runeLength_of_not_lead ht.1]
    cases t with
    | nil => rfl
    | cons d t => simp only [ih ht.2 (cons_ne_nil d t) true, if_true, nil_append]

theorem toValidFrom_cut {u : List UInt8} (hu : ∀ c ∈ u, lead c = false) (hnone : runeLength b u = none)
    (bad : Bool) : toValidFrom 0 bad (b :: u) = if bad then [] else replacement := by
  rw [toValidFrom, hnone]
  cases u with
  | nil => exact append_nil _
  | cons c u =>
    have hrun := toValidFrom_tail hu (cons_ne_nil c u) true []
    rw [append_nil] at hrun
    simp only [hrun]
    exact append_nil _

theorem leads_append (s t : List UInt8) : leads (s ++ t) = leads s + leads t := countP_append

theorem leads_tail {t : List UInt8} (ht : ∀ c ∈ t, lead c = false) : leads t = 0 := by
  rw [leads, countP_eq_zero]
  intro c hc
  rw [ht c hc]
  exact Bool.false_ne_true

theorem leads_replacement : leads replacement = 1 := by decide

section Piece

variable {v : List UInt8} (hv : ∀ c ∈ v, lead c = false)
include hv

theorem toValid_tail_append (q : List UInt8) :
    toValid (v ++ q) = (if v = [] then [] else replacement) ++ toValidFrom 0 (decide (v ≠ [])) q := by
  by_cases hne : v = []
  · subst hne
    rfl
  · rw [toValid, toValidFrom_tail hv hne, if_neg hne, decide_eq_true hne]
    rfl

theorem leads_toValid_valid (hq : valid q = true) : leads (toValid (v ++ q)) = (if v = [] then 0 else 1) + leads q := by
  have hcopy := toValidFrom_valid hq (decide (v ≠ [])) []
  rw [append_nil] at hcopy
  rw [toValid_tail_append hv, hcopy, leads_append, leads_append]
  split
  · rfl
  · rw [leads_replacement]
    rfl

theorem leads_toValid_cut {mid u : List UInt8} (hmid : valid mid = true) (hu : ∀ c ∈ u, lead c = false)
    (hnone : runeLength b u = none) :
    leads (v ++ (mid ++ b :: u)) ≤ leads (toValid (v ++ (mid ++ b :: u))) := by
  have hone : leads (b :: u) ≤ 1 := by
    rw [← singleton_append, leads_append, leads_tail hu]
    exact countP_le_length
  rw [toValid_tail_append hv, toValidFrom_valid hmid, toValidFrom_cut hu hnone]
  simp only [leads_append, leads_tail hv]
  by_cases hne : v = []
  · simp [hne, leads_replacement]
    omega
  · simp [hne, leads_replacement]
    omega

theorem leads_whole_piece {m n : ℕ} {P : Prop} (hq : valid q = true) (hle : m ≤ n) (hlt : P → m < n) :
    leads (v ++ q) + m ≤ leads (toValid (v ++ q)) + n ∧
      (v ≠ [] ∨ valid (v ++ q) = false ∨ P → leads (v ++ q) + m < leads (toValid (v ++ q)) + n) := by
  rw [leads_toValid_valid hv hq, leads_append, leads_tail hv]
  by_cases hne : v = []
  · subst hne
    refine ⟨by simpa using hle, ?_⟩
    rintro (h | h | h)
    · exact absurd rfl h
    · cases hq.symm.trans h
    · simpa using hlt h
  · rw [if_neg hne]
    exact ⟨by omega, fun _ => by omega⟩

end Piece

theorem leads_pieces {ps : List (List UInt8)} {v r : List UInt8} (hflat : ps.flatten = v ++ r)
    (hv : ∀ c ∈ v, lead c = false) (hr : valid r = true) :
    leads ps.flatten ≤ leads (ps.flatMap toValid) ∧
      (v ≠ [] ∨ (∃ p ∈ ps, valid p = false) → leads ps.flatten < leads (ps.flatMap toValid)) := by
  induction ps generalizing v r with
  | nil =>
    obtain ⟨rfl, rfl⟩ := append_eq_nil_iff.mp hflat.symm
    refine ⟨Nat.le_refl _, ?_⟩
    rintro (h | ⟨p, hp, -⟩)
    · exact absurd rfl h
    · cases hp
  | cons p ps ih =>
    rw [flatten_cons] at hflat
    rw [flatten_cons, flatMap_cons, leads_append, leads_append]
    rw [exists_mem_cons_iff]
    rcases append_eq_append_iff.mp hflat with ⟨w, rfl, hps⟩ | ⟨q, rfl, rfl⟩
    · rw [forall_mem_append] at hv
      obtain ⟨hle, hlt⟩ := ih hps hv.2 hr
      have hpiece := leads_whole_piece hv.1 (q := []) rfl hle hlt
      rw [append_nil] at hpiece
      refine ⟨hpiece.1, ?_⟩
      rintro (h | h | h)
      · by_cases hp : p = []
        · subst hp
          exact hpiece.2 (.inr (.inr (.inl h)))
        · exact hpiece.2 (.inl hp)
      · exact hpiece.2 (.inr (.inl h))
      · exact hpiece.2 (.inr (.inr (.inr h)))
    · cases valid_cut hr with
      | between hq hrest =>
        obtain ⟨hle, hlt⟩ := ih (nil_append ps.flatten).symm (fun _ hc => absurd hc not_mem_nil) hrest
        exact leads_whole_piece hv hq hle fun h => hlt (.inr h)
      | inside mid b u w r' hq hrest hmid hb hu hnone hw hne hr' =>
        have hlt := (ih hrest hw hr').2 (.inl hne)
        have hp := leads_toValid_cut hv hmid hu hnone
        rw [← hq] at hp
        exact ⟨by omega, fun _ => by omega⟩

theorem flatMap_toValid_eq_iff {ps : List (List UInt8)} (h : valid ps.flatten = true) :
    ps.flatMap toValid = ps.flatten ↔ ∀ p ∈ ps, valid p = true := by
  constructor
  · intro heq p hp
    by_contra hinvalid
    have hlt := (leads_pieces (nil_append ps.flatten).symm (fun _ hc => absurd hc not_mem_nil) h).2
      (.inr ⟨p, hp, eq_false_of_ne_true hinvalid⟩)
    rw [heq] at hlt
    exact Nat.lt_irrefl _ hlt
  · intro hall
    rw [flatMap_def, map_congr_left fun p hp => toValid_of_valid (hall p hp), map_id']

end Foundation.Utf8
