import NomadDev.WorkspacePaths

namespace NomadDev.Fsops

open Foundation.FileTree Foundation.PathText List

abbrev Bytes : Type := List UInt8

def dot : UInt8 := 46
def underscore : UInt8 := 95

def allowed (c : UInt8) : Bool :=
  (97 ≤ c && c ≤ 122) || (65 ≤ c && c ≤ 90) || (48 ≤ c && c ≤ 57) || c == 45 || c == underscore || c == dot

def maxLen : ℕ := 64

-- `sanitizeSID` stands twice in the source, in fsops and in sandbox, with the same body.
def sanitizeStep (b : Bytes) (c : UInt8) : Bytes :=
  if allowed c then
    if c == dot && b.getLast? == some dot then b.dropLast ++ [underscore, underscore] else b ++ [c]
  else b ++ [underscore]

def sanitizeFrom (b : Bytes) : Bytes → Bytes
  | [] => b
  | c :: cs => if b.length < maxLen then sanitizeFrom (sanitizeStep b c) cs else b

def sanitizeSID (sid : Bytes) : Bytes := if sid = [] then [] else sanitizeFrom [] sid

def chars (b : Bytes) : List Char := b.map fun c => Char.ofNat c.toNat

variable (root : List Name)

def join (elem : List Char) : List Name :=
  let cleaned := clean (root.map PathPart.name ++ parse elem)
  cleaned.2

inductive Backend
  | fsops | docker | lsp

structure Engine where
  root : List Name
  perSession : Bool

def Engine.rootForCtx (e : Engine) (sid : Bytes) : List Name :=
  if !e.perSession then e.root
  else if sanitizeSID sid = [] then e.root
  else join e.root (chars (sanitizeSID sid))

def mountSrc (workspaceDir : List Name) (perSessionWS : Bool) (sid : Bytes) : List Name :=
  if perSessionWS && sid != [] then join workspaceDir (chars (sanitizeSID sid)) else workspaceDir

def rootFor (workspaceDir : List Name) (perSession : Bool) (sid : Bytes) : List Name :=
  if perSession && sid != [] then join workspaceDir (chars (sanitizeSID sid)) else workspaceDir

def sessionDir (sid : Bytes) : Backend → List Name
  | .fsops => Engine.rootForCtx ⟨root, true⟩ sid
  | .docker => mountSrc root true sid
  | .lsp => rootFor root true sid

def mask : Bytes → Bytes
  | [] => []
  | [c] => [if allowed c then c else underscore]
  | c :: d :: cs =>
    if c = dot ∧ d = dot then underscore :: underscore :: mask cs
    else (if allowed c then c else underscore) :: mask (d :: cs)

def Isolated (a b : Bytes) : Prop :=
  ∀ x y : Backend,
    (root <+: sessionDir root a x ∧ sessionDir root a x ≠ root) ∧
    (root <+: sessionDir root b y ∧ sessionDir root b y ≠ root) ∧
    ¬ sessionDir root a x <+: sessionDir root b y ∧ ¬ sessionDir root b y <+: sessionDir root a x

theorem allowed_dot : allowed dot = true := by decide

def maskByte (c : UInt8) : UInt8 := if allowed c then c else underscore

variable {c : UInt8}

theorem maskByte_ne_dot (hc : c ≠ dot) : maskByte c ≠ dot := by
  unfold maskByte
  split
  · exact hc
  · decide

theorem mask_cons (hc : c ≠ dot) (cs : Bytes) : mask (c :: cs) = maskByte c :: mask cs := by
  cases cs with
  | nil => rfl
  | cons d cs => simp [mask, maskByte, hc]

theorem mask_dot_dot (cs : Bytes) : mask (dot :: dot :: cs) = underscore :: underscore :: mask cs := by
  simp [mask]

theorem mask_dot_cons {d : UInt8} (hd : d ≠ dot) (cs : Bytes) : mask (dot :: d :: cs) = dot :: mask (d :: cs) := by
  simp [mask, hd, allowed_dot]

theorem sanitizeStep_of_ne (hc : c ≠ dot) (b : Bytes) : sanitizeStep b c = b ++ [maskByte c] := by
  unfold sanitizeStep maskByte
  split <;> simp [hc]

variable {b : Bytes}

theorem sanitizeStep_dot (hb : b.getLast? ≠ some dot) : sanitizeStep b dot = b ++ [dot] := by
  simp [sanitizeStep, hb, allowed_dot]

theorem sanitizeStep_second_dot (b : Bytes) : sanitizeStep (b ++ [dot]) dot = b ++ [underscore, underscore] := by
  simp [sanitizeStep, allowed_dot]

theorem sanitizeFrom_eq (cs : Bytes) : ∀ b : Bytes,
    (b.getLast? ≠ some dot → sanitizeFrom b cs = b ++ mask (cs.take (maxLen - b.length))) ∧
    (b.length < maxLen → sanitizeFrom (b ++ [dot]) cs = b ++ mask (dot :: cs.take (maxLen - (b.length + 1)))) := by
  induction cs with
  | nil =>
    intro b
    exact ⟨fun _ => by simp [sanitizeFrom, mask], fun _ => by simp [sanitizeFrom, mask, allowed_dot]⟩
  | cons c cs ih =>
    intro b
    constructor
    · intro hb
      by_cases hl : b.length < maxLen
      · have ht : maxLen - b.length = maxLen - (b.length + 1) + 1 := by omega
        rw [sanitizeFrom, if_pos hl, ht, take_succ_cons]
        by_cases hc : c = dot
        · subst hc
          rw [sanitizeStep_dot hb]
          exact (ih b).2 hl
        · rw [sanitizeStep_of_ne hc, mask_cons hc, (ih _).1 (by simpa using maskByte_ne_dot hc)]
          simp
      · rw [sanitizeFrom, if_neg hl, show maxLen - b.length = 0 by omega]
        simp [mask]
    · intro _
      by_cases hl : b.length + 1 < maxLen
      · have ht : maxLen - (b.length + 1) = maxLen - (b.length + 2) + 1 := by omega
        rw [sanitizeFrom, if_pos (by simpa using hl), ht, take_succ_cons]
        by_cases hc : c = dot
        · subst hc
          rw [sanitizeStep_second_dot, mask_dot_dot, (ih _).1 (by simp [show underscore ≠ dot from by decide])]
          simp
        · rw [sanitizeStep_of_ne hc, mask_dot_cons hc, mask_cons hc, (ih _).1 (by simpa using maskByte_ne_dot hc)]
          simp
      · rw [sanitizeFrom, if_neg (by simpa using hl), show maxLen - (b.length + 1) = 0 by omega]
        simp [mask, allowed_dot]

theorem sanitizeSID_eq (sid : Bytes) : sanitizeSID sid = mask (sid.take maxLen) := by
  unfold sanitizeSID
  split
  next h => simp [h, mask]
  next => simpa using (sanitizeFrom_eq sid []).1 (by simp)

theorem length_mask (s : Bytes) : (mask s).length = s.length := by
  induction s using mask.induct with
  | case1 => rfl
  | case2 c => rfl
  | case3 c d cs h ih => simp [mask, h, ih]
  | case4 c d cs h ih => rw [mask, if_neg h, length_cons, ih]; rfl

theorem mask_allowed (s : Bytes) : ∀ c ∈ mask s, allowed c = true := by
  have hu : allowed underscore = true := by decide
  have hb : ∀ c, allowed (if allowed c then c else underscore) = true := by
    intro c
    split
    · assumption
    · exact hu
  induction s using mask.induct with
  | case1 => simp [mask]
  | case2 c => simpa [mask] using hb c
  | case3 c d cs h ih => simpa [mask, h, hu] using ih
  | case4 c d cs h ih =>
    rw [mask, if_neg h]
    exact forall_mem_cons.mpr ⟨hb c, ih⟩

theorem mask_eq_dot {s : Bytes} : mask s = [dot] ↔ s = [dot] := by
  constructor
  · intro h
    obtain ⟨c, rfl⟩ := length_eq_one_iff.mp (by rw [← length_mask s, h]; rfl)
    by_cases hc : c = dot
    · rw [hc]
    · rw [mask_cons hc] at h
      exact absurd (List.cons.inj h).1 (maskByte_ne_dot hc)
  · rintro rfl
    decide

theorem mask_ne_dot_dot (s : Bytes) : mask s ≠ [dot, dot] := by
  intro h
  obtain ⟨c, d, rfl⟩ := length_eq_two.mp (by rw [← length_mask s, h]; rfl)
  by_cases hc : c = dot
  · by_cases hd : d = dot
    · subst hc hd
      exact absurd h (by decide)
    · rw [hc, mask_dot_cons hd, mask_cons hd] at h
      exact maskByte_ne_dot hd (List.cons.inj (List.cons.inj h).2).1
  · rw [mask_cons hc] at h
    exact maskByte_ne_dot hc (List.cons.inj h).1

theorem toNat_char (c : UInt8) : (Char.ofNat c.toNat).toNat = c.toNat := by
  have hc := c.toNat_lt
  rw [Char.ofNat, dif_pos (Or.inl (by omega))]
  rfl

theorem char_ofNat_injective : Function.Injective fun c : UInt8 => Char.ofNat c.toNat := by
  intro c d h
  exact UInt8.toNat_inj.mp ((toNat_char c).symm.trans ((congrArg Char.toNat h).trans (toNat_char d)))

theorem chars_injective : Function.Injective chars :=
  map_injective_iff.mpr char_ofNat_injective

theorem slash_not_mem_chars (hb : ∀ c ∈ b, allowed c = true) : '/' ∉ chars b := by
  intro h
  obtain ⟨c, hc, he⟩ := mem_map.mp h
  have hs : c = 47 := char_ofNat_injective (he.trans rfl)
  exact absurd (hb c hc) (by rw [hs]; decide)

theorem join_of_no_slash (root : List Name) {elem : List Char} (h : '/' ∉ elem) :
    join root elem = (cleanStep (0, root) (toPart elem)).2 := by
  simp only [join, parse, splitOn_eq_singleton h, map_cons, map_nil, clean_names, foldl_cons, foldl_nil]

variable {sid : Bytes}

theorem sanitizeSID_ne_nil (hs : sid ≠ []) : sanitizeSID sid ≠ [] := by
  rw [sanitizeSID_eq, ← length_pos_iff, length_mask, length_pos_iff]
  simp [hs, maxLen]

theorem sessionDir_eq (root : List Name) (hs : sid ≠ []) (x : Backend) :
    sessionDir root sid x = join root (chars (mask (sid.take maxLen))) := by
  have hn := sanitizeSID_ne_nil hs
  cases x with
  | fsops =>
    simp only [sessionDir, Engine.rootForCtx, Bool.not_true, Bool.false_eq_true, if_false, hn, ← sanitizeSID_eq]
  | docker => simp [sessionDir, mountSrc, hs, sanitizeSID_eq]
  | lsp => simp [sessionDir, rootFor, hs, sanitizeSID_eq]

theorem sessionDir_dot (root : List Name) (x : Backend) : sessionDir root [dot] x = root := by
  rw [sessionDir_eq root (by simp), join_of_no_slash root (slash_not_mem_chars (mask_allowed _))]
  rfl

theorem take_maxLen_eq_dot (h : sid.take maxLen = [dot]) : sid = [dot] := by
  cases sid with
  | nil => simp at h
  | cons c cs =>
    cases cs with
    | nil => exact h
    | cons d cs => simp [maxLen] at h

theorem ordinary_mask (hs : sid ≠ []) (hd : sid ≠ [dot]) : Ordinary (chars (mask (sid.take maxLen))) := by
  refine ⟨?_, slash_not_mem_chars (mask_allowed _), ?_, ?_⟩
  · rw [← sanitizeSID_eq, chars]
    exact map_eq_nil_iff.not.mpr (sanitizeSID_ne_nil hs)
  · intro h
    have hm : mask (sid.take maxLen) = [dot] := chars_injective h
    exact hd (take_maxLen_eq_dot (mask_eq_dot.mp hm))
  · intro h
    have hm : mask (sid.take maxLen) = [dot, dot] := chars_injective h
    exact mask_ne_dot_dot _ hm

theorem sessionDir_below (root : List Name) (hs : sid ≠ []) (hd : sid ≠ [dot]) (x : Backend) :
    sessionDir root sid x = root ++ [⟨chars (mask (sid.take maxLen)), ordinary_mask hs hd⟩] := by
  rw [sessionDir_eq root hs, join_of_no_slash root (slash_not_mem_chars (mask_allowed _)), toPart,
    dif_pos (ordinary_mask hs hd)]
  rfl

theorem isolated_iff_masks_ne (root : List Name) {a b : Bytes} (ha : a ≠ []) (hb : b ≠ []) :
    Isolated root a b ↔ a ≠ [dot] ∧ b ≠ [dot] ∧ mask (a.take maxLen) ≠ mask (b.take maxLen) := by
  constructor
  · intro h
    obtain ⟨⟨_, hra⟩, ⟨_, hrb⟩, hab, _⟩ := h .fsops .fsops
    have ha' : a ≠ [dot] := by
      rintro rfl
      exact hra (sessionDir_dot root _)
    have hb' : b ≠ [dot] := by
      rintro rfl
      exact hrb (sessionDir_dot root _)
    refine ⟨ha', hb', fun hm => hab ?_⟩
    rw [sessionDir_eq root ha, sessionDir_eq root hb, hm]
  · rintro ⟨ha', hb', hm⟩ x y
    have hne : chars (mask (a.take maxLen)) ≠ chars (mask (b.take maxLen)) := chars_injective.ne hm
    rw [sessionDir_below root ha ha', sessionDir_below root hb hb']
    simp only [prefix_append_right_inj, cons_prefix_cons, Subtype.mk.injEq]
    exact ⟨⟨prefix_append _ _, by simp⟩, ⟨prefix_append _ _, by simp⟩, fun h => hne h.1, fun h => hne h.1.symm⟩

theorem isolated_s1_s2 : Isolated [ws] [115, 49] [115, 50] :=
  (isolated_iff_masks_ne [ws] (by decide) (by decide)).mpr (by decide)

theorem not_isolated_slash : ([97, 47, 98] : Bytes) ≠ [97, 95, 98] ∧ ¬ Isolated [ws] [97, 47, 98] [97, 95, 98] ∧
      ¬ Isolated [ws] [dot] [97, 95, 98] := by
  refine ⟨by decide, fun h => (h .fsops .docker).2.2.1 ?_, fun h => (h .fsops .docker).1.2 rfl⟩
  exact prefix_rfl

end NomadDev.Fsops
