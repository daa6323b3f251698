import NomadDev.DaemonLines
import NomadDev.Foundation.Lines
import NomadDev.Foundation.Scanning

namespace NomadDev.DaemonLogs

open Foundation.Scanning Foundation.Lines List

inductive Token (max : ℕ) (p : List UInt8) (atEOF : Bool) : ℕ → List UInt8 → Bool → Prop
  | line (l r : List UInt8) (hp : p = l ++ 10 :: r) (hl : 10 ∉ l) (hle : l.length ≤ max) :
      Token max p atEOF (l.length + 1) (dropCR l) false
  | capped (hle : max ≤ p.length) (hnone : 10 ∉ p.take (max + 1)) : Token max p atEOF max (p.take max) true
  | last (heof : atEOF = true) (hne : p ≠ []) (hnone : 10 ∉ p) (hlt : p.length < max) :
      Token max p atEOF p.length (dropCR p) false

variable {l p r t x : List UInt8}

section Split

variable {max advance : ℕ} {p : List UInt8} {atEOF : Bool}

theorem idxOf_newline (hl : 10 ∉ l) (r : List UInt8) : (l ++ 10 :: r).idxOf 10 = l.length := by
  rw [idxOf_append_of_notMem hl, idxOf_cons_self]
  rfl

theorem idxOf_newline? (hl : 10 ∉ l) (r : List UInt8) : (l ++ 10 :: r).idxOf? 10 = some l.length := by
  induction l with
  | nil => simp [List.idxOf?_cons]
  | cons c l ih =>
    rw [mem_cons, not_or] at hl
    have hc : (c == 10) = false := by simpa using Ne.symm hl.1
    simp [List.idxOf?_cons, hc, ih hl.2]

theorem split_line (hl : 10 ∉ l) (hle : l.length ≤ max) :
    split max (l ++ 10 :: r) atEOF = some (l.length + 1, dropCR l, false) := by
  simp [split, idxOf_newline hl, idxOf_newline? hl, hle]

theorem split_capped (hmax : 0 < max) (hle : max ≤ p.length) (hnone : 10 ∉ p.take (max + 1)) :
    split max p atEOF = some (max, p.take max, true) := by
  have hne : p ≠ [] := by
    rintro rfl
    exact absurd hle (Nat.not_le.mpr hmax)
  have hfar : (p.idxOf? 10).any (· ≤ max) = false := by
    by_cases hmem : 10 ∈ p
    · obtain ⟨l, r, rfl, hl⟩ := eq_append_cons_of_mem hmem
      rw [idxOf_newline? hl]
      simp only [Option.any_some, decide_eq_false_iff_not]
      intro hnear
      apply hnone
      rw [take_append, mem_append]
      right
      rw [show max + 1 - l.length = (max - l.length) + 1 by omega, take_succ_cons]
      exact mem_cons_self
    · rw [List.idxOf?_eq_none_iff.mpr hmem]
      rfl
  simp [split, hne, hfar, hle]

theorem split_short (hnone : 10 ∉ p) (hlt : p.length < max) :
    split max p atEOF = if atEOF = true ∧ p ≠ [] then some (p.length, dropCR p, false) else none := by
  have hfar : p.idxOf? 10 = none := List.idxOf?_eq_none_iff.mpr hnone
  have hcap : ¬max ≤ p.length := Nat.not_le.mpr hlt
  cases atEOF with
  | false => simp [split, hfar, hcap]
  | true =>
    by_cases hne : p = []
    · simp [split, hne]
    · simp [split, hfar, hcap, hne]

theorem shape (max : ℕ) (p : List UInt8) :
    (∃ l r, p = l ++ 10 :: r ∧ 10 ∉ l ∧ l.length ≤ max) ∨ (max ≤ p.length ∧ 10 ∉ p.take (max + 1)) ∨
      (10 ∉ p ∧ p.length < max) := by
  by_cases hmem : 10 ∈ p
  · obtain ⟨l, r, rfl, hl⟩ := eq_append_cons_of_mem hmem
    by_cases hle : l.length ≤ max
    · exact .inl ⟨l, r, rfl, hl, hle⟩
    refine .inr (.inl ⟨?_, ?_⟩)
    · rw [length_append]
      omega
    · rw [take_append_of_le_length (by omega)]
      exact fun h => hl (mem_of_mem_take h)
  · by_cases hle : max ≤ p.length
    · exact .inr (.inl ⟨hle, fun h => hmem (mem_of_mem_take h)⟩)
    · exact .inr (.inr ⟨hmem, Nat.not_le.mp hle⟩)

theorem token_of_split (hmax : 0 < max) {token : List UInt8} {capped : Bool}
    (h : split max p atEOF = some (advance, token, capped)) : Token max p atEOF advance token capped := by
  rcases shape max p with ⟨l, r, rfl, hl, hle⟩ | ⟨hle, hnone⟩ | ⟨hnone, hlt⟩
  · rw [split_line hl hle] at h
    cases h
    exact .line l r rfl hl hle
  · rw [split_capped hmax hle hnone] at h
    cases h
    exact .capped hle hnone
  · rw [split_short hnone hlt] at h
    split at h <;> cases h
    next hlast => exact .last hlast.1 hlast.2 hnone hlt

theorem split_progress (hmax : 0 < max) {token : List UInt8 × Bool} (h : split max p atEOF = some (advance, token)) :
    0 < advance ∧ advance ≤ p.length := by
  obtain ⟨t, capped⟩ := token
  cases token_of_split hmax h with
  | line l r hp hl hle =>
    rw [hp, length_append, length_cons]
    omega
  | capped hle hnone => exact ⟨hmax, hle⟩
  | last heof hne hnone hlt => exact ⟨length_pos_iff.mpr hne, Nat.le_refl _⟩

end Split

def cappedSplitter (max : ℕ) (hmax : 0 < max) : Splitter UInt8 (List UInt8 × Bool) where
  split := split max
  progress := split_progress hmax

def scanLines (max : ℕ) (hmax : 0 < max) (reads : List (List UInt8)) : List (List UInt8 × Bool) :=
  (cappedSplitter max hmax).scan [] reads

def rejoin (lines : List (List UInt8 × Bool)) : List UInt8 :=
  lines.flatMap fun l => l.1 ++ if l.2 then [] else [10]

inductive WithoutCR : List UInt8 → List UInt8 → Prop
  | nil : WithoutCR [] []
  | keep (c : UInt8) {s t : List UInt8} (h : WithoutCR s t) : WithoutCR (c :: s) (c :: t)
  | drop {s t : List UInt8} (h : WithoutCR s (10 :: t)) : WithoutCR s (13 :: 10 :: t)

def Tight (max : ℕ) (stream : List UInt8) : Prop := ∃ line ∈ completed 10 stream, line ≠ [] ∧ max ∣ line.length

section Lines

variable {max : ℕ} {hmax : 0 < max} {s u : List UInt8} {lines : List (List UInt8 × Bool)}

theorem drop_line (l u : List UInt8) : (l ++ 10 :: u).drop (l.length + 1) = u := by
  rw [← drop_drop, drop_left]
  rfl

theorem length_dropCR_le (b : List UInt8) : (dropCR b).length ≤ b.length := by
  unfold dropCR
  split
  · rw [length_dropLast]
    exact Nat.sub_le _ _
  · exact Nat.le_refl _

theorem length_scanLines_le (reads : List (List UInt8)) : ∀ l ∈ scanLines max hmax reads, l.1.length ≤ max := by
  have hrule := Splitter.scan_rule (S := cappedSplitter max hmax)
    (Q := fun _ lines => ∀ l ∈ lines, l.1.length ≤ max) ?_ ?_ [] reads
  · exact hrule
  · rintro u p atEOF advance ⟨t, capped⟩ lines - - hsplit ih
    refine forall_mem_cons.mpr ⟨?_, ih⟩
    cases token_of_split hmax hsplit with
    | line l r hp hl hle => exact Nat.le_trans (length_dropCR_le l) hle
    | capped hle hnone => exact length_take_le max p
    | last heof hne hnone hlt => exact Nat.le_trans (length_dropCR_le p) (Nat.le_of_lt hlt)
  · exact fun _ _ _ h => absurd h not_mem_nil

theorem split_eof_eq_none (h : split max p true = none) (hmax : 0 < max) : p = [] := by
  rcases shape max p with ⟨l, r, rfl, hl, hle⟩ | ⟨hle, hnone⟩ | ⟨hnone, hlt⟩
  · rw [split_line hl hle] at h
    cases h
  · rw [split_capped hmax hle hnone] at h
    cases h
  · rw [split_short hnone hlt] at h
    by_contra hne
    rw [if_pos ⟨rfl, hne⟩] at h
    cases h

theorem withoutCR_append (x : List UInt8) (h : WithoutCR s t) : WithoutCR (x ++ s) (x ++ t) := by
  induction x with
  | nil => exact h
  | cons c x ih => exact .keep c ih

theorem withoutCR_dropCR (l : List UInt8) (h : WithoutCR s t) : WithoutCR (dropCR l ++ 10 :: s) (l ++ 10 :: t) := by
  unfold dropCR
  split
  next hcr =>
    obtain ⟨x, rfl⟩ := List.getLast?_eq_some_iff.mp hcr
    rw [dropLast_concat, append_assoc]
    exact withoutCR_append x (.drop (.keep 10 h))
  next => exact withoutCR_append l (.keep 10 h)

def Rejoins (stream : List UInt8) (lines : List (List UInt8 × Bool)) : Prop :=
  WithoutCR (rejoin lines) stream ∨ WithoutCR (rejoin lines) (stream ++ [10])

theorem Rejoins.line (l : List UInt8) (h : Rejoins t lines) : Rejoins (l ++ 10 :: t) ((dropCR l, false) :: lines) := by
  have hcons : rejoin ((dropCR l, false) :: lines) = dropCR l ++ 10 :: rejoin lines := by simp [rejoin]
  unfold Rejoins
  rw [hcons, append_assoc, cons_append]
  exact h.imp (withoutCR_dropCR l) (withoutCR_dropCR l)

theorem Rejoins.capped (x : List UInt8) (h : Rejoins t lines) : Rejoins (x ++ t) ((x, true) :: lines) := by
  have hcons : rejoin ((x, true) :: lines) = x ++ rejoin lines := by simp [rejoin]
  unfold Rejoins
  rw [hcons, append_assoc]
  exact h.imp (withoutCR_append x) (withoutCR_append x)

theorem Rejoins.last (p : List UInt8) : Rejoins p [(dropCR p, false)] := by
  have hone : rejoin [(dropCR p, false)] = dropCR p ++ [10] := by simp [rejoin]
  right
  rw [hone]
  exact withoutCR_dropCR p .nil

theorem scanLines_rejoins (reads : List (List UInt8)) : Rejoins reads.flatten (scanLines max hmax reads) := by
  have hrule := Splitter.scan_rule (S := cappedSplitter max hmax)
    (Q := fun u lines => (u = [] → lines = []) ∧ Rejoins u lines) ?_ ?_ [] reads
  · exact hrule.2
  · rintro u p atEOF advance ⟨t, capped⟩ lines ⟨q, rfl⟩ heof hsplit ⟨hempty, ih⟩
    constructor
    · intro hnil
      have hprogress := split_progress hmax hsplit
      rw [(append_eq_nil_iff.mp hnil).1, length_nil] at hprogress
      omega
    · cases token_of_split hmax hsplit with
      | line l r hp hl hle =>
        have hu : p ++ q = l ++ 10 :: (r ++ q) := by
          rw [hp, append_assoc]
          rfl
        rw [hu, drop_line] at ih
        rw [hu]
        exact ih.line l
      | capped hle hnone =>
        have htake : (p ++ q).take max = p.take max := take_append_of_le_length hle
        rw [← take_append_drop max (p ++ q), htake]
        exact ih.capped (p.take max)
      | last hlast hne hnone hlt =>
        have hq : p = p ++ q := heof hlast
        rw [← hq] at hempty ⊢
        rw [hempty (drop_of_length_le (Nat.le_refl _))]
        exact .last p
  · intro p hnone
    rw [split_eof_eq_none hnone hmax]
    exact ⟨fun _ => rfl, .inl .nil⟩

theorem Tight.of_line (hl : 10 ∉ l) (h : Tight max r) : Tight max (l ++ 10 :: r) := by
  obtain ⟨line, hline, hne, hdvd⟩ := h
  refine ⟨line, ?_, hne, hdvd⟩
  rw [completed_line hl]
  exact mem_cons_of_mem l hline

theorem Tight.of_capped (hx : 10 ∉ x) (hlength : x.length = max) (h : Tight max r) : Tight max (x ++ r) := by
  obtain ⟨line, hline, hne, hdvd⟩ := h
  unfold Tight
  rw [completed_append_of_not_mem hx]
  cases hcompleted : completed 10 r with
  | nil =>
    rw [hcompleted] at hline
    cases hline
  | cons first rest =>
    rw [hcompleted] at hline
    rcases mem_cons.mp hline with rfl | hrest
    · refine ⟨x ++ line, mem_cons_self, append_ne_nil_of_right_ne_nil x hne, ?_⟩
      rw [length_append, hlength]
      exact (Nat.dvd_add_right (Nat.dvd_refl max)).mpr hdvd
    · exact ⟨line, mem_cons_of_mem _ hrest, hne, hdvd⟩

theorem not_tight_drop {advance : ℕ} {token : List UInt8 × Bool} (h : ¬Tight max u)
    (hsplit : split max u true = some (advance, token)) (hmax : 0 < max) : ¬Tight max (u.drop advance) := by
  obtain ⟨t, capped⟩ := token
  cases token_of_split hmax hsplit with
  | line l r hp hl hle =>
    rw [hp, drop_line]
    intro ht
    rw [hp] at h
    exact h (ht.of_line hl)
  | capped hle hnone =>
    intro ht
    have htake : 10 ∉ u.take max := fun hmem => hnone (take_subset_take_left u (Nat.le_succ max) hmem)
    have htight := ht.of_capped htake (length_take_of_le hle)
    rw [take_append_drop] at htight
    exact h htight
  | last heof hne hnone hlt =>
    rw [drop_of_length_le (Nat.le_refl _)]
    rintro ⟨line, hline, -⟩
    cases hline

theorem split_stable {x : ℕ × List UInt8 × Bool} (h : ¬Tight max u) (hp : p <+: u) (hsplit : split max p false = some x)
    (hmax : 0 < max) : split max u true = some x := by
  obtain ⟨q, rfl⟩ := hp
  obtain ⟨advance, t, capped⟩ := x
  cases token_of_split hmax hsplit with
  | line l r hp hl hle =>
    rw [hp, append_assoc]
    exact split_line hl hle
  | capped hle hnone =>
    have htake : (p ++ q).take max = p.take max := take_append_of_le_length hle
    rw [← htake]
    apply split_capped hmax (Nat.le_trans hle (length_append ▸ Nat.le_add_right _ _))
    by_cases hlong : max + 1 ≤ p.length
    · rw [take_append_of_le_length hlong]
      exact hnone
    -- The next byte has not been read. A newline there would end a line as long as the cap.
    have hlength : p.length = max := by omega
    rw [take_of_length_le (by omega)] at hnone
    rw [← hlength, take_length_add_append]
    cases q with
    | nil => simpa using hnone
    | cons c q =>
      have hc : 10 ≠ c := by
        rintro rfl
        refine h ⟨p, ?_, length_pos_iff.mp (by omega), ?_⟩
        · rw [completed_line hnone]
          exact mem_cons_self
        · exact ⟨1, hlength.trans (Nat.mul_one max).symm⟩
      simpa using ⟨hnone, hc⟩
  | last heof hne hnone hlt => cases heof

end Lines

section Deliveries

variable {max k : ℕ} (hmax : 0 < max) {ls : List (List UInt8)}

theorem drain_of_split {atEOF : Bool} {advance : ℕ} {token : List UInt8 × Bool}
    (h : split max p atEOF = some (advance, token)) :
    (cappedSplitter max hmax).drain atEOF p = (token :: ((cappedSplitter max hmax).drain atEOF (p.drop advance)).1,
      ((cappedSplitter max hmax).drain atEOF (p.drop advance)).2) :=
  Splitter.drain_of_some h

theorem drain_cap {y : List UInt8} (hle : max ≤ x.length) (hnone : 10 ∉ (x ++ y).take (max + 1)) (atEOF : Bool) :
    (cappedSplitter max hmax).drain atEOF (x ++ y) =
      ((x.take max, true) :: ((cappedSplitter max hmax).drain atEOF (x.drop max ++ y)).1,
        ((cappedSplitter max hmax).drain atEOF (x.drop max ++ y)).2) := by
  have htake : (x ++ y).take max = x.take max := take_append_of_le_length hle
  have hdrop : (x ++ y).drop max = x.drop max ++ y := drop_append_of_le_length hle
  have hlong : max ≤ (x ++ y).length := by
    rw [length_append]
    omega
  rw [drain_of_split hmax (split_capped hmax hlong hnone), htake, hdrop]

theorem drain_line (hl : 10 ∉ l) : ∃ ts, ∀ atEOF u,
    (cappedSplitter max hmax).drain atEOF (l ++ 10 :: u) =
      (ts ++ ((cappedSplitter max hmax).drain atEOF u).1, ((cappedSplitter max hmax).drain atEOF u).2) := by
  induction hn : l.length using Nat.strongRecOn generalizing l with
  | ind n ih =>
    by_cases hle : l.length ≤ max
    · refine ⟨[(dropCR l, false)], fun atEOF u => ?_⟩
      rw [drain_of_split hmax (split_line hl hle), drop_line]
      rfl
    · have hlong : max + 1 ≤ l.length := by omega
      have hshorter : (l.drop max).length < n := by
        rw [length_drop]
        omega
      obtain ⟨ts, hts⟩ := ih _ hshorter (fun hmem => hl (mem_of_mem_drop hmem)) rfl
      refine ⟨(l.take max, true) :: ts, fun atEOF u => ?_⟩
      have hnone : 10 ∉ (l ++ 10 :: u).take (max + 1) := by
        rw [take_append_of_le_length hlong]
        exact fun hmem => hl (mem_of_mem_take hmem)
      rw [drain_cap hmax (by omega) hnone, hts]
      rfl

theorem drain_lines (hls : ∀ l ∈ ls, 10 ∉ l) : ∃ ts, ∀ atEOF u,
    (cappedSplitter max hmax).drain atEOF (ls.flatMap (· ++ [10]) ++ u) =
      (ts ++ ((cappedSplitter max hmax).drain atEOF u).1, ((cappedSplitter max hmax).drain atEOF u).2) := by
  induction ls with
  | nil => exact ⟨[], fun _ _ => rfl⟩
  | cons l ls ih =>
    rw [forall_mem_cons] at hls
    obtain ⟨ts, hts⟩ := ih hls.2
    obtain ⟨first, hfirst⟩ := drain_line hmax hls.1
    refine ⟨first ++ ts, fun atEOF u => ?_⟩
    rw [flatMap_cons, append_assoc, append_assoc, singleton_append, hfirst, hts, append_assoc]

theorem drain_caps (hx : 10 ∉ x) (hlength : x.length = k * max) :
    ∃ ts, ∀ atEOF y, y ≠ [] → 10 ∉ y.take 1 → (cappedSplitter max hmax).drain atEOF (x ++ y) =
      (ts ++ ((cappedSplitter max hmax).drain atEOF y).1, ((cappedSplitter max hmax).drain atEOF y).2) := by
  induction k generalizing x with
  | zero =>
    rw [Nat.zero_mul, length_eq_zero_iff] at hlength
    subst hlength
    exact ⟨[], fun _ _ _ _ => rfl⟩
  | succ k ih =>
    rw [Nat.succ_mul] at hlength
    have hdropped : (x.drop max).length = k * max := by
      rw [length_drop]
      omega
    obtain ⟨ts, hts⟩ := ih (fun hmem => hx (mem_of_mem_drop hmem)) hdropped
    refine ⟨(x.take max, true) :: ts, fun atEOF y hne hy => ?_⟩
    have hnone : 10 ∉ (x ++ y).take (max + 1) := by
      rw [take_append, mem_append, not_or]
      refine ⟨fun hmem => hx (mem_of_mem_take hmem), fun hmem => hy ?_⟩
      exact take_subset_take_left y (by omega) hmem
    rw [drain_cap hmax (by omega) hnone, hts atEOF y hne hy]
    rfl

theorem scanLines_ne {m : List UInt8} (hls : ∀ l ∈ ls, 10 ∉ l) (hx : 10 ∉ x) (hlength : x.length = k * max)
    (hm : 10 ∉ m) (hmlength : m.length = max) (post : List UInt8) :
    scanLines max hmax [ls.flatMap (· ++ [10]) ++ (x ++ (m ++ 10 :: post))] ≠
      scanLines max hmax [ls.flatMap (· ++ [10]) ++ (x ++ m), 10 :: post] := by
  obtain ⟨before, hbefore⟩ := drain_lines hmax hls
  obtain ⟨caps, hcaps⟩ := drain_caps hmax hx hlength
  have hne : m ≠ [] := length_pos_iff.mp (hmlength ▸ hmax)
  have hone : 10 ∉ m.take 1 := fun hmem => hm (mem_of_mem_take hmem)
  have hone' : 10 ∉ (m ++ 10 :: post).take 1 := by
    rw [take_append_of_le_length (hmlength ▸ hmax)]
    exact hone
  have hwhole : split max (m ++ 10 :: post) false = some (m.length + 1, dropCR m, false) :=
    split_line hm (Nat.le_of_eq hmlength)
  have hcut : split max m false = some (max, m.take max, true) :=
    split_capped hmax (Nat.le_of_eq hmlength.symm) fun hmem => hm (mem_of_mem_take hmem)
  intro heq
  simp only [scanLines, Splitter.scan, nil_append, hbefore, hcaps _ m hne hone,
    hcaps _ _ (append_ne_nil_of_left_ne_nil hne _) hone', drain_of_split hmax hwhole, drain_of_split hmax hcut,
    append_assoc, append_cancel_left_eq, cons_append] at heq
  exact absurd (Prod.mk.inj (List.cons.inj heq).1).2 Bool.false_ne_true

theorem exists_scanLines_ne {stream : List UInt8} (h : Tight max stream) :
    ∃ reads reads', reads.flatten = stream ∧ reads'.flatten = stream ∧
      scanLines max hmax reads ≠ scanLines max hmax reads' := by
  obtain ⟨line, hline, hne, k, hk⟩ := h
  obtain ⟨before, after, hcompleted⟩ := append_of_mem hline
  have hnone : ∀ l ∈ before ++ line :: after, 10 ∉ l := by
    rw [← hcompleted]
    exact fun l => not_mem_of_mem_completed
  have hline10 : 10 ∉ line := hnone line (mem_append_right before mem_cons_self)
  obtain ⟨j, rfl⟩ : ∃ j, k = j + 1 := by
    apply Nat.exists_eq_succ_of_ne_zero
    rintro rfl
    exact hne (length_eq_zero_iff.mp hk)
  rw [Nat.mul_comm, Nat.add_one_mul] at hk
  have hfirst : (line.take (j * max)).length = j * max := length_take_of_le (by omega)
  have hlast : (line.drop (j * max)).length = max := by
    rw [length_drop]
    omega
  have hstream : before.flatMap (· ++ [10]) ++ (line ++ 10 :: (after.flatMap (· ++ [10]) ++ fragment 10 stream)) =
      stream := by
    have hsplit : (completed 10 stream).flatMap (· ++ [10]) ++ fragment 10 stream = stream := flatMap_completed stream
    rw [hcompleted] at hsplit
    simpa using hsplit
  have hne := scanLines_ne hmax (fun l hl => hnone l (mem_append_left _ hl))
    (fun hmem => hline10 (mem_of_mem_take hmem)) hfirst (fun hmem => hline10 (mem_of_mem_drop hmem)) hlast
    (after.flatMap (· ++ [10]) ++ fragment 10 stream)
  refine ⟨_, _, ?_, ?_, hne⟩
  · rw [flatten_singleton, ← append_assoc (line.take _), take_append_drop]
    exact hstream
  · rw [take_append_drop, flatten_cons, flatten_singleton, append_assoc]
    exact hstream

end Deliveries

theorem capped_lines_iff {max : ℕ} (hmax : 0 < max) (stream : List UInt8) :
    ((∀ reads reads', reads.flatten = stream → reads'.flatten = stream →
        scanLines max hmax reads = scanLines max hmax reads') ↔ ¬Tight max stream) ∧
      ∀ reads, reads.flatten = stream →
        (∀ l ∈ scanLines max hmax reads, l.1.length ≤ max) ∧ Rejoins stream (scanLines max hmax reads) := by
  refine ⟨⟨fun hsame htight => ?_, fun hloose => ?_⟩, ?_⟩
  · obtain ⟨reads, reads', h, h', hne⟩ := exists_scanLines_ne hmax htight
    exact hne (hsame reads reads' h h')
  · have hall : ∀ reads, reads.flatten = stream →
        scanLines max hmax reads = ((cappedSplitter max hmax).drain true stream).1 := by
      rintro reads rfl
      exact Splitter.scan_eq_drain (I := fun u => ¬Tight max u) (fun hu hp hsplit => split_stable hu hp hsplit hmax)
        (fun hu hsplit => not_tight_drop hu hsplit hmax) reads hloose
    intro reads reads' h h'
    rw [hall reads h, hall reads' h']
  · rintro reads rfl
    exact ⟨length_scanLines_le reads, scanLines_rejoins reads⟩

theorem capped_lines_short :
    scanLines daemonLineCap (by decide) [[97, 98, 10]] = scanLines daemonLineCap (by decide) [[97], [98, 10]] := by
  have hcap : 0 < daemonLineCap := by decide
  apply (capped_lines_iff hcap [97, 98, 10]).1.mpr _ _ _ rfl rfl
  rintro ⟨line, hline, -, hdvd⟩
  have hcompleted : completed 10 [97, 98, (10 : UInt8)] = [[97, 98]] := by decide
  rw [hcompleted, mem_singleton] at hline
  subst hline
  exact absurd hdvd (by decide)

section FullLine

variable {max : ℕ} (hmax : 0 < max) {l : List UInt8}

theorem drain_nil (atEOF : Bool) : (cappedSplitter max hmax).drain atEOF [] = ([], []) := rfl

theorem drain_newline : (cappedSplitter max hmax).drain false [10] = ([([], false)], []) := by
  have hsplit : split max ([] ++ 10 :: []) false = some (1, dropCR [], false) :=
    split_line not_mem_nil (Nat.zero_le max)
  exact drain_of_split hmax hsplit

theorem scanLines_full_line (hl : 10 ∉ l) (hlength : l.length = max) :
    scanLines max hmax [l ++ [10]] = [(dropCR l, false)] := by
  have hdrop : (l ++ [10]).drop (l.length + 1) = [] := drop_of_length_le (by simp)
  have hsplit : split max (l ++ [10]) false = some (l.length + 1, dropCR l, false) :=
    split_line hl (Nat.le_of_eq hlength)
  simp [scanLines, Splitter.scan, drain_of_split hmax hsplit, hdrop, drain_nil]

theorem scanLines_cut_line (hl : 10 ∉ l) (hlength : l.length = max) :
    scanLines max hmax [l, [10]] = [(l, true), ([], false)] := by
  have hsplit : split max l false = some (max, l.take max, true) :=
    split_capped hmax (Nat.le_of_eq hlength.symm) fun hmem => hl (mem_of_mem_take hmem)
  rw [take_of_length_le (Nat.le_of_eq hlength)] at hsplit
  have hdrop : l.drop max = [] := drop_of_length_le (Nat.le_of_eq hlength)
  simp [scanLines, Splitter.scan, drain_of_split hmax hsplit, hdrop, drain_nil, drain_newline]

end FullLine

def fullLine : List UInt8 := List.replicate daemonLineCap 97

theorem full_line_scanned_twice : [fullLine ++ [10]].flatten = [fullLine, [10]].flatten ∧
      scanLines daemonLineCap (by decide) [fullLine ++ [10]] = [(dropCR fullLine, false)] ∧
      scanLines daemonLineCap (by decide) [fullLine, [10]] = [(fullLine, true), ([], false)] := by
  have hl : 10 ∉ fullLine := fun h => absurd (eq_of_mem_replicate h) (by decide)
  have hlength : fullLine.length = daemonLineCap := length_replicate
  refine ⟨?_, scanLines_full_line _ hl hlength, scanLines_cut_line _ hl hlength⟩
  rw [flatten_singleton, flatten_cons, flatten_singleton]

end NomadDev.DaemonLogs
