import NomadDev.Foundation.FileTree

namespace Foundation.PathText

open FileTree List

def Ordinary (n : List Char) : Prop := n ≠ [] ∧ '/' ∉ n ∧ n ≠ ['.'] ∧ n ≠ ['.', '.']

instance (n : List Char) : Decidable (Ordinary n) := inferInstanceAs (Decidable (_ ∧ _ ∧ _ ∧ _))

abbrev Name : Type := { n : List Char // Ordinary n }

def toPart (n : List Char) : PathPart Name :=
  if h : Ordinary n then .name ⟨n, h⟩ else if n = ['.', '.'] then .up else .here

def parse (s : List Char) : List (PathPart Name) := (s.splitOn '/').map toPart

def isAbs (s : List Char) : Bool := s.head? == some '/'

section Clean

variable {α : Type}

def cleanStep : ℕ × List α → PathPart α → ℕ × List α
  | s, .here => s
  | (ups, names), .up => if names.isEmpty then (ups + 1, []) else (ups, names.dropLast)
  | (ups, names), .name a => (ups, names ++ [a])

def clean (parts : List (PathPart α)) : ℕ × List α := parts.foldl cleanStep (0, [])

end Clean

def body (ps : List Name) : List Char := ps.flatMap fun n => '/' :: n.1

def render (ps : List Name) : List Char := if ps.isEmpty then ['/'] else body ps

theorem prefix_of_slash {n m u v : List Char} (hn : '/' ∉ n) (hm : '/' ∉ m)
    (h : n ++ '/' :: u <+: m ++ '/' :: v) : n = m ∧ u <+: v := by
  induction n generalizing m with
  | nil =>
    cases m with
    | nil => exact ⟨rfl, (cons_prefix_cons.mp h).2⟩
    | cons c m =>
      have hc := (cons_prefix_cons.mp h).1
      simp [← hc] at hm
  | cons c n ih =>
    cases m with
    | nil =>
      have hc := (cons_prefix_cons.mp h).1
      simp [hc] at hn
    | cons c' m =>
      obtain ⟨rfl, ht⟩ := cons_prefix_cons.mp h
      simp only [mem_cons, not_or] at hn hm
      obtain ⟨rfl, huv⟩ := ih hn.2 hm.2 ht
      exact ⟨rfl, huv⟩

theorem body_cons_slash (p : Name) (ps : List Name) :
    ∃ u, body (p :: ps) ++ ['/'] = '/' :: (p.1 ++ '/' :: u) ∧ body ps ++ ['/'] = '/' :: u := by
  cases ps with
  | nil => exact ⟨[], by simp [body], by simp [body]⟩
  | cons q ps => exact ⟨q.1 ++ (body ps ++ ['/']), by simp [body], by simp [body]⟩

variable {ps qs : List Name} {α : Type}

theorem prefix_of_body (h : body ps ++ ['/'] <+: body qs ++ ['/']) : ps <+: qs := by
  induction ps generalizing qs with
  | nil => exact nil_prefix
  | cons p ps ih =>
    obtain ⟨u, hu, hu'⟩ := body_cons_slash p ps
    cases qs with
    | nil =>
      have hl := h.length_le
      rw [hu] at hl
      simp [body] at hl
    | cons q qs =>
      obtain ⟨v, hv, hv'⟩ := body_cons_slash q qs
      rw [hu, hv] at h
      obtain ⟨hpq, huv⟩ := prefix_of_slash p.2.2.1 q.2.2.1 (cons_prefix_cons.mp h).2
      rw [Subtype.ext hpq]
      refine cons_prefix_cons.mpr ⟨rfl, ih ?_⟩
      rw [hu', hv']
      exact cons_prefix_cons.mpr ⟨rfl, huv⟩

theorem prefix_of_render (h : render ps ++ ['/'] <+: render qs ++ ['/']) : ps <+: qs := by
  cases ps with
  | nil => exact nil_prefix
  | cons p ps =>
    cases qs with
    | nil =>
      obtain ⟨u, hu, _⟩ := body_cons_slash p ps
      have h' : '/' :: (p.1 ++ '/' :: u) <+: ['/', '/'] := by simpa [render, hu] using h
      have hl := h'.length_le
      have hp := length_pos_iff.mpr p.2.1
      simp only [length_cons, length_append, length_nil] at hl
      omega
    | cons q qs => exact prefix_of_body (by simpa [render] using h)

theorem clean_names (ns : List α) (parts : List (PathPart α)) :
    clean (ns.map PathPart.name ++ parts) = parts.foldl cleanStep (0, ns) := by
  induction ns using List.reverseRecOn generalizing parts with
  | nil => rfl
  | append_singleton ns n ih =>
    rw [map_append, append_assoc, ih]
    rfl

theorem mem_of_mem_clean {parts : List (PathPart α)} {a : α} (h : a ∈ (clean parts).2) : PathPart.name a ∈ parts := by
  induction parts using List.reverseRecOn with
  | nil => cases h
  | append_singleton parts x ih =>
    rw [clean, foldl_append] at h
    rw [mem_append]
    cases x with
    | here => exact .inl (ih h)
    | name b =>
      rcases mem_append.mp h with h | h
      · exact .inl (ih h)
      · cases mem_singleton.mp h
        exact .inr (mem_singleton_self _)
    | up =>
      left
      apply ih
      simp only [foldl_cons, foldl_nil, cleanStep] at h
      split at h
      · cases h
      · exact mem_of_mem_dropLast h

def relText (ps : List Name) : List Char := if ps = [] then ['.'] else ['/'].intercalate (ps.map Subtype.val)

theorem toPart_name (p : Name) : toPart p.1 = .name p := dif_pos p.2

theorem parse_relText (ps : List Name) : parse (relText ps) = if ps = [] then [.here] else ps.map PathPart.name := by
  unfold relText parse
  split
  · rfl
  next hne =>
    have hslash : ∀ s ∈ ps.map Subtype.val, '/' ∉ s := forall_mem_map.mpr fun p _ => p.2.2.1
    rw [splitOn_intercalate '/' hslash (map_eq_nil_iff.not.mpr hne), map_map]
    exact map_congr_left fun p _ => toPart_name p

theorem parse_name_slash (p : Name) (s : List Char) : parse (p.1 ++ '/' :: s) = .name p :: parse s := by
  rw [parse, splitOn_append_cons_self_of_not_mem p.2.2.1, map_cons, toPart_name]
  rfl

theorem mem_intercalate {sep t : List α} {ls : List (List α)} {c : α} (ht : t ∈ ls) (hc : c ∈ t) :
    c ∈ sep.intercalate ls := by
  induction ls with
  | nil => cases ht
  | cons l ls ih =>
    cases ls with
    | nil =>
      cases mem_singleton.mp ht
      simpa [List.intercalate] using hc
    | cons m ls =>
      rw [intercalate_cons_cons, mem_append, mem_append]
      rcases mem_cons.mp ht with rfl | ht
      · exact .inl (.inl hc)
      · exact .inr (ih ht)

theorem mem_of_mem_splitOn {s t : List Char} {sep c : Char} (ht : t ∈ s.splitOn sep) (hc : c ∈ t) : c ∈ s := by
  have hs : [sep].intercalate (s.splitOn sep) = s := intercalate_splitOn sep
  exact hs ▸ mem_intercalate ht hc

theorem mem_of_mem_parse {s : List Char} {p : Name} {c : Char} (hp : PathPart.name p ∈ parse s) (hc : c ∈ p.1) :
    c ∈ s := by
  obtain ⟨t, ht, he⟩ := mem_map.mp hp
  unfold toPart at he
  split at he
  · cases he
    exact mem_of_mem_splitOn ht hc
  · split at he <;> cases he

theorem body_eq_slash_relText (h : ps ≠ []) : body ps = '/' :: relText ps := by
  induction ps with
  | nil => exact absurd rfl h
  | cons p ps ih =>
    cases ps with
    | nil => simp [body, relText, List.intercalate]
    | cons q ps =>
      have hq := ih (cons_ne_nil q ps)
      rw [relText, if_neg (cons_ne_nil q ps)] at hq
      rw [relText, if_neg h, map_cons, map_cons, intercalate_cons_cons, ← map_cons]
      calc body (p :: q :: ps) = '/' :: (p.1 ++ body (q :: ps)) := rfl
        _ = '/' :: (p.1 ++ '/' :: ['/'].intercalate ((q :: ps).map Subtype.val)) := by rw [hq]
        _ = _ := by simp

theorem relText_slash_prefix_iff (hp : ps ≠ []) (hq : qs ≠ []) :
    relText ps ++ ['/'] <+: relText qs ++ ['/'] ↔ ps <+: qs := by
  have hslash : relText ps ++ ['/'] <+: relText qs ++ ['/'] ↔ body ps ++ ['/'] <+: body qs ++ ['/'] := by
    rw [body_eq_slash_relText hp, body_eq_slash_relText hq, cons_append, cons_append,
      cons_prefix_cons, and_iff_right rfl]
  rw [hslash]
  constructor
  · exact prefix_of_body
  · rintro ⟨rest, rfl⟩
    cases rest with
    | nil => rw [append_nil]
    | cons r rest => exact ⟨r.1 ++ body rest ++ ['/'], by simp [body]⟩

theorem relText_eq_dot_iff : relText ps = ['.'] ↔ ps = [] := by
  constructor
  · intro h
    by_contra hne
    have hp := parse_relText ps
    rw [if_neg hne, h] at hp
    cases ps with
    | nil => exact hne rfl
    | cons p ps => cases hp
  · rintro rfl
    rfl

end Foundation.PathText
