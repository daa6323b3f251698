import Mathlib.Data.List.Infix

namespace Foundation.FileTree

open List

inductive PathPart (α : Type)
  | here
  | up
  | name (a : α)
  deriving DecidableEq

inductive Node (α : Type)
  | dir
  | file
  | link (absolute : Bool) (target : List (PathPart α))
  deriving DecidableEq

structure DirTree (α : Type) where
  node : List α → Option (Node α)
  root_dir : node [] = some .dir
  parent_dir : ∀ p a, node (p ++ [a]) ≠ none → node p = some .dir

inductive End (α : Type)
  | found (p : List α)
  | missing (dir : List α) (a : α) (rest : List (PathPart α))
  | notDir

inductive Stop (α : Type)
  | ended (e : End α)
  | link (dir : List α) (absolute : Bool) (target rest : List (PathPart α))

variable {α : Type} (t : DirTree α)

def segment : List α → List (PathPart α) → Stop α
  | d, [] => .ended (.found d)
  | d, .here :: rest => segment d rest
  | d, .up :: rest => segment d.dropLast rest
  | d, .name a :: rest =>
    match t.node (d ++ [a]) with
    | none => .ended (.missing d a rest)
    | some .dir => segment (d ++ [a]) rest
    | some .file => if rest.isEmpty then .ended (.found (d ++ [a])) else .ended .notDir
    | some (.link absolute target) => .link d absolute target rest

def walk : ℕ → List α → List (PathPart α) → Option (End α)
  | 0, d, todo =>
    match segment t d todo with
    | .ended e => some e
    | .link .. => none
  | n + 1, d, todo =>
    match segment t d todo with
    | .ended e => some e
    | .link dir absolute target rest => walk n (if absolute then [] else dir) (target ++ rest)

inductive Walks : List α → List (PathPart α) → ℕ → End α → Prop
  | ends {d todo e} : segment t d todo = .ended e → Walks d todo 0 e
  | follows {d todo dir absolute target rest k e} : segment t d todo = .link dir absolute target rest →
      Walks (if absolute then [] else dir) (target ++ rest) k e → Walks d todo (k + 1) e

variable {t} {d p r : List α} {todo xs ys : List (PathPart α)} {k limit j : ℕ} {e : End α} {a : α} {t' : DirTree α}

theorem walk_of_walks (h : Walks t d todo k e) : ∀ {n}, k ≤ n → walk t n d todo = some e := by
  induction h with
  | ends hs =>
    intro n _
    cases n with
    | zero | succ => simp [walk, hs]
  | follows hs _ ih =>
    intro n hn
    cases n with
    | zero => omega
    | succ n =>
      simp only [walk, hs]
      exact ih (by omega)

theorem walks_of_walk {n : ℕ} (h : walk t n d todo = some e) : ∃ k ≤ n, Walks t d todo k e := by
  induction n generalizing d todo with
  | zero =>
    rw [walk] at h
    split at h <;> cases h
    next hs => exact ⟨0, le_refl 0, .ends hs⟩
  | succ n ih =>
    rw [walk] at h
    split at h
    · next hs =>
      cases h
      exact ⟨0, Nat.zero_le _, .ends hs⟩
    · next hs =>
      obtain ⟨k, hk, hw⟩ := ih h
      exact ⟨k + 1, Nat.succ_le_succ hk, .follows hs hw⟩

theorem Walks.unique {k' : ℕ} {e' : End α} (h : Walks t d todo k e) (h' : Walks t d todo k' e') : k = k' ∧ e = e' := by
  induction h generalizing k' with
  | ends hs =>
    cases h' with
    | ends hs' =>
      rw [hs] at hs'
      cases hs'
      exact ⟨rfl, rfl⟩
    | follows hs' _ =>
      rw [hs] at hs'
      cases hs'
  | follows hs _ ih =>
    cases h' with
    | ends hs' =>
      rw [hs] at hs'
      cases hs'
    | follows hs' hw' =>
      rw [hs] at hs'
      cases hs'
      obtain ⟨hk, he⟩ := ih hw'
      exact ⟨by omega, he⟩

theorem dropLast_dir (hd : t.node d = some .dir) : t.node d.dropLast = some .dir := by
  cases eq_nil_or_concat d with
  | inl h =>
    subst h
    exact hd
  | inr h =>
    obtain ⟨p, a, rfl⟩ := h
    rw [concat_eq_append] at hd ⊢
    rw [dropLast_concat]
    exact t.parent_dir p a (by simp [hd])

theorem segment_name_dir (hn : t.node (d ++ [a]) = some .dir) (rest : List (PathPart α)) :
    segment t d (.name a :: rest) = segment t (d ++ [a]) rest := by
  rw [segment, hn]

theorem segment_append_found (h : segment t d xs = .ended (.found r)) (hr : t.node r = some .dir) :
    segment t d (xs ++ ys) = segment t r ys := by
  fun_induction segment t d xs with
  | case1 =>
    cases h
    rfl
  | case2 _ _ ih | case3 _ _ ih => exact ih h
  | case5 d a rest hn ih =>
    rw [cons_append, segment_name_dir hn]
    exact ih h
  | case6 d a rest hf =>
    cases h
    cases hf.symm.trans hr
  | case4 | case7 | case8 => cases h

theorem segment_append_file (h : segment t d xs = .ended (.found r)) (hr : t.node r = some .file)
    (hd : t.node d = some .dir) (hys : ys ≠ []) : segment t d (xs ++ ys) = .ended .notDir := by
  fun_induction segment t d xs with
  | case1 =>
    cases h
    cases hd.symm.trans hr
  | case2 _ _ ih => exact ih h hd
  | case3 _ _ ih => exact ih h (dropLast_dir hd)
  | case5 d a rest hn ih =>
    rw [cons_append, segment_name_dir hn]
    exact ih h hn
  | case6 d a rest hf => simp [segment, hf, hys]
  | case4 | case7 | case8 => cases h

section Link

variable {dir : List α} {target rest : List (PathPart α)} {absolute : Bool}

theorem segment_append_link (h : segment t d xs = .link dir absolute target rest) :
    segment t d (xs ++ ys) = .link dir absolute target (rest ++ ys) := by
  fun_induction segment t d xs with
  | case2 _ _ ih | case3 _ _ ih => exact ih h
  | case5 d a rest hn ih =>
    rw [cons_append, segment_name_dir hn]
    exact ih h
  | case8 d a rest absolute target hn =>
    cases h
    rw [cons_append, segment, hn]
  | case1 | case4 | case6 | case7 => cases h

theorem segment_found_node (hd : t.node d = some .dir) (h : segment t d todo = .ended (.found r)) :
    t.node r = some .dir ∨ t.node r = some .file := by
  fun_induction segment t d todo with
  | case1 =>
    cases h
    exact .inl hd
  | case2 _ _ ih => exact ih hd h
  | case3 _ _ ih => exact ih (dropLast_dir hd) h
  | case5 d a rest hn ih => exact ih hn h
  | case6 d a rest hf =>
    cases h
    exact .inr hf
  | case4 | case7 | case8 => cases h

theorem segment_link_dir (hd : t.node d = some .dir) (h : segment t d todo = .link dir absolute target rest) :
    t.node (if absolute then [] else dir) = some .dir := by
  fun_induction segment t d todo with
  | case2 _ _ ih => exact ih hd h
  | case3 _ _ ih => exact ih (dropLast_dir hd) h
  | case5 d a rest hn ih => exact ih hn h
  | case8 =>
    cases h
    split
    · exact t.root_dir
    · exact hd
  | case1 | case4 | case6 | case7 => cases h

end Link

theorem Walks.append {d r : List α} {xs ys : List (PathPart α)} {j k : ℕ} {e : End α}
    (h : Walks t d xs j (.found r)) (hr : t.node r = some .dir) (hk : Walks t r ys k e) :
    Walks t d (xs ++ ys) (j + k) e := by
  generalize he : End.found r = e' at h
  induction h with
  | ends hs =>
    subst he
    rw [Nat.zero_add]
    have hseg : segment t _ (_ ++ ys) = segment t r ys := segment_append_found hs hr
    cases hk with
    | ends hs' => exact .ends (hseg.trans hs')
    | follows hs' hw' => exact .follows (hseg.trans hs') hw'
  | @follows d todo dir absolute target rest j e' hs hw ih =>
    have hw' := ih he
    rw [append_assoc] at hw'
    rw [show j + 1 + k = j + k + 1 by omega]
    exact .follows (segment_append_link hs) hw'

theorem Walks.of_append (h : Walks t d xs j (.found r)) (hr : t.node r = some .dir) (hw : Walks t d (xs ++ ys) k e) :
    ∃ i ≤ k, Walks t r ys i e := by
  generalize he : End.found r = e' at h
  induction h generalizing k with
  | ends hs =>
    subst he
    have hseg : segment t _ (_ ++ ys) = segment t r ys := segment_append_found hs hr
    cases hw with
    | ends hs' => exact ⟨0, le_refl 0, .ends (hseg.symm.trans hs')⟩
    | follows hs' hw' => exact ⟨_, le_refl _, .follows (hseg.symm.trans hs') hw'⟩
  | follows hs _ ih =>
    have hlink : segment t _ (_ ++ ys) = .link _ _ _ (_ ++ ys) := segment_append_link hs
    cases hw with
    | ends hs' => cases hlink.symm.trans hs'
    | follows hs' hw' =>
      cases hlink.symm.trans hs'
      rw [← append_assoc] at hw'
      obtain ⟨i, hi, hwalk⟩ := ih hw' he
      exact ⟨i, Nat.le_succ_of_le hi, hwalk⟩

theorem Walks.append_file (h : Walks t d xs j (.found r)) (hr : t.node r = some .file) (hd : t.node d = some .dir)
    (hys : ys ≠ []) : Walks t d (xs ++ ys) j .notDir := by
  generalize he : End.found r = e' at h
  induction h with
  | ends hs =>
    subst he
    exact .ends (segment_append_file hs hr hd hys)
  | follows hs _ ih =>
    have hw' := ih (segment_link_dir hd hs) he
    rw [append_assoc] at hw'
    exact .follows (segment_append_link hs) hw'

theorem Walks.found_node (h : Walks t d todo k (.found r))
    (hd : t.node d = some .dir) : t.node r = some .dir ∨ t.node r = some .file := by
  generalize he : End.found r = e at h
  induction h with
  | ends hs =>
    subst he
    exact segment_found_node hd hs
  | follows hs _ ih => exact ih (segment_link_dir hd hs) he

theorem segment_plain (h : t.node p = some .dir ∨ t.node p = some .file) :
    segment t [] (p.map .name) = .ended (.found p) := by
  induction p using List.reverseRecOn with
  | nil => rfl
  | append_singleton p a ih =>
    have hp : t.node p = some .dir := by
      apply t.parent_dir p a
      rcases h with h | h <;> simp [h]
    rw [map_append, segment_append_found (ih (.inl hp)) hp]
    rcases h with h | h <;> simp [segment, h]

theorem segment_missing {names : List α} (rest : List (PathPart α)) (hp : t.node p = some .dir)
    (h : ∀ q, q <+: names → t.node (p ++ q) = none ∨ t.node (p ++ q) = some .dir) (hnone : t.node (p ++ names) = none) :
    ∃ dir a todo, segment t p (names.map .name ++ rest) = .ended (.missing dir a todo) := by
  induction names generalizing p with
  | nil =>
    rw [append_nil, hp] at hnone
    cases hnone
  | cons a names ih =>
    rw [map_cons, cons_append, segment]
    rcases h [a] (prefix_append [a] names) with hfirst | hfirst
    · rw [hfirst]
      exact ⟨p, a, _, rfl⟩
    rw [hfirst]
    have hassoc : ∀ q : List α, p ++ [a] ++ q = p ++ a :: q := fun q => append_assoc p [a] q
    apply ih hfirst
    · intro q hq
      rw [hassoc]
      exact h (a :: q) (cons_prefix_cons.mpr ⟨rfl, hq⟩)
    · rw [hassoc]
      exact hnone

theorem prefix_dir {q : List α} (hq : t.node q ≠ none) (hpq : p <+: q) : p = q ∨ t.node p = some .dir := by
  induction q using List.reverseRecOn with
  | nil => exact .inl (prefix_nil.mp hpq)
  | append_singleton q a ih =>
    rcases prefix_concat_iff.mp hpq with rfl | hpq
    · exact .inl rfl
    have hdir := t.parent_dir q a hq
    rcases ih (by simp [hdir]) hpq with rfl | hp
    · exact .inr hdir
    · exact .inr hp

section MakeDirs

variable (t)

def stat (limit : ℕ) (path : List α) : Option (Node α) :=
  match walk t limit [] (path.map .name) with
  | some (.found r) => t.node r
  | _ => none

variable {t}

theorem stat_plain (h : t.node p = some .dir ∨ t.node p = some .file) : stat t limit p = t.node p := by
  have hw : walk t limit [] (p.map .name) = some (.found p) :=
    walk_of_walks (.ends (segment_plain h)) (Nat.zero_le limit)
  simp [stat, hw]

variable (t) [DecidableEq α]

theorem insertDir_parent (hp : t.node p = some .dir) (q : List α) (b : α)
    (h : (if q ++ [b] = p ++ [a] then some Node.dir else t.node (q ++ [b])) ≠ none) :
    (if q = p ++ [a] then some Node.dir else t.node q) = some .dir := by
  by_cases hq : q = p ++ [a]
  · rw [if_pos hq]
  rw [if_neg hq]
  by_cases hqb : q ++ [b] = p ++ [a]
  · rw [(append_inj_left' hqb rfl)]
    exact hp
  · rw [if_neg hqb] at h
    exact t.parent_dir q b h

def insertDir (p : List α) (a : α) (hp : t.node p = some .dir) : DirTree α where
  node q := if q = p ++ [a] then some .dir else t.node q
  root_dir := (if_neg (by simp)).trans t.root_dir
  parent_dir := insertDir_parent t hp

-- `mkdir(2)` of one more name: links on the way to the parent are followed, one at the end is not.
def mkdir (limit : ℕ) (parent : List α) (a : α) : Option (DirTree α) :=
  match walk t limit [] (parent.map .name) with
  | some (.found p) =>
    if h : t.node p = some .dir ∧ t.node (p ++ [a]) = none then some (insertDir t p a h.1) else none
  | _ => none

def mkdirAllRev (limit : ℕ) : List α → Option (DirTree α)
  | [] => some t
  | a :: rev =>
    match stat t limit (rev.reverse ++ [a]) with
    | some .dir => some t
    | some _ => none
    | none =>
      match mkdirAllRev limit rev with
      | none => none
      | some t' => mkdir t' limit rev.reverse a

def mkdirAll (limit : ℕ) (path : List α) : Option (DirTree α) := mkdirAllRev t limit path.reverse

variable {t} {path : List α}

theorem mkdirAll_of_stat (h : stat t limit path = some .dir) : mkdirAll t limit path = some t := by
  cases eq_nil_or_concat path with
  | inl hnil =>
    subst hnil
    rfl
  | inr hlast =>
    obtain ⟨p, a, rfl⟩ := hlast
    rw [concat_eq_append] at h ⊢
    simp [mkdirAll, mkdirAllRev, h]

theorem mkdirAll_of_file (hf : t.node p = some .file) : mkdirAll t limit p = none := by
  cases eq_nil_or_concat p with
  | inl hnil =>
    rw [hnil, t.root_dir] at hf
    cases hf
  | inr hlast =>
    obtain ⟨q, a, rfl⟩ := hlast
    rw [concat_eq_append] at hf ⊢
    simp [mkdirAll, mkdirAllRev, stat_plain (.inr hf), hf]

theorem mkdirAll_below_file (hf : t.node p = some .file) : mkdirAll t limit (p ++ [a]) = none := by
  have hwalk : walk t limit [] ((p ++ [a]).map .name) = some .notDir := by
    rw [map_append]
    have hp : Walks t [] (p.map .name) 0 (.found p) := .ends (segment_plain (.inr hf))
    exact walk_of_walks (hp.append_file hf t.root_dir (by simp)) (Nat.zero_le limit)
  have hparent : mkdirAllRev t limit p.reverse = none := mkdirAll_of_file hf
  simp [mkdirAll, mkdirAllRev, stat, hparent, -map_append, hwalk]

theorem mkdirAll_concat (hp : t.node p = some .dir) (h : mkdirAll t limit (p ++ [a]) = some t') :
    t' = t ∧ stat t limit (p ++ [a]) = some .dir ∨
      t.node (p ++ [a]) = none ∧ t'.node (p ++ [a]) = some .dir ∧ ∀ b, t'.node (p ++ [a] ++ [b]) = none := by
  have hparent : mkdirAllRev t limit p.reverse = some t := mkdirAll_of_stat ((stat_plain (.inl hp)).trans hp)
  have hwalk : walk t limit [] (p.map .name) = some (.found p) :=
    walk_of_walks (.ends (segment_plain (.inl hp))) (Nat.zero_le limit)
  simp only [mkdirAll, reverse_append, reverse_cons, reverse_nil, nil_append, cons_append,
    mkdirAllRev, reverse_reverse, hparent, mkdir, hwalk] at h
  split at h
  next hs => exact .inl ⟨(Option.some.inj h).symm, hs⟩
  next => cases h
  next =>
    split at h <;> cases h
    next hn =>
      refine .inr ⟨hn.2, if_pos rfl, fun b => ?_⟩
      have hb : t.node (p ++ [a] ++ [b]) = none := by
        by_contra hne
        rw [t.parent_dir _ _ hne] at hn
        cases hn.2
      exact (if_neg (by simp)).trans hb

theorem mkdir_node_file {parent : List α} (h : mkdir t limit parent a = some t')
    (q : List α) : t'.node q = some .file ↔ t.node q = some .file := by
  unfold mkdir at h
  split at h
  next p _ =>
    split at h <;> cases h
    next hn =>
      by_cases hq : q = p ++ [a]
      · rw [hq, hn.2]
        exact iff_of_false (by simp [insertDir]) nofun
      · exact Eq.congr_left (if_neg hq)
  next => cases h

theorem mkdirAll_node_file (h : mkdirAll t limit path = some t') (q : List α) :
    t'.node q = some .file ↔ t.node q = some .file := by
  rw [mkdirAll] at h
  generalize path.reverse = rev at h
  induction rev generalizing t' with
  | nil =>
    cases h
    rfl
  | cons a rev ih =>
    rw [mkdirAllRev] at h
    split at h
    next =>
      cases h
      rfl
    next => cases h
    next =>
      split at h
      next => cases h
      next made hmade => exact (mkdir_node_file h q).trans (ih hmade)

end MakeDirs

section MakeFile

variable [DecidableEq α] (t)

theorem insertFile_parent (hp : t.node p = some .dir) (hfree : t.node (p ++ [a]) = none)
    (q : List α) (b : α) (h : (if q ++ [b] = p ++ [a] then some Node.file else t.node (q ++ [b])) ≠ none) :
    (if q = p ++ [a] then some Node.file else t.node q) = some .dir := by
  by_cases hqb : q ++ [b] = p ++ [a]
  · have hq := append_inj_left' hqb rfl
    rw [hq, if_neg (by simp)]
    exact hp
  · rw [if_neg hqb] at h
    have hdir := t.parent_dir q b h
    have hq : q ≠ p ++ [a] := by
      rintro rfl
      cases hfree.symm.trans hdir
    rw [if_neg hq]
    exact hdir

def insertFile (p : List α) (a : α) (hp : t.node p = some .dir) (hfree : t.node (p ++ [a]) = none) : DirTree α where
  node q := if q = p ++ [a] then some .file else t.node q
  root_dir := (if_neg (by simp)).trans t.root_dir
  parent_dir := insertFile_parent t hp hfree

variable {t} {p : List α} {a : α} {hp : t.node p = some .dir} {hfree : t.node (p ++ [a]) = none}

theorem insertFile_node_self : (insertFile t p a hp hfree).node (p ++ [a]) = some .file := if_pos rfl

theorem insertFile_node_of_some {q : List α} {n : Node α} (h : t.node q = some n) :
    (insertFile t p a hp hfree).node q = some n := by
  have hq : q ≠ p ++ [a] := by
    rintro rfl
    cases hfree.symm.trans h
  exact (if_neg hq).trans h

theorem segment_insertFile_link {dir : List α} {target rest : List (PathPart α)} {absolute : Bool}
    (h : segment t d todo = .link dir absolute target rest) :
    segment (insertFile t p a hp hfree) d todo = .link dir absolute target rest := by
  fun_induction segment t d todo with
  | case2 _ _ ih | case3 _ _ ih => exact ih h
  | case5 d b todo hn ih =>
    rw [segment_name_dir (insertFile_node_of_some hn)]
    exact ih h
  | case8 d b todo absolute target hn =>
    rw [segment, insertFile_node_of_some hn]
    exact h
  | case1 | case4 | case6 | case7 => cases h

theorem segment_insertFile_missing (h : segment t d todo = .ended (.missing p a [])) :
    segment (insertFile t p a hp hfree) d todo = .ended (.found (p ++ [a])) := by
  fun_induction segment t d todo with
  | case2 _ _ ih | case3 _ _ ih => exact ih h
  | case4 =>
    cases h
    rw [segment, insertFile_node_self]
    rfl
  | case5 d b todo hn ih =>
    rw [segment_name_dir (insertFile_node_of_some hn)]
    exact ih h
  | case1 | case6 | case7 | case8 => cases h

theorem Walks.insertFile (h : Walks t d todo k (.missing p a [])) :
    Walks (insertFile t p a hp hfree) d todo k (.found (p ++ [a])) := by
  generalize he : End.missing p a [] = e at h
  induction h with
  | ends hs =>
    subst he
    exact .ends (segment_insertFile_missing hs)
  | follows hs _ ih => exact .follows (segment_insertFile_link hs) (ih he)

end MakeFile

section Entries

variable [DecidableEq α]

def entryNode (es : List (List α × Node α)) (p : List α) : Option (Node α) := if p = [] then some .dir else es.lookup p

theorem entryNode_parent {es : List (List α × Node α)} (h : ∀ e ∈ es, entryNode es e.1.dropLast = some .dir)
    (p : List α) (a : α) (ha : entryNode es (p ++ [a]) ≠ none) : entryNode es p = some .dir := by
  have hlookup : es.lookup (p ++ [a]) ≠ none := by
    rwa [entryNode, if_neg (by simp)] at ha
  rw [ne_eq, lookup_eq_none_iff] at hlookup
  simp only [not_forall, Bool.not_eq_true, bne_eq_false_iff_eq] at hlookup
  obtain ⟨e, he, hpa⟩ := hlookup
  have hdir := h e he
  rwa [← hpa, dropLast_concat] at hdir

def ofEntries (es : List (List α × Node α)) (h : ∀ e ∈ es, entryNode es e.1.dropLast = some .dir) : DirTree α where
  node := entryNode es
  root_dir := if_pos rfl
  parent_dir := entryNode_parent h

end Entries

end Foundation.FileTree
