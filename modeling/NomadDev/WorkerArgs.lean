import NomadDev.WorkerScope
import NomadDev.Translators
import NomadDev.Foundation.Validation

namespace NomadDev.WorkerPool.Args

open Fsops Foundation.PathText Foundation.Validation List
open Middleware (Json)

def maxSubTaskPromptBytes : ℕ := 16 * 1024

inductive ArgsErr
  | noTasks
  | tooManyTasks (entries : ℕ) (limit : ℤ)
  | notAnObject (i : ℕ)
  | noPrompt (i : ℕ)
  | longPrompt (i : ℕ)
  | noPaths (i : ℕ)
  | pathNotString (i : ℕ)
  | emptyPath
  | absolutePath (p : Bytes)
  | rootPath (p : Bytes)
  | longID (id : Bytes)
  | dotsInID (id : Bytes)
  | charsInID (id : Bytes)
  | duplicateID (id : Bytes)
  | overlap (id₁ id₂ : Bytes) (p q : List Char)

abbrev ScopePath : Type := { p : List Name // p ≠ [] }

def cleanScopePath (raw : Bytes) : Except ArgsErr ScopePath :=
  let p := trimSpace raw
  if p = [] then .error .emptyPath
  else if isAbs (chars p) then .error (.absolutePath p)
  else
    let c := clean (parse (chars p))
    if h : c.2 = [] then .error (.rootPath p)
    else if c.1 ≠ 0 then .error (.rootPath p)
    else .ok ⟨c.2, h⟩

structure SubTask where
  (id prompt : Bytes)
  paths : List ScopePath

def SubTask.scope (t : SubTask) : List (List Char) := t.paths.map fun s => relText s.1

def cleanPaths (taskIdx : ℕ) : List Json → Except ArgsErr (List ScopePath)
  | [] => .ok []
  | .str s :: list => do
    let cleaned ← cleanScopePath (utf8 s)
    let rest ← cleanPaths taskIdx list
    .ok (cleaned :: rest)
  | _ :: _ => .error (.pathNotString taskIdx)

def parseTaskPaths (v : Option Json) (taskIdx : ℕ) : Except ArgsErr (List ScopePath) :=
  match v with
  | some (.arr (p :: list)) => cleanPaths taskIdx (p :: list)
  | _ => .error (.noPaths taskIdx)

def idChar (c : UInt8) : Bool :=
  (97 ≤ c && c ≤ 122) || (65 ≤ c && c ≤ 90) || (48 ≤ c && c ≤ 57) || c == 46 || c == 95 || c == 45

-- The code ranges over runes; a rune outside ASCII has no byte that passes.
def validateTaskID (id : Bytes) : Except ArgsErr Unit :=
  if 64 < id.length then .error (.longID id)
  else if (index [dot, dot] id).isSome then .error (.dotsInID id)
  else if !id.all idChar then .error (.charsInID id)
  else .ok ()

def taskID (fields : List (String × Json)) (i : ℕ) : Bytes :=
  let id := trimSpace (utf8 (Middleware.strField fields "id"))
  if id = [] then utf8 ("task" ++ toString (i + 1)) else id

def parseTask (seenID : List Bytes) (i : ℕ) : Json → Except ArgsErr SubTask
  | .obj m =>
    let prompt := utf8 (Middleware.strField m "prompt")
    let id := taskID m i
    if trimSpace prompt = [] then .error (.noPrompt i)
    else if maxSubTaskPromptBytes < prompt.length then .error (.longPrompt i)
    else do
      let paths ← parseTaskPaths (m.lookup "paths") i
      validateTaskID id
      if id ∈ seenID then .error (.duplicateID id) else .ok ⟨id, prompt, paths⟩
  | _ => .error (.notAnObject i)

def parseTasks : List SubTask → List Json → Except ArgsErr (List SubTask)
  | tasks, [] => .ok tasks
  | tasks, elem :: raw => do
    let t ← parseTask (tasks.map SubTask.id) tasks.length elem
    parseTasks (tasks ++ [t]) raw

def conflict (x y : List Char) : Bool :=
  x == y || (x ++ ['/']).isPrefixOf y || (y ++ ['/']).isPrefixOf x

def scopesOverlap (a b : List (List Char)) : Option (List Char × List Char) :=
  a.findSome? fun x => b.findSome? fun y => if conflict x y then some (x, y) else none

def overlapWith (t : SubTask) : List SubTask → Option ArgsErr
  | [] => none
  | u :: tasks =>
    match scopesOverlap t.scope u.scope with
    | some (p, q) => some (.overlap t.id u.id p q)
    | none => overlapWith t tasks

def firstOverlap : List SubTask → Option ArgsErr
  | [] => none
  | t :: tasks => overlapWith t tasks <|> firstOverlap tasks

def checkDisjoint (tasks : List SubTask) : Except ArgsErr (List SubTask) :=
  match firstOverlap tasks with
  | some err => .error err
  | none => .ok tasks

def parseWorkerPoolArgs (args : List (String × Json)) (maxTasks : ℤ) : Except ArgsErr (List SubTask) :=
  match args.lookup "tasks" with
  | some (.arr (elem :: raw)) =>
    if 0 < maxTasks ∧ maxTasks < (elem :: raw).length then .error (.tooManyTasks (elem :: raw).length maxTasks)
    else parseTasks [] (elem :: raw) >>= checkDisjoint
  | _ => .error .noTasks

def pathInScope (p : List Char) (scope : List (List Char)) : Bool :=
  scope.any fun s => p == s || (s ++ ['/']).isPrefixOf p

def outOfScope (changed scope : List (List Char)) : List (List Char) :=
  changed.filter fun f => !pathInScope f scope

def Related (p q : List Name) : Prop := p <+: q ∨ q <+: p

theorem slash_prefix_iff {x y : List Char} : x ++ ['/'] <+: y ++ ['/'] ↔ x = y ∨ x ++ ['/'] <+: y := by
  rw [prefix_concat_iff, append_cancel_right_eq]

theorem conflict_relText_iff (p q : ScopePath) : conflict (relText p.1) (relText q.1) = true ↔ Related p.1 q.1 := by
  rw [Related, ← relText_slash_prefix_iff p.2 q.2, ← relText_slash_prefix_iff q.2 p.2, slash_prefix_iff,
    slash_prefix_iff]
  simp only [conflict, Bool.or_eq_true, beq_iff_eq, isPrefixOf_iff_prefix]
  tauto

theorem not_covers_root (s : ScopePath) : ¬(relText s.1 = relText [] ∨ relText s.1 ++ ['/'] <+: relText []) := by
  rintro (h | h)
  · exact s.2 (relText_eq_dot_iff.mp h)
  · have hslash : '/' ∈ relText [] := h.subset (by simp)
    simp [relText] at hslash

theorem pathInScope_iff (p : List Name) (scope : List ScopePath) :
    pathInScope (relText p) (scope.map fun s => relText s.1) = true ↔ ∃ s ∈ scope, s.1 <+: p := by
  simp only [pathInScope, any_map, any_eq_true, Function.comp_apply, Bool.or_eq_true, beq_iff_eq, isPrefixOf_iff_prefix]
  refine exists_congr fun s => and_congr_right fun _ => ?_
  rw [eq_comm]
  by_cases hp : p = []
  · subst hp
    rw [prefix_nil]
    exact iff_of_false (not_covers_root s) s.2
  · rw [← slash_prefix_iff]
    exact relText_slash_prefix_iff s.2 hp

theorem outOfScope_eq_nil_iff (changed : List (List Name)) (scope : List ScopePath) :
    outOfScope (changed.map relText) (scope.map fun s => relText s.1) = [] ↔ ∀ p ∈ changed, ∃ s ∈ scope, s.1 <+: p := by
  simp only [outOfScope, filter_eq_nil_iff, forall_mem_map, Bool.not_eq_true', Bool.not_eq_false, pathInScope_iff]

theorem scopesOverlap_eq_none_iff (a b : List ScopePath) :
    scopesOverlap (a.map fun s => relText s.1) (b.map fun s => relText s.1) = none ↔
      ∀ s ∈ a, ∀ t ∈ b, ¬Related s.1 t.1 := by
  simp only [scopesOverlap, List.findSome?_eq_none_iff, forall_mem_map]
  refine forall₂_congr fun s _ => forall₂_congr fun t _ => ?_
  rw [← conflict_relText_iff]
  split
  next h => simp [h]
  next h => simp [h]

def Apart (t u : SubTask) : Prop := ∀ s ∈ t.paths, ∀ s' ∈ u.paths, ¬Related s.1 s'.1

theorem overlapWith_eq_none_iff (t : SubTask) (tasks : List SubTask) :
    overlapWith t tasks = none ↔ ∀ u ∈ tasks, Apart t u := by
  induction tasks with
  | nil => simp [overlapWith]
  | cons u tasks ih =>
    have happart : scopesOverlap t.scope u.scope = none ↔ Apart t u := scopesOverlap_eq_none_iff t.paths u.paths
    rw [forall_mem_cons, ← happart, ← ih, overlapWith]
    cases scopesOverlap t.scope u.scope <;> simp

theorem firstOverlap_eq_none_iff (tasks : List SubTask) : firstOverlap tasks = none ↔ tasks.Pairwise Apart := by
  induction tasks with
  | nil => simp [firstOverlap]
  | cons t tasks ih => simp [firstOverlap, overlapWith_eq_none_iff, ih]

theorem not_related_below {s t p q : List Name} (hp : s <+: p) (hq : t <+: q) (h : ¬Related s t) : ¬Related p q := by
  rintro (hpq | hqp)
  · exact h (List.prefix_or_prefix_of_prefix (hp.trans hpq) hq)
  · exact h (List.prefix_or_prefix_of_prefix hp (hq.trans hqp))

def Accepted (t : SubTask) : Prop :=
  trimSpace t.prompt ≠ [] ∧ t.prompt.length ≤ maxSubTaskPromptBytes ∧ t.paths ≠ [] ∧ validateTaskID t.id = .ok ()

variable {i : ℕ}

theorem ne_nil_of_parseTaskPaths {v : Option Json} {paths : List ScopePath} (h : parseTaskPaths v i = .ok paths) :
    paths ≠ [] := by
  unfold parseTaskPaths at h
  split at h
  next p list =>
    cases p with
    | str s =>
      obtain ⟨cleaned, _, h⟩ := bind_eq_ok_iff.mp h
      obtain ⟨rest, _, h⟩ := bind_eq_ok_iff.mp h
      cases h
      exact cons_ne_nil _ _
    | _ => cases h
  · cases h

variable {t : SubTask}

theorem parseTask_ok {seenID : List Bytes} {elem : Json} (h : parseTask seenID i elem = .ok t) :
    t.id ∉ seenID ∧ Accepted t := by
  cases elem with
  | obj m =>
    obtain ⟨hprompt, h⟩ := guard_eq_ok_iff.mp h
    obtain ⟨hlong, h⟩ := guard_eq_ok_iff.mp h
    obtain ⟨paths, hpaths, h⟩ := bind_eq_ok_iff.mp h
    obtain ⟨_, hid, h⟩ := bind_eq_ok_iff.mp h
    obtain ⟨hseen, h⟩ := guard_eq_ok_iff.mp h
    cases h
    exact ⟨hseen, hprompt, Nat.le_of_not_lt hlong, ne_nil_of_parseTaskPaths hpaths, hid⟩
  | _ => cases h

structure Built (tasks : List SubTask) : Prop where
  ids : (tasks.map SubTask.id).Nodup
  accepted : ∀ t ∈ tasks, Accepted t

variable {tasks : List SubTask}

theorem Built.snoc (hb : Built tasks) (hid : t.id ∉ tasks.map SubTask.id) (ht : Accepted t) : Built (tasks ++ [t]) where
  ids := by
    rw [map_append, map_singleton, nodup_append_comm]
    exact nodup_cons.mpr ⟨hid, hb.ids⟩
  accepted := forall_mem_append.mpr ⟨hb.accepted, forall_mem_singleton.mpr ht⟩

theorem built_of_parseTasks {out : List SubTask} {raw : List Json} (h : parseTasks tasks raw = .ok out)
    (hb : Built tasks) : Built out ∧ out.length = tasks.length + raw.length := by
  induction raw generalizing tasks with
  | nil =>
    cases h
    exact ⟨hb, rfl⟩
  | cons elem raw ih =>
    obtain ⟨t, ht, h⟩ := bind_eq_ok_iff.mp h
    obtain ⟨hid, hacc⟩ := parseTask_ok ht
    obtain ⟨hout, hlen⟩ := ih h (hb.snoc hid hacc)
    refine ⟨hout, hlen.trans ?_⟩
    simp only [length_append, length_cons, length_nil]
    omega

structure WellFormed (maxTasks : ℤ) (tasks : List SubTask) : Prop extends Built tasks where
  nonempty : tasks ≠ []
  cap : 0 < maxTasks → tasks.length ≤ maxTasks
  apart : tasks.Pairwise Apart

theorem checkDisjoint_ok {checked : List SubTask} (h : checkDisjoint tasks = .ok checked) :
    checked = tasks ∧ tasks.Pairwise Apart := by
  unfold checkDisjoint at h
  split at h <;> cases h
  next hnone => exact ⟨rfl, (firstOverlap_eq_none_iff tasks).mp hnone⟩

theorem wellFormed_of_parse {args : List (String × Json)} {maxTasks : ℤ}
    (h : parseWorkerPoolArgs args maxTasks = .ok tasks) : WellFormed maxTasks tasks := by
  unfold parseWorkerPoolArgs at h
  split at h
  next elem raw _ =>
    obtain ⟨hcap, h⟩ := guard_eq_ok_iff.mp h
    obtain ⟨parsed, hp, h⟩ := bind_eq_ok_iff.mp h
    obtain ⟨rfl, hapart⟩ := checkDisjoint_ok h
    obtain ⟨hb, hlen⟩ := built_of_parseTasks hp ⟨nodup_nil, fun _ ht => absurd ht not_mem_nil⟩
    refine ⟨hb, ?_, ?_, hapart⟩
    · intro hnil
      rw [hnil] at hlen
      cases hlen
    · intro hpos
      rw [hlen, length_nil, Nat.zero_add]
      exact not_lt.mp fun hlt => hcap ⟨hpos, hlt⟩
  · cases h

def ProperAncestor (p q : List Name) : Prop := p <+: q ∧ p ≠ q

theorem accepted_scopes_separate {args : List (String × Json)} {maxTasks : ℤ} {tasks : List SubTask}
    (h : parseWorkerPoolArgs args maxTasks = .ok tasks) (changed : ℕ → List (List Name))
    (hscope : ∀ i t, tasks[i]? = some t → outOfScope ((changed i).map relText) t.scope = [])
    (i j : ℕ) (hij : i ≠ j) (hi : i < tasks.length) (hj : j < tasks.length) :
    (changed i).Disjoint (changed j) ∧ ∀ p ∈ changed i, ∀ q ∈ changed j, ¬ProperAncestor p q := by
  have hunrelated : ∀ p ∈ changed i, ∀ q ∈ changed j, ¬Related p q := by
    intro p hp q hq
    obtain ⟨s, hs, hsp⟩ := (outOfScope_eq_nil_iff (changed i) tasks[i].paths).mp
      (hscope i _ (List.getElem?_eq_getElem hi)) p hp
    obtain ⟨s', hs', hsq⟩ := (outOfScope_eq_nil_iff (changed j) tasks[j].paths).mp
      (hscope j _ (List.getElem?_eq_getElem hj)) q hq
    have happart := pairwise_iff_getElem.mp (wellFormed_of_parse h).apart
    rcases Nat.lt_or_gt_of_ne hij with hlt | hlt
    · exact not_related_below hsp hsq (happart i j hi hj hlt s hs s' hs')
    · exact fun hr => not_related_below hsq hsp (happart j i hj hi hlt s' hs' s hs) hr.symm
  exact ⟨fun p hp hq => hunrelated p hp p hq (.inl (prefix_refl p)),
    fun p hp q hq ha => hunrelated p hp q hq (.inl ha.1)⟩

def srcA : ScopePath := ⟨[⟨"src".toList, by decide⟩, ⟨"a".toList, by decide⟩], List.cons_ne_nil _ _⟩
def srcAb : ScopePath := ⟨[⟨"src".toList, by decide⟩, ⟨"ab".toList, by decide⟩], List.cons_ne_nil _ _⟩

def slashArgs : List (String × Json) :=
  [("tasks", .arr [.obj [("prompt", .str "one"), ("paths", .arr [.str "src//a/"])],
    .obj [("prompt", .str "two"), ("paths", .arr [.str "./src/ab"])]])]

def slashTasks : List SubTask := [⟨utf8 "task1", utf8 "one", [srcA]⟩, ⟨utf8 "task2", utf8 "two", [srcAb]⟩]

def slashChanged : ℕ → List (List Name)
  | 0 => [srcA.1 ++ srcAb.1]
  | _ => [srcAb.1]

theorem accepted_scopes_separate_slash : parseWorkerPoolArgs slashArgs 4 = .ok slashTasks ∧
      (slashChanged 0).Disjoint (slashChanged 1) ∧ ∀ p ∈ slashChanged 0, ∀ q ∈ slashChanged 1, ¬ProperAncestor p q := by
  have hparse : parseWorkerPoolArgs slashArgs 4 = .ok slashTasks := rfl
  refine ⟨hparse, accepted_scopes_separate hparse slashChanged ?_ 0 1 (by decide) (by decide) (by decide)⟩
  intro i t hi
  rcases i with _ | _ | i
  · cases hi; rfl
  · cases hi; rfl
  · cases hi

end NomadDev.WorkerPool.Args
