import NomadDev.Foundation.PathText

namespace NomadDev.Fsops

open Foundation.FileTree Foundation.PathText List

abbrev FileSystem : Type := DirTree Name

inductive EvalErr
  | notExist | notDir | tooManyLinks
  deriving DecidableEq

variable (fs : FileSystem)

def evalSymlinks (path : List Name) : Except EvalErr (List Name) :=
  match walk fs 255 [] (path.map .name) with
  | some (.found real) => .ok real
  | some (.missing ..) => .error .notExist
  | some .notDir => .error .notDir
  | none => .error .tooManyLinks

def withinRoot (root target : List Name) : Bool :=
  target == root || (render root ++ ['/']).isPrefixOf (render target ++ ['/'])

inductive ResolveErr
  | emptyPath
  | absolutePath
  | dotDot
  | eval (e : EvalErr)
  | parent (e : EvalErr)
  | parentOutside
  | outside
  deriving DecidableEq

def cleanRel (rel : List Char) : Except ResolveErr (List Name) :=
  if rel = [] then .error .emptyPath
  else if isAbs rel then .error .absolutePath
  else if (clean (parse rel)).1 ≠ 0 then .error .dotDot
  else .ok (clean (parse rel)).2

def resolveParent (scopedRoot candidate : List Name) : Except ResolveErr (List Name) :=
  match evalSymlinks fs candidate.dropLast with
  | .error e => .error (.parent e)
  | .ok realParent => if withinRoot scopedRoot realParent then .ok candidate else .error .parentOutside

def resolveCandidate (scopedRoot candidate : List Name) : Except ResolveErr (List Name) :=
  match evalSymlinks fs candidate with
  | .error .notExist => resolveParent fs scopedRoot candidate
  | .error e => .error (.eval e)
  | .ok real => if withinRoot scopedRoot real then .ok real else .error .outside

def resolveSafe (scopedRoot : List Name) (rel : List Char) : Except ResolveErr (List Name) :=
  match cleanRel rel with
  | .error e => .error e
  | .ok cleaned => resolveCandidate fs scopedRoot (scopedRoot ++ cleaned)

-- `open(2)`: the file reached, or created at a missing last step. `limit` bounds the links followed.
def openFile (limit : ℕ) (fs : FileSystem) (create : Bool) (path : List Name) : Option (List Name) :=
  match walk fs limit [] (path.map .name) with
  | some (.found p) => some p
  | some (.missing dir name []) => if create then some (dir ++ [name]) else none
  | _ => none

def Contained (limit : ℕ) (fs : FileSystem) (scopedRoot : List Name) (rel : List Char) : Prop :=
  ∀ p, resolveSafe fs scopedRoot rel = .ok p →
    ∀ create reached, openFile limit fs create p = some reached → scopedRoot <+: reached

def DanglingEscape (limit : ℕ) (fs : FileSystem) (scopedRoot : List Name) (rel : List Char) : Prop :=
  ∃ dirs name realParent absolute target reached,
    cleanRel rel = .ok (dirs ++ [name]) ∧ evalSymlinks fs (scopedRoot ++ dirs) = .ok realParent ∧
      withinRoot scopedRoot realParent = true ∧
      fs.node (realParent ++ [name]) = some (.link absolute target) ∧
      evalSymlinks fs (scopedRoot ++ (dirs ++ [name])) = .error .notExist ∧
      openFile limit fs true (scopedRoot ++ (dirs ++ [name])) = some reached ∧ ¬ scopedRoot <+: reached

variable {path real root reached dirs realParent : List Name} {fs : FileSystem} {limit : ℕ} {create : Bool}
  {name : Name}

theorem prefix_of_withinRoot {target : List Name} (h : withinRoot root target = true) : root <+: target := by
  simp only [withinRoot, Bool.or_eq_true, beq_iff_eq, isPrefixOf_iff_prefix] at h
  rcases h with rfl | h
  · exact prefix_rfl
  · exact prefix_of_render h

theorem evalSymlinks_ok (h : evalSymlinks fs path = .ok real) : ∃ k, Walks fs [] (path.map .name) k (.found real) := by
  unfold evalSymlinks at h
  split at h
  · next hw =>
    cases h
    obtain ⟨k, _, hk⟩ := walks_of_walk hw
    exact ⟨k, hk⟩
  all_goals cases h

theorem evalSymlinks_notExist (h : evalSymlinks fs path = .error .notExist) :
    ∃ k dir name rest, Walks fs [] (path.map .name) k (.missing dir name rest) := by
  unfold evalSymlinks at h
  split at h
  · cases h
  · next dir name rest hw =>
    obtain ⟨k, _, hk⟩ := walks_of_walk hw
    exact ⟨k, dir, name, rest, hk⟩
  all_goals cases h

theorem openFile_real (h : fs.node real = some .dir ∨ fs.node real = some .file) :
    openFile limit fs create real = some real := by
  have hw : walk fs limit [] (real.map .name) = some (.found real) :=
    walk_of_walks (.ends (segment_plain h)) (Nat.zero_le limit)
  simp [openFile, hw]

theorem openFile_eq_some (h : openFile limit fs create path = some reached) :
    ∃ k, Walks fs [] (path.map .name) k (.found reached) ∨
      ∃ dir name, Walks fs [] (path.map .name) k (.missing dir name []) ∧ reached = dir ++ [name] := by
  unfold openFile at h
  split at h
  · next hw =>
    cases h
    obtain ⟨k, _, hk⟩ := walks_of_walk hw
    exact ⟨k, .inl hk⟩
  · next dir name hw =>
    obtain ⟨k, _, hk⟩ := walks_of_walk hw
    split at h <;> cases h
    exact ⟨k, .inr ⟨dir, name, hk, rfl⟩⟩
  · cases h

theorem openFile_create (h : openFile limit fs create path = some reached) :
    openFile limit fs true path = some reached := by
  cases create with
  | true => exact h
  | false =>
    unfold openFile at h ⊢
    split at h
    · exact h
    · cases h
    · cases h

theorem evalSymlinks_real (h : evalSymlinks fs path = .ok real) :
    fs.node real = some .dir ∨ fs.node real = some .file := by
  obtain ⟨k, hk⟩ := evalSymlinks_ok h
  exact hk.found_node fs.root_dir

theorem last_step_of_notExist (hp : evalSymlinks fs dirs = .ok realParent)
    (hc : evalSymlinks fs (dirs ++ [name]) = .error .notExist) :
    fs.node realParent = some .dir ∧ (fs.node (realParent ++ [name]) = none ∨
      ∃ absolute target, fs.node (realParent ++ [name]) = some (.link absolute target)) := by
  obtain ⟨j, hj⟩ := evalSymlinks_ok hp
  obtain ⟨k, dir, a, rest, hk⟩ := evalSymlinks_notExist hc
  rw [map_append] at hk
  rcases evalSymlinks_real hp with hd | hf
  · refine ⟨hd, ?_⟩
    cases hn : fs.node (realParent ++ [name]) with
    | none => exact .inl rfl
    | some n =>
      cases n with
      | link absolute target => exact .inr ⟨absolute, target, rfl⟩
      | dir | file =>
        have hend : Walks fs realParent [.name name] 0 (.found (realParent ++ [name])) :=
          .ends (by simp [Foundation.FileTree.segment, hn])
        cases (hk.unique (hj.append hd hend)).2
  · cases (hk.unique (hj.append_file hf fs.root_dir (by simp))).2

theorem root_exists (hw : withinRoot root real = true)
    (hr : fs.node real = some .dir ∨ fs.node real = some .file) : evalSymlinks fs root = .ok root := by
  have hroot : fs.node root = some .dir ∨ fs.node root = some .file := by
    have hne : fs.node real ≠ none := by rcases hr with hr | hr <;> simp [hr]
    rcases prefix_dir hne (prefix_of_withinRoot hw) with rfl | hd
    · exact hr
    · exact .inl hd
  have hwalk : walk fs 255 [] (root.map .name) = some (.found root) :=
    walk_of_walks (.ends (segment_plain hroot)) (Nat.zero_le _)
  simp [evalSymlinks, hwalk]

theorem resolveCandidate_ok {candidate p : List Name} (h : resolveCandidate fs root candidate = .ok p) :
    (evalSymlinks fs candidate = .ok p ∧ withinRoot root p = true) ∨
      (evalSymlinks fs candidate = .error .notExist ∧ p = candidate ∧
        ∃ realParent, evalSymlinks fs candidate.dropLast = .ok realParent ∧ withinRoot root realParent = true) := by
  unfold resolveCandidate at h
  split at h
  · next he =>
    unfold resolveParent at h
    split at h
    · cases h
    · next realParent hp =>
      split at h <;> cases h
      next hw => exact .inr ⟨he, rfl, realParent, hp, hw⟩
  · cases h
  · next real he =>
    split at h <;> cases h
    next hw => exact .inl ⟨he, hw⟩

theorem dropLast_candidate (root dirs : List Name) (name : Name) :
    (root ++ (dirs ++ [name])).dropLast = root ++ dirs := by
  rw [← append_assoc, dropLast_concat]

theorem resolveSafe_of_dangling {rel : List Char} (hrel : cleanRel rel = .ok (dirs ++ [name]))
    (hp : evalSymlinks fs (root ++ dirs) = .ok realParent) (hw : withinRoot root realParent = true)
    (hc : evalSymlinks fs (root ++ (dirs ++ [name])) = .error .notExist) :
    resolveSafe fs root rel = .ok (root ++ (dirs ++ [name])) := by
  simp [resolveSafe, hrel, resolveCandidate, hc, resolveParent, hp, hw]

theorem contained_iff_no_dangling_escape (limit : ℕ) (fs : FileSystem) (scopedRoot : List Name) (rel : List Char) :
    Contained limit fs scopedRoot rel ↔ ¬ DanglingEscape limit fs scopedRoot rel := by
  constructor
  · rintro h ⟨dirs, name, realParent, _, _, reached, hrel, hp, hw, _, hc, ho, hout⟩
    exact hout (h _ (resolveSafe_of_dangling hrel hp hw hc) true reached ho)
  · intro h p hp create reached ho
    unfold resolveSafe at hp
    split at hp
    · cases hp
    next cleaned hrel =>
    rcases resolveCandidate_ok hp with ⟨he, hw⟩ | ⟨he, rfl, realParent, hpar, hw⟩
    · rw [openFile_real (evalSymlinks_real he)] at ho
      cases ho
      exact prefix_of_withinRoot hw
    · cases eq_nil_or_concat cleaned with
      | inl hnil =>
        subst hnil
        rw [append_nil, root_exists hw (evalSymlinks_real hpar)] at he
        cases he
      | inr hlast =>
        obtain ⟨dirs, name, rfl⟩ := hlast
        rw [concat_eq_append] at *
        rw [dropLast_candidate] at hpar
        have hlast := last_step_of_notExist hpar (by rwa [append_assoc])
        rcases hlast with ⟨hd, hnone | ⟨absolute, target, hlink⟩⟩
        · obtain ⟨j, hj⟩ := evalSymlinks_ok hpar
          have hmissing : Walks fs [] ((scopedRoot ++ (dirs ++ [name])).map .name) j
              (.missing realParent name []) := by
            rw [← append_assoc, map_append]
            exact hj.append hd (.ends (by simp [Foundation.FileTree.segment, hnone]))
          obtain ⟨k, hfound | ⟨dir, a, hm, rfl⟩⟩ := openFile_eq_some ho
          · cases (hmissing.unique hfound).2
          · have hend := (hmissing.unique hm).2
            cases hend
            exact (prefix_of_withinRoot hw).trans (prefix_append _ _)
        · by_contra hout
          exact h ⟨dirs, name, realParent, absolute, target, reached, hrel, hpar, hw, hlink, he,
            openFile_create ho, hout⟩

def ws : Name := ⟨['w', 's'], by decide⟩
def etc : Name := ⟨['e', 't', 'c'], by decide⟩
def report : Name := ⟨['r', 'e', 'p', 'o', 'r', 't'], by decide⟩
def passwd : Name := ⟨['p', 'w'], by decide⟩

def danglingTree : FileSystem where
  node p :=
    if p = [] ∨ p = [ws] ∨ p = [etc] then some .dir
    else if p = [ws, report] then some (.link true [.name etc, .name passwd])
    else none
  root_dir := by simp
  parent_dir := by
    intro p a h
    have hp : p = [] ∨ p = [ws] := by
      by_contra hno
      simp only [not_or] at hno
      apply h
      have h₁ : ¬ (p ++ [a] = [] ∨ p ++ [a] = [ws] ∨ p ++ [a] = [etc]) := by
        cases p <;> simp_all
      have h₂ : p ++ [a] ≠ [ws, report] := by
        intro he
        have hsplit : p ++ [a] = [ws] ++ [report] := he
        exact hno.2 (List.append_inj' hsplit rfl).1
      rw [if_neg h₁, if_neg h₂]
    rcases hp with rfl | rfl <;> simp

theorem danglingTree_escapes : ¬ Contained 40 danglingTree [ws] "report".toList := by
  intro h
  have hin := h [ws, report] (by decide) true [etc, passwd] (by decide)
  revert hin
  decide

end NomadDev.Fsops
