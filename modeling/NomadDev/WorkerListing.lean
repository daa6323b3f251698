import NomadDev.WorkerMerge
import NomadDev.WorkerArgs
import NomadDev.Foundation.Lines

namespace NomadDev.WorkerPool.Listing

open Foundation.PathText Foundation.Lines List
open Args (ScopePath)

abbrev Text : Type := List Char

/-- A task's branch against the base commit, by the entry (mode and content) at each path. The branch is at `listed`
when the pool lists its changes and at `tip` when it merges it; `renames` are the pairs that the diff detects. -/
structure BranchDiff (δ : Type) where
  (base listed tip : Text → Option δ)
  changed : List Text
  mem_changed : ∀ p, p ∈ changed ↔ base p ≠ listed p
  named : ∀ p ∈ changed, p ≠ []
  renames : List (Text × Text)
  deleted : ∀ r ∈ renames, base r.1 ≠ none ∧ listed r.1 = none
  added : ∀ r ∈ renames, base r.2 = none ∧ listed r.2 ≠ none

variable {δ γ : Type} (d : BranchDiff δ)

def BranchDiff.RenameSource (p : Text) : Prop := ∃ r ∈ d.renames, r.1 = p

instance (d : BranchDiff δ) (p : Text) : Decidable (d.RenameSource p) :=
  inferInstanceAs (Decidable (∃ r ∈ d.renames, r.1 = p))

def BranchDiff.printed : List Text := d.changed.filter fun p => ¬d.RenameSource p

def unusual (c : Char) : Bool := c.toNat < 32 || 127 ≤ c.toNat || c == '"' || c == '\\'

def octal (n : ℕ) : Text := [Nat.digitChar (n / 64 % 8), Nat.digitChar (n / 8 % 8), Nat.digitChar (n % 8)]

def escape (c : Char) : Text :=
  if c = '\x07' then ['\\', 'a']
  else if c = '\x08' then ['\\', 'b']
  else if c = '\t' then ['\\', 't']
  else if c = '\n' then ['\\', 'n']
  else if c = '\x0b' then ['\\', 'v']
  else if c = '\x0c' then ['\\', 'f']
  else if c = '\r' then ['\\', 'r']
  else if c = '"' then ['\\', '"']
  else if c = '\\' then ['\\', '\\']
  else if unusual c then '\\' :: octal c.toNat
  else [c]

def quotePath (p : Text) : Text := if p.any unusual then '"' :: p.flatMap escape ++ ['"'] else p

def cutset (c : Char) : Bool := c == ' ' || c == '\t' || c == '\r' || c == '\n'

def isSpace (c : Char) : Bool := cutset c || c == '\x0b' || c == '\x0c'

def splitLines (s : Text) : List Text := readLines isSpace '\n' s

def changedFiles : List Text :=
  splitLines ((d.printed.flatMap fun p => quotePath p ++ ['\n']).rdropWhile cutset)

def scope (t : Task) : List ScopePath := t.paths.pmap Subtype.mk t.below

def scopeTexts (t : Task) : List Text := (scope t).map fun s => relText s.1

def mergeListed (r : TaskRun γ) (files : Option (List Text)) : Result γ × List γ :=
  mergePass (Args.outOfScope · (scopeTexts r.task)) r files

def BranchMerged (r : TaskRun γ) (files : Option (List Text)) : Prop :=
  (mergeListed r files).1.mergeStatus = .merged ∨ (mergeListed r files).2 ≠ []

theorem newline_not_mem_octal (n : ℕ) : '\n' ∉ octal n := by
  have hdigit : ∀ k, k < 8 → '\n' ≠ Nat.digitChar k := by decide
  simp [octal, hdigit _ (Nat.mod_lt _ (by decide : 8 > 0))]

theorem newline_not_mem_escape (c : Char) : '\n' ∉ escape c := by
  by_cases hn : c = '\n'
  · subst hn
    decide
  unfold escape
  iterate 8
    split
    · decide
  split
  · exact not_mem_cons_of_ne_of_not_mem (by decide) (newline_not_mem_octal c.toNat)
  · exact not_mem_cons_of_ne_of_not_mem (Ne.symm hn) not_mem_nil

theorem newline_not_mem_quotePath (p : Text) : '\n' ∉ quotePath p := by
  unfold quotePath
  split
  · simp [newline_not_mem_escape]
  next h =>
    intro hn
    exact h (any_eq_true.mpr ⟨'\n', hn, by decide⟩)

theorem changedFiles_eq (d : BranchDiff δ) : changedFiles d = nonblank isSpace (d.printed.map quotePath) := by
  have hcut : ∀ c, cutset c = true → isSpace c = true := fun c h => by simp [isSpace, h]
  have hlines : ∀ l ∈ d.printed.map quotePath, '\n' ∉ l :=
    forall_mem_map.mpr fun p _ => newline_not_mem_quotePath p
  rw [changedFiles, splitLines, readLines_rdropWhile hcut, ← readLines_unlines hlines, flatMap_map]

def Plain (p : Text) : Prop := p.any unusual = false ∧ p.head? ≠ some ' ' ∧ p.getLast? ≠ some ' '

instance (p : Text) : Decidable (Plain p) := inferInstanceAs (Decidable (_ ∧ _ ∧ _))

theorem eq_space_of_isSpace {c : Char} (hc : unusual c = false) (hs : isSpace c = true) : c = ' ' := by
  simp only [isSpace, cutset, Bool.or_eq_true, beq_iff_eq] at hs
  rcases hs with ((((rfl | rfl) | rfl) | rfl) | rfl) | rfl
  · rfl
  all_goals exact absurd hc (by decide)

theorem trim_quotePath {p : Text} (h : Plain p) : trim isSpace (quotePath p) = p := by
  have husual : ∀ c ∈ p, unusual c = false := by simpa using h.1
  have hspace : ∀ c ∈ p, c ≠ ' ' → isSpace c = false := fun c hc hne =>
    Bool.eq_false_iff.mpr fun hs => hne (eq_space_of_isSpace (husual c hc) hs)
  rw [quotePath, if_neg (by rw [h.1]; exact Bool.false_ne_true)]
  apply trim_eq_self
  · intro c hc
    exact hspace c (mem_of_mem_head? hc) fun he => h.2.1 (he ▸ hc)
  · intro c hc
    exact hspace c (mem_of_mem_getLast? hc) fun he => h.2.2 (he ▸ hc)

theorem mem_changedFiles {d : BranchDiff δ} {p : Text} (hp : d.base p ≠ d.listed p) (hs : ¬d.RenameSource p)
    (h : Plain p) : p ∈ changedFiles d := by
  have hc := (d.mem_changed p).mpr hp
  have hprinted : p ∈ d.printed := mem_filter.mpr ⟨hc, by simpa using hs⟩
  rw [changedFiles_eq]
  refine mem_filter.mpr ⟨mem_map.mpr ⟨_, mem_map_of_mem hprinted, trim_quotePath h⟩, ?_⟩
  simpa using d.named p hc

theorem outOfScope_of_branchMerged {r : TaskRun γ} {files : Option (List Text)} (h : BranchMerged r files) :
    ∃ lines, files = some lines ∧ Args.outOfScope lines (scopeTexts r.task) = [] := by
  unfold BranchMerged mergeListed mergePass at h
  split at h
  · simp at h
  split at h
  · simp at h
  · simp at h
  split at h
  · simp at h
  next lines =>
    split at h
    · simp at h
    next hb => exact ⟨lines, rfl, by simpa using hb⟩

def Covered (t : Task) (p : Text) : Prop := Args.pathInScope p (scopeTexts t) = true

instance (t : Task) (p : Text) : Decidable (Covered t p) := inferInstanceAs (Decidable (_ = true))

def Unlisted (p : Text) : Prop := d.RenameSource p ∨ ¬Plain p ∨ d.listed p ≠ d.tip p

theorem merged_in_scope_iff {r : TaskRun γ} {d : BranchDiff δ} {diffOK : Bool}
    (h : BranchMerged r (if diffOK then some (changedFiles d) else none)) :
    (∀ p, d.base p ≠ d.tip p → Covered r.task p) ↔ ∀ p, d.base p ≠ d.tip p → Unlisted d p → Covered r.task p := by
  constructor
  · intro hall p hp _
    exact hall p hp
  · intro hunlisted p hp
    by_cases hu : Unlisted d p
    · exact hunlisted p hp hu
    simp only [Unlisted, not_or, not_not] at hu
    obtain ⟨hsource, hplain, hlisted⟩ := hu
    obtain ⟨lines, hlines, hscope⟩ := outOfScope_of_branchMerged h
    split at hlines <;> cases hlines
    have hmem := mem_changedFiles (hlisted ▸ hp) hsource hplain
    simpa [Covered] using filter_eq_nil_iff.mp hscope p hmem

def demoRun : TaskRun String := { timedOut with ended := .finalMessage }

def reportFile : Text := "report".toList
def secretsFile : Text := "secrets".toList

def moved : BranchDiff ℕ where
  base p := if p = secretsFile then some 7 else none
  listed p := if p = reportFile then some 7 else none
  tip p := if p = reportFile then some 7 else none
  changed := [secretsFile, reportFile]
  mem_changed p := by
    by_cases hs : p = secretsFile
    · subst hs
      decide
    · by_cases hr : p = reportFile
      · subst hr
        decide
      · simp [hs, hr]
  named := by decide
  renames := [(secretsFile, reportFile)]
  deleted := by decide
  added := by decide

def written : BranchDiff ℕ where
  base _ := none
  listed p := if p = reportFile then some 7 else none
  tip p := if p = reportFile then some 7 else none
  changed := [reportFile]
  mem_changed p := by by_cases hr : p = reportFile <;> simp [hr]
  named := by decide
  renames := []
  deleted := by simp
  added := by simp

theorem demoRun_merged (d : BranchDiff ℕ) (h : changedFiles d = [reportFile]) :
    BranchMerged demoRun (if true then some (changedFiles d) else none) := by
  rw [h]
  exact .inl rfl

theorem merged_in_scope_iff_written : BranchMerged demoRun (if true then some (changedFiles written) else none) ∧
      ∀ p, written.base p ≠ written.tip p → Covered demoTask p := by
  have hm := demoRun_merged written (by decide)
  refine ⟨hm, (merged_in_scope_iff hm).mpr ?_⟩
  intro p hp _
  have hp' : p = reportFile := by
    by_contra hne
    exact hp (if_neg hne).symm
  subst hp'
  rfl

theorem moved_out_of_scope_merged :
    BranchMerged demoRun (if true then some (changedFiles moved) else none) ∧ moved.base secretsFile ≠ none ∧
      moved.tip secretsFile = none ∧ ¬Covered demoTask secretsFile :=
  ⟨demoRun_merged moved (by decide), by decide, by decide, by decide⟩

end NomadDev.WorkerPool.Listing
