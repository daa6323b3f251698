import NomadDev.WorkerMerge

namespace NomadDev.Gitctl

open WorkerPool (GitRun TaskRun mergeBack)

variable {κ : Type}

structure Repo (κ : Type) where
  head : κ
  merging : Option (List String)

inductive Cancel
  | never
  | before (k : ℕ)
  | during (k : ℕ)

inductive Fate
  | notStarted | killed | finished
  deriving DecidableEq

def Cancel.fate : Cancel → ℕ → Fate
  | .never, _ => .finished
  | .before k, i => if i < k then .finished else .notStarted
  | .during k, i => if i < k then .finished else if i = k then .killed else .notStarted

inductive Left (κ : Type)
  | untouched
  | halfway (unmerged : List String)
  | committed (commit : κ)

/-- What the commands of one call do: `merge` is the end of a `git merge` that is not killed and `cut` what a killed one
leaves; `listed` is what an unfinished listing printed; `abortCut` tells whether a killed abort had its effect. -/
structure Attempt (κ : Type) where
  cancel : Cancel
  merge : Except (Left κ) κ
  cut : Left κ
  diffOK : Bool
  listed : List String
  (abortCut revParseOK : Bool)

variable (a : Attempt κ)

def Attempt.mergeEnd : Except (Left κ) κ :=
  match a.cancel.fate 0 with
  | .notStarted => .error .untouched
  | .killed => .error a.cut
  | .finished => a.merge

def Repo.leave (repo : Repo κ) : Left κ → Repo κ
  | .untouched => repo
  | .halfway unmerged => { repo with merging := some unmerged }
  | .committed commit => ⟨commit, none⟩

def runUnmerged (repo : Repo κ) : List String :=
  match a.cancel.fate 1 with
  | .notStarted => []
  | .killed => a.listed
  | .finished => if a.diffOK then repo.merging.getD [] else a.listed

def runAbort (repo : Repo κ) : Repo κ × Bool :=
  match a.cancel.fate 2 with
  | .notStarted => (repo, false)
  | .killed => (if a.abortCut then { repo with merging := none } else repo, false)
  | .finished => ({ repo with merging := none }, repo.merging.isSome)

inductive MergeErr
  | mergeFailed | conflict | conflictAbortFailed | headFailed

structure MergeResult (κ : Type) where
  mergedSHA : Option κ
  conflicted : Bool
  conflictPaths : List String

def Attempt.headRead : Bool := a.cancel.fate 1 == .finished && a.revParseOK

def conflictReport (conflictPaths : List String) (aborted : Bool) : MergeResult κ × MergeErr :=
  if conflictPaths.isEmpty then (⟨none, false, []⟩, .mergeFailed)
  else (⟨none, true, conflictPaths⟩, if aborted then .conflict else .conflictAbortFailed)

def merge (repo : Repo κ) : Repo κ × MergeResult κ × Option MergeErr :=
  match a.mergeEnd with
  | .error left =>
    -- The abort is tried whether or not there are unmerged paths.
    let conflictPaths := runUnmerged a (repo.leave left)
    let (after, aborted) := runAbort a (repo.leave left)
    let (result, err) := conflictReport conflictPaths aborted
    (after, result, some err)
  | .ok commit =>
    if a.headRead then (⟨commit, none⟩, ⟨some commit, false, []⟩, none)
    else (⟨commit, none⟩, ⟨none, false, []⟩, some .headFailed)

def Restored (before after : Repo κ) : Prop := after.merging = none ∧ after.head = before.head

def Attempt.Aborts : Prop :=
  a.cancel.fate 2 = .finished ∨ (a.cancel.fate 2 = .killed ∧ a.abortCut = true)

def Recovers (repo : Repo κ) : Prop :=
  match a.mergeEnd with
  | .ok commit => a.headRead = true ∨ commit = repo.head
  | .error .untouched => repo.merging = none ∨ a.Aborts
  | .error (.halfway _) => a.Aborts
  | .error (.committed commit) => commit = repo.head

theorem runAbort_head (a : Attempt κ) (repo : Repo κ) : (runAbort a repo).1.head = repo.head := by
  unfold runAbort
  split
  · rfl
  · split <;> rfl
  · rfl

theorem runAbort_merging (a : Attempt κ) (repo : Repo κ) :
    (runAbort a repo).1.merging = none ↔ repo.merging = none ∨ a.Aborts := by
  unfold runAbort Attempt.Aborts
  split
  next h => simp [h]
  next h => cases hc : a.abortCut <;> simp [h]
  next h => simp [h]

theorem err_eq_none_iff (a : Attempt κ) (repo : Repo κ) :
    (merge a repo).2.2 = none ↔ ∃ commit, a.mergeEnd = .ok commit ∧ a.headRead = true := by
  unfold merge
  cases hm : a.mergeEnd with
  | error left => simp
  | ok commit => cases hr : a.headRead <;> simp

variable {a : Attempt κ} {repo : Repo κ}

theorem restored_iff_of_error (h : (merge a repo).2.2 ≠ none) : Restored repo (merge a repo).1 ↔ Recovers a repo := by
  rw [ne_eq, err_eq_none_iff] at h
  unfold merge Recovers
  cases hm : a.mergeEnd with
  | ok commit =>
    have hr : a.headRead = false := by simpa [hm] using h
    simp [hr, Restored]
  | error left =>
    simp only [Restored, runAbort_head, runAbort_merging]
    cases left with
    | untouched | halfway | committed => simp [Repo.leave]

theorem recovers_of_no_error (h : (merge a repo).2.2 = none) : Recovers a repo := by
  obtain ⟨commit, hm, hr⟩ := (err_eq_none_iff a repo).mp h
  unfold Recovers
  rw [hm]
  exact .inl hr

theorem merge_error_restores_iff (a : Attempt κ) (repo : Repo κ) :
    ((merge a repo).2.2 ≠ none → Restored repo (merge a repo).1) ↔ Recovers a repo := by
  by_cases h : (merge a repo).2.2 = none
  · exact iff_of_true (fun hne => absurd h hne) (recovers_of_no_error h)
  · rw [← restored_iff_of_error h]
    exact ⟨fun hr => hr h, fun hr _ => hr⟩

def cutShort : Attempt ℕ where
  cancel := .during 0
  merge := .ok 2
  cut := .halfway []
  diffOK := true
  listed := []
  abortCut := false
  revParseOK := true

theorem cutShort_left_merging :
    (merge cutShort ⟨1, none⟩).2.2 = some .mergeFailed ∧ ¬Restored ⟨1, none⟩ (merge cutShort ⟨1, none⟩).1 :=
  ⟨rfl, fun h => absurd h.1 (by decide)⟩

end NomadDev.Gitctl
