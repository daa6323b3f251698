import NomadDev.WorkerScope

namespace NomadDev.WorkerPool

open Fsops Foundation.PathText List

inductive Status
  | success | failed | scopeViolation | canceled
  deriving DecidableEq

inductive MergeStatus
  | skipped | conflict | merged
  deriving DecidableEq

inductive TaskEnd
  | noSlot | streamRefused | turnError | ctxDone | finalMessage | noFinalMessage | resumeFailed
  deriving DecidableEq

def TaskEnd.status : TaskEnd → Status
  | .noSlot => .canceled
  | .streamRefused => .failed
  | .turnError => .failed
  | .ctxDone => .canceled
  | .finalMessage => .success
  | .noFinalMessage => .failed
  | .resumeFailed => .failed

variable {γ : Type}

/-- The file changes of a task when it ends: committed on its branch by its own scripts, uncommitted, and in paths that
git ignores. -/
structure Work (γ : Type) where
  (committed pending ignored : List γ)
  distinct : (committed ++ pending ++ ignored).Nodup

-- A git command that was killed may have had its effect.
inductive GitRun
  | ok
  | failed (applied : Bool)
  deriving DecidableEq

structure TaskRun (γ : Type) where
  task : Task
  ended : TaskEnd
  work : Work γ
  (addOK statusOK : Bool)
  commit : GitRun
  changed : Option (List (List Name))
  merge : GitRun
  headOK : Bool

def commitAll (r : TaskRun γ) : List γ × Option Bool :=
  if r.addOK = false ∨ r.statusOK = false then (r.work.committed, none)
  else if r.work.pending.isEmpty then (r.work.committed, some false)
  else match r.commit with
    | .ok => (r.work.committed ++ r.work.pending, some true)
    | .failed applied => (if applied then r.work.committed ++ r.work.pending else r.work.committed, none)

def outOfScope (changed : List (List Name)) (scope : List (List Name)) : List (List Name) :=
  changed.filter fun f => !pathInScope f scope

structure Result (γ : Type) where
  status : Status
  mergeStatus : MergeStatus
  branch : List γ

-- `files` is what the listing of the branch printed, if it succeeded.
def mergePass {β : Type} (outOfScope : List β → List β) (r : TaskRun γ) (files : Option (List β)) : Result γ × List γ :=
  if r.ended.status ≠ .success then (⟨r.ended.status, .skipped, r.work.committed⟩, [])
  else match commitAll r with
    | (branch, none) => (⟨.failed, .skipped, branch⟩, [])
    | (branch, some false) => (⟨.success, .skipped, branch⟩, [])
    | (branch, some true) =>
      match files with
      | none => (⟨.failed, .skipped, branch⟩, [])
      | some files =>
        if (outOfScope files).isEmpty = false then (⟨.scopeViolation, .skipped, branch⟩, [])
        else match r.merge with
          | .failed applied => (⟨.success, .conflict, branch⟩, if applied then branch else [])
          | .ok => (⟨.success, if r.headOK then .merged else .conflict, branch⟩, branch)

def mergeBack (r : TaskRun γ) : Result γ × List γ := mergePass (outOfScope · r.task.paths) r r.changed

def workerKeepBranch (res : Result γ) : Bool :=
  if res.status ≠ .success then true else res.mergeStatus == .conflict

structure Repo (γ : Type) where
  primary : List (ℕ × γ)
  branches : List (Option (List γ))

def mergeAll : ℕ → List (TaskRun γ) → List (Result γ) × List (ℕ × γ)
  | _, [] => ([], [])
  | i, r :: rs =>
    ((mergeBack r).1 :: (mergeAll (i + 1) rs).1, (mergeBack r).2.map (Prod.mk i) ++ (mergeAll (i + 1) rs).2)

def removeWorktree (res : Result γ) : Option (List γ) := if workerKeepBranch res then some res.branch else none

def runWorkerPool (runs : List (TaskRun γ)) : Repo γ :=
  ⟨(mergeAll 0 runs).2, (mergeAll 0 runs).1.map removeWorktree⟩

def Work.changes (w : Work γ) : List γ := w.committed ++ w.pending ++ w.ignored

def Preserved (repo : Repo γ) (i : ℕ) (c : γ) : Prop :=
  (i, c) ∈ repo.primary ∨ ∃ kept, repo.branches[i]? = some (some kept) ∧ c ∈ kept

def AllPreserved (runs : List (TaskRun γ)) : Prop :=
  ∀ i r, runs[i]? = some r → ∀ c ∈ r.work.changes, Preserved (runWorkerPool runs) i c

def Staged (r : TaskRun γ) : Prop := r.ended = .finalMessage ∧ r.addOK = true ∧ r.statusOK = true

def Recoverable (r : TaskRun γ) : Prop :=
  r.work.ignored = [] ∧ (r.work.pending ≠ [] → Staged r ∧ r.commit ≠ .failed false) ∧
    (r.work.pending = [] → Staged r → r.work.committed = [])

theorem mergeAll_fst (i : ℕ) (runs : List (TaskRun γ)) : (mergeAll i runs).1 = runs.map fun r => (mergeBack r).1 := by
  induction runs generalizing i with
  | nil => rfl
  | cons r rs ih => rw [mergeAll, map_cons, ih]

variable {c : γ} {r : TaskRun γ} {i : ℕ} {runs : List (TaskRun γ)} {branch : List γ}

theorem mem_mergeAll {j : ℕ} :
    (j, c) ∈ (mergeAll i runs).2 ↔ ∃ k r, j = i + k ∧ runs[k]? = some r ∧ c ∈ (mergeBack r).2 := by
  induction runs generalizing i with
  | nil => simp [mergeAll]
  | cons r rs ih =>
    rw [mergeAll, mem_append, ih]
    constructor
    · rintro (h | ⟨k, r', rfl, hr, hc⟩)
      · obtain ⟨c', hc', he⟩ := mem_map.mp h
        cases he
        exact ⟨0, r, rfl, rfl, hc'⟩
      · exact ⟨k + 1, r', by omega, hr, hc⟩
    · rintro ⟨k, r', rfl, hr, hc⟩
      cases k with
      | zero =>
        cases hr
        exact .inl (mem_map_of_mem hc)
      | succ k => exact .inr ⟨k, r', by omega, hr, hc⟩

theorem preserved_iff (hr : runs[i]? = some r) (c : γ) : Preserved (runWorkerPool runs) i c ↔
      c ∈ (mergeBack r).2 ∨ workerKeepBranch (mergeBack r).1 = true ∧ c ∈ (mergeBack r).1.branch := by
  have hbranch : (runWorkerPool runs).branches[i]? = some (removeWorktree (mergeBack r).1) := by
    simp [runWorkerPool, mergeAll_fst, hr]
  refine or_congr ?_ ?_
  · rw [runWorkerPool, mem_mergeAll]
    constructor
    · rintro ⟨k, r', hk, hr', hc⟩
      rw [Nat.zero_add] at hk
      cases hk
      cases hr.symm.trans hr'
      exact hc
    · intro hc
      exact ⟨i, r, (Nat.zero_add i).symm, hr, hc⟩
  · rw [hbranch]
    by_cases hk : workerKeepBranch (mergeBack r).1 = true <;> simp [removeWorktree, hk]

def Saved (r : TaskRun γ) (c : γ) : Prop :=
  c ∈ (mergeBack r).2 ∨ workerKeepBranch (mergeBack r).1 = true ∧ c ∈ (mergeBack r).1.branch

theorem saved_of_kept {st : Status} {ms : MergeStatus} (h : mergeBack r = (⟨st, ms, branch⟩, [])) (hk : st ≠ .success)
    (c : γ) : Saved r c ↔ c ∈ branch := by
  simp [Saved, h, workerKeepBranch, hk]

theorem status_success_iff (t : TaskEnd) : t.status = .success ↔ t = .finalMessage := by
  cases t <;> simp [TaskEnd.status]

theorem mergeBack_of_error (h : r.ended = .finalMessage) (hc : commitAll r = (branch, none)) :
    mergeBack r = (⟨.failed, .skipped, branch⟩, []) := by
  rw [mergeBack, mergePass, if_neg (not_not.mpr ((status_success_iff _).mpr h)), hc]

theorem saved_of_not_staged (h : ¬ Staged r) (c : γ) : Saved r c ↔ c ∈ r.work.committed := by
  by_cases hend : r.ended = .finalMessage
  · have hgit : r.addOK = false ∨ r.statusOK = false := by
      by_contra hno
      rw [not_or, Bool.not_eq_false, Bool.not_eq_false] at hno
      exact h ⟨hend, hno⟩
    exact saved_of_kept (mergeBack_of_error hend (if_pos hgit)) (by decide) c
  · have hst : r.ended.status ≠ .success := (status_success_iff _).not.mpr hend
    exact saved_of_kept (if_pos hst) hst c

theorem not_saved_of_clean (h : Staged r) (hp : r.work.pending = []) (c : γ) : ¬ Saved r c := by
  have hcommit : commitAll r = (r.work.committed, some false) := by simp [commitAll, h.2.1, h.2.2, hp]
  have hback : mergeBack r = (⟨.success, .skipped, r.work.committed⟩, []) := by
    rw [mergeBack, mergePass, if_neg (not_not.mpr ((status_success_iff _).mpr h.1)), hcommit]
  simp [Saved, hback, workerKeepBranch]

theorem saved_of_commit_failed (h : Staged r) (hp : r.work.pending ≠ []) {applied : Bool}
    (hc : r.commit = .failed applied) (c : γ) :
    Saved r c ↔ c ∈ if applied then r.work.committed ++ r.work.pending else r.work.committed := by
  refine saved_of_kept (mergeBack_of_error h.1 ?_) (by decide) c
  simp [commitAll, h.2.1, h.2.2, hp, hc]

theorem saved_of_committed (h : Staged r) (hp : r.work.pending ≠ []) (hc : r.commit = .ok) (c : γ) :
    Saved r c ↔ c ∈ r.work.committed ++ r.work.pending := by
  have hcommit : commitAll r = (r.work.committed ++ r.work.pending, some true) := by
    simp [commitAll, h.2.1, h.2.2, hp, hc]
  have hend : ¬ r.ended.status ≠ .success := not_not.mpr ((status_success_iff _).mpr h.1)
  cases hch : r.changed with
  | none =>
    have hback : mergeBack r = (⟨.failed, .skipped, r.work.committed ++ r.work.pending⟩, []) := by
      simp only [mergeBack, mergePass, if_neg hend, hcommit, hch]
    exact saved_of_kept hback (by decide) c
  | some files =>
    by_cases hscope : (outOfScope files r.task.paths).isEmpty = false
    · have hback : mergeBack r = (⟨.scopeViolation, .skipped, r.work.committed ++ r.work.pending⟩, []) := by
        simp only [mergeBack, mergePass, if_neg hend, hcommit, hch, if_pos hscope]
      exact saved_of_kept hback (by decide) c
    · cases hm : r.merge with simp only [Saved, mergeBack, mergePass, if_neg hend, hcommit, hch, if_neg hscope, hm]
      | ok => exact or_iff_left_of_imp And.right
      | failed applied => cases applied <;> simp [workerKeepBranch]

theorem Work.not_committed (w : Work γ) (h : c ∈ w.pending) : c ∉ w.committed := by
  intro hc
  exact (nodup_append.mp (nodup_append.mp w.distinct).1).2.2 c hc c h rfl

theorem Work.not_tracked (w : Work γ) (h : c ∈ w.ignored) : c ∉ w.committed ++ w.pending := by
  intro hc
  exact (nodup_append.mp w.distinct).2.2 c hc c h rfl

theorem forall_changes {w : Work γ} {P : γ → Prop} :
    (∀ c ∈ w.changes, P c) ↔ (∀ c ∈ w.committed, P c) ∧ (∀ c ∈ w.pending, P c) ∧ ∀ c ∈ w.ignored, P c := by
  simp only [Work.changes, forall_mem_append, and_assoc]

theorem all_saved_iff (r : TaskRun γ) : (∀ c ∈ r.work.changes, Saved r c) ↔ Recoverable r := by
  rw [forall_changes]
  by_cases hs : Staged r
  · by_cases hp : r.work.pending = []
    · constructor
      · rintro ⟨hc, _, hi⟩
        exact ⟨eq_nil_iff_forall_not_mem.mpr fun c h => not_saved_of_clean hs hp c (hi c h), fun hne => absurd hp hne,
          fun _ _ => eq_nil_iff_forall_not_mem.mpr fun c h => not_saved_of_clean hs hp c (hc c h)⟩
      · rintro ⟨hi, _, hc⟩
        rw [hi, hp, hc hp hs]
        simp
    · by_cases hf : r.commit = .failed false
      · obtain ⟨c, hc⟩ := exists_mem_of_ne_nil _ hp
        refine iff_of_false ?_ fun h => (h.2.1 hp).2 hf
        rintro ⟨_, h, _⟩
        exact r.work.not_committed hc ((saved_of_commit_failed hs hp hf c).mp (h c hc))
      · have hsaved : ∀ c, Saved r c ↔ c ∈ r.work.committed ++ r.work.pending := by
          cases hcm : r.commit with
          | ok => exact saved_of_committed hs hp hcm
          | failed applied =>
            cases applied with
            | false => exact absurd hcm hf
            | true => exact saved_of_commit_failed hs hp hcm
        simp only [hsaved]
        constructor
        · rintro ⟨_, _, hi⟩
          exact ⟨eq_nil_iff_forall_not_mem.mpr fun c h => r.work.not_tracked h (hi c h), fun _ => ⟨hs, hf⟩,
            fun h => absurd h hp⟩
        · rintro ⟨hi, _, _⟩
          exact ⟨fun c h => mem_append_left _ h, fun c h => mem_append_right _ h, by simp [hi]⟩
  · simp only [saved_of_not_staged hs]
    constructor
    · rintro ⟨_, hp, hi⟩
      have hpn : r.work.pending = [] :=
        eq_nil_iff_forall_not_mem.mpr fun c h => r.work.not_committed h (hp c h)
      exact ⟨eq_nil_iff_forall_not_mem.mpr fun c h => r.work.not_tracked h (mem_append_left _ (hi c h)),
        fun hne => absurd hpn hne, fun _ h => absurd h hs⟩
    · rintro ⟨hi, hp, _⟩
      have hpn : r.work.pending = [] := by
        by_contra hne
        exact hs (hp hne).1
      rw [hi, hpn]
      simp

theorem pool_preserves_iff (runs : List (TaskRun γ)) : AllPreserved runs ↔ ∀ r ∈ runs, Recoverable r := by
  constructor
  · intro h r hr
    obtain ⟨i, hi⟩ := mem_iff_getElem?.mp hr
    exact (all_saved_iff r).mp fun c hc => (preserved_iff hi c).mp (h i r hi c hc)
  · intro h i r hi c hc
    exact (preserved_iff hi c).mpr ((all_saved_iff r).mpr (h r (mem_of_getElem? hi)) c hc)

def timedOut : TaskRun String where
  task := demoTask
  ended := .ctxDone
  work := ⟨[], ["report"], [], by decide⟩
  addOK := true
  statusOK := true
  commit := .ok
  changed := some [[report]]
  merge := .ok
  headOK := true

theorem timed_out_change_lost : ¬ AllPreserved [timedOut] := by
  intro h
  rcases h 0 timedOut rfl "report" (by decide) with hm | ⟨kept, hk, hc⟩
  · exact absurd hm (by decide)
  · cases (show (runWorkerPool [timedOut]).branches[0]? = some (some []) from rfl).symm.trans hk
    cases hc

end NomadDev.WorkerPool
