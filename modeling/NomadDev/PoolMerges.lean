import NomadDev.Foundation.Transition
import Mathlib.Data.Int.Notation

namespace NomadDev.PoolMerges

open Foundation.Transition

structure Config where
  maxConcurrent : ℤ
  workerPoolEnabled : Bool
  workerPoolMaxConcurrent : ℤ
  perSessionWorkspace : Bool

def Config.PoolUsable (cfg : Config) : Prop :=
  cfg.workerPoolEnabled = true ∧ 0 < cfg.workerPoolMaxConcurrent ∧ cfg.perSessionWorkspace = false

instance (cfg : Config) : Decidable cfg.PoolUsable := inferInstanceAs (Decidable (_ ∧ _ ∧ _))

inductive LoopStage
  | head | committing | listing | merging
  deriving DecidableEq

inductive Phase
  | absent
  | turn
  | tasks (waiting running total : ℕ)
  | mergeBack (left : ℕ) (stage : LoopStage)
  deriving DecidableEq

def Phase.inPool : Phase → Bool
  | .tasks .. => true
  | .mergeBack .. => true
  | _ => false

structure State where
  phase : ℕ → Phase
  intents : List ℕ
  slots : ℤ

def State.init : State := ⟨fun _ => .absent, [], 0⟩

def State.set (s : State) (t : ℕ) (p : Phase) : State := { s with phase := Function.update s.phase t p }

inductive Action
  | accept (t : ℕ)
  | finish (t : ℕ)
  | launch (t total : ℕ)
  | startTask (t : ℕ)
  | cancelTask (t : ℕ)
  | endTask (t : ℕ)
  | wait (t : ℕ)
  | skip (t : ℕ)
  | commitAll (t : ℕ)
  | changedFiles (t : ℕ)
  | mergeStart (t : ℕ)
  | mergeEnd (t : ℕ)
  | ret (t : ℕ)

def step (cfg : Config) (s : State) : Action → Option State
  | .accept t =>
    if s.phase t = .absent ∧ (cfg.maxConcurrent ≤ 0 ∨ s.intents.length < cfg.maxConcurrent) then
      some { s.set t .turn with intents := t :: s.intents }
    else none
  | .finish t =>
    if s.phase t = .turn then some { s.set t .absent with intents := s.intents.erase t } else none
  | .launch t total =>
    if s.phase t = .turn ∧ cfg.PoolUsable then some (s.set t (.tasks total 0 total)) else none
  | .startTask t =>
    match s.phase t with
    | .tasks (w + 1) r n =>
      if s.slots < cfg.workerPoolMaxConcurrent then some { s.set t (.tasks w (r + 1) n) with slots := s.slots + 1 }
      else none
    | _ => none
  | .cancelTask t =>
    match s.phase t with
    | .tasks (w + 1) r n => some (s.set t (.tasks w r n))
    | _ => none
  | .endTask t =>
    match s.phase t with
    | .tasks w (r + 1) n => some { s.set t (.tasks w r n) with slots := s.slots - 1 }
    | _ => none
  | .wait t =>
    match s.phase t with
    | .tasks 0 0 n => some (s.set t (.mergeBack n .head))
    | _ => none
  | .skip t =>
    match s.phase t with
    | .mergeBack (k + 1) .head => some (s.set t (.mergeBack k .head))
    | .mergeBack (k + 1) .committing => some (s.set t (.mergeBack k .head))
    | .mergeBack (k + 1) .listing => some (s.set t (.mergeBack k .head))
    | _ => none
  | .commitAll t =>
    match s.phase t with
    | .mergeBack (k + 1) .head => some (s.set t (.mergeBack (k + 1) .committing))
    | _ => none
  | .changedFiles t =>
    match s.phase t with
    | .mergeBack (k + 1) .committing => some (s.set t (.mergeBack (k + 1) .listing))
    | _ => none
  | .mergeStart t =>
    match s.phase t with
    | .mergeBack (k + 1) .listing => some (s.set t (.mergeBack (k + 1) .merging))
    | _ => none
  | .mergeEnd t =>
    match s.phase t with
    | .mergeBack (k + 1) .merging => some (s.set t (.mergeBack k .head))
    | _ => none
  | .ret t =>
    match s.phase t with
    | .mergeBack 0 .head => some (s.set t .turn)
    | _ => none

inductive Effect (cfg : Config) (s : State) : State → Prop
  | accept (t : ℕ) (hcap : cfg.maxConcurrent ≤ 0 ∨ s.intents.length < cfg.maxConcurrent) :
      Effect cfg s { s.set t .turn with intents := t :: s.intents }
  | finish (t : ℕ) : Effect cfg s { s.set t .absent with intents := s.intents.erase t }
  | move (t : ℕ) (p : Phase) (slots : ℤ) (hpresent : s.phase t ≠ .absent)
      (hpool : p.inPool = true → cfg.PoolUsable ∨ (s.phase t).inPool = true) :
      Effect cfg s { s.set t p with slots := slots }

variable {cfg : Config} {s s' : State} {p : Phase} {t : ℕ} {a : Action}

theorem Effect.next (ht : s.phase t = p) (hp : p.inPool = true) (p' : Phase) (slots : ℤ) :
    Effect cfg s { s.set t p' with slots := slots } := by
  refine .move t p' slots ?_ fun _ => .inr (by rw [ht, hp])
  rintro habsent
  cases ht.symm.trans habsent
  cases hp

theorem effect_of_step (h : step cfg s a = some s') : Effect cfg s s' := by
  cases a with simp only [step] at h
  | accept t =>
    obtain ⟨⟨_, hcap⟩, h⟩ := Option.ite_none_right_eq_some.mp h
    cases h
    exact .accept t hcap
  | finish t =>
    obtain ⟨_, h⟩ := Option.ite_none_right_eq_some.mp h
    cases h
    exact .finish t
  | launch t total =>
    obtain ⟨⟨ht, hu⟩, h⟩ := Option.ite_none_right_eq_some.mp h
    cases h
    exact .move t _ _ (by rw [ht]; decide) fun _ => .inl hu
  | startTask t =>
    split at h
    next ht =>
      obtain ⟨_, h⟩ := Option.ite_none_right_eq_some.mp h
      cases h
      exact .next ht rfl _ _
    · cases h
  | skip t =>
    split at h
    next ht => cases h; exact .next ht rfl _ _
    next ht => cases h; exact .next ht rfl _ _
    next ht => cases h; exact .next ht rfl _ _
    · cases h
  | cancelTask t | endTask t | wait t | commitAll t | changedFiles t | mergeStart t | mergeEnd t | ret t =>
    split at h
    next ht => cases h; exact .next ht rfl _ _
    · cases h

structure Inv (cfg : Config) (s : State) : Prop where
  admitted : ∀ t, s.phase t ≠ .absent → t ∈ s.intents
  cap : 0 < cfg.maxConcurrent → s.intents.length ≤ cfg.maxConcurrent
  usable : ∀ t, (s.phase t).inPool = true → cfg.PoolUsable

theorem inv_init (cfg : Config) : Inv cfg State.init where
  admitted _ h := absurd rfl h
  cap h := Int.le_of_lt h
  usable _ h := by cases h

theorem forall_set {Q : ℕ → Phase → Prop} (hset : Q t p) (hrest : ∀ u, u ≠ t → Q u (s.phase u)) (u : ℕ) :
    Q u ((s.set t p).phase u) :=
  (Function.forall_update_iff s.phase Q).mpr ⟨hset, hrest⟩ u

theorem inv_step (h : step cfg s a = some s') (hi : Inv cfg s) : Inv cfg s' := by
  cases effect_of_step h with
  | accept t hcap =>
    refine ⟨?_, fun hpos => ?_, ?_⟩
    · refine forall_set (Q := fun u p => p ≠ .absent → u ∈ t :: s.intents) (fun _ => List.mem_cons_self) ?_
      exact fun u _ hu => List.mem_cons_of_mem _ (hi.admitted u hu)
    · simp only [List.length_cons]
      omega
    · exact forall_set (Q := fun _ p => p.inPool = true → cfg.PoolUsable) Bool.noConfusion fun u _ => hi.usable u
  | finish t =>
    refine ⟨?_, fun hpos => ?_, ?_⟩
    · refine forall_set (Q := fun u p => p ≠ .absent → u ∈ s.intents.erase t) (fun habsent => absurd rfl habsent) ?_
      exact fun u hut hu => (List.mem_erase_of_ne hut).mpr (hi.admitted u hu)
    · have hlen : (s.intents.erase t).length ≤ s.intents.length := List.length_erase_le
      have hcap := hi.cap hpos
      simp only
      omega
    · exact forall_set (Q := fun _ p => p.inPool = true → cfg.PoolUsable) Bool.noConfusion fun u _ => hi.usable u
  | move t p slots hpresent hpool =>
    refine ⟨?_, hi.cap, ?_⟩
    · exact forall_set (Q := fun u p => p ≠ .absent → u ∈ s.intents) (fun _ => hi.admitted t hpresent)
        fun u _ => hi.admitted u
    · refine forall_set (Q := fun _ p => p.inPool = true → cfg.PoolUsable) ?_ fun u _ => hi.usable u
      intro hp
      exact (hpool hp).elim id (hi.usable t)

def Phase.inMergeBack : Phase → Bool
  | .mergeBack .. => true
  | _ => false

def Phase.inGitMerge : Phase → Bool
  | .mergeBack _ .merging => true
  | _ => false

structure Exclusive (s : State) : Prop where
  phases : ∀ t u, (s.phase t).inMergeBack = true → (s.phase u).inMergeBack = true → t = u
  merges : ∀ t u, (s.phase t).inGitMerge = true → (s.phase u).inGitMerge = true → t = u

theorem inPool_of_inMergeBack (h : p.inMergeBack = true) : p.inPool = true := by
  cases p <;> first | rfl | cases h

theorem inMergeBack_of_inGitMerge (h : p.inGitMerge = true) : p.inMergeBack = true := by
  cases p <;> first | rfl | cases h

def OneAtATime (cfg : Config) : Prop := cfg.maxConcurrent = 1 ∨ ¬cfg.PoolUsable

theorem Inv.exclusive (hi : Inv cfg s) (hone : OneAtATime cfg) : Exclusive s := by
  have hphases : ∀ t u, (s.phase t).inMergeBack = true → (s.phase u).inMergeBack = true → t = u := by
    intro t u ht hu
    have hpt := inPool_of_inMergeBack ht
    have hpu := inPool_of_inMergeBack hu
    rcases hone with hcap | hpool
    · have hat : t ∈ s.intents := hi.admitted t fun he => by rw [he] at hpt; cases hpt
      have hau : u ∈ s.intents := hi.admitted u fun he => by rw [he] at hpu; cases hpu
      have hlen : s.intents.length ≤ 1 := by
        have hle := hi.cap (by omega)
        omega
      obtain ⟨x, hx⟩ := List.length_eq_one_iff.mp (Nat.le_antisymm hlen (List.length_pos_of_mem hat))
      rw [hx, List.mem_singleton] at hat hau
      exact hat.trans hau.symm
    · exact absurd (hi.usable t hpt) hpool
  exact ⟨hphases, fun t u ht hu => hphases t u (inMergeBack_of_inGitMerge ht) (inMergeBack_of_inGitMerge hu)⟩

section Overlap

def overlap : List Action :=
  [.accept 0, .accept 1, .launch 0 1, .launch 1 1, .startTask 0, .endTask 0, .startTask 1, .endTask 1, .wait 0, .wait 1,
    .commitAll 0, .changedFiles 0, .mergeStart 0, .commitAll 1, .changedFiles 1, .mergeStart 1]

def twoTurns (p q : Phase) (intents : List ℕ) (slots : ℤ) : State :=
  ⟨fun t => if t = 0 then p else if t = 1 then q else .absent, intents, slots⟩

variable (p q p' : Phase) (l l' : List ℕ) (n n' : ℤ)

theorem init_eq_twoTurns : State.init = twoTurns .absent .absent [] 0 := by
  simp [State.init, twoTurns]

@[simp] theorem twoTurns_zero : (twoTurns p q l n).phase 0 = p := rfl

@[simp] theorem twoTurns_one : (twoTurns p q l n).phase 1 = q := rfl

@[simp] theorem twoTurns_mk : State.mk (twoTurns p q l n).phase l' n' = twoTurns p q l' n' := rfl

@[simp] theorem twoTurns_intents : (twoTurns p q l n).intents = l := rfl

@[simp] theorem twoTurns_slots : (twoTurns p q l n).slots = n := rfl

@[simp] theorem twoTurns_set_zero : (twoTurns p q l n).set 0 p' = twoTurns p' q l n := by
  simp only [State.set, twoTurns, State.mk.injEq, and_true]
  funext t
  by_cases h : t = 0 <;> simp [h]

@[simp] theorem twoTurns_set_one : (twoTurns p q l n).set 1 p' = twoTurns p p' l n := by
  simp only [State.set, twoTurns, State.mk.injEq, and_true]
  funext t
  by_cases h : t = 1 <;> simp [h]

theorem overlap_run (hcap : cfg.maxConcurrent ≠ 1) (hpool : cfg.PoolUsable) :
    ∃ s, run (step cfg) State.init overlap = some s ∧ (s.phase 0).inGitMerge = true ∧
      (s.phase 1).inGitMerge = true := by
  have hfirst : cfg.maxConcurrent ≤ 0 ∨ 0 < cfg.maxConcurrent := by omega
  have hsecond : cfg.maxConcurrent ≤ 0 ∨ 1 < cfg.maxConcurrent := by omega
  have hslot : 0 < cfg.workerPoolMaxConcurrent := hpool.2.1
  refine ⟨twoTurns (.mergeBack 1 .merging) (.mergeBack 1 .merging) [1, 0] 0, ?_, rfl, rfl⟩
  rw [init_eq_twoTurns, overlap]
  refine run_cons (t := twoTurns .turn .absent [0] 0) (by simp [step, hfirst]) ?_
  refine run_cons (t := twoTurns .turn .turn [1, 0] 0) (by simp [step, hsecond]) ?_
  refine run_cons (t := twoTurns (.tasks 1 0 1) .turn [1, 0] 0) (by simp [step, hpool]) ?_
  refine run_cons (t := twoTurns (.tasks 1 0 1) (.tasks 1 0 1) [1, 0] 0) (by simp [step, hpool]) ?_
  refine run_cons (t := twoTurns (.tasks 0 1 1) (.tasks 1 0 1) [1, 0] 1) (by simp [step, hslot]) ?_
  refine run_cons (t := twoTurns (.tasks 0 0 1) (.tasks 1 0 1) [1, 0] 0) (by simp [step]) ?_
  refine run_cons (t := twoTurns (.tasks 0 0 1) (.tasks 0 1 1) [1, 0] 1) (by simp [step, hslot]) ?_
  refine run_cons (t := twoTurns (.tasks 0 0 1) (.tasks 0 0 1) [1, 0] 0) (by simp [step]) ?_
  refine run_cons (t := twoTurns (.mergeBack 1 .head) (.tasks 0 0 1) [1, 0] 0) (by simp [step]) ?_
  refine run_cons (t := twoTurns (.mergeBack 1 .head) (.mergeBack 1 .head) [1, 0] 0) (by simp [step]) ?_
  refine run_cons (t := twoTurns (.mergeBack 1 .committing) (.mergeBack 1 .head) [1, 0] 0) (by simp [step]) ?_
  refine run_cons (t := twoTurns (.mergeBack 1 .listing) (.mergeBack 1 .head) [1, 0] 0) (by simp [step]) ?_
  refine run_cons (t := twoTurns (.mergeBack 1 .merging) (.mergeBack 1 .head) [1, 0] 0) (by simp [step]) ?_
  refine run_cons (t := twoTurns (.mergeBack 1 .merging) (.mergeBack 1 .committing) [1, 0] 0) (by simp [step]) ?_
  refine run_cons (t := twoTurns (.mergeBack 1 .merging) (.mergeBack 1 .listing) [1, 0] 0) (by simp [step]) ?_
  refine run_cons (t := twoTurns (.mergeBack 1 .merging) (.mergeBack 1 .merging) [1, 0] 0) (by simp [step]) ?_
  rfl

end Overlap

theorem merges_exclusive_iff (cfg : Config) :
    (∀ as s, run (step cfg) State.init as = some s → Exclusive s) ↔ OneAtATime cfg := by
  constructor
  · intro h
    by_contra hone
    obtain ⟨hcap, hpool⟩ := not_or.mp hone
    obtain ⟨s, hrun, h0, h1⟩ := overlap_run hcap (not_not.mp hpool)
    exact absurd ((h overlap s hrun).merges 0 1 h0 h1) (by decide)
  · intro hone as s hrun
    have hinv : Inv cfg s := run_preserves (fun _ _ _ => inv_step) hrun (inv_init cfg)
    exact hinv.exclusive hone

def poolOn : Config := ⟨4, true, 4, false⟩

theorem poolOn_merges_overlap : ∃ s, run (step poolOn) State.init overlap = some s ∧ (s.phase 0).inGitMerge = true ∧
      (s.phase 1).inGitMerge = true :=
  overlap_run (by decide) (by decide)

end NomadDev.PoolMerges
