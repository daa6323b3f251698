import NomadDev.CommandStreams

namespace NomadDev.Docker

open Commands Foundation.Transition Option

inductive Taken
  | ctxDone
  | waitErr (e : ExecErr)
  | waitStatus (code : ℤ) (msg : Option String)
  deriving DecidableEq

inductive Pc
  | selecting
  | killing
  | draining (taken : Taken)
  | done (exitCode : ℤ) (exitErr : Option ExecErr)
  deriving DecidableEq

/-- `exited` is the container's status once it has stopped; `killSent` is whether `ContainerKill` was called. `late` is
not part of the runner: the context ended or the caller cancelled while the container was running. -/
structure State where
  exited : Option ℤ
  ctxErr : Option ExecErr
  parentCanceled : Bool
  errCh : Option ExecErr
  statusCh : Option (ℤ × Option String)
  copyDone : Bool
  pc : Pc
  (killSent late : Bool)

def init : State := ⟨none, none, false, none, none, false, .selecting, false, false⟩

inductive Case
  | ctxDone | err | status
  deriving DecidableEq

inductive Action
  | exit (status : ℤ)
  | expire
  | cancel
  | waitErr (e : ExecErr)
  | waitStatus (msg : Option String)
  | copyEnds
  | select (c : Case)
  | kill (ok : Bool)
  | finish (oomKilled : Bool)

def State.endContext (s : State) (e : ExecErr) : State :=
  { s with ctxErr := s.ctxErr.or (some e), late := s.late || s.exited.isNone }

def State.verdict (s : State) (oomKilled : Bool) : Taken → ℤ × Option ExecErr
  | .ctxDone => (-1, if s.parentCanceled then some .canceled else s.ctxErr)
  | .waitErr e => (-1, some e)
  | .waitStatus code msg =>
    (code, if code = 137 && oomKilled then some (.oom "sandbox: out of memory") else msg.map .other)

def State.take (s : State) : Case → Option State
  | .ctxDone => if s.ctxErr.isSome then some { s with pc := .killing } else none
  | .err => s.errCh.map fun e => { s with pc := .draining (.waitErr e), errCh := none }
  | .status => s.statusCh.map fun r => { s with pc := .draining (.waitStatus r.1 r.2), statusCh := none }

def step (s : State) : Action → Option State
  | .exit status => if s.exited.isNone then some { s with exited := some status } else none
  | .expire => if s.ctxErr.isNone then some (s.endContext .deadlineExceeded) else none
  | .cancel => if s.parentCanceled then none else some { s.endContext .canceled with parentCanceled := true }
  | .waitErr e => if s.errCh.isNone then some { s with errCh := some e } else none
  | .waitStatus msg =>
    match s.exited with
    | some code => if s.statusCh.isNone then some { s with statusCh := some (code, msg) } else none
    | none => none
  | .copyEnds => some { s with copyDone := true }
  | .select c => if s.pc = .selecting then s.take c else none
  | .kill ok =>
    if s.pc = .killing then
      some { s with
        pc := .draining .ctxDone
        killSent := true
        exited := if ok then s.exited.or (some 137) else s.exited }
    else none
  | .finish oomKilled =>
    match s.pc with
    | .draining taken =>
      if s.copyDone then
        some { s with pc := .done (s.verdict oomKilled taken).1 (s.verdict oomKilled taken).2 }
      else none
    | _ => none

def Pc.Past : Pc → Prop
  | .selecting | .killing => False
  | .draining _ | .done _ _ => True

instance : DecidablePred Pc.Past := fun pc => by
  unfold Pc.Past
  cases pc <;> infer_instance

def KilledFirst (s : State) : Prop := s.late = true → s.pc.Past → s.killSent = true

def InTime (s : State) : Action → Prop
  | .select .err | .select .status => s.late = false
  | .expire | .cancel => s.exited = none → s.pc.Past → s.killSent = true
  | _ => True

def Moves (s : State) (a : Action) (t : State) : Prop :=
  match a with
  | .exit _ | .waitErr _ | .waitStatus _ | .copyEnds =>
    t.pc = s.pc ∧ t.killSent = s.killSent ∧ t.late = s.late
  | .expire | .cancel => t.pc = s.pc ∧ t.killSent = s.killSent ∧ t.late = (s.late || s.exited.isNone)
  | .select .ctxDone => t.pc = .killing
  | .select .err | .select .status =>
    s.pc = .selecting ∧ t.pc ≠ .selecting ∧ t.pc.Past ∧ t.killSent = s.killSent ∧ t.late = s.late
  | .kill _ => t.pc ≠ .selecting ∧ t.killSent = true
  | .finish _ => s.pc.Past ∧ t.pc ≠ .selecting ∧ t.pc.Past ∧ t.killSent = s.killSent ∧ t.late = s.late

variable {s t : State} {a : Action}

theorem moves_select {c : Case} (h : step s (.select c) = some t) : Moves s (.select c) t := by
  obtain ⟨hpc, htake⟩ := ite_none_right_eq_some.mp h
  cases c with
  | ctxDone =>
    obtain ⟨-, ⟨⟩⟩ := ite_none_right_eq_some.mp htake
    rfl
  | err =>
    obtain ⟨e, -, rfl⟩ := map_eq_some_iff.mp htake
    exact ⟨hpc, nofun, trivial, rfl, rfl⟩
  | status =>
    obtain ⟨r, -, rfl⟩ := map_eq_some_iff.mp htake
    exact ⟨hpc, nofun, trivial, rfl, rfl⟩

theorem moves_finish {oomKilled : Bool} (h : step s (.finish oomKilled) = some t) : Moves s (.finish oomKilled) t := by
  simp only [step] at h
  split at h
  case h_1 taken hpc =>
    obtain ⟨-, ⟨⟩⟩ := ite_none_right_eq_some.mp h
    exact ⟨hpc ▸ trivial, nofun, trivial, rfl, rfl⟩
  case h_2 => cases h

theorem moves_step (h : step s a = some t) : Moves s a t := by
  cases a with
  | exit | expire | waitErr =>
    obtain ⟨-, ⟨⟩⟩ := ite_none_right_eq_some.mp h
    exact ⟨rfl, rfl, rfl⟩
  | cancel =>
    obtain ⟨-, ⟨⟩⟩ := ite_none_left_eq_some.mp h
    exact ⟨rfl, rfl, rfl⟩
  | waitStatus msg =>
    simp only [step] at h
    split at h
    · obtain ⟨-, ⟨⟩⟩ := ite_none_right_eq_some.mp h
      exact ⟨rfl, rfl, rfl⟩
    · cases h
  | copyEnds =>
    cases h
    exact ⟨rfl, rfl, rfl⟩
  | select c => exact moves_select h
  | kill ok =>
    obtain ⟨-, ⟨⟩⟩ := ite_none_right_eq_some.mp h
    exact ⟨nofun, rfl⟩
  | finish oomKilled => exact moves_finish h

def Waiting (s : State) : Prop := s.pc = .selecting → s.killSent = false

theorem waiting_of_eq (hpc : t.pc = s.pc) (hkill : t.killSent = s.killSent) (hw : Waiting s) : Waiting t := by
  intro ht
  rw [hkill]
  exact hw (hpc ▸ ht)

theorem waiting_step (h : step s a = some t) (hw : Waiting s) : Waiting t := by
  have hmoves := moves_step h
  cases a with
  | exit | waitErr | waitStatus | copyEnds | expire | cancel => exact waiting_of_eq hmoves.1 hmoves.2.1 hw
  | select c =>
    cases c with
    | ctxDone => exact fun hpc => nomatch hmoves.symm.trans hpc
    | err | status => exact fun hpc => absurd hpc hmoves.2.1
  | kill ok => exact fun hpc => absurd hpc hmoves.1
  | finish oomKilled => exact fun hpc => absurd hpc hmoves.2.1

theorem killedFirst_of_eq (hpc : t.pc.Past → s.pc.Past) (hkill : t.killSent = s.killSent) (hlate : t.late = s.late)
    (hk : KilledFirst s) : KilledFirst t := by
  intro ht hpast
  rw [hkill]
  exact hk (hlate ▸ ht) (hpc hpast)

theorem killedFirst_endContext (hpc : t.pc = s.pc) (hkill : t.killSent = s.killSent)
    (hlate : t.late = (s.late || s.exited.isNone)) (hk : KilledFirst s) :
    KilledFirst t ↔ (s.exited = none → s.pc.Past → s.killSent = true) := by
  unfold KilledFirst
  rw [hpc, hkill, hlate, Bool.or_eq_true, isNone_iff_eq_none]
  constructor
  · intro ht hexited
    exact ht (.inr hexited)
  · intro hok ht hpast
    rcases ht with ht | ht
    · exact hk ht hpast
    · exact hok ht hpast

theorem killedFirst_received (hw : Waiting s) (hsel : s.pc = .selecting) (hpast : t.pc.Past)
    (hkill : t.killSent = s.killSent) (hlate : t.late = s.late) : KilledFirst t ↔ s.late = false := by
  unfold KilledFirst
  rw [hkill, hlate, hw hsel]
  constructor
  · intro ht
    apply eq_false_of_ne_true
    intro hl
    exact nomatch ht hl hpast
  · intro hl ht
    exact nomatch hl.symm.trans ht

theorem killedFirst_step_iff (hw : Waiting s) (hk : KilledFirst s) (h : step s a = some t) :
    KilledFirst t ↔ InTime s a := by
  have hmoves := moves_step h
  cases a with
  | exit | waitErr | waitStatus | copyEnds =>
    obtain ⟨hpc, hkill, hlate⟩ := hmoves
    exact iff_of_true (killedFirst_of_eq (fun hpast => hpc ▸ hpast) hkill hlate hk) trivial
  | expire | cancel =>
    obtain ⟨hpc, hkill, hlate⟩ := hmoves
    exact killedFirst_endContext hpc hkill hlate hk
  | select c =>
    cases c with
    | ctxDone =>
      refine iff_of_true (fun _ hpast => ?_) trivial
      rw [show t.pc = .killing from hmoves] at hpast
      exact hpast.elim
    | err | status =>
      obtain ⟨hsel, -, hpast, hkill, hlate⟩ := hmoves
      exact killedFirst_received hw hsel hpast hkill hlate
  | kill ok => exact iff_of_true (fun _ _ => hmoves.2) trivial
  | finish oomKilled =>
    obtain ⟨hpast, -, -, hkill, hlate⟩ := hmoves
    exact iff_of_true (killedFirst_of_eq (fun _ => hpast) hkill hlate hk) trivial

theorem killed_before_drain_iff {acts : List Action} (h : run step init acts = some s) :
    Throughout step KilledFirst init acts ↔ Steps step InTime init acts s := by
  have hinv : ∀ s a t, step s a = some t → Waiting s → Waiting t := fun _ _ _ => waiting_step
  have hstep : ∀ s a t, Waiting s → KilledFirst s → step s a = some t → (KilledFirst t ↔ InTime s a) :=
    fun _ _ _ => killedFirst_step_iff
  exact throughout_iff_steps hinv hstep h (fun _ => rfl) (fun _ => nofun)

def expiredRun : List Action := [.expire, .select .ctxDone, .kill true, .copyEnds, .finish false]

theorem killed_before_drain_iff_expired : ∃ s, run step init expiredRun = some s ∧
      s.pc = .done (-1) (some .deadlineExceeded) ∧ Throughout step KilledFirst init expiredRun := by
  refine ⟨_, rfl, rfl, (killed_before_drain_iff rfl).mpr (.cons ?_ rfl (.cons trivial rfl (.cons trivial rfl
    (.cons trivial rfl (.cons trivial rfl (.nil _))))))⟩
  nofun

theorem wait_error_skips_kill : ∃ s, run step init [.expire, .waitErr .deadlineExceeded, .select .err] = some s ∧
      s.late = true ∧ s.exited = none ∧ s.pc = .draining (.waitErr .deadlineExceeded) ∧ s.killSent = false ∧
      ¬Throughout step KilledFirst init [.expire, .waitErr .deadlineExceeded, .select .err] := by
  refine ⟨_, rfl, rfl, rfl, rfl, rfl, ?_⟩
  intro hall
  have hlast := ((hall.2 _ rfl).2 _ rfl).2 _ rfl
  exact nomatch hlast rfl trivial

end NomadDev.Docker
