import NomadDev.GitHubCredentials

namespace NomadDev.GitHub

open Foundation.Transition Option

variable {o : Options} {s t : Client} {a : Action}

def ownStep : Phase → Action
  | .invoking _ | .retrying _ | .backoff _ _ => .callTool .ok
  | .failed => .subprocessDied
  | .respawning => .respawn
  | .spawning => .spawn true
  | .respawned => .readSession

def drive (o : Options) : ℕ → Client → Option Client
  | 0, s => some s
  | n + 1, s =>
    match s.call with
    | none => some s
    | some c => (step o s (ownStep c.phase)).bind (drive o n)

def callAlone (o : Options) (s : Client) (sub : String) (ctx argBytes : ℕ) : Option Client :=
  (step o s (.beginCall sub ctx argBytes)).bind (drive o 6)

def Reaches (o : Options) (s : Client) (sub : String) (ctx argBytes : ℕ) : Prop :=
  ∃ t pid, callAlone o s sub ctx argBytes = some t ∧ t.call = none ∧ t.served = s.served ++ [⟨sub, pid⟩] ∧
    t.session = some pid ∧ t.alive pid = true

def RespawnFailed (s : Client) : Prop := .cooldownActive ∈ s.results ∨ .spawnFailed ∈ s.results

def CooledDown (s : Client) : Prop := ∀ last, s.lastRestart = some last → last + restartCooldown ≤ s.now

structure Sessions (s : Client) : Prop where
  cmd : s.cmd = s.session
  torn : ∀ c, s.call = some c → c.phase = .spawning → s.session = none
  lost : .spawnFailed ∈ s.results → s.session = none ∧ s.call = none
  kept : s.closed = false → .spawnFailed ∉ s.results → s.session = none → ∃ c, s.call = some c ∧ c.phase = .spawning

variable {r : CallResult} {c : InFlight} {argBytes ctx pid : ℕ} {sub : String}

theorem mem_finish {r' : CallResult} : r' ∈ (s.finish r).results ↔ r' ∈ s.results ∨ r' = r := by
  simp [Client.finish]

def NotSpawning (s : Client) : Prop := ∀ c, s.call = some c → c.phase ≠ .spawning

theorem notSpawning_of_call (hc : s.call = some c) (hp : c.phase ≠ .spawning) : NotSpawning s := by
  intro d hd
  rw [hc] at hd
  cases hd
  exact hp

theorem notSpawning_of_idle (h : s.call = none) : NotSpawning s := by
  intro c hc
  rw [h] at hc
  cases hc

section

variable (h : Sessions s)
include h

theorem Sessions.finish (hr : r ≠ .spawnFailed) (hphase : NotSpawning s) : Sessions (s.finish r) := by
  constructor
  · exact h.cmd
  · nofun
  · intro hmem
    rcases mem_finish.mp hmem with hmem | hmem
    · exact ⟨(h.lost hmem).1, rfl⟩
    · exact absurd hmem.symm hr
  · intro hopen hmem hnone
    obtain ⟨c, hc, hp⟩ := h.kept hopen (fun hm => hmem (mem_finish.mpr (.inl hm))) hnone
    exact absurd hp (hphase c hc)

theorem Sessions.goto {phase : Phase} (hc : s.call = some c) (hfrom : c.phase ≠ .spawning) (hto : phase ≠ .spawning) :
    Sessions (s.goto c phase) := by
  constructor
  · exact h.cmd
  · rintro _ ⟨⟩ hp
    exact absurd hp hto
  · intro hmem
    have hnone := (h.lost hmem).2
    rw [hc] at hnone
    cases hnone
  · intro hopen hmem hnone
    obtain ⟨d, hd, hp⟩ := h.kept hopen hmem hnone
    rw [hc] at hd
    cases hd
    exact absurd hp hfrom

theorem Sessions.deliver (c : InFlight) (pid : ℕ) : Sessions (s.deliver c pid) := { h with }

theorem Sessions.killWhere (cause : Cause) (which : ℕ → Proc → Bool) : Sessions (s.killWhere cause which) := { h with }

theorem Sessions.sent {u : Client} (hsent : Sent s c u) : Sessions u ∧ u.call = s.call := by
  cases hsent with
  | no => exact ⟨h, rfl⟩
  | yes => exact ⟨h.deliver c _, rfl⟩

theorem Sessions.closed : Sessions { s.closeSession .close with closed := true } := by
  constructor
  · rfl
  · intro _ _ _
    rfl
  · intro hmem
    exact ⟨rfl, (h.lost hmem).2⟩
  · nofun

theorem Sessions.not_failed (hc : s.call = some c) : .spawnFailed ∉ s.results := by
  intro hmem
  have hidle := (h.lost hmem).2
  rw [hc] at hidle
  cases hidle

theorem Sessions.step (ht : GitHub.step o s a = some t) : Sessions t := by
  cases moved_of_step ht with
  | tick d | cancel ctx => exact { h with }
  | exit pid => exact h.killWhere _ _
  | close => exact h.closed
  | refuse _ _ _ hidle hr => exact h.finish hr (notSpawning_of_idle hidle)
  | begin sub ctx argBytes hidle hsession =>
    constructor
    · exact h.cmd
    · nofun
    · intro hmem
      cases hsession.symm.trans (h.lost hmem).1
    · intro _ _ hnone
      cases hsession.symm.trans hnone
  | finish _ hc hsent hphase hr =>
    obtain ⟨hu, hcall⟩ := h.sent hsent
    exact hu.finish hr (notSpawning_of_call (hcall.trans hc) hphase)
  | goto _ hc hsent hphase hto =>
    obtain ⟨hu, hcall⟩ := h.sent hsent
    exact hu.goto (hcall.trans hc) hphase hto
  | respawn hc =>
    constructor
    · rfl
    · intro _ _ _
      rfl
    · intro hmem
      exact absurd hmem (h.not_failed hc)
    · intro _ _ _
      exact ⟨_, rfl, rfl⟩
  | spawn _ hc =>
    constructor
    · rfl
    · rintro _ ⟨⟩ hp
      cases hp
    · intro hmem
      exact absurd hmem (h.not_failed hc)
    · nofun
  | spawnFailed _ hc hphase =>
    constructor
    · exact h.cmd
    · nofun
    · intro _
      exact ⟨h.torn _ hc hphase, rfl⟩
    · intro _ hmem
      exact absurd (mem_finish.mpr (.inr rfl)) hmem

end

theorem Sessions.init {c : Client} (h : newClient o = some c) : Sessions c := by
  obtain ⟨token, -, rfl⟩ := map_eq_some_iff.mp h
  constructor
  · rfl
  · nofun
  · nofun
  · nofun

theorem sessions_run {c : Client} {acts : List Action} (hnew : newClient o = some c)
    (hrun : run (step o) c acts = some s) : Sessions s :=
  run_preserves (fun _ _ _ hst hI => hI.step hst) hrun (.init hnew)

theorem drive_idle (n : ℕ) (h : s.call = none) : drive o n s = some s := by
  cases n with
  | zero => rfl
  | succ n => simp [drive, h]

theorem drive_step {n : ℕ} (hc : s.call = some c) (hs : step o s (ownStep c.phase) = some t) :
    drive o (n + 1) s = drive o n t := by
  simp [drive, hc, hs]

theorem not_reaches_of_unserved (h : callAlone o s sub ctx argBytes = some t)
    (hserved : t.served = s.served) : ¬ Reaches o s sub ctx argBytes := by
  rintro ⟨u, pid, hu, -, hnew, -⟩
  rw [h] at hu
  cases hu
  have hlength := congrArg List.length (hserved.symm.trans hnew)
  simp at hlength

theorem not_reaches_of_refused (hidle : s.call = none)
    (h : s.beginCall o sub ctx argBytes = s.finish r) : ¬ Reaches o s sub ctx argBytes := by
  have hcall : callAlone o s sub ctx argBytes = some (s.finish r) := by
    simp only [callAlone, step, hidle, isNone_none, ↓reduceIte, h, bind_some]
    exact drive_idle 6 rfl
  exact not_reaches_of_unserved hcall rfl

theorem not_reaches_of_done (hidle : s.call = none)
    (hsession : s.session = some pid) (hargs : argsExceedCap o argBytes = false) (hctx : s.done ctx = true) :
    ¬ Reaches o s sub ctx argBytes := by
  have hinvoke : step o (s.goto ⟨sub, ctx, .invoking pid⟩ (.invoking pid)) (.callTool .ok) =
      some (s.finish .contextError) := by
    simp [step, Client.goto, Client.stepCall, Client.invoke, hctx, Client.finish]
  have hcall : callAlone o s sub ctx argBytes = some (s.finish .contextError) := by
    rw [callAlone, step_beginCall sub ctx hidle hsession hargs, bind_some, drive_step rfl hinvoke]
    exact drive_idle 5 rfl
  exact not_reaches_of_unserved hcall rfl

theorem reaches_of_alive (hidle : s.call = none)
    (hsession : s.session = some pid) (hargs : argsExceedCap o argBytes = false) (hctx : s.done ctx = false)
    (halive : s.alive pid = true) : Reaches o s sub ctx argBytes := by
  let c : InFlight := ⟨sub, ctx, .invoking pid⟩
  have hask : step o (s.goto c (.invoking pid)) (.callTool .ok) = some ((s.deliver c pid).finish .answered) :=
    step_callTool_ok rfl (.inl rfl) halive hctx
  refine ⟨(s.deliver c pid).finish .answered, pid, ?_, rfl, rfl, hsession, halive⟩
  rw [callAlone, step_beginCall sub ctx hidle hsession hargs, bind_some, drive_step rfl hask]
  exact drive_idle 5 rfl

theorem start_alive (s : Client) {p : Proc} (hp : p.ended = none) : (s.start p).alive s.procs.length = true := by
  simp [Client.alive, Client.start, hp]

theorem coolingDown_eq_false (h : CooledDown s) : s.coolingDown = false := by
  unfold Client.coolingDown
  split
  · rfl
  rename_i last hlast
  have := h last hlast
  simp only [decide_eq_false_iff_not, Nat.not_lt]
  omega

section Parts

variable {c : InFlight} (hc : s.call = some c)

include hc

theorem step_callTool_dead (hphase : c.phase = .invoking pid) (hdead : s.alive pid = false)
    (hctx : s.done c.ctx = false) : step o s (.callTool .ok) = some (s.goto c .failed) := by
  simp [step, hc, hphase, Client.stepCall, Client.invoke, hctx, hdead]

theorem step_subprocessDied (hphase : c.phase = .failed) (hdied : s.subprocessDied = true) :
    step o s .subprocessDied = some (s.goto c .respawning) := by
  simp [step, hc, hphase, Client.stepCall, hdied]

theorem step_respawn (hphase : c.phase = .respawning) (hcool : s.coolingDown = false) :
    step o s .respawn = some (Client.goto { s.closeSession .respawn with lastRestart := some s.now } c .spawning) := by
  simp [step, hc, hphase, Client.stepCall, Client.respawn, hcool]

theorem step_spawn {token : String} (hphase : c.phase = .spawning) (htoken : o.source.token c.sub = some token)
    (hctx : s.done c.ctx = false) :
    step o s (.spawn true) = some ((s.start ⟨token, c.ctx, true, none⟩).goto c .respawned) := by
  simp [step, hc, hphase, Client.stepCall, Client.spawn, htoken, hctx]

theorem step_readSession (hphase : c.phase = .respawned) (hsession : s.session = some pid) :
    step o s .readSession = some (s.goto c (.retrying pid)) := by
  simp [step, hc, hphase, Client.stepCall, hsession]

end Parts

theorem reaches_of_dead (hI : Sessions s) (hidle : s.call = none)
    (hsession : s.session = some pid) (hargs : argsExceedCap o argBytes = false) (hctx : s.done ctx = false)
    (hdead : s.alive pid = false) (hcool : CooledDown s) (htoken : (o.source.token sub).isSome) :
    Reaches o s sub ctx argBytes := by
  obtain ⟨token, htoken⟩ := isSome_iff_exists.mp htoken
  let c : InFlight := ⟨sub, ctx, .invoking pid⟩
  let torn : Client := { s.closeSession .respawn with lastRestart := some s.now }
  let fresh : Client := torn.start ⟨token, ctx, true, none⟩
  have hinvoke : step o (s.goto c (.invoking pid)) (.callTool .ok) = some (s.goto c .failed) :=
    step_callTool_dead rfl rfl hdead hctx
  have hdied : step o (s.goto c .failed) .subprocessDied = some (s.goto c .respawning) := by
    apply step_subprocessDied (c := ⟨sub, ctx, .failed⟩) rfl rfl
    have hcmd : (s.goto c .failed).cmd = some pid := hI.cmd.trans hsession
    have hdead : (s.goto c .failed).alive pid = false := hdead
    simp [Client.subprocessDied, hcmd, hdead]
  have hrespawn : step o (s.goto c .respawning) .respawn = some (torn.goto c .spawning) :=
    step_respawn (c := ⟨sub, ctx, .respawning⟩) rfl rfl (coolingDown_eq_false hcool)
  have hspawn : step o (torn.goto c .spawning) (.spawn true) = some (fresh.goto c .respawned) :=
    step_spawn (c := ⟨sub, ctx, .spawning⟩) rfl rfl htoken hctx
  have hread : step o (fresh.goto c .respawned) .readSession = some (fresh.goto c (.retrying torn.procs.length)) :=
    step_readSession (c := ⟨sub, ctx, .respawned⟩) rfl rfl rfl
  have halive : fresh.alive torn.procs.length = true := start_alive torn rfl
  have hask : step o (fresh.goto c (.retrying torn.procs.length)) (.callTool .ok) =
      some ((fresh.deliver c torn.procs.length).finish .answered) :=
    step_callTool_ok (c := ⟨sub, ctx, .retrying torn.procs.length⟩) rfl (.inr rfl) halive hctx
  refine ⟨(fresh.deliver c torn.procs.length).finish .answered, torn.procs.length, ?_, rfl, rfl, rfl, halive⟩
  rw [callAlone, step_beginCall sub ctx hidle hsession hargs, bind_some, drive_step rfl hinvoke,
    drive_step rfl hdied, drive_step rfl hrespawn, drive_step rfl hspawn, drive_step rfl hread, drive_step rfl hask]
  exact drive_idle 0 rfl

theorem call_recovers_iff {c : Client} {acts : List Action} (hnew : newClient o = some c)
    (hrun : run (step o) c acts = some s) (hopen : s.closed = false) (hidle : s.call = none)
    (hcool : CooledDown s) {sub : String} (htoken : (o.source.token sub).isSome) (ctx argBytes : ℕ) :
    Reaches o s sub ctx argBytes ↔
      .spawnFailed ∉ s.results ∧ argsExceedCap o argBytes = false ∧ s.done ctx = false := by
  have hI := sessions_run hnew hrun
  constructor
  · intro hreach
    cases hsession : s.session with
    | none => exact absurd hreach (not_reaches_of_refused hidle (r := .sessionNotOpen) (by simp [Client.beginCall, hsession]))
    | some pid =>
      have hargs : argsExceedCap o argBytes = false := by
        by_contra hexceeds
        have hrefused : s.beginCall o sub ctx argBytes = s.finish .argsExceedCap := by
          simp [Client.beginCall, hsession, hexceeds]
        exact not_reaches_of_refused hidle hrefused hreach
      refine ⟨?_, hargs, ?_⟩
      · intro hlost
        have hnone := (hI.lost hlost).1
        rw [hsession] at hnone
        cases hnone
      · by_contra hdone
        exact not_reaches_of_done hidle hsession hargs (Bool.not_eq_false _ ▸ hdone) hreach
  · rintro ⟨hnever, hargs, hctx⟩
    cases hsession : s.session with
    | none =>
      obtain ⟨d, hd, -⟩ := hI.kept hopen hnever hsession
      rw [hidle] at hd
      cases hd
    | some pid =>
      cases hpid : s.alive pid with
      | true => exact reaches_of_alive hidle hsession hargs hctx hpid
      | false => exact reaches_of_dead hI hidle hsession hargs hctx hpid hcool htoken

def throttledRun : List Action :=
  [.exit 0, .beginCall "" 1 0, .callTool .ok, .subprocessDied, .respawn, .spawn true, .readSession, .callTool .ok,
    .exit 1, .beginCall "" 2 0, .callTool .ok, .subprocessDied, .respawn, .tick restartCooldown]

theorem call_recovers_throttled : ∃ c s, newClient shared = some c ∧ run (step shared) c throttledRun = some s ∧
    RespawnFailed s ∧ Reaches shared s "" 3 0 := by
  refine ⟨_, _, rfl, rfl, .inl (by decide), ?_⟩
  refine (call_recovers_iff rfl (show run (step shared) _ throttledRun = some _ from rfl) rfl rfl
    ?_ (by decide) 3 0).mpr ⟨by decide, rfl, rfl⟩
  rintro last ⟨⟩
  decide

def missingOnceRun : List Action :=
  [.exit 0, .beginCall "" 1 0, .callTool .ok, .subprocessDied, .respawn, .spawn false, .tick (12 * restartCooldown)]

theorem failed_spawn_never_recovers : ∃ c s t, newClient shared = some c ∧
    run (step shared) c missingOnceRun = some s ∧ RespawnFailed s ∧ CooledDown s ∧ s.closed = false ∧ s.call = none ∧
      callAlone shared s "" 2 0 = some t ∧ t.results.getLast? = some .sessionNotOpen ∧ ¬ Reaches shared s "" 2 0 := by
  refine ⟨_, _, _, rfl, rfl, .inr (by decide), ?_, rfl, rfl, rfl, rfl, not_reaches_of_unserved rfl rfl⟩
  rintro last ⟨⟩
  decide

end NomadDev.GitHub
