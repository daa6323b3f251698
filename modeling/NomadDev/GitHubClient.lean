import NomadDev.Foundation.Transition
import Mathlib.Data.Set.Basic

/-!
A call is cut where the client gives up a lock or waits. Times are in nanoseconds.
-/

namespace NomadDev.GitHub

open Foundation.Transition List

def restartCooldown : ℕ := 5 * 1000000000

structure PerUserTokenSource where
  file : Option (String → Option String)
  fallback : Option String

def PerUserTokenSource.token (src : PerUserTokenSource) (sub : String) : Option String :=
  if sub = "" then src.fallback
  else match src.file with
    | none => src.fallback
    | some tokens =>
      match tokens sub with
      | some tok => if tok = "" then src.fallback else some tok
      | none => src.fallback

structure Options where
  source : PerUserTokenSource
  (maxArgBytes rateLimitRetries : ℕ)

inductive Cause
  | exit | close | respawn | context
  deriving DecidableEq

/-- A subprocess that was started, and what ended it. `inCall` tells a respawn from the start-up spawn. -/
structure Proc where
  token : String
  ctx : ℕ
  inCall : Bool
  ended : Option Cause
  deriving DecidableEq

def Proc.kill (cause : Cause) (p : Proc) : Proc :=
  match p.ended with
  | none => { p with ended := some cause }
  | some _ => p

inductive Phase
  | invoking (pid : ℕ)
  | failed
  | respawning
  | spawning
  | respawned
  | retrying (pid : ℕ)
  | backoff (pid left : ℕ)
  deriving DecidableEq

structure InFlight where
  sub : String
  ctx : ℕ
  phase : Phase

inductive CallResult
  | sessionNotOpen | argsExceedCap | contextError | cooldownActive | spawnFailed | noSession | upstreamError | answered
  deriving DecidableEq

structure Served where
  sub : String
  pid : ℕ
  deriving DecidableEq

structure Client where
  procs : List Proc
  (session cmd lastRestart : Option ℕ)
  now : ℕ
  done : ℕ → Bool
  call : Option InFlight
  served : List Served
  results : List CallResult
  closed : Bool

variable (s : Client)

def Client.alive (pid : ℕ) : Bool :=
  match s.procs[pid]? with
  | some p => p.ended.isNone
  | none => false

def Client.killWhere (cause : Cause) (which : ℕ → Proc → Bool) : Client :=
  { s with procs := s.procs.mapIdx fun pid p => if which pid p then p.kill cause else p }

def Client.closeSession (cause : Cause) : Client :=
  { s.killWhere cause fun pid _ => s.session == some pid with session := none, cmd := none }

def Client.finish (r : CallResult) : Client := { s with call := none, results := s.results ++ [r] }

def Client.goto (c : InFlight) (phase : Phase) : Client := { s with call := some { c with phase := phase } }

def newClient (o : Options) : Option Client :=
  (o.source.token "").map fun token =>
    ⟨[⟨token, 0, false, none⟩], some 0, some 0, none, 0, fun _ => false, none, [], [], false⟩

def argsExceedCap (o : Options) (argBytes : ℕ) : Bool := 0 < o.maxArgBytes && o.maxArgBytes < argBytes

def Client.beginCall (o : Options) (s : Client) (sub : String) (ctx argBytes : ℕ) : Client :=
  match s.session with
  | none => s.finish .sessionNotOpen
  | some pid =>
    if argsExceedCap o argBytes then s.finish .argsExceedCap
    else { s with call := some ⟨sub, ctx, .invoking pid⟩ }

inductive Reply
  | ok | rateLimited | rpcError | contextError
  deriving DecidableEq

def Client.deliver (c : InFlight) (pid : ℕ) : Client := { s with served := s.served ++ [⟨c.sub, pid⟩] }

def Client.afterReply (o : Options) (s : Client) (c : InFlight) (pid : ℕ) (onError : Client) : Reply → Client
  | .ok => s.finish .answered
  | .rateLimited => if 0 < o.rateLimitRetries then s.goto c (.backoff pid o.rateLimitRetries) else s.finish .answered
  | .rpcError => onError
  | .contextError => s.finish .contextError

def Client.invoke (o : Options) (s : Client) (c : InFlight) (pid : ℕ) (onError : Client → Client) (r : Reply) : Client :=
  if s.done c.ctx then s.finish .contextError
  else if s.alive pid then (s.deliver c pid).afterReply o c pid (onError (s.deliver c pid)) r
  else if r = .contextError then s.finish .contextError
  else onError s

-- A rate-limit retry that fails hands the rate-limited result back.
def Client.retryRateLimited (c : InFlight) (pid left : ℕ) (r : Reply) : Client :=
  if s.done c.ctx || !s.alive pid then s.finish .answered
  else if r = .rateLimited ∧ 1 < left then (s.deliver c pid).goto c (.backoff pid (left - 1))
  else (s.deliver c pid).finish .answered

def Client.subprocessDied : Bool :=
  match s.cmd with
  | none => true
  | some pid => !s.alive pid

def Client.coolingDown : Bool :=
  match s.lastRestart with
  | none => false
  | some t => s.now - t < restartCooldown

def Client.respawn (s : Client) (c : InFlight) : Client :=
  if s.coolingDown then s.finish .cooldownActive
  else Client.goto { s.closeSession .respawn with lastRestart := some s.now } c .spawning

def Client.start (p : Proc) : Client :=
  { s with procs := s.procs ++ [p], session := some s.procs.length, cmd := some s.procs.length }

-- `willing`: the binary is found and the handshake completes. A context that is over lets nothing start.
def Client.spawn (o : Options) (s : Client) (c : InFlight) (willing : Bool) : Client :=
  match o.source.token c.sub with
  | none => s.finish .spawnFailed
  | some token =>
    if willing && !s.done c.ctx then
      (s.start ⟨token, c.ctx, true, none⟩).goto c .respawned
    else s.finish .spawnFailed

inductive Action
  | tick (d : ℕ)
  | exit (pid : ℕ)
  | cancel (ctx : ℕ)
  | close
  | beginCall (sub : String) (ctx argBytes : ℕ)
  | callTool (r : Reply)
  | subprocessDied
  | respawn
  | spawn (willing : Bool)
  | readSession
  deriving DecidableEq

def Client.stepCall (o : Options) (s : Client) (c : InFlight) : Action → Phase → Option Client
  | .callTool r, .invoking pid => some (s.invoke o c pid (·.goto c .failed) r)
  | .callTool r, .retrying pid => some (s.invoke o c pid (·.finish .upstreamError) r)
  | .callTool r, .backoff pid left => some (s.retryRateLimited c pid left r)
  | .subprocessDied, .failed => some (if s.subprocessDied then s.goto c .respawning else s.finish .upstreamError)
  | .respawn, .respawning => some (s.respawn c)
  | .spawn willing, .spawning => some (s.spawn o c willing)
  | .readSession, .respawned =>
    some (match s.session with
      | none => s.finish .noSession
      | some pid => s.goto c (.retrying pid))
  | _, _ => none

def step (o : Options) (s : Client) (a : Action) : Option Client :=
  match a with
  | .tick d => some { s with now := s.now + d }
  | .exit pid => some (s.killWhere .exit fun i _ => i == pid)
  | .cancel ctx => some { s.killWhere .context fun _ p => p.ctx == ctx with done := Function.update s.done ctx true }
  | .close => some { s.closeSession .close with closed := true }
  | .beginCall sub ctx argBytes => if s.call.isNone then some (s.beginCall o sub ctx argBytes) else none
  | .callTool _ | .subprocessDied | .respawn | .spawn _ | .readSession => s.call.bind fun c => s.stepCall o c a c.phase

def Phase.pids : Phase → List ℕ
  | .invoking pid | .retrying pid | .backoff pid _ => [pid]
  | .failed | .respawning | .spawning | .respawned => []

-- The request of a call may have reached its subprocess.
inductive Sent (s : Client) (c : InFlight) : Client → Prop
  | no : Sent s c s
  | yes {pid : ℕ} (hpid : pid ∈ c.phase.pids) : Sent s c (s.deliver c pid)

inductive Moved (o : Options) (s : Client) : Action → Client → Prop
  | tick (d : ℕ) : Moved o s (.tick d) { s with now := s.now + d }
  | exit (pid : ℕ) : Moved o s (.exit pid) (s.killWhere .exit fun i _ => i == pid)
  | cancel (ctx : ℕ) : Moved o s (.cancel ctx)
      { s.killWhere .context fun _ p => p.ctx == ctx with done := Function.update s.done ctx true }
  | close : Moved o s .close { s.closeSession .close with closed := true }
  | refuse (sub : String) (ctx argBytes : ℕ) {r : CallResult} (hidle : s.call = none) (hr : r ≠ .spawnFailed) :
      Moved o s (.beginCall sub ctx argBytes) (s.finish r)
  | begin (sub : String) (ctx argBytes : ℕ) {pid : ℕ} (hidle : s.call = none) (hsession : s.session = some pid) :
      Moved o s (.beginCall sub ctx argBytes) { s with call := some ⟨sub, ctx, .invoking pid⟩ }
  | finish {a : Action} {c : InFlight} {u : Client} {r : CallResult} (ha : ∀ ctx, a ≠ .cancel ctx) (hc : s.call = some c)
      (hsent : Sent s c u) (hphase : c.phase ≠ .spawning) (hr : r ≠ .spawnFailed) : Moved o s a (u.finish r)
  | goto {a : Action} {c : InFlight} {u : Client} {phase : Phase} (ha : ∀ ctx, a ≠ .cancel ctx) (hc : s.call = some c)
      (hsent : Sent s c u) (hphase : c.phase ≠ .spawning) (hto : phase ≠ .spawning)
      (hpids : ∀ pid ∈ phase.pids, pid ∈ c.phase.pids ∨ s.session = some pid) : Moved o s a (u.goto c phase)
  | respawn {c : InFlight} (hc : s.call = some c) (hphase : c.phase ≠ .spawning) : Moved o s .respawn
      (Client.goto { s.closeSession .respawn with lastRestart := some s.now } c .spawning)
  | spawn (willing : Bool) {c : InFlight} {token : String} (hc : s.call = some c) (hphase : c.phase = .spawning)
      (htoken : o.source.token c.sub = some token) :
      Moved o s (.spawn willing) ((s.start ⟨token, c.ctx, true, none⟩).goto c .respawned)
  | spawnFailed (willing : Bool) {c : InFlight} (hc : s.call = some c) (hphase : c.phase = .spawning) :
      Moved o s (.spawn willing) (s.finish .spawnFailed)

section Moves

variable {o : Options} {s t : Client} {a : Action} {c : InFlight} {pid : ℕ}

section

variable (ha : ∀ ctx, a ≠ .cancel ctx)
include ha

theorem moved_of_invoke {onError : Client → Client} (hc : s.call = some c) (hpid : pid ∈ c.phase.pids)
    (hphase : c.phase ≠ .spawning) (hon : ∀ u, Sent s c u → Moved o s a (onError u)) (r : Reply) :
    Moved o s a (s.invoke o c pid onError r) := by
  have hsent : Sent s c (s.deliver c pid) := .yes hpid
  unfold Client.invoke
  split
  · exact .finish ha hc .no hphase (by decide)
  split
  · cases r with
    | ok | contextError => exact .finish ha hc hsent hphase (by decide)
    | rpcError => exact hon _ hsent
    | rateLimited =>
      simp only [Client.afterReply]
      split
      · refine .goto ha hc hsent hphase (by simp) fun i hi => .inl ?_
        rwa [List.mem_singleton.mp hi]
      · exact .finish ha hc hsent hphase (by decide)
  · split
    · exact .finish ha hc .no hphase (by decide)
    · exact hon _ .no

theorem moved_of_retry (hc : s.call = some c) (hpid : pid ∈ c.phase.pids) (hphase : c.phase ≠ .spawning) (left : ℕ)
    (r : Reply) : Moved o s a (s.retryRateLimited c pid left r) := by
  unfold Client.retryRateLimited
  split
  · exact .finish ha hc .no hphase (by decide)
  split
  · refine .goto ha hc (.yes hpid) hphase (by simp) fun i hi => .inl ?_
    rwa [List.mem_singleton.mp hi]
  · exact .finish ha hc (.yes hpid) hphase (by decide)

theorem moved_of_stepCall (hc : s.call = some c) (h : s.stepCall o c a c.phase = some t) : Moved o s a t := by
  have hquiet {u : Client} (hu : Sent s c u) {phase : Phase} (hfrom : c.phase ≠ .spawning) (hto : phase ≠ .spawning)
      (hp : phase.pids = []) : Moved o s a (u.goto c phase) := by
    refine .goto ha hc hu hfrom hto fun i hi => ?_
    rw [hp] at hi
    cases hi
  generalize hphase : c.phase = phase at h hquiet
  unfold Client.stepCall at h
  split at h <;> cases h
  · exact moved_of_invoke ha hc (by simp [hphase, Phase.pids]) (by simp [hphase])
      (fun u hu => hquiet hu (by simp) (by simp) rfl) _
  · exact moved_of_invoke ha hc (by simp [hphase, Phase.pids]) (by simp [hphase])
      (fun u hu => .finish ha hc hu (by simp [hphase]) (by decide)) _
  · exact moved_of_retry ha hc (by simp [hphase, Phase.pids]) (by simp [hphase]) _ _
  · split
    · exact hquiet .no (by simp) (by simp) rfl
    · exact .finish ha hc .no (by simp [hphase]) (by decide)
  · unfold Client.respawn
    split
    · exact .finish ha hc .no (by simp [hphase]) (by decide)
    · exact .respawn hc (by simp [hphase])
  · unfold Client.spawn
    split
    · exact .spawnFailed _ hc hphase
    next token htoken =>
      split
      · exact .spawn _ hc hphase htoken
      · exact .spawnFailed _ hc hphase
  · split
    · exact .finish ha hc .no (by simp [hphase]) (by decide)
    next pid hpid =>
      refine .goto ha hc .no (by simp [hphase]) (by simp) fun i hi => .inr ?_
      rwa [List.mem_singleton.mp hi]

end

theorem moved_of_step (h : step o s a = some t) : Moved o s a t := by
  cases a with
  | tick d =>
    cases h
    exact .tick d
  | exit pid =>
    cases h
    exact .exit pid
  | cancel ctx =>
    cases h
    exact .cancel ctx
  | close =>
    cases h
    exact .close
  | beginCall sub ctx argBytes =>
    obtain ⟨hidle, ⟨⟩⟩ := Option.ite_none_right_eq_some.mp h
    replace hidle := Option.isNone_iff_eq_none.mp hidle
    unfold Client.beginCall
    split
    · exact .refuse sub ctx argBytes hidle (by decide)
    next pid hpid =>
      split
      · exact .refuse sub ctx argBytes hidle (by decide)
      · exact .begin sub ctx argBytes hidle hpid
  | callTool r | subprocessDied | respawn | spawn willing | readSession =>
    obtain ⟨c, hc, h⟩ := Option.bind_eq_some_iff.mp h
    exact moved_of_stepCall (by simp) hc h

end Moves

section

variable {o : Options} {s t : Client} {a : Action}

def Survives (s : Client) : Prop := ∀ p ∈ s.procs, p.inCall = true → p.ended ≠ some .context

def EndsAfterSubprocess (s : Client) (a : Action) : Prop :=
  ∀ ctx, a = .cancel ctx → ∀ p ∈ s.procs, p.inCall = true → p.ctx = ctx → p.ended ≠ none

theorem kill_inCall (cause : Cause) (p : Proc) : (p.kill cause).inCall = p.inCall := by
  unfold Proc.kill
  split
  · rfl
  · rfl

theorem kill_ended (cause : Cause) (p : Proc) :
    (p.kill cause).ended = some .context ↔ p.ended = some .context ∨ p.ended = none ∧ cause = .context := by
  unfold Proc.kill
  split
  · rename_i h
    simp [h]
  · rename_i h
    simp [h]

theorem survives_killWhere (cause : Cause) (which : ℕ → Proc → Bool) : Survives (s.killWhere cause which) ↔ Survives s ∧
      (cause = .context → ∀ pid p, s.procs[pid]? = some p → which pid p = true → p.inCall = true → p.ended ≠ none) := by
  have hmem : Survives (s.killWhere cause which) ↔ ∀ pid p, s.procs[pid]? = some p → p.inCall = true →
      p.ended ≠ some .context ∧ (which pid p = true → cause = .context → p.ended ≠ none) := by
    constructor
    · intro h pid p hp hcall
      have hp' : (if which pid p then p.kill cause else p) ∈ (s.killWhere cause which).procs := by
        apply mem_of_getElem? (i := pid)
        simp [Client.killWhere, hp]
      cases hw : which pid p with
      | true =>
        rw [hw, if_pos rfl] at hp'
        have hspared := h _ hp' ((kill_inCall cause p).trans hcall)
        rw [Ne, kill_ended, not_or, not_and] at hspared
        exact ⟨hspared.1, fun _ hcause hnone => hspared.2 hnone hcause⟩
      | false =>
        rw [hw] at hp'
        exact ⟨h p hp' hcall, nofun⟩
    · intro h q hq hcall
      obtain ⟨pid, hpid, rfl⟩ := mem_mapIdx.mp hq
      have hp := h pid _ (List.getElem?_eq_getElem hpid)
      by_cases hw : which pid s.procs[pid] = true
      · rw [if_pos hw] at hcall ⊢
        rw [kill_inCall] at hcall
        rw [Ne, kill_ended, not_or, not_and]
        exact ⟨(hp hcall).1, fun hnone hcause => (hp hcall).2 hw hcause hnone⟩
      · rw [if_neg hw] at hcall ⊢
        exact (hp hcall).1
  rw [hmem]
  constructor
  · intro h
    refine ⟨?_, fun hcause pid p hp hw hcall => (h pid p hp hcall).2 hw hcause⟩
    intro p hp hcall
    obtain ⟨pid, hpid⟩ := mem_iff_getElem?.mp hp
    exact (h pid p hpid hcall).1
  · rintro ⟨hs, hcontext⟩ pid p hp hcall
    exact ⟨hs p (mem_of_getElem? hp) hcall, fun hw hcause => hcontext hcause pid p hp hw hcall⟩

theorem endsAfterSubprocess_of_ne (h : ∀ ctx, a ≠ .cancel ctx) : EndsAfterSubprocess s a :=
  fun ctx ha => absurd ha (h ctx)

theorem survives_step (h : step o s a = some t) : Survives t ↔ Survives s ∧ EndsAfterSubprocess s a := by
  have hsame (ha : ∀ ctx, a ≠ .cancel ctx) : Survives s ↔ Survives s ∧ EndsAfterSubprocess s a :=
    (and_iff_left (endsAfterSubprocess_of_ne ha)).symm
  have hkill {cause : Cause} (ha : ∀ ctx, a ≠ .cancel ctx) (hcause : cause ≠ .context) (which : ℕ → Proc → Bool) :
      Survives (s.killWhere cause which) ↔ Survives s ∧ EndsAfterSubprocess s a := by
    rw [survives_killWhere, ← hsame ha]
    exact and_iff_left fun hc => absurd hc hcause
  cases moved_of_step h with
  | tick | refuse | begin | spawnFailed => exact hsame (by simp)
  | exit => exact hkill (by simp) (by decide) _
  | close | respawn => exact hkill (by simp) (by decide) fun pid _ => s.session == some pid
  | finish ha _ hsent | goto ha _ hsent => cases hsent <;> exact hsame ha
  | cancel ctx =>
    have hcancel := survives_killWhere (s := s) .context fun _ p => p.ctx == ctx
    refine hcancel.trans (and_congr_right fun _ => ?_)
    constructor
    · rintro hspared _ ⟨⟩ p hmem hcall hctx
      obtain ⟨pid, hpid⟩ := mem_iff_getElem?.mp hmem
      exact hspared rfl pid p hpid (beq_iff_eq.mpr hctx) hcall
    · intro hends _ pid p hpid hw hcall
      exact hends ctx rfl p (mem_of_getElem? hpid) hcall (beq_iff_eq.mp hw)
  | spawn =>
    rw [← hsame (by simp)]
    constructor
    · intro hs p hmem
      exact hs p (mem_append_left _ hmem)
    · intro hs p hmem hcall
      rcases mem_append.mp hmem with hmem | hmem
      · exact hs p hmem hcall
      · rw [mem_singleton.mp hmem]
        simp

theorem respawned_survives_iff {c : Client} {acts : List Action} (hnew : newClient o = some c)
    (hrun : run (step o) c acts = some s) : Survives s ↔ Steps (step o) EndsAfterSubprocess c acts s := by
  apply iff_steps_of_run (fun _ _ _ => survives_step) hrun
  obtain ⟨token, -, rfl⟩ := Option.map_eq_some_iff.mp hnew
  intro p hp
  rw [mem_singleton.mp hp]
  simp

def shared : Options := ⟨⟨none, some "pat"⟩, 0, 0⟩

def respawnRun : List Action :=
  [.exit 0, .beginCall "" 1 0, .callTool .ok, .subprocessDied, .respawn, .spawn true, .readSession, .callTool .ok]

theorem respawned_survives_quiet : ∃ c s, newClient shared = some c ∧
    run (step shared) c (respawnRun ++ [.exit 1, .cancel 1]) = some s ∧ Survives s := by
  refine ⟨_, _, rfl, rfl, (respawned_survives_iff rfl
    (show run (step shared) _ (respawnRun ++ [.exit 1, .cancel 1]) = some _ from rfl)).mpr ?_⟩
  refine .cons nofun rfl (.cons nofun rfl (.cons nofun rfl (.cons nofun rfl (.cons nofun rfl (.cons nofun rfl
    (.cons nofun rfl (.cons nofun rfl (.cons nofun rfl (.cons ?_ rfl (.nil _))))))))))
  rintro ctx ⟨⟩
  decide

theorem turn_end_kills_respawned : ∃ c s p, newClient shared = some c ∧
    run (step shared) c (respawnRun ++ [.cancel 1]) = some s ∧ s.session = some 1 ∧ s.procs[1]? = some p ∧
      p.inCall = true ∧ p.ended = some .context ∧ ¬ Survives s := by
  refine ⟨_, _, _, rfl, rfl, rfl, rfl, rfl, rfl, ?_⟩
  intro h
  exact h ⟨"pat", 1, true, some .context⟩ (by decide) rfl rfl

end

end NomadDev.GitHub
