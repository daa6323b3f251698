import NomadDev.GitHubClient

namespace NomadDev.GitHub

open Foundation.Transition List

variable {o : Options} {subs : Set String} {s : Client}

def OwnCredential (o : Options) (s : Client) : Prop :=
  ∀ c ∈ s.served, ∃ p, s.procs[c.pid]? = some p ∧ o.source.token c.sub = some p.token

def CalledBy (subs : Set String) (a : Action) : Prop :=
  ∀ sub ctx argBytes, a = .beginCall sub ctx argBytes → sub ∈ subs

structure Credentials (o : Options) (subs : Set String) (s : Client) : Prop where
  tokens : ∀ p ∈ s.procs, o.source.token "" = some p.token
  session : ∀ pid, s.session = some pid → pid < s.procs.length
  caller : ∀ c, s.call = some c → c.sub ∈ subs
  phase : ∀ c, s.call = some c → ∀ pid ∈ c.phase.pids, pid < s.procs.length
  served : ∀ c ∈ s.served, c.sub ∈ subs ∧ c.pid < s.procs.length

theorem kill_token (cause : Cause) (p : Proc) : (p.kill cause).token = p.token := by
  unfold Proc.kill
  split
  · rfl
  · rfl

theorem Credentials.finish (h : Credentials o subs s) (r : CallResult) : Credentials o subs (s.finish r) :=
  { h with
    caller := nofun
    phase := nofun }

variable {c : InFlight} {pid : ℕ}

section

variable (h : Credentials o subs s)
include h

theorem Credentials.goto {phase : Phase} (hsub : c.sub ∈ subs) (hp : ∀ pid ∈ phase.pids, pid < s.procs.length) :
    Credentials o subs (s.goto c phase) :=
  { h with
    caller := fun _ hc => by
      cases hc
      exact hsub
    phase := fun _ hc => by
      cases hc
      exact hp }

theorem Credentials.deliver (hsub : c.sub ∈ subs) (hp : pid < s.procs.length) : Credentials o subs (s.deliver c pid) :=
  { h with
    served := fun d hd => by
      rcases mem_append.mp hd with hd | hd
      · exact h.served d hd
      · rw [mem_singleton.mp hd]
        exact ⟨hsub, hp⟩ }

theorem Credentials.killWhere (cause : Cause) (which : ℕ → Proc → Bool) :
    Credentials o subs (s.killWhere cause which) := by
  have hlength : (s.killWhere cause which).procs.length = s.procs.length := length_mapIdx
  constructor
  · intro p hp
    obtain ⟨pid, hpid, rfl⟩ := mem_mapIdx.mp hp
    have hold := h.tokens _ (getElem_mem hpid)
    split
    · rw [kill_token]
      exact hold
    · exact hold
  · rw [hlength]
    exact h.session
  · exact h.caller
  · rw [hlength]
    exact h.phase
  · rw [hlength]
    exact h.served

theorem Credentials.closeSession (cause : Cause) : Credentials o subs (s.closeSession cause) :=
  { h.killWhere cause fun pid _ => s.session == some pid with
    session := nofun }

theorem Credentials.start {p : Proc} (hp : o.source.token "" = some p.token) : Credentials o subs (s.start p) := by
  have hlength : (s.start p).procs.length = s.procs.length + 1 := length_append
  constructor
  · intro q hq
    rcases mem_append.mp hq with hq | hq
    · exact h.tokens q hq
    · rw [mem_singleton.mp hq]
      exact hp
  · rintro pid ⟨⟩
    omega
  · exact h.caller
  · intro c hc pid hpid
    have := h.phase c hc pid hpid
    omega
  · intro c hc
    have := h.served c hc
    exact ⟨this.1, by omega⟩

theorem Credentials.sent {u : Client} (hc : s.call = some c) (hsent : Sent s c u) : Credentials o subs u := by
  cases hsent with
  | no => exact h
  | yes hpid => exact h.deliver (h.caller c hc) (h.phase c hc _ hpid)

end

theorem Sent.procs {u : Client} (h : Sent s c u) : u.procs = s.procs := by
  cases h <;> rfl

theorem Credentials.step (h : Credentials o subs s) (hown : ∀ sub ∈ subs, o.source.token sub = o.source.token "")
    {a : Action} (ha : CalledBy subs a) {t : Client} (ht : GitHub.step o s a = some t) : Credentials o subs t := by
  cases moved_of_step ht with
  | tick d => exact { h with }
  | exit pid => exact h.killWhere _ _
  | cancel ctx => exact { h.killWhere .context fun _ p => p.ctx == ctx with }
  | close => exact { h.closeSession .close with }
  | refuse => exact h.finish _
  | begin sub ctx argBytes hidle hsession =>
    apply h.goto (c := ⟨sub, ctx, .failed⟩) (ha sub ctx argBytes rfl)
    intro i hi
    rw [mem_singleton.mp hi]
    exact h.session _ hsession
  | finish _ hc hsent => exact (h.sent hc hsent).finish _
  | goto _ hc hsent _ _ hpids =>
    apply (h.sent hc hsent).goto (h.caller _ hc)
    rw [hsent.procs]
    intro i hi
    exact (hpids i hi).elim (h.phase _ hc i) (h.session i)
  | respawn hc =>
    have htorn : Credentials o subs { s.closeSession .respawn with lastRestart := some s.now } :=
      { h.closeSession .respawn with }
    refine htorn.goto (h.caller _ hc) fun i hi => ?_
    cases hi
  | spawn willing hc _ htoken =>
    refine (h.start ?_).goto (h.caller _ hc) fun i hi => ?_
    · exact (hown _ (h.caller _ hc)).symm.trans htoken
    · cases hi
  | spawnFailed => exact h.finish _

theorem Credentials.init (h : newClient o = some s) : Credentials o subs s := by
  obtain ⟨token, htoken, rfl⟩ := Option.map_eq_some_iff.mp h
  constructor
  · intro p hp
    rw [mem_singleton.mp hp]
    exact htoken
  · rintro pid ⟨⟩
    exact Nat.zero_lt_one
  · nofun
  · nofun
  · nofun

theorem Credentials.ownCredential (h : Credentials o subs s)
    (hown : ∀ sub ∈ subs, o.source.token sub = o.source.token "") : OwnCredential o s := by
  intro c hc
  obtain ⟨hsub, hpid⟩ := h.served c hc
  refine ⟨s.procs[c.pid], List.getElem?_eq_getElem hpid, ?_⟩
  rw [hown c.sub hsub]
  exact h.tokens _ (getElem_mem hpid)

theorem step_beginCall (sub : String) (ctx : ℕ) {argBytes : ℕ} (hidle : s.call = none)
    (hsession : s.session = some pid) (hargs : argsExceedCap o argBytes = false) :
    step o s (.beginCall sub ctx argBytes) = some (s.goto ⟨sub, ctx, .invoking pid⟩ (.invoking pid)) := by
  simp [step, hidle, Client.beginCall, hsession, hargs, Client.goto]

theorem step_callTool_ok (hc : s.call = some c) (hphase : c.phase = .invoking pid ∨ c.phase = .retrying pid)
    (halive : s.alive pid = true) (hctx : s.done c.ctx = false) :
    step o s (.callTool .ok) = some ((s.deliver c pid).finish .answered) := by
  rcases hphase with hphase | hphase
  · simp [step, hc, hphase, Client.stepCall, Client.invoke, hctx, halive, Client.afterReply]
  · simp [step, hc, hphase, Client.stepCall, Client.invoke, hctx, halive, Client.afterReply]

def askOnce (sub : String) (ctx argBytes : ℕ) : List Action := [.beginCall sub ctx argBytes, .callTool .ok]

theorem askOnce_served (sub : String) (ctx argBytes : ℕ) (hcall : s.call = none) (hsession : s.session = some pid)
    (halive : s.alive pid = true) (hctx : s.done ctx = false) (hargs : argsExceedCap o argBytes = false) :
    run (step o) s (askOnce sub ctx argBytes) = some ((s.deliver ⟨sub, ctx, .invoking pid⟩ pid).finish .answered) := by
  have hask : step o (s.goto ⟨sub, ctx, .invoking pid⟩ (.invoking pid)) (.callTool .ok) = _ :=
    step_callTool_ok rfl (.inl rfl) halive hctx
  rw [askOnce, run, step_beginCall sub ctx hcall hsession hargs, Option.bind_some, run, hask]
  rfl

theorem own_credential_iff {c : Client} (hnew : newClient o = some c) (subs : Set String) :
    (∀ acts s, (∀ a ∈ acts, CalledBy subs a) → run (step o) c acts = some s → OwnCredential o s) ↔
      ∀ sub ∈ subs, o.source.token sub = o.source.token "" := by
  constructor
  · intro hall sub hsub
    obtain ⟨token, htoken, rfl⟩ := Option.map_eq_some_iff.mp hnew
    have hcalled : ∀ a ∈ askOnce sub 1 0, CalledBy subs a := by
      simp [askOnce, CalledBy, hsub]
    have hargs : argsExceedCap o 0 = false := by simp [argsExceedCap]
    obtain ⟨p, hp, htok⟩ := hall _ _ hcalled (askOnce_served sub 1 0 rfl rfl rfl rfl hargs) ⟨sub, 0⟩ mem_cons_self
    cases hp
    exact htok.trans htoken.symm
  · intro hown acts s hacts hrun
    have hsteps := steps_of_run_of_forall hrun hacts
    have hinv : Credentials o subs s := hsteps.preserves (fun _ _ _ ha hst hI => hI.step hown ha hst) (.init hnew)
    exact hinv.ownCredential hown

def sharedOnly : Options := ⟨⟨some fun _ => none, some "pat-shared"⟩, 0, 0⟩

theorem own_credential_shared : ∃ c, newClient sharedOnly = some c ∧
    ∀ acts s, (∀ a ∈ acts, CalledBy Set.univ a) → run (step sharedOnly) c acts = some s → OwnCredential sharedOnly s := by
  refine ⟨_, rfl, (own_credential_iff rfl Set.univ).mpr ?_⟩
  intro sub _
  simp [sharedOnly, PerUserTokenSource.token]

def perUser : Options :=
  ⟨⟨some fun sub => if sub = "alice" then some "pat-alice" else if sub = "bob" then some "pat-bob" else none,
    some "pat-shared"⟩, 0, 0⟩

def respawnThenBob : List Action :=
  [.exit 0, .beginCall "alice" 1 0, .callTool .ok, .subprocessDied, .respawn, .spawn true, .readSession, .callTool .ok] ++
    askOnce "bob" 2 0

theorem bob_served_as_alice : ∃ c s p, newClient perUser = some c ∧ run (step perUser) c respawnThenBob = some s ∧
    ⟨"bob", 1⟩ ∈ s.served ∧ s.procs[1]? = some p ∧ perUser.source.token "alice" = some p.token ∧
      perUser.source.token "bob" ≠ some p.token ∧ ¬ OwnCredential perUser s := by
  obtain ⟨s, hrun, hserved, hproc⟩ : ∃ s, run (step perUser) ((newClient perUser).get rfl) respawnThenBob = some s ∧
      ⟨"bob", 1⟩ ∈ s.served ∧ ((s.procs[1]?).any fun p => perUser.source.token "alice" = some p.token ∧
        perUser.source.token "bob" ≠ some p.token) = true := exists_run_of_any (by decide +kernel)
  obtain ⟨p, hp, htoken⟩ := (Option.any_eq_true _ _).mp hproc
  obtain ⟨halice, hbob⟩ := of_decide_eq_true htoken
  refine ⟨_, s, p, rfl, hrun, hserved, hp, halice, hbob, fun h => ?_⟩
  obtain ⟨q, hq, htoken⟩ := h ⟨"bob", 1⟩ hserved
  cases hp.symm.trans hq
  exact hbob htoken

end NomadDev.GitHub
