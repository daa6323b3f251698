import NomadDev.Tokens
import NomadDev.Foundation.Transition

/-!
`issued` and `inserted` record which request each session token and each new row came from.
-/

namespace NomadDev.WebAuthn

open Auth Foundation.Transition Function

structure SessionData where
  challenge : String
  userHandle : List UInt8
  deriving DecidableEq

structure CacheEntry where
  userID : String
  data : SessionData
  expiresAt : ℕ

structure Credential where
  sub : String
  (id publicKey : List UInt8)
  signCount : ℕ
  attestType : String
  deriving DecidableEq

structure Response where
  challenge : String
  (userHandle credID publicKey : List UInt8)
  signCount : ℕ
  attestType : String
  deriving DecidableEq

def webAuthnID (sub : String) : List UInt8 := (sub.toList.flatMap String.utf8EncodeChar ++ List.replicate 64 0).take 64

-- The library: it accepts the responses that answer the challenge and the user handle it is given.
def answers (session : SessionData) (resp : Response) : Bool :=
  resp.challenge == session.challenge && resp.userHandle == session.userHandle

inductive Ceremony
  | register | login
  deriving DecidableEq

structure Issue where
  token : String
  ceremony : Ceremony
  sub : String

structure Finish where
  ceremony : Ceremony
  (callerSub token sub : String)
  session : SessionData
  response : Response

structure Insertion where
  (callerSub token : String)
  row : Credential
  deriving DecidableEq

structure State where
  clock : ℕ
  cache : String → Option CacheEntry
  store : List Credential
  finishing : ℕ → Option Finish
  issued : List Issue
  inserted : List Insertion

structure Config where
  verifier : Verifier
  isRevoked : ℕ → String → Option Bool
  ttl : ℕ

inductive Action
  | tick (d : ℕ)
  | registerBegin (bearer token challenge : String)
  | loginBegin (sub token challenge : String)
  | registerFinish (r : ℕ) (bearer token : String) (resp : Response)
  | loginFinish (r : ℕ) (token : String) (resp : Response)
  | complete (r : ℕ)

variable (s : State)

def pruned (token : String) : Option CacheEntry :=
  (s.cache token).filter fun e => s.clock ≤ e.expiresAt

def put (cfg : Config) (s : State) (token sub : String) (data : SessionData) : State :=
  { s with cache := update (pruned s) token (some ⟨sub, data, s.clock + cfg.ttl⟩) }

def take (token : String) : State := { s with cache := update (pruned s) token none }

def listBySub (sub : String) : List Credential := s.store.filter fun c => c.sub = sub

def insert (c : Credential) : Option (List Credential) :=
  if c.sub = "" ∨ c.id = [] then none
  else if s.store.any fun d => d.sub == c.sub && d.id == c.id then none
  else some (s.store ++ [c])

def updateSignCount (sub : String) (credID : List UInt8) (count : ℕ) : List Credential :=
  s.store.map fun c => if c.sub = sub ∧ c.id = credID then { c with signCount := count } else c

def begin (cfg : Config) (s : State) (ceremony : Ceremony) (sub token challenge : String) : State :=
  { put cfg s token sub ⟨challenge, webAuthnID sub⟩ with issued := ⟨token, ceremony, sub⟩ :: s.issued }

def startFinish (r : ℕ) (ceremony : Ceremony) (callerSub token : String) (resp : Response) : Option State :=
  match s.finishing r, pruned s token with
  | none, some e =>
    some { take s token with
      finishing := update s.finishing r (some ⟨ceremony, callerSub, token, e.userID, e.data, resp⟩) }
  | none, none => some (take s token)
  | _, _ => none

def newCredential (f : Finish) : Credential :=
  ⟨f.sub, f.response.credID, f.response.publicKey, f.response.signCount, f.response.attestType⟩

def completeRegistration (f : Finish) : State :=
  if answers f.session f.response then
    match insert s (newCredential f) with
    | some store => { s with store := store, inserted := ⟨f.callerSub, f.token, newCredential f⟩ :: s.inserted }
    | none => s
  else s

def updateCounter (signCount counter : ℕ) : ℕ × Bool :=
  if counter ≤ signCount ∧ (counter ≠ 0 ∨ signCount ≠ 0) then (signCount, true) else (counter, false)

-- The library's `FinishLogin`: the credential it found, with its new count and the warning.
def validateLogin (creds : List Credential) (f : Finish) : Option (Credential × ℕ × Bool) :=
  if answers f.session f.response then
    (creds.find? fun c => c.id == f.response.credID).map fun c => (c, updateCounter c.signCount f.response.signCount)
  else none

def completeLogin (f : Finish) : State :=
  match validateLogin (listBySub s f.sub) f with
  | some (c, count, _) => { s with store := updateSignCount s f.sub c.id count }
  | none => s

def complete (r : ℕ) : Option State :=
  match s.finishing r with
  | none => none
  | some f =>
    let s := { s with finishing := update s.finishing r none }
    match f.ceremony with
    | .register => some (completeRegistration s f)
    | .login => some (completeLogin s f)

def caller (cfg : Config) (s : State) (bearer : String) : Except AuthErr Claims :=
  parseAccess cfg.verifier s.clock (cfg.isRevoked s.clock) bearer

def step (cfg : Config) (s : State) : Action → Option State
  | .tick d => some { s with clock := s.clock + d }
  | .registerBegin bearer token challenge =>
    match caller cfg s bearer with
    | .error _ => some s
    | .ok c => some (begin cfg s .register c.sub token challenge)
  | .loginBegin sub token challenge =>
    if sub = "" ∨ (listBySub s sub).isEmpty then some s else some (begin cfg s .login sub token challenge)
  | .registerFinish r bearer token resp =>
    match caller cfg s bearer with
    | .error _ => some s
    | .ok c => if token = "" then some s else startFinish s r .register c.sub token resp
  | .loginFinish r token resp => if token = "" then some s else startFinish s r .login "" token resp
  | .complete r => complete s r

def init (clock : ℕ) (store : List Credential) : State := ⟨clock, fun _ => none, store, fun _ => none, [], []⟩

def OwnEnrollments : Prop :=
  ∀ i ∈ s.inserted, i.callerSub = i.row.sub ∧ ⟨i.token, .register, i.row.sub⟩ ∈ s.issued

section

def OwnCeremony (cfg : Config) (s : State) : Action → Prop
  | .registerFinish _ bearer token _ => ∀ c e, caller cfg s bearer = .ok c → pruned s token = some e →
      e.userID = c.sub ∧ ∀ sub, ⟨token, .login, sub⟩ ∉ s.issued
  | _ => True

structure Inv (s : State) : Prop where
  cached : ∀ token e, s.cache token = some e → ∃ ceremony, ⟨token, ceremony, e.userID⟩ ∈ s.issued
  finishing : ∀ r f, s.finishing r = some f → f.ceremony = .register →
    f.callerSub = f.sub ∧ ⟨f.token, .register, f.sub⟩ ∈ s.issued
  inserted : OwnEnrollments s

variable {cfg : Config} {s s' : State}

theorem inv_init (clock : ℕ) (store : List Credential) : Inv (init clock store) := by
  refine ⟨?_, ?_, ?_⟩
  · nofun
  · nofun
  · nofun

theorem pruned_cache {token : String} {e : CacheEntry} (h : pruned s token = some e) : s.cache token = some e := by
  simp only [pruned, Option.filter_eq_some_iff] at h
  exact h.1

theorem Inv.begin (h : Inv s) (ceremony : Ceremony) (sub token challenge : String) :
    Inv (begin cfg s ceremony sub token challenge) := by
  refine ⟨?_, ?_, ?_⟩
  · intro token' e he
    simp only [WebAuthn.begin, put, update_apply] at he
    split at he
    · next ht =>
      cases he
      exact ⟨ceremony, by simp [WebAuthn.begin, ht]⟩
    · obtain ⟨c, hc⟩ := h.cached token' e (pruned_cache he)
      exact ⟨c, List.mem_cons_of_mem _ hc⟩
  · intro r f hf hr
    obtain ⟨hs, hi⟩ := h.finishing r f hf hr
    exact ⟨hs, List.mem_cons_of_mem _ hi⟩
  · intro i hi
    obtain ⟨hs, hm⟩ := h.inserted i hi
    exact ⟨hs, List.mem_cons_of_mem _ hm⟩

theorem Inv.take (h : Inv s) (token : String) : Inv (take s token) := by
  refine ⟨?_, h.finishing, h.inserted⟩
  intro token' e he
  simp only [WebAuthn.take, update_apply] at he
  split at he
  · cases he
  · exact h.cached token' e (pruned_cache he)

theorem Inv.startFinish (h : Inv s) {r : ℕ} {ceremony : Ceremony} {callerSub token : String} {resp : Response}
    (hs : startFinish s r ceremony callerSub token resp = some s')
    (hown : ceremony = .register → ∀ e, pruned s token = some e →
      e.userID = callerSub ∧ ∀ sub, ⟨token, .login, sub⟩ ∉ s.issued) : Inv s' := by
  unfold WebAuthn.startFinish at hs
  split at hs <;> cases hs
  next e _ he =>
    refine ⟨(h.take token).cached, ?_, h.inserted⟩
    intro r' f hf hr
    simp only [update_apply] at hf
    split at hf
    · cases hf
      obtain ⟨hsub, hno⟩ := hown hr e he
      obtain ⟨c, hc⟩ := h.cached token e (pruned_cache he)
      cases c with
      | register => exact ⟨hsub.symm, hc⟩
      | login => exact absurd hc (hno e.userID)
    · exact h.finishing r' f hf hr
  · exact h.take token

theorem Inv.completeRegistration (h : Inv s) {f : Finish}
    (hf : f.callerSub = f.sub ∧ ⟨f.token, .register, f.sub⟩ ∈ s.issued) : Inv (completeRegistration s f) := by
  unfold WebAuthn.completeRegistration
  split
  · split
    · refine ⟨h.cached, h.finishing, ?_⟩
      intro i hi
      rcases List.mem_cons.mp hi with rfl | hi
      · exact hf
      · exact h.inserted i hi
    · exact h
  · exact h

theorem Inv.complete (h : Inv s) {r : ℕ} (hs : complete s r = some s') : Inv s' := by
  unfold WebAuthn.complete at hs
  split at hs
  · cases hs
  next f hf =>
  have hclear : Inv { s with finishing := update s.finishing r none } := by
    refine ⟨h.cached, ?_, h.inserted⟩
    intro r' f' hf'
    simp only [update_apply] at hf'
    split at hf'
    · cases hf'
    · exact h.finishing r' f' hf'
  dsimp only at hs
  split at hs <;> cases hs
  next hr => exact hclear.completeRegistration (h.finishing r f hf hr)
  · unfold completeLogin
    split
    · exact ⟨hclear.cached, hclear.finishing, hclear.inserted⟩
    · exact hclear

theorem step_inv (a : Action) (hg : OwnCeremony cfg s a) (hs : step cfg s a = some s') (h : Inv s) : Inv s' := by
  cases a with simp only [step] at hs
  | tick d =>
    cases hs
    exact ⟨h.cached, h.finishing, h.inserted⟩
  | registerBegin | loginBegin =>
    split at hs <;> cases hs
    · exact h
    · exact h.begin _ _ _ _
  | registerFinish r bearer token resp =>
    split at hs
    · cases hs
      exact h
    next c hc =>
    split at hs
    · cases hs
      exact h
    · exact h.startFinish hs (fun _ e he => hg c e hc he)
  | loginFinish r token resp =>
    split at hs
    · cases hs
      exact h
    · apply h.startFinish hs
      nofun
  | complete r => exact h.complete hs

theorem own_run_ownEnrollments (cfg : Config) (clock : ℕ) (store : List Credential) (as : List Action) (s : State)
    (h : Steps (step cfg) (OwnCeremony cfg) (init clock store) as s) : OwnEnrollments s := by
  have hi : Inv s := h.preserves (fun s a t hg hs hi => step_inv a hg hs hi) (inv_init clock store)
  exact hi.inserted

def accessClaims (sub : String) : Claims := ⟨sub, "s-" ++ sub, [], kindAccess, "", 600000000000⟩

def twoUsers : Config where
  verifier := ⟨[[7]], fun _ now token =>
    if 600000000000 ≤ now then none
    else if token = "at-alice" then some (accessClaims "alice")
    else if token = "at-mallory" then some (accessClaims "mallory")
    else none⟩
  isRevoked := fun _ _ => some false
  ttl := 300000000000

def aliceKey : Credential := ⟨"alice", [1], [2], 0, "none"⟩

def newKey (challenge : String) : Response := ⟨challenge, webAuthnID "alice", [9], [8], 0, "none"⟩

theorem own_run_ownEnrollments_alice : ∃ s, Steps (step twoUsers) (OwnCeremony twoUsers) (init 0 [aliceKey])
        [.registerBegin "at-alice" "tok" "ch", .registerFinish 0 "at-alice" "tok" (newKey "ch"), .complete 0] s ∧
      s.inserted.length = 1 ∧ OwnEnrollments s := by
  have h : ∃ s, Steps (step twoUsers) (OwnCeremony twoUsers) (init 0 [aliceKey])
      [.registerBegin "at-alice" "tok" "ch", .registerFinish 0 "at-alice" "tok" (newKey "ch"), .complete 0] s ∧
      s.inserted.length = 1 := by
    refine ⟨_, .cons trivial rfl (.cons ?_ rfl (.cons trivial rfl (.nil _))), rfl⟩
    intro c e hc he
    cases hc
    cases he
    refine ⟨rfl, ?_⟩
    intro sub hm
    have hi : (⟨"tok", .login, sub⟩ : Issue) ∈ [⟨"tok", .register, "alice"⟩] := hm
    simp at hi
  obtain ⟨s, hs, hl⟩ := h
  exact ⟨s, hs, hl, own_run_ownEnrollments _ _ _ _ s hs⟩

theorem login_token_enrolls : ∃ s, run (step twoUsers) (init 0 [aliceKey])
        [.loginBegin "alice" "tok" "ch", .registerFinish 0 "at-mallory" "tok" (newKey "ch"), .complete 0] = some s ∧
      ¬ OwnEnrollments s := by
  refine ⟨_, rfl, ?_⟩
  intro h
  have hm := (h ⟨"mallory", "tok", ⟨"alice", [9], [8], 0, "none"⟩⟩ (by decide)).1
  revert hm
  decide

end

end NomadDev.WebAuthn
