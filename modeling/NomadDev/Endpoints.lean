import NomadDev.Tokens
import Mathlib.Data.List.DropRight

namespace NomadDev.Endpoints

open Auth

inductive Method
  | get | post | put | other
  deriving DecidableEq

inductive Endpoint
  | healthz | readyz | metrics | ws | authRefresh | authRevoke
  | registerBegin | registerFinish | loginBegin | loginFinish
  | adminConfig | adminConfigRestart | spa
  deriving DecidableEq

structure Request where
  method : Method
  (authorization webSocketProtocol : List Char)
  (webAuthnSessionToken bodyRefreshToken : String)

structure Server where
  verifier : Verifier
  now : ℕ
  isRevoked : String → Option Bool
  (issuer revoker webauthn : Bool)

inductive Access
  | unauthenticated
  | refused (status : ℕ)
  | granted (claims : Claims)
  deriving DecidableEq

def isSpace (c : Char) : Bool :=
  c.val ∈ [9, 10, 11, 12, 13, 32, 0x85, 0xA0, 0x1680, 0x2028, 0x2029, 0x202F, 0x205F, 0x3000] ||
    (0x2000 ≤ c.val && c.val ≤ 0x200A)

def trimSpace (s : List Char) : List Char := (s.dropWhile isSpace).rdropWhile isSpace

def bearer : List Char := "bearer".toList

def bearerToken (h : List Char) : String :=
  if (bearer ++ [' ']).isPrefixOf (h.map Char.toLower) then String.ofList (trimSpace (h.drop 7)) else ""

def extractAccessToken (r : Request) : String := bearerToken r.authorization

def firstProtocol (h : List Char) : Option (List Char) :=
  ((h.splitOn ',').map trimSpace).find? fun p => !(p.isEmpty || p.map Char.toLower == bearer)

def extractToken (r : Request) : String :=
  match firstProtocol r.webSocketProtocol with
  | some p => String.ofList p
  | none => bearerToken r.authorization

def extractRefreshToken (r : Request) : String :=
  if extractAccessToken r ≠ "" then extractAccessToken r else r.bodyRefreshToken

def requireToken (token : String) (parse : String → Except AuthErr Claims) : Access :=
  if token = "" then .refused 401
  else match parse token with
    | .error _ => .refused 401
    | .ok c => .granted c

def wsHandler (srv : Server) (r : Request) : Access :=
  requireToken (extractToken r) (parseAccess srv.verifier srv.now srv.isRevoked)

def refreshHandler (srv : Server) (r : Request) : Access :=
  if r.method ≠ .post then .refused 405
  else if srv.issuer = false then .refused 503
  else requireToken (extractRefreshToken r) (parseRefresh srv.verifier srv.now srv.isRevoked)

def revokeHandler (srv : Server) (r : Request) : Access :=
  if r.method ≠ .post then .refused 405
  else if srv.revoker = false then .refused 503
  else if extractAccessToken r = "" then .refused 401
  else match parseCtx srv.verifier srv.now srv.isRevoked (extractAccessToken r) with
    | .error .revoked => .refused 204
    | .error _ => .refused 401
    | .ok c => if c.jti = "" then .refused 409 else .granted c

def webauthnRegisterBeginHandler (srv : Server) (r : Request) : Access :=
  if srv.webauthn = false then .refused 503
  else if r.method ≠ .post then .refused 405
  else requireToken (extractAccessToken r) (parseAccess srv.verifier srv.now srv.isRevoked)

def webauthnRegisterFinishHandler (srv : Server) (r : Request) : Access :=
  match webauthnRegisterBeginHandler srv r with
  | .granted c => if r.webAuthnSessionToken = "" then .refused 400 else .granted c
  | a => a

def authConfigRequest (srv : Server) (r : Request) (write : Bool) : Access :=
  match requireToken (extractAccessToken r) (parseCtx srv.verifier srv.now srv.isRevoked) with
  | .granted c => if hasConfigScope c.scopes write then .granted c else .refused 403
  | a => a

def configHandler (srv : Server) (r : Request) : Access :=
  match r.method with
  | .get => authConfigRequest srv r false
  | .put => authConfigRequest srv r true
  | _ => .refused 405

def restartHandler (srv : Server) (r : Request) : Access :=
  if r.method ≠ .post then .refused 405 else authConfigRequest srv r true

def serve (srv : Server) : Endpoint → Request → Access
  | .ws, r => wsHandler srv r
  | .authRefresh, r => refreshHandler srv r
  | .authRevoke, r => revokeHandler srv r
  | .registerBegin, r => webauthnRegisterBeginHandler srv r
  | .registerFinish, r => webauthnRegisterFinishHandler srv r
  | .adminConfig, r => configHandler srv r
  | .adminConfigRestart, r => restartHandler srv r
  | _, _ => .unauthenticated

variable {c : Claims} {srv : Server} {r : Request} {token : String} {write : Bool}

theorem requireToken_granted {parse : String → Except AuthErr Claims} :
    requireToken token parse = .granted c ↔ token ≠ "" ∧ parse token = .ok c := by
  unfold requireToken
  by_cases ht : token = ""
  · simp [ht]
  · cases hp : parse token with
    | error e => simp [ht]
    | ok d => simp [ht]

theorem parseCtx_nonempty {v : Verifier} {now : ℕ} {isRevoked : String → Option Bool}
    (h : parseCtx v now isRevoked token = .ok c) : token ≠ "" := by
  rintro rfl
  simp [parseCtx, verifyClaims] at h

theorem authConfigRequest_granted : authConfigRequest srv r write = .granted c ↔
      parseCtx srv.verifier srv.now srv.isRevoked (extractAccessToken r) = .ok c ∧
        hasConfigScope c.scopes write = true := by
  unfold authConfigRequest
  constructor
  · intro h
    split at h
    · next d hd =>
      split at h <;> cases h
      next hs => exact ⟨(requireToken_granted.mp hd).2, hs⟩
    · next hno =>
      exact absurd h (hno c)
  · rintro ⟨hp, hs⟩
    rw [requireToken_granted.mpr ⟨parseCtx_nonempty hp, hp⟩]
    simp [hs]

def RefreshRejected (srv : Server) (e : Endpoint) (r : Request) : Prop :=
  ∀ c, serve srv e r = .granted c → c.kind ≠ kindRefresh

def configWrite : Endpoint → Method → Option Bool
  | .adminConfig, .get => some false
  | .adminConfig, .put => some true
  | .adminConfigRestart, .post => some true
  | _, _ => none

theorem access_ne_refresh (h : c.kind = "" ∨ c.kind = kindAccess) : c.kind ≠ kindRefresh := by
  rcases h with h | h <;> rw [h] <;> decide

theorem ws_rejects (srv : Server) (r : Request) : RefreshRejected srv .ws r := by
  intro c h
  exact access_ne_refresh (parseAccess_ok (requireToken_granted.mp h).2).2

theorem registerBegin_rejects (h : webauthnRegisterBeginHandler srv r = .granted c) : c.kind ≠ kindRefresh := by
  unfold webauthnRegisterBeginHandler at h
  split at h
  · cases h
  · split at h
    · cases h
    · exact access_ne_refresh (parseAccess_ok (requireToken_granted.mp h).2).2

theorem registerFinish_rejects (h : webauthnRegisterFinishHandler srv r = .granted c) : c.kind ≠ kindRefresh := by
  unfold webauthnRegisterFinishHandler at h
  split at h
  · next d hd =>
    split at h <;> cases h
    exact registerBegin_rejects hd
  · next hno => exact absurd h (hno c)

theorem serve_config {e : Endpoint} (h : configWrite e r.method = some write) :
    serve srv e r = authConfigRequest srv r write := by
  cases e <;> cases hm : r.method <;>
    simp_all [configWrite, serve, configHandler, restartHandler]

theorem refreshRejected_iff (srv : Server) (e : Endpoint) (r : Request) (he : e ≠ .authRefresh ∧ e ≠ .authRevoke) :
    RefreshRejected srv e r ↔ ∀ write c, configWrite e r.method = some write →
      parseCtx srv.verifier srv.now srv.isRevoked (extractAccessToken r) = .ok c → c.kind = kindRefresh →
        hasConfigScope c.scopes write = false := by
  cases hw : configWrite e r.method with
  | some write =>
    unfold RefreshRejected
    rw [serve_config hw]
    constructor
    · intro h w c hwc hp hk
      cases hwc
      by_contra hs
      exact h c (authConfigRequest_granted.mpr ⟨hp, by simpa using hs⟩) hk
    · intro h c hg hk
      obtain ⟨hp, hs⟩ := authConfigRequest_granted.mp hg
      rw [h write c rfl hp hk] at hs
      cases hs
  | none =>
    simp only [reduceCtorEq, false_implies, implies_true, iff_true]
    cases e with
    | ws => exact ws_rejects srv r
    | registerBegin => exact fun c h => registerBegin_rejects h
    | registerFinish => exact fun c h => registerFinish_rejects h
    | authRefresh => exact absurd rfl he.1
    | authRevoke => exact absurd rfl he.2
    | adminConfig =>
      intro c h
      cases hm : r.method <;> simp_all [configWrite, serve, configHandler]
    | adminConfigRestart =>
      intro c h
      cases hm : r.method <;> simp_all [configWrite, serve, restartHandler]
    | _ =>
      nofun

def bobRefresh : Claims := ⟨"bob", "s2", ["orchestrator:connect"], kindRefresh, "j7", 600000000000⟩

def bobServer : Server where
  verifier := ⟨[[7]], fun _ now token => if token = "rt" ∧ now < bobRefresh.expiresAt then some bobRefresh else none⟩
  now := 0
  isRevoked := fun _ => some false
  issuer := true
  revoker := true
  webauthn := true

def bobRequest (method : Method) : Request := ⟨method, "Bearer rt".toList, [], "", ""⟩

def readerServer : Server :=
  { bobServer with verifier := ⟨[[7]], fun _ _ _ => some { bobRefresh with scopes := [scopeConfigRead] }⟩ }

theorem refreshRejected_iff_bob : RefreshRejected bobServer .ws (bobRequest .get) ∧
      RefreshRejected readerServer .adminConfig (bobRequest .put) := by
  refine ⟨(refreshRejected_iff bobServer .ws (bobRequest .get) (by decide)).mpr ?_,
    (refreshRejected_iff readerServer .adminConfig (bobRequest .put) (by decide)).mpr ?_⟩
  · nofun
  · intro write c hwrite hparse _
    cases hwrite
    cases hparse
    decide

theorem refresh_token_configures : ¬ RefreshRejected bobServer .adminConfig (bobRequest .put) := by
  intro h
  exact h bobRefresh (by decide) rfl

end NomadDev.Endpoints
