import Mathlib.Data.List.Basic

namespace NomadDev.Auth

def hasPrefix (s p : String) : Bool := p.toList.isPrefixOf s.toList

def scopeToolsAll : String := "tools:*"
def scopeToolsGitHub : String := "tools:github"
def scopePrefixTools : String := "tools:"
def scopeConfigRead : String := "config:read"
def scopeConfigWrite : String := "config:write"
def scopePrefixConfig : String := "config:"

def hasConfigScope (scopes : List String) (write : Bool) : Bool :=
  if scopes.any (hasPrefix · scopePrefixConfig) then
    scopes.any fun s => s == scopeConfigWrite || !write && s == scopeConfigRead
  else true

def hasToolScope (scopes : List String) (tool : String) : Bool :=
  if tool = "" then false
  else if scopes.any (hasPrefix · scopePrefixTools) then
    scopes.any fun s => s == scopeToolsAll || s == scopePrefixTools ++ tool ||
      s == scopeToolsGitHub && hasPrefix tool "github_"
  else true

def kindAccess : String := "access"
def kindRefresh : String := "refresh"

structure Claims where
  (sub sid : String)
  scopes : List String
  (kind jti : String)
  expiresAt : ℕ
  deriving DecidableEq

inductive AuthErr
  | emptyToken | noSecrets | parse | missingSid | missingSub | revocationLookup | revoked | wrongKind
  deriving DecidableEq

/-- `parseWithClaims` is the JWT library's HS256 parser with the issuer and expiry checks switched on,
for one secret and at one instant. -/
structure Verifier where
  secrets : List (List UInt8)
  parseWithClaims : List UInt8 → ℕ → String → Option Claims

def newVerifierWithSecrets (parse : List UInt8 → ℕ → String → Option Claims) (secrets : List (List UInt8)) :
    Verifier where
  secrets := secrets.filter fun s => !s.isEmpty
  parseWithClaims := parse

variable (v : Verifier)

def verifyClaims (now : ℕ) (token : String) : Except AuthErr Claims :=
  if token = "" then .error .emptyToken
  else if v.secrets.isEmpty then .error .noSecrets
  else match v.secrets.findSome? (fun secret => v.parseWithClaims secret now token) with
    | none => .error .parse
    | some c => if c.sid = "" then .error .missingSid else if c.sub = "" then .error .missingSub else .ok c

def checkRevoked (isRevoked : Option Bool) (c : Claims) : Except AuthErr Claims :=
  if c.jti = "" then .ok c
  else match isRevoked with
    | none => .error .revocationLookup
    | some true => .error .revoked
    | some false => .ok c

def parseCtx (now : ℕ) (isRevoked : String → Option Bool) (token : String) : Except AuthErr Claims :=
  match verifyClaims v now token with
  | .error e => .error e
  | .ok c => checkRevoked (isRevoked c.jti) c

def accessKind (c : Claims) : Except AuthErr Claims :=
  if c.kind ≠ "" ∧ c.kind ≠ kindAccess then .error .wrongKind else .ok c

def refreshKind (c : Claims) : Except AuthErr Claims :=
  if c.kind ≠ kindRefresh then .error .wrongKind else .ok c

def parseAccess (now : ℕ) (isRevoked : String → Option Bool) (token : String) : Except AuthErr Claims :=
  (parseCtx v now isRevoked token).bind accessKind

def parseRefresh (now : ℕ) (isRevoked : String → Option Bool) (token : String) : Except AuthErr Claims :=
  (parseCtx v now isRevoked token).bind refreshKind

theorem parseAccess_ok {v : Verifier} {now : ℕ} {isRevoked : String → Option Bool} {token : String} {c : Claims}
    (h : parseAccess v now isRevoked token = .ok c) :
    parseCtx v now isRevoked token = .ok c ∧ (c.kind = "" ∨ c.kind = kindAccess) := by
  unfold parseAccess at h
  cases hp : parseCtx v now isRevoked token with
  | error e =>
    rw [hp] at h
    cases h
  | ok d =>
    rw [hp] at h
    simp only [Except.bind, accessKind] at h
    split at h <;> cases h
    next hk => exact ⟨rfl, by tauto⟩

theorem checkRevoked_ok {isRevoked : Option Bool} {c d : Claims} (h : checkRevoked isRevoked c = .ok d) :
    d = c ∧ (c.jti ≠ "" → isRevoked = some false) := by
  unfold checkRevoked at h
  split at h
  · next hj =>
    cases h
    exact ⟨rfl, fun hne => absurd hj hne⟩
  · split at h
    · cases h
    · cases h
    · cases h
      exact ⟨rfl, fun _ => rfl⟩

theorem refreshKind_ok {c d : Claims} (h : refreshKind c = .ok d) : d = c ∧ c.kind = kindRefresh := by
  unfold refreshKind at h
  split at h <;> cases h
  next hk => exact ⟨rfl, not_not.mp hk⟩

end NomadDev.Auth
