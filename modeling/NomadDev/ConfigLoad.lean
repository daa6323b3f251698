import NomadDev.ConfigRegistry
import NomadDev.Endpoints

namespace NomadDev.Settings

open Endpoints Function

def keySecret : String := "NOMADDEV_JWT_SECRET"
def keyPrevSecrets : String := "NOMADDEV_JWT_PREV_SECRETS"
def keyOverridePath : String := "NOMADDEV_CONFIG_OVERRIDE_PATH"
def keyPingInterval : String := "NOMADDEV_PING_INTERVAL"
def keyAccessTTL : String := "NOMADDEV_AUTH_ACCESS_TTL"
def keyRefreshTTL : String := "NOMADDEV_AUTH_REFRESH_TTL"

inductive GoFloat
  | finite (num : ℤ) (den : ℕ)
  | posInf | negInf | nan

def GoFloat.below (n : ℤ) : GoFloat → Bool
  | .finite num den => num < n * den
  | .negInf => true
  | .posInf | .nan => false

def GoFloat.above (n : ℤ) : GoFloat → Bool
  | .finite num den => n * den < num
  | .posInf => true
  | .negInf | .nan => false

/-- The parsers of the standard library: strconv, time.ParseDuration in nanoseconds, and the base64 and hex
decoders `loadSecret` tries in turn. -/
structure Parsers where
  parseBool : String → Option Bool
  parseInt : String → Option ℤ
  parseFloat : String → Option GoFloat
  parseDuration : String → Option ℤ
  decoders : List (String → Option (List UInt8))
  parseDuration_empty : parseDuration "" = none
  parseDuration_zero : parseDuration "0s" = some 0

def settable (key value : String) : Bool :=
  key != "" && !key.toList.any (fun c => c == '=' || c.val == 0) && !value.toList.any (·.val == 0)

structure Env where
  get : String → Option String
  settable_get : ∀ key value, get key = some value → settable key value = true

def Env.getenv (e : Env) (key : String) : String := (e.get key).getD ""

abbrev Overrides : Type := String → Option String

def overrideGet (e : Env) (ov : Overrides) (key : String) : Option String :=
  match e.get key with
  | some value => some value
  | none => (ov key).filter (settable key)

theorem settable_overrideGet (e : Env) (ov : Overrides) (key value : String) (h : overrideGet e ov key = some value) :
    settable key value = true := by
  unfold overrideGet at h
  cases hk : e.get key with
  | none =>
    rw [hk] at h
    exact (Option.filter_eq_some_iff.mp h).2
  | some v =>
    rw [hk] at h
    cases h
    exact e.settable_get key _ hk

def applyOverride (e : Env) (ov : Overrides) : Env := ⟨overrideGet e ov, settable_overrideGet e ov⟩

def overridePath (e : Env) : String :=
  if e.getenv keyOverridePath = "" then defaultOverridePath else e.getenv keyOverridePath

abbrev Files : Type := String → Except String Overrides

def bootEnv (e : Env) (files : Files) : Env :=
  match files (overridePath e) with
  | .ok ov => applyOverride e ov
  | .error _ => e

variable (lib : Parsers)

def minSecretBytes : ℕ := 32

def errMissingSecret : String := "NOMADDEV_JWT_SECRET must be set and decode to at least 32 bytes"

def loadSecret (raw : String) : Except String (List UInt8) :=
  if raw = "" then .error errMissingSecret
  else match lib.decoders.findSome? fun decode => (decode raw).filter fun b => minSecretBytes ≤ b.length with
    | some b => .ok b
    | none =>
      if minSecretBytes ≤ raw.utf8ByteSize then .ok raw.toUTF8.toList
      else .error (errMissingSecret ++ " (got " ++ toString raw.utf8ByteSize ++ " bytes)")

def loadPrevFrom (i : ℕ) : List (List Char) → Except String (List (List UInt8))
  | [] => .ok []
  | part :: parts =>
    if trimSpace part = [] then loadPrevFrom (i + 1) parts
    else match loadSecret lib (String.ofList (trimSpace part)) with
      | .error err => .error ("NOMADDEV_JWT_PREV_SECRETS[" ++ toString i ++ "]: " ++ err)
      | .ok b =>
        match loadPrevFrom (i + 1) parts with
        | .error err => .error err
        | .ok bs => .ok (b :: bs)

def loadPrevSecrets (raw : String) : Except String (List (List UInt8)) :=
  if trimSpace raw.toList = [] then .ok [] else loadPrevFrom lib 0 ((trimSpace raw.toList).splitOn ',')

def envDuration (e : Env) (key : String) (fallback : ℤ) : ℤ :=
  if e.getenv key = "" then fallback else (lib.parseDuration (e.getenv key)).getD fallback

def second : ℤ := 1000000000
def hour : ℤ := 3600 * second

structure Config where
  jwtSecret : List UInt8
  jwtPrevSecrets : List (List UInt8)
  (accessTTL refreshTTL pingInterval : ℤ)

def load (e : Env) (files : Files) : Except String Config :=
  let env := bootEnv e files
  match loadSecret lib (env.getenv keySecret) with
  | .error err => .error err
  | .ok secret =>
    match loadPrevSecrets lib (env.getenv keyPrevSecrets) with
    | .error err => .error err
    | .ok prev =>
      .ok { jwtSecret := secret
            jwtPrevSecrets := prev
            accessTTL := envDuration lib env keyAccessTTL hour
            refreshTTL := envDuration lib env keyRefreshTTL (720 * hour)
            pingInterval := envDuration lib env keyPingInterval (30 * second) }

def Setting.checkBounds (s : Setting) (below above : ℤ → Bool) : Option String :=
  if s.min.any below then some (s.envVar ++ ": value below minimum " ++ toString (s.min.getD 0))
  else if s.max.any above then some (s.envVar ++ ": value above maximum " ++ toString (s.max.getD 0))
  else none

def Setting.checkInt (s : Setting) (n : ℤ) : Option String := s.checkBounds (n < ·) (· < n)

def quoted (raw : String) : String := "\"" ++ raw ++ "\""

def Setting.validate (s : Setting) (raw : String) : Option String :=
  match s.type with
  | .string | .csv => none
  | .bool => if (lib.parseBool raw).isSome then none else some (s.envVar ++ ": " ++ quoted raw ++ " is not a boolean")
  | .int | .int64 =>
    match lib.parseInt raw with
    | none => some (s.envVar ++ ": " ++ quoted raw ++ " is not an integer")
    | some n => s.checkInt n
  | .float =>
    match lib.parseFloat raw with
    | none => some (s.envVar ++ ": " ++ quoted raw ++ " is not a number")
    | some f => s.checkBounds f.below f.above
  | .duration =>
    match lib.parseDuration raw with
    | none => some (s.envVar ++ ": " ++ quoted raw ++ " is not a duration (e.g. 30s, 5m, 1h)")
    | some d => s.checkInt d
  | .enum =>
    if raw ∈ s.enum then none
    else some (s.envVar ++ ": " ++ quoted raw ++ " is not one of " ++ ", ".intercalate s.enum)

structure ConfigError where
  status : ℕ
  (message envVar : String)

structure PutBody where
  changes : List (String × String)
  reset : List String
  distinct : (changes.map Prod.fst).Nodup

def writable (envVar : String) : Except ConfigError Setting :=
  match lookup envVar with
  | none => .error ⟨400, "unknown setting", envVar⟩
  | some s => if s.readOnly then .error ⟨400, "setting is read-only", envVar⟩ else .ok s

def applyReset (merged : Overrides) : List String → Except ConfigError Overrides
  | [] => .ok merged
  | envVar :: rest =>
    match writable envVar with
    | .error err => .error err
    | .ok _ => applyReset (update merged envVar none) rest

def checkValue (s : Setting) (envVar value : String) : Option String :=
  match s.validate lib value with
  | some err => some err
  | none =>
    if envVar = keySecret then
      match loadSecret lib value with
      | .error err => some err
      | .ok _ => none
    else none

-- An empty secret means "leave unchanged".
def applyChanges (merged : Overrides) : List (String × String) → Except ConfigError (Overrides × List String)
  | [] => .ok (merged, [])
  | (envVar, value) :: rest =>
    match writable envVar with
    | .error err => .error err
    | .ok s =>
      if s.secret && value == "" then applyChanges merged rest
      else match checkValue lib s envVar value with
        | some err => .error ⟨400, err, envVar⟩
        | none =>
          match applyChanges (update merged envVar (some value)) rest with
          | .error err => .error err
          | .ok (merged, changed) => .ok (merged, envVar :: changed)

def resolveConfigValue (live : Env) (merged : Overrides) (envVar : String) : String :=
  match merged envVar with
  | some value => value
  | none =>
    if live.getenv envVar = "" then ((lookup envVar).map Setting.default).getD "" else live.getenv envVar

def validateConfigCrossFields (live : Env) (merged : Overrides) : Option String :=
  match lib.parseDuration (resolveConfigValue live merged keyAccessTTL),
      lib.parseDuration (resolveConfigValue live merged keyRefreshTTL) with
  | some access, some refresh =>
    if refresh ≤ access then some "NOMADDEV_AUTH_ACCESS_TTL must be shorter than NOMADDEV_AUTH_REFRESH_TTL" else none
  | _, _ => none

def planPut (live : Env) (override : Overrides) (body : PutBody) : Except ConfigError (Overrides × ℕ) :=
  match applyReset override body.reset with
  | .error err => .error err
  | .ok merged =>
    match applyChanges lib merged body.changes with
    | .error err => .error err
    | .ok (merged, changed) =>
      match validateConfigCrossFields lib live merged with
      | some err => .error ⟨400, err, ""⟩
      | none => .ok (merged, changed.length + body.reset.length)

structure Running where
  live : Env
  path : String

def running (e : Env) (files : Files) : Running := ⟨bootEnv e files, overridePath (bootEnv e files)⟩

structure PutRequest where
  authorized : Option ConfigError
  body : Except String PutBody
  writeError : Option String

def loadPut (srv : Running) (files : Files) (r : PutRequest) : Except ConfigError (PutBody × Overrides) :=
  match r.authorized, r.body with
  | some err, _ => .error err
  | none, .error err => .error ⟨400, "bad request body: " ++ err, ""⟩
  | none, .ok body =>
    if body.changes = [] ∧ body.reset = [] then .error ⟨400, "no changes supplied", ""⟩
    else match files srv.path with
    | .error err => .error ⟨500, "config override file is unreadable: " ++ err, ""⟩
    | .ok override => .ok (body, override)

def writePut (srv : Running) (files : Files) (r : PutRequest) (body : PutBody) (override : Overrides) :
    Except ConfigError ℕ × Files :=
  match planPut lib srv.live override body with
  | .error err => (.error err, files)
  | .ok (merged, applied) =>
    match r.writeError with
    | some err => (.error ⟨500, "could not persist config: " ++ err, ""⟩, files)
    | none => (.ok applied, update files srv.path (.ok merged))

def handleConfigPut (srv : Running) (files : Files) (r : PutRequest) : Except ConfigError ℕ × Files :=
  match loadPut srv files r with
  | .error err => (.error err, files)
  | .ok (body, override) => writePut lib srv files r body override

def unitNanos : Char → Option ℤ
  | 'h' => some hour
  | 'm' => some (60 * second)
  | 's' => some second
  | _ => none

def durationFrom (total : ℤ) (digits : Option ℕ) : List Char → Option ℤ
  | [] => if digits.isSome then none else some total
  | c :: cs =>
    if c.isDigit then durationFrom total (some (10 * digits.getD 0 + (c.toNat - 48))) cs
    else match unitNanos c, digits with
      | some unit, some n => durationFrom (total + n * unit) none cs
      | _, _ => none

def plainParsers : Parsers where
  parseBool raw := if raw = "true" then some true else if raw = "false" then some false else none
  parseInt raw := raw.toInt?
  parseFloat raw := raw.toInt?.map (.finite · 1)
  parseDuration raw := if raw = "" then none else durationFrom 0 none raw.toList
  decoders := []
  parseDuration_empty := rfl
  parseDuration_zero := by decide

end NomadDev.Settings
