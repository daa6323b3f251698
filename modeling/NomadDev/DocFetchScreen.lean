import NomadDev.WorkerScope
import NomadDev.Foundation.Percent
import Mathlib.Data.List.DropRight

namespace NomadDev.DocFetch

open Fsops Foundation.Pattern Foundation.Percent
open WorkerPool (trimSpace)

structure URL where
  scheme : String
  user : Option Bytes
  (host path rawPath rawQuery fragment : Bytes)
  deriving DecidableEq

variable (c : UInt8)

def isDigit : Bool := 48 ≤ c && c ≤ 57
def isUpper : Bool := 65 ≤ c && c ≤ 90
def isLower : Bool := 97 ≤ c && c ≤ 122
def isAlnum : Bool := isDigit c || isUpper c || isLower c

def URL.hostname (u : URL) : Bytes :=
  let bare := u.host.rdropWhile isDigit
  let h := if bare.getLast? = some 58 then bare.dropLast else u.host
  if h.head? = some 91 ∧ h.getLast? = some 93 then h.tail.dropLast else h

def trimWildcard (d : Bytes) : Bytes := if d.take 2 = [42, 46] then d.drop 2 else d
def trimDot (d : Bytes) : Bytes := if d.getLast? = some 46 then d.dropLast else d

abbrev Values : Type := List (Bytes × List Bytes)

/-- What the libraries do: `strings.ToLower`, the entropy test, the order in which a map is walked. -/
structure Env where
  lower : Bytes → Bytes
  lower_lower : ∀ s, lower (lower s) = lower s
  lower_trimDot : ∀ s, lower (trimDot s) = trimDot (lower s)
  lower_trimWildcard : ∀ s, lower (trimWildcard s) = trimWildcard (lower s)
  entropic : Bytes → Bool
  walk : Values → Values
  walk_perm : ∀ m, (walk m).Perm m

theorem lowerByte_facts (c : UInt8) : WorkerPool.lowerByte (WorkerPool.lowerByte c) = WorkerPool.lowerByte c ∧
    (WorkerPool.lowerByte c = 46 ↔ c = 46) ∧ (WorkerPool.lowerByte c = 42 ↔ c = 42) := by
  have hall : ∀ n < 256, ∀ d, d = UInt8.ofNat n → WorkerPool.lowerByte (WorkerPool.lowerByte d) = WorkerPool.lowerByte d ∧
      (WorkerPool.lowerByte d = 46 ↔ d = 46) ∧ (WorkerPool.lowerByte d = 42 ↔ d = 42) := by
    simp only [forall_eq]
    decide +kernel
  exact hall c.toNat c.toNat_lt c UInt8.ofNat_toNat.symm

def asciiEnv : Env where
  lower s := s.map WorkerPool.lowerByte
  lower_lower s := by simp [lowerByte_facts]
  lower_trimDot s := by
    unfold trimDot
    rw [List.getLast?_map]
    cases hlast : s.getLast? with
    | none => rfl
    | some c => by_cases hc : c = 46 <;> simp [hc, lowerByte_facts, List.map_dropLast]
  lower_trimWildcard s := by
    rcases s with - | ⟨a, - | ⟨b, s⟩⟩
    · rfl
    · simp [trimWildcard]
    · by_cases hs : a = 42 ∧ b = 46 <;> simp [trimWildcard, hs, lowerByte_facts]
  entropic _ := true
  walk m := m
  walk_perm := List.Perm.refl

def keptInPath (c : UInt8) : Bool := isAlnum c || (utf8 "-_.~$&+,/:;=@").contains c

def validEncoded (s : Bytes) : Bool := s.all fun c => (utf8 "!$&'()*+,;=:@[]%").contains c || keptInPath c

def URL.escapedPath (u : URL) : Bytes :=
  if u.rawPath ≠ [] ∧ validEncoded u.rawPath ∧ wellFormed u.rawPath ∧ decode u.rawPath = u.path then u.rawPath
  else if u.path = [42] then u.path
  else encode keptInPath u.path

theorem decode_escapedPath (u : URL) : decode u.escapedPath = u.path := by
  unfold URL.escapedPath
  split
  next h => exact h.2.2.2
  · split
    next h => rw [h]; rfl
    · exact decode_encode (by decide) u.path

def queryUnescape (s : Bytes) : Option Bytes := if wellFormed s then some (decode (s.map plusToSpace)) else none

def key (pair : Bytes) : Bytes := pair.takeWhile (· != 61)
def value (pair : Bytes) : Bytes := (pair.dropWhile (· != 61)).tail

def readPair (pair : Bytes) : Option (Bytes × Bytes) :=
  if pair.contains 59 || pair.isEmpty then none
  else (queryUnescape (key pair)).bind fun k => (queryUnescape (value pair)).map fun v => (k, v)

def addValue (m : Values) (kv : Bytes × Bytes) : Values :=
  if m.any fun e => e.1 == kv.1 then m.map fun e => if e.1 = kv.1 then (e.1, e.2 ++ [kv.2]) else e
  else m ++ [(kv.1, [kv.2])]

def URL.pairs (u : URL) : List Bytes := u.rawQuery.splitOn 38

def URL.query (u : URL) : Values := (u.pairs.filterMap readPair).foldl addValue []

def lit (s : String) : List (Piece UInt8) := (utf8 s).map fun c => .one (· == c)
def oneOf (s : String) : List (Piece UInt8) := [.one (utf8 s).contains]
def times (n : ℕ) (cls : UInt8 → Bool) : List (Piece UInt8) := List.replicate n (.one cls)
def atLeast (n : ℕ) (cls : UInt8 → Bool) : List (Piece UInt8) := times n cls ++ [.star cls]

def wordOr (s : String) (c : UInt8) : Bool := isAlnum c || (utf8 s).contains c

def secretPatterns : List (List (Piece UInt8)) :=
  [lit "A" ++ oneOf "KS" ++ lit "IA" ++ times 16 (fun c => isDigit c || isUpper c),
    lit "gh" ++ oneOf "pousr" ++ lit "_" ++ atLeast 36 isAlnum,
    lit "github_pat_" ++ atLeast 40 (wordOr "_"),
    lit "AIza" ++ times 35 (wordOr "_-"),
    lit "xox" ++ oneOf "baprs" ++ lit "-" ++ atLeast 10 (wordOr "-"),
    lit "sk-" ++ atLeast 32 isAlnum,
    lit "eyJ" ++ atLeast 10 (wordOr "_-") ++ lit ".eyJ" ++ atLeast 10 (wordOr "_-") ++ lit "." ++
      atLeast 10 (wordOr "._-"),
    lit "-----BEGIN " ++ [.star fun c => isUpper c || c == 32] ++ lit "PRIVATE KEY-----"]

def sensitiveParamNames : List String :=
  ["api_key", "apikey", "api-key", "key", "access_token", "accesstoken", "auth_token", "auth", "token", "secret",
    "client_secret", "password", "passwd", "pwd", "credential", "credentials", "private_key"]

section Screen

variable (env : Env)

def normalizeDomain (d : Bytes) : Bytes := trimDot (trimWildcard (env.lower (trimSpace d)))

def hostAllowed (host : Bytes) (allowed : List Bytes) : Bool :=
  allowed.any fun d =>
    normalizeDomain env d ≠ [] ∧ (host = normalizeDomain env d ∨ 46 :: normalizeDomain env d <:+ host)

def isTokenCharset (s : Bytes) : Bool := s.all fun c => isAlnum c || (utf8 "+/=-_.").contains c

def looksLikeSecretToken (s : Bytes) : Bool :=
  40 ≤ s.length && isTokenCharset s && 100 * s.countP (utf8 "-_.").contains < 8 * s.length && env.entropic s

def decodedSurface (u : URL) : Bytes :=
  u.hostname ++ 10 :: u.path ++ 10 :: (env.walk u.query).flatMap (fun e => e.1 ++ e.2.flatMap fun v => 61 :: v ++ [10]) ++
    u.fragment

inductive FetchErr
  | badScheme
  | noHost
  | domainNotAllowed (host : Bytes)
  | userinfo
  | secretFormat
  | namedParam (name : Bytes)
  | pathToken
  | queryToken
  | fragmentToken
  | tooManyRedirects

def credentialShaped (e : Bytes × List Bytes) : Bool :=
  (sensitiveParamNames.map utf8).contains (env.lower e.1) && e.2.any fun v => 8 ≤ v.length

def screenURL (u : URL) (allowed : List Bytes) : Except FetchErr Unit :=
  let host := env.lower (trimDot u.hostname)
  if allowed ≠ [] then
    if hostAllowed env host allowed then .ok () else .error (.domainNotAllowed host)
  else if u.user.isSome then .error .userinfo
  else if secretPatterns.any fun p => search p (decodedSurface env u) then .error .secretFormat
  else match (env.walk u.query).find? (credentialShaped env) with
    | some e => .error (.namedParam e.1)
    | none =>
      if (u.path.splitOn 47).any (looksLikeSecretToken env) then .error .pathToken
      else if u.query.any fun e => e.2.any (looksLikeSecretToken env) then .error .queryToken
      else if looksLikeSecretToken env u.fragment then .error .fragmentToken
      else .ok ()

def isHTTPScheme (scheme : String) : Bool :=
  let lowered := scheme.toList.map Char.toLower
  lowered == "http".toList || lowered == "https".toList

def maxRedirects : ℕ := 5

def checkRedirect (allowed : List Bytes) (next : URL) (via : List URL) : Except FetchErr Unit :=
  if maxRedirects ≤ via.length then .error .tooManyRedirects
  else if !isHTTPScheme next.scheme then .error .badScheme
  else if allowed ≠ [] ∧ !hostAllowed env (env.lower next.hostname) allowed then
    .error (.domainNotAllowed next.hostname)
  else .ok ()

def follow (allowed : List Bytes) : List URL → List URL → List URL × Option FetchErr
  | via, [] => (via, none)
  | via, next :: answers =>
    match checkRedirect env allowed next via with
    | .error e => (via, some e)
    | .ok () => follow allowed (via ++ [next]) answers

def fetch (allowed : List Bytes) (u : URL) (answers : List URL) : List URL × Option FetchErr :=
  if !isHTTPScheme u.scheme then ([], some .badScheme)
  else if u.host = [] then ([], some .noHost)
  else match screenURL env u allowed with
    | .error e => ([], some e)
    | .ok () => follow env allowed [u] answers

end Screen

section Runs

variable {env : Env} {allowed : List Bytes} {u v : URL} {via answers : List URL}

theorem fetch_cases (env : Env) (allowed : List Bytes) (u : URL) (answers : List URL) :
    (fetch env allowed u answers).1 = [] ∨
      screenURL env u allowed = .ok () ∧ fetch env allowed u answers = follow env allowed [u] answers := by
  unfold fetch
  split
  · exact Or.inl rfl
  split
  · exact Or.inl rfl
  cases hscreen : screenURL env u allowed with
  | error e => exact Or.inl rfl
  | ok _ => exact Or.inr ⟨rfl, rfl⟩

end Runs

end NomadDev.DocFetch
