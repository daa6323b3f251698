import NomadDev.ConfigLoad

namespace NomadDev.Settings

structure Label where
  (category description : String)
  dangerous : Bool
  deriving DecidableEq

structure ConfigSetting where
  envVar : String
  type : SettingType
  label : Label
  default : String
  enum : List String
  (min max : Option ℤ)
  (secret readOnly requiresRestart overridden : Bool)
  (value valueState : String)
  deriving DecidableEq

structure ConfigResponse where
  categories : List String
  settings : List ConfigSetting

variable (label : String → Label) {s : Setting}

def effectiveValue (live : Env) (s : Setting) : String :=
  if live.getenv s.envVar = "" then s.default else live.getenv s.envVar

def configSetting (live : Env) (override : Overrides) (s : Setting) : ConfigSetting where
  envVar := s.envVar
  type := s.type
  label := label s.envVar
  default := s.default
  enum := s.enum
  min := s.min
  max := s.max
  secret := s.secret
  readOnly := s.readOnly
  requiresRestart := true
  overridden := (override s.envVar).isSome
  value := if s.secret then "" else effectiveValue live s
  valueState := if s.secret then (if effectiveValue live s = "" then "unset" else "set") else ""

def addCategory (out : List String) (s : Setting) : List String :=
  if (label s.envVar).category ∈ out then out else out ++ [(label s.envVar).category]

def categories : List String := registry.foldl (addCategory label) []

def handleConfigGet (srv : Running) (files : Files) (authorized : Option ConfigError) :
    Except ConfigError ConfigResponse :=
  match authorized with
  | some err => .error err
  | none =>
    match files srv.path with
    | .error err => .error ⟨500, "config override file is unreadable: " ++ err, ""⟩
    | .ok override => .ok ⟨categories label, registry.map (configSetting label srv.live override)⟩

def secretVar (key : String) : Bool := registry.any fun s => s.secret && s.envVar == key

structure SameButSecrets (e₁ e₂ : Env) : Prop where
  other : ∀ key, secretVar key = false → e₁.getenv key = e₂.getenv key
  secret : ∀ key, secretVar key = true → (e₁.getenv key = "" ↔ e₂.getenv key = "")

inductive SameFileButSecrets : Except String Overrides → Except String Overrides → Prop
  | unreadable (err : String) : SameFileButSecrets (.error err) (.error err)
  | read {ov₁ ov₂ : Overrides} (other : ∀ key, secretVar key = false → ov₁ key = ov₂ key)
      (secret : ∀ key, secretVar key = true → (ov₁ key).map (· == "") = (ov₂ key).map (· == "")) :
      SameFileButSecrets (.ok ov₁) (.ok ov₂)

theorem secretVar_of_mem (hs : s ∈ registry) (hsecret : s.secret = true) : secretVar s.envVar = true :=
  List.any_eq_true.mpr ⟨s, hs, by simp [hsecret]⟩

theorem secret_or_not_secretVar : (registry.all fun s => s.secret || !secretVar s.envVar) = true := by decide +kernel

theorem not_secretVar_of_mem (hs : s ∈ registry) (hplain : s.secret = false) : secretVar s.envVar = false := by
  have h := List.all_eq_true.mp secret_or_not_secretVar s hs
  rw [hplain, Bool.false_or] at h
  simpa using h

section Equal

variable {e₁ e₂ : Env} {ov₁ ov₂ : Overrides} {s : Setting}

theorem effectiveValue_eq_empty_iff (h : SameButSecrets e₁ e₂) (hsecret : secretVar s.envVar = true) :
    effectiveValue e₁ s = "" ↔ effectiveValue e₂ s = "" := by
  have hempty := h.secret s.envVar hsecret
  unfold effectiveValue
  by_cases he : e₁.getenv s.envVar = ""
  · rw [if_pos he, if_pos (hempty.mp he)]
  · rw [if_neg he, if_neg (mt hempty.mpr he)]
    exact iff_of_false he (mt hempty.mpr he)

theorem configSetting_eq (henv : SameButSecrets e₁ e₂) (hov : SameFileButSecrets (.ok ov₁) (.ok ov₂))
    (hs : s ∈ registry) : configSetting label e₁ ov₁ s = configSetting label e₂ ov₂ s := by
  cases hov with
  | read other secret =>
    cases hsecret : s.secret with
    | true =>
      have hvar := secretVar_of_mem hs hsecret
      have hoverridden : (ov₁ s.envVar).isSome = (ov₂ s.envVar).isSome := by
        simpa using congrArg Option.isSome (secret s.envVar hvar)
      simp only [configSetting, hsecret, if_true, hoverridden, effectiveValue_eq_empty_iff henv hvar]
    | false =>
      have hvar := not_secretVar_of_mem hs hsecret
      simp only [configSetting, hsecret, Bool.false_eq_true, if_false, other s.envVar hvar, effectiveValue,
        henv.other s.envVar hvar]

end Equal

theorem config_response_eq {srv₁ srv₂ : Running} {files₁ files₂ : Files} (henv : SameButSecrets srv₁.live srv₂.live)
    (hfile : SameFileButSecrets (files₁ srv₁.path) (files₂ srv₂.path)) :
    handleConfigGet label srv₁ files₁ none = handleConfigGet label srv₂ files₂ none := by
  unfold handleConfigGet
  generalize files₁ srv₁.path = read₁ at hfile ⊢
  generalize files₂ srv₂.path = read₂ at hfile ⊢
  cases hfile with
  | unreadable err => rfl
  | read other secret =>
    have hsettings := List.map_congr_left (l := registry) fun s hs =>
      configSetting_eq label henv (.read other secret) hs
    simp only [hsettings]

def signedBy (value : String) (h : settable keySecret value = true) : Env where
  get key := if key = keySecret then some value else none
  settable_get := by
    intro key value' hget
    split at hget <;> cases hget
    next hkey =>
      rw [hkey]
      exact h

theorem signedBy_same {v₁ v₂ : String} (h₁ : settable keySecret v₁ = true) (h₂ : settable keySecret v₂ = true)
    (hne₁ : v₁ ≠ "") (hne₂ : v₂ ≠ "") : SameButSecrets (signedBy v₁ h₁) (signedBy v₂ h₂) := by
  have hget : ∀ {v : String} (h : settable keySecret v = true) (key : String),
      (signedBy v h).getenv key = if key = keySecret then v else "" := by
    intro v h key
    unfold Env.getenv signedBy
    dsimp only
    split <;> rfl
  refine ⟨fun key hplain => ?_, fun key _ => ?_⟩
  · have hother : key ≠ keySecret := by
      rintro rfl
      exact absurd hplain (by decide +kernel)
    rw [hget, hget, if_neg hother, if_neg hother]
  · rw [hget, hget]
    split
    · exact iff_of_false hne₁ hne₂
    · exact Iff.rfl

def apiKeyFile (value : String) : Files := fun _ => .ok fun key => if key = "NOMADDEV_OPENAI_API_KEY" then some value else none

def signedServer (value : String) (h : settable keySecret value = true) : Running :=
  ⟨signedBy value h, defaultOverridePath⟩

def unlabelled : String → Label := fun _ => ⟨"Server", "", false⟩

theorem config_response_eq_rotated :
    handleConfigGet unlabelled (signedServer "first key" (by decide)) (apiKeyFile "sk-1") none =
      handleConfigGet unlabelled (signedServer "second key" (by decide)) (apiKeyFile "sk-2") none := by
  refine config_response_eq unlabelled (signedBy_same (by decide) (by decide) (by decide) (by decide)) (.read ?_ ?_)
  · intro key hplain
    have hother : key ≠ "NOMADDEV_OPENAI_API_KEY" := by
      rintro rfl
      exact absurd hplain (by decide +kernel)
    rw [if_neg hother, if_neg hother]
  · intro key _
    split
    · rfl
    · rfl

end NomadDev.Settings
