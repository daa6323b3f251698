import NomadDev.RequestImages
import NomadDev.Foundation.Transition

namespace NomadDev.ModelChoice

open History Middleware Foundation.Transition Function

variable {β σ : Type}

def textOnlyModels : List String := ["openai/o3-mini", "deepseek/deepseek-chat", "deepseek/deepseek-reasoner"]

def supportsVision (provider model : String) : Bool :=
  if provider = "" ∨ model = "" then true else !textOnlyModels.contains (provider ++ "/" ++ model)

def knownModels (provider : String) : List String :=
  if provider = "openai" then ["gpt-4o", "gpt-4o-mini", "o3-mini"]
  else if provider = "anthropic" then
    ["claude-3-5-haiku-latest", "claude-3-5-sonnet-latest", "claude-opus-4-5", "claude-sonnet-4-5"]
  else if provider = "gemini" then ["gemini-1.5-flash", "gemini-1.5-pro", "gemini-2.0-flash"]
  else if provider = "deepseek" then ["deepseek-chat", "deepseek-coder"]
  else []

def isKnownModel (provider model : String) : Bool :=
  if provider = "" ∨ model = "" then false else (knownModels provider).contains model

-- DeepSeek is served by the OpenAI translator; the mock one sends nothing.
def translatorOf (runtime : String) : Option Provider :=
  if runtime = "openai" ∨ runtime = "deepseek" then some .openai
  else if runtime = "anthropic" then some .anthropic
  else if runtime = "gemini" then some .gemini
  else none

structure Service (σ β : Type) where
  backend : Backend σ β
  codec : Codec β
  reset : σ → String → Except String σ
  cfg : IntentConfig
  maxConcurrent : ℤ
  vision : cfg.supportsVision = supportsVision cfg.provider cfg.model

structure Ack where
  (action error message model : String)

variable (m : Service σ β)

def handleSetModel (sid model : String) (overrides : String → Option String) : Ack × (String → Option String) :=
  if m.cfg.provider = "" ∨ m.cfg.provider = "mock" then
    (⟨"set_model", "not_implemented", "model switching unsupported by this runtime", ""⟩, overrides)
  else if model = "" then (⟨"set_model", "bad_envelope", "missing model", ""⟩, overrides)
  else if isKnownModel m.cfg.provider model = false then
    (⟨"set_model", "bad_envelope", "unknown model " ++ model ++ " for provider " ++ m.cfg.provider, ""⟩, overrides)
  else (⟨"set_model", "", "model selection updated", model⟩, update overrides sid (some model))

def effectiveModel (overrides : String → Option String) (sid : String) : String :=
  match overrides sid with
  | some model => if model = "" then m.cfg.model else model
  | none => m.cfg.model

inductive Phase
  | accepted | stored | streaming
  deriving DecidableEq

structure Underway where
  sid : String
  intent : Intent
  dispatched : String
  phase : Phase

inductive Consumer (β : Type)
  | visionGate
  | translator (turn : TurnInput β)
  | pricing

structure Use (β : Type) where
  dispatched : String
  consumer : Consumer β
  model : String

structure State (σ β : Type) where
  overrides : String → Option String
  store : σ
  turns : List Underway
  uses : List (Use β)

def initial (store : σ) : State σ β := ⟨fun _ => none, store, [], []⟩

def resetHistory (s : State σ β) (sid : String) : Ack × State σ β :=
  match m.reset s.store sid with
  | .error err => (⟨"reset_history", "internal", err, ""⟩, s)
  | .ok store =>
    (⟨"reset_history", "", "history cleared", ""⟩, { s with store := store, overrides := update s.overrides sid none })

def acceptedIntent (s : State σ β) (payload : Except String IntentPayload) : Option Intent :=
  match handleUserIntent (some m.cfg) payload with
  | .error _ => none
  | .ok p => if 0 < m.maxConcurrent ∧ m.maxConcurrent ≤ s.turns.length then none else some p

def gateUses (s : State σ β) (sid : String) (p : Intent) : List (Use β) :=
  if p.images = [] then [] else [⟨effectiveModel m s.overrides sid, .visionGate, m.cfg.model⟩]

def turnInput (s : State σ β) (t : Underway) : TurnInput β :=
  ⟨t.intent.text, m.backend.loadWindow s.store t.sid (windowN m.cfg t.intent), systemPromptFor m.cfg t.intent,
    t.intent.images⟩

def appendUser (s : State σ β) (i : ℕ) (t : Underway) : State σ β :=
  match m.backend.append s.store ⟨t.sid, 0, .user, mustMarshalUserTurn m.codec t.intent.text t.intent.images⟩ with
  | .error _ => { s with turns := s.turns.eraseIdx i }
  | .ok (store, _) => { s with store := store, turns := s.turns.set i { t with phase := .stored } }

def openStream (s : State σ β) (i : ℕ) (t : Underway) : State σ β :=
  { s with
    turns := s.turns.set i { t with phase := .streaming }
    uses := s.uses ++ [⟨t.dispatched, .translator (turnInput m s t), effectiveModel m s.overrides t.sid⟩] }

inductive Act (β : Type)
  | setModel (sid model : String)
  | reset (sid : String)
  | intent (sid : String) (payload : Except String IntentPayload)
  | append (i : ℕ)
  | stream (i : ℕ)
  | price (i : ℕ)
  | write (t : Turn β)
  | finish (i : ℕ)

def step (s : State σ β) : Act β → Option (State σ β)
  | .setModel sid model => some { s with overrides := (handleSetModel m sid model s.overrides).2 }
  | .reset sid => some (resetHistory m s sid).2
  | .intent sid payload =>
    match acceptedIntent m s payload with
    | none => some s
    | some p => some { s with
        turns := s.turns ++ [⟨sid, p, effectiveModel m s.overrides sid, .accepted⟩]
        uses := s.uses ++ gateUses m s sid p }
  | .append i =>
    match s.turns[i]? with
    | none => none
    | some t => if t.phase = .accepted then some (appendUser m s i t) else none
  | .stream i =>
    match s.turns[i]? with
    | none => none
    | some t => if t.phase = .stored then some (openStream m s i t) else none
  | .price i =>
    match s.turns[i]? with
    | none => none
    | some t =>
      if t.phase = .streaming then some { s with uses := s.uses ++ [⟨t.dispatched, .pricing, m.cfg.model⟩] } else none
  | .write t =>
    match m.backend.append s.store t with
    | .error _ => some s
    | .ok (store, _) => some { s with store := store }
  | .finish i => if i < s.turns.length then some { s with turns := s.turns.eraseIdx i } else none

def Use.Consistent (u : Use β) : Prop :=
  u.model = u.dispatched ∧ ∀ turn provider, u.consumer = .translator turn →
    translatorOf m.cfg.provider = some provider → sendsImage provider m.codec turn = true →
    supportsVision m.cfg.provider u.model = true

def Consistent (m : Service σ β) (s : State σ β) : Prop := ∀ u ∈ s.uses, u.Consistent m

def Imageless (turn : TurnInput β) : Prop :=
  ∀ provider, translatorOf m.cfg.provider = some provider →
    turn.images = [] ∧ ∀ t ∈ turn.history, rowImages provider m.codec t = []

def InStep (s : State σ β) : Act β → Prop
  | .intent sid payload => ∀ p, acceptedIntent m s payload = some p → p.images ≠ [] →
      effectiveModel m s.overrides sid = m.cfg.model
  | .stream i => ∀ t, s.turns[i]? = some t → effectiveModel m s.overrides t.sid = t.dispatched ∧
      (supportsVision m.cfg.provider t.dispatched = true ∨ Imageless m (turnInput m s t))
  | .price i => ∀ t, s.turns[i]? = some t → m.cfg.model = t.dispatched
  | _ => True

variable {m : Service σ β} {s s' : State σ β} {a : Act β}

theorem gateUses_consistent (m : Service σ β) (s : State σ β) (sid : String) (p : Intent) :
    (∀ u ∈ gateUses m s sid p, u.Consistent m) ↔
      (p.images ≠ [] → effectiveModel m s.overrides sid = m.cfg.model) := by
  unfold gateUses
  split
  · next h => simp [h]
  next h =>
  rw [List.forall_mem_singleton]
  constructor
  · rintro ⟨hmodel, -⟩ -
    exact hmodel.symm
  · intro hmodel
    refine ⟨(hmodel h).symm, ?_⟩
    nofun

theorem translator_consistent (m : Service σ β) (dispatched model : String) (turn : TurnInput β) :
    Use.Consistent m ⟨dispatched, .translator turn, model⟩ ↔
      model = dispatched ∧ (supportsVision m.cfg.provider dispatched = true ∨ Imageless m turn) := by
  apply and_congr_right
  intro (hmodel : model = dispatched)
  subst hmodel
  constructor
  · intro h
    by_cases hvision : supportsVision m.cfg.provider model = true
    · exact .inl hvision
    right
    intro provider hp
    apply (sendsImage_eq_false_iff provider m.codec turn).mp
    exact Bool.eq_false_iff.mpr fun hsends => hvision (h turn provider rfl hp hsends)
  · rintro (hvision | himageless) turn' provider hconsumer hp hsends
    · exact hvision
    · cases hconsumer
      rw [(sendsImage_eq_false_iff provider m.codec turn).mpr (himageless provider hp)] at hsends
      cases hsends

theorem pricing_consistent (m : Service σ β) (dispatched model : String) :
    Use.Consistent m ⟨dispatched, .pricing, model⟩ ↔ model = dispatched := by
  refine and_iff_left ?_
  nofun

theorem consistent_append {us : List (Use β)} (h : s'.uses = s.uses ++ us) :
    Consistent m s' ↔ Consistent m s ∧ ∀ u ∈ us, u.Consistent m := by
  unfold Consistent
  rw [h, List.forall_mem_append]

theorem consistent_of_uses (h : s'.uses = s.uses) : Consistent m s' ↔ Consistent m s ∧ True := by
  unfold Consistent
  rw [h, and_true]

theorem uses_resetHistory (m : Service σ β) (s : State σ β) (sid : String) :
    (resetHistory m s sid).2.uses = s.uses := by
  unfold resetHistory
  split <;> rfl

theorem uses_appendUser (m : Service σ β) (s : State σ β) (i : ℕ) (t : Underway) :
    (appendUser m s i t).uses = s.uses := by
  unfold appendUser
  split <;> rfl

inductive Effect (m : Service σ β) (s : State σ β) : Act β → State σ β → Prop
  | setModel (sid model : String) :
      Effect m s (.setModel sid model) { s with overrides := (handleSetModel m sid model s.overrides).2 }
  | reset (sid : String) : Effect m s (.reset sid) (resetHistory m s sid).2
  | refused {sid : String} {payload : Except String IntentPayload} (h : acceptedIntent m s payload = none) :
      Effect m s (.intent sid payload) s
  | accepted {sid : String} {payload : Except String IntentPayload} {p : Intent}
      (h : acceptedIntent m s payload = some p) :
      Effect m s (.intent sid payload) { s with
        turns := s.turns ++ [⟨sid, p, effectiveModel m s.overrides sid, .accepted⟩]
        uses := s.uses ++ gateUses m s sid p }
  | append {i : ℕ} {t : Underway} (ht : s.turns[i]? = some t) (hphase : t.phase = .accepted) :
      Effect m s (.append i) (appendUser m s i t)
  | stream {i : ℕ} {t : Underway} (ht : s.turns[i]? = some t) (hphase : t.phase = .stored) :
      Effect m s (.stream i) (openStream m s i t)
  | price {i : ℕ} {t : Underway} (ht : s.turns[i]? = some t) (hphase : t.phase = .streaming) :
      Effect m s (.price i) { s with uses := s.uses ++ [⟨t.dispatched, .pricing, m.cfg.model⟩] }
  | write (t : Turn β) (store : σ) : Effect m s (.write t) { s with store := store }
  | finish {i : ℕ} (hi : i < s.turns.length) : Effect m s (.finish i) { s with turns := s.turns.eraseIdx i }

theorem effect_of_step (h : step m s a = some s') : Effect m s a s' := by
  cases a with simp only [step] at h
  | setModel sid model =>
    cases h
    exact .setModel sid model
  | reset sid =>
    cases h
    exact .reset sid
  | intent sid payload =>
    split at h <;> cases h
    next hp => exact .refused hp
    next hp => exact .accepted hp
  | append i | stream i | price i =>
    split at h
    · cases h
    next t ht =>
    split at h <;> cases h
    next hphase => constructor <;> assumption
  | write t =>
    split at h <;> cases h
    · exact .write t s.store
    · exact .write t _
  | finish i =>
    split at h <;> cases h
    next hi => exact .finish hi

theorem consistent_step (h : step m s a = some s') : Consistent m s' ↔ Consistent m s ∧ InStep m s a := by
  cases effect_of_step h with
  | setModel | write | finish => exact consistent_of_uses rfl
  | reset sid => exact consistent_of_uses (uses_resetHistory m s sid)
  | refused hp => simp [InStep, hp]
  | accepted hp =>
    rw [consistent_append rfl, gateUses_consistent]
    simp [InStep, hp]
  | append ht => exact consistent_of_uses (uses_appendUser m s _ _)
  | stream ht =>
    rw [consistent_append rfl, List.forall_mem_singleton, translator_consistent]
    simp [InStep, ht]
  | price ht =>
    rw [consistent_append rfl, List.forall_mem_singleton, pricing_consistent]
    simp [InStep, ht]

theorem models_consistent_iff {m : Service σ β} {store : σ} {as : List (Act β)} {s : State σ β}
    (h : run (step m) (initial store) as = some s) :
    Consistent m s ↔ Steps (step m) (InStep m) (initial store) as s := by
  apply iff_steps_of_run (fun _ _ _ => consistent_step) h
  nofun

def openaiConfig : IntentConfig where
  maxImagesPerIntent := 4
  maxImageBytes := 1024
  base64Error := fun _ => ""
  provider := "openai"
  model := "gpt-4o-mini"
  supportsVision := true
  windowTurns := 20
  systemPrompt := ""
  pinned := ""

def openaiService : Service (MemoryStore Json) Json :=
  ⟨memoryBackend Json, treeCodec, fun store sid => .ok (store.reset sid), openaiConfig, 4, by decide⟩

def plainTurn : List (Act Json) :=
  [.setModel "s" "gpt-4o-mini", .intent "s" (.ok ⟨"hello", "", [], 0⟩), .append 0, .stream 0, .price 0]

theorem models_consistent_iff_plain : ∃ s, run (step openaiService) (initial ⟨fun _ => []⟩) plainTurn = some s ∧
    Consistent openaiService s := by
  have hrun : run (step openaiService) (initial ⟨fun _ => []⟩) plainTurn = some _ := rfl
  refine ⟨_, hrun, (models_consistent_iff hrun).mpr ?_⟩
  have hstream : ∀ (s : State (MemoryStore Json) Json) (t : Underway), s.turns = [t] →
      effectiveModel openaiService s.overrides t.sid = t.dispatched → t.dispatched = "gpt-4o-mini" →
      InStep openaiService s (.stream 0) := by
    intro s t hturns hmodel hdefault u hu
    rw [hturns] at hu
    cases hu
    refine ⟨hmodel, .inl ?_⟩
    rw [hdefault]
    decide
  refine .cons trivial rfl (.cons (fun _ _ _ => rfl) rfl (.cons trivial rfl (.cons (hstream _ _ rfl rfl rfl) rfl ?_)))
  refine .cons ?_ rfl (.nil _)
  intro t ht
  cases ht
  rfl

def pictureTurn : List (Act Json) :=
  [.setModel "s" "o3-mini", .intent "s" (.ok ⟨"look", "", [⟨"image/png", "AA=="⟩], 0⟩), .append 0, .stream 0, .price 0]

theorem picture_sent_to_text_only : ∃ s, run (step openaiService) (initial ⟨fun _ => []⟩) pictureTurn = some s ∧
    ¬ Consistent openaiService s ∧ ∃ u ∈ s.uses, ∃ turn, u.consumer = .translator turn ∧
      sendsImage .openai treeCodec turn = true ∧ supportsVision "openai" u.model = false := by
  refine ⟨_, rfl, ?_, ?_⟩
  · intro h
    have hgate := (h ⟨"o3-mini", .visionGate, "gpt-4o-mini"⟩ List.mem_cons_self).1
    exact absurd hgate (by decide)
  · exact ⟨_, List.mem_cons_of_mem _ List.mem_cons_self, _, rfl, by decide, by decide⟩

end NomadDev.ModelChoice
