import NomadDev.Translators
import NomadDev.ToolPaths

namespace NomadDev.Middleware

open History Foundation Tools

variable {β σ : Type}

structure ImageInput where
  (mediaType data : String)

structure IntentPayload where
  (text mode : String)
  images : List ImageInput
  historyHint : ℤ

-- `base64Error` is the text of the decoder's error, `pinned` what the pins of the session render to.
structure IntentConfig where
  (maxImagesPerIntent maxImageBytes : ℤ)
  base64Error : String → String
  (provider model : String)
  supportsVision : Bool
  windowTurns : ℤ
  (systemPrompt pinned : String)

def allowedImageMediaTypes : List String := ["image/jpeg", "image/png", "image/gif", "image/webp"]

variable (cfg : IntentConfig)

def decodeIntentImage (i : ℕ) (img : ImageInput) : Except String ImageData :=
  let at_ := "image[" ++ toString i ++ "]: "
  if img.mediaType ∉ allowedImageMediaTypes then
    .error (at_ ++ "unsupported media_type " ++ img.mediaType.quote ++
      " (allowed: image/jpeg, image/png, image/gif, image/webp)")
  else if (img.data.utf8ByteSize : ℤ) > cfg.maxImageBytes * 2 then
    .error (at_ ++ "encoded size " ++ toString img.data.utf8ByteSize ++ " exceeds cap " ++ toString cfg.maxImageBytes)
  else match Base64.decode img.data with
    | none => .error (at_ ++ "invalid base64: " ++ cfg.base64Error img.data)
    | some raw =>
      if (raw.length : ℤ) > cfg.maxImageBytes then
        .error (at_ ++ "decoded size " ++ toString raw.length ++ " exceeds cap " ++ toString cfg.maxImageBytes)
      else if raw = [] then .error (at_ ++ "empty payload")
      else .ok ⟨img.mediaType, raw⟩

def decodeFrom (cfg : IntentConfig) : ℕ → List ImageInput → Except String (List ImageData)
  | _, [] => .ok []
  | i, img :: rest =>
    match decodeIntentImage cfg i img, decodeFrom cfg (i + 1) rest with
    | .error e, _ => .error e
    | .ok _, .error e => .error e
    | .ok d, .ok ds => .ok (d :: ds)

def decodeIntentImages (images : List ImageInput) : Except String (List ImageData) :=
  if images = [] then .ok []
  else if cfg.maxImagesPerIntent ≤ 0 ∨ cfg.maxImageBytes ≤ 0 then
    .error "image attachments are disabled (NOMADDEV_USER_INTENT_MAX_IMAGES or _MAX_IMAGE_BYTES is 0)"
  else if (images.length : ℤ) > cfg.maxImagesPerIntent then
    .error ("too many image attachments: got " ++ toString images.length ++ ", max " ++ toString cfg.maxImagesPerIntent)
  else decodeFrom cfg 0 images

def SameImage (input : ImageInput) (img : ImageData) : Prop :=
  img.mediaType = input.mediaType ∧ Base64.decode input.data = some img.data

section Decoded

variable {cfg : IntentConfig} {images : List ImageInput} {ds : List ImageData}

theorem decodeIntentImage_ok {i : ℕ} {img : ImageInput} {d : ImageData} (h : decodeIntentImage cfg i img = .ok d) :
    SameImage img d ∧ d.Valid := by
  simp only [decodeIntentImage] at h
  split at h
  · cases h
  next hmt =>
  split at h
  · cases h
  split at h
  · cases h
  next raw hdecode =>
  split at h
  · cases h
  split at h
  · cases h
  next hraw =>
  cases h
  refine ⟨⟨rfl, hdecode⟩, ?_, hraw⟩
  intro (hempty : img.mediaType = "")
  rw [hempty] at hmt
  exact hmt (by decide)

theorem decodeFrom_ok {i : ℕ} (h : decodeFrom cfg i images = .ok ds) :
    List.Forall₂ SameImage images ds ∧ ∀ d ∈ ds, d.Valid := by
  induction images generalizing i ds with
  | nil =>
    cases h
    exact ⟨.nil, by simp⟩
  | cons img rest ih =>
    simp only [decodeFrom] at h
    split at h <;> cases h
    next d ds' hd hds =>
      obtain ⟨hsame, hvalid⟩ := decodeIntentImage_ok hd
      exact ⟨.cons hsame (ih hds).1, List.forall_mem_cons.mpr ⟨hvalid, (ih hds).2⟩⟩

theorem decodeIntentImages_ok (h : decodeIntentImages cfg images = .ok ds) :
    List.Forall₂ SameImage images ds ∧ ∀ d ∈ ds, d.Valid := by
  unfold decodeIntentImages at h
  split at h
  next hnil =>
    cases h
    rw [hnil]
    exact ⟨.nil, by simp⟩
  split at h
  · cases h
  split at h
  · cases h
  exact decodeFrom_ok h

theorem decodeIntentImages_valid (h : decodeIntentImages cfg images = .ok ds) : ∀ d ∈ ds, d.Valid :=
  (decodeIntentImages_ok h).2

end Decoded

structure Intent where
  text : String
  mode : Mode
  images : List ImageData
  historyHint : ℤ
  text_ne : text ≠ ""
  images_valid : ∀ img ∈ images, img.Valid

def parseMode (mode : String) : Option Mode :=
  if mode = "" then some .normal else if mode = "audit" then some .audit else none

def handleUserIntent (cfg : Option IntentConfig) (payload : Except String IntentPayload) : Except Refusal Intent :=
  match cfg, payload with
  | none, _ => .error ⟨"not_implemented", "middleware not configured"⟩
  | some _, .error err => .error ⟨"bad_envelope", err⟩
  | some cfg, .ok p =>
    if ht : p.text = "" then .error ⟨"bad_envelope", "missing text"⟩
    else match parseMode p.mode with
      | none => .error ⟨"bad_envelope", "unsupported mode: " ++ p.mode⟩
      | some mode =>
        match hi : decodeIntentImages cfg p.images with
        | .error err => .error ⟨"bad_envelope", err⟩
        | .ok images =>
          if images ≠ [] ∧ cfg.supportsVision = false then
            .error ⟨"bad_envelope", "model " ++ cfg.provider ++ "/" ++ cfg.model ++
              " does not support image inputs; switch the runtime to a vision-capable model " ++
              "(e.g. deepseek-vl2 for DeepSeek, gpt-4o-mini for OpenAI)"⟩
          else .ok ⟨p.text, mode, images, p.historyHint, ht, decodeIntentImages_valid hi⟩

def auditInstruction : String :=
  "Audit mode: the tool catalogue has been restricted to read-only operations. " ++
  "Do not attempt to mutate the workspace, the host, or remote services. " ++
  "Use read_file, list_dir, search_syntax, and read-only github tools to analyze " ++
  "the codebase, and reply with a markdown report."

def appendAuditInstruction (base : String) : String :=
  if base = "" then auditInstruction else base ++ "\n\n" ++ auditInstruction

structure TurnInput (β : Type) where
  userText : String
  history : List (Turn β)
  systemPrompt : String
  images : List ImageData

def windowN (p : Intent) : ℤ := if p.historyHint > 0 then p.historyHint else cfg.windowTurns

def systemPromptFor (p : Intent) : String :=
  match p.mode with
  | .normal => cfg.pinned ++ cfg.systemPrompt
  | .audit => appendAuditInstruction (cfg.pinned ++ cfg.systemPrompt)

def openTurn (b : Backend σ β) (c : Codec β) (cfg : IntentConfig) (sid : String) (p : Intent) (s : σ)
    (others : List (Turn β)) : Except String (TurnInput β × σ) :=
  match b.append s ⟨sid, 0, .user, mustMarshalUserTurn c p.text p.images⟩ with
  | .error err => .error err
  | .ok (s', _) =>
    let loaded := b.appendAll s' others
    .ok (⟨p.text, b.loadWindow loaded sid (windowN cfg p), systemPromptFor cfg p, p.images⟩, loaded)

section Opened

variable {b : Backend σ β} {c : Codec β} {cfg : IntentConfig} {sid : String} {p : Intent} {s s' : σ}
  {others : List (Turn β)} {turn : TurnInput β}

theorem openTurn_thread (h : openTurn b c cfg sid p s others = .ok (turn, s')) :
    turn = ⟨p.text, b.loadWindow s' sid (windowN cfg p), systemPromptFor cfg p, p.images⟩ ∧
      b.thread s' sid = b.thread s sid ++
        (Role.user, mustMarshalUserTurn c p.text p.images) :: (others.filter fun t => t.sid == sid).map Turn.row := by
  unfold openTurn at h
  by_cases hsid : sid = ""
  · rw [b.append_invalid s _ hsid] at h
    cases h
  obtain ⟨s₁, idx, happ, hthread⟩ := b.append_ok s ⟨sid, 0, .user, mustMarshalUserTurn c p.text p.images⟩ hsid
  rw [happ] at h
  cases h
  refine ⟨rfl, ?_⟩
  rw [b.thread_appendAll _ _ hsid, hthread, if_pos rfl, List.append_assoc]
  rfl

theorem openTurn_window (hn : 0 < windowN cfg p) (h : openTurn b c cfg sid p s others = .ok (turn, s')) :
    turn.userText = p.text ∧ turn.images = p.images ∧
      turn.history.map Turn.row = lastN (windowN cfg p).toNat (b.thread s sid ++
        (Role.user, mustMarshalUserTurn c p.text p.images) :: (others.filter fun t => t.sid == sid).map Turn.row) := by
  obtain ⟨rfl, hthread⟩ := openTurn_thread h
  exact ⟨rfl, rfl, by rw [b.window _ sid _ hn, hthread]⟩

end Opened

end NomadDev.Middleware
