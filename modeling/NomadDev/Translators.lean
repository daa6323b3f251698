import NomadDev.History
import NomadDev.Foundation.Base64

namespace NomadDev.Middleware

open History Foundation

inductive Json
  | null
  | bool (b : Bool)
  | num (n : ℤ)
  | str (s : String)
  | arr (items : List Json)
  | obj (fields : List (String × Json))

structure Codec (β : Type) where
  marshal : Json → β
  unmarshal : β → Option Json
  unmarshal_marshal : ∀ v, unmarshal (marshal v) = some v

structure ImageData where
  mediaType : String
  data : List UInt8
  deriving DecidableEq

variable (img : ImageData)

def ImageData.Valid : Prop := img.mediaType ≠ "" ∧ img.data ≠ []

variable {β : Type} {images : List ImageData} {text : String}

def marshalImage : Json :=
  .obj [("data", .str (Base64.encode img.data)), ("media_type", .str img.mediaType)]

variable (c : Codec β)

def mustMarshalText (text : String) : β := c.marshal (.obj [("text", .str text)])

def mustMarshalUserTurn (text : String) (images : List ImageData) : β :=
  if images = [] then c.marshal (.obj [("text", .str text)])
  else c.marshal (.obj [("images", .arr (images.map marshalImage)), ("text", .str text)])

def strField (fields : List (String × Json)) (key : String) : String :=
  match fields.lookup key with
  | some (.str s) => s
  | _ => ""

def historyImage : Json → Option ImageData
  | .obj fields =>
    let mt := strField fields "media_type"
    let data := strField fields "data"
    if mt = "" ∨ data = "" then none
    else match Base64.decode data with
      | none | some [] => none
      | some decoded => some ⟨mt, decoded⟩
  | _ => none

def extractHistoryImages (raw : List (String × Json)) : List ImageData :=
  match raw.lookup "images" with
  | some (.arr items) => items.filterMap historyImage
  | _ => []

-- The part of the loop body the three translators share: a row that does not parse or is empty is skipped.
def readTurn (parts : β) : Option (String × List ImageData) :=
  match c.unmarshal parts with
  | some (.obj raw) =>
    let text := strField raw "text"
    let imgs := extractHistoryImages raw
    if text = "" ∧ imgs = [] then none else some (text, imgs)
  | _ => none

theorem historyImage_marshalImage {img : ImageData} (h : img.Valid) : historyImage (marshalImage img) = some img := by
  have hdata : Base64.encode img.data ≠ "" := Base64.encode_ne_empty h.2
  have hmt : strField [("data", .str (Base64.encode img.data)), ("media_type", .str img.mediaType)] "media_type" =
      img.mediaType := rfl
  have hd : strField [("data", .str (Base64.encode img.data)), ("media_type", .str img.mediaType)] "data" =
      Base64.encode img.data := rfl
  simp only [historyImage, marshalImage, hmt, hd, h.1, hdata, or_self, if_false, Base64.decode_encode]
  obtain ⟨mt, data⟩ := img
  cases data with
  | nil => exact absurd rfl h.2
  | cons x xs => rfl

theorem filterMap_marshalImage (h : ∀ img ∈ images, img.Valid) :
    (images.map marshalImage).filterMap historyImage = images := by
  induction images with
  | nil => rfl
  | cons img images ih =>
    have himg := historyImage_marshalImage (h img List.mem_cons_self)
    have hrest := ih fun i hi => h i (List.mem_cons_of_mem _ hi)
    rw [List.map_cons, List.filterMap_cons_some himg, hrest]

theorem readTurn_marshal (c : Codec β) {raw : List (String × Json)} (h : strField raw "text" = text) (ht : text ≠ "") :
    readTurn c (c.marshal (.obj raw)) = some (text, extractHistoryImages raw) := by
  simp only [readTurn, c.unmarshal_marshal, h, ht, false_and, if_false]

theorem readTurn_user (c : Codec β) (ht : text ≠ "") (h : ∀ img ∈ images, img.Valid) :
    readTurn c (mustMarshalUserTurn c text images) = some (text, images) := by
  unfold mustMarshalUserTurn
  by_cases hnil : images = []
  · have htext : strField [("text", .str text)] "text" = text := rfl
    rw [if_pos hnil, readTurn_marshal c htext ht, hnil]
    rfl
  · have himgs : extractHistoryImages [("images", .arr (images.map marshalImage)), ("text", .str text)] = images :=
      filterMap_marshalImage h
    have htext : strField [("images", .arr (images.map marshalImage)), ("text", .str text)] "text" = text := rfl
    rw [if_neg hnil, readTurn_marshal c htext ht, himgs]

inductive OpenAIPart
  | text (s : String)
  | imageURL (url : String)
  deriving DecidableEq

inductive OpenAIMessage
  | system (text : String)
  | user (text : String)
  | userParts (parts : List OpenAIPart)
  | assistant (text : String)
  deriving DecidableEq

def openaiUserMessage (text : String) (images : List ImageData) : OpenAIMessage :=
  if images = [] then .user text
  else .userParts ((if text = "" then [] else [.text text]) ++
    images.map fun img => .imageURL ("data:" ++ img.mediaType ++ ";base64," ++ Base64.encode img.data))

def openaiTurnMessage (row : Role × β) : Option OpenAIMessage :=
  match readTurn c row.2, row.1 with
  | some (text, imgs), .user => some (openaiUserMessage text imgs)
  | some (text, _), .assistant => if text = "" then none else some (.assistant text)
  | _, _ => none

def openaiHistoryToMessages (systemPrompt : String) (hist : List (Turn β)) (userText : String)
    (images : List ImageData) : List OpenAIMessage :=
  (if systemPrompt = "" then [] else [.system systemPrompt]) ++
    hist.filterMap (fun t => openaiTurnMessage c t.row) ++ [openaiUserMessage userText images]

inductive AnthropicBlock
  | text (s : String)
  | image (mediaType data : String)
  deriving DecidableEq

inductive AnthropicMessage
  | user (content : List AnthropicBlock)
  | assistant (content : List AnthropicBlock)
  deriving DecidableEq

def anthropicContentBlocks (text : String) (images : List ImageData) : List AnthropicBlock :=
  (if text = "" then [] else [.text text]) ++ images.map fun img => .image img.mediaType (Base64.encode img.data)

def anthropicTurnMessage (row : Role × β) : Option AnthropicMessage :=
  match readTurn c row.2, row.1 with
  | some (text, imgs), .user => some (.user (anthropicContentBlocks text imgs))
  | some (text, _), .assistant => if text = "" then none else some (.assistant [.text text])
  | _, _ => none

def anthropicHistoryToMessages (hist : List (Turn β)) (userText : String)
    (images : List ImageData) : List AnthropicMessage :=
  hist.filterMap (fun t => anthropicTurnMessage c t.row) ++ [.user (anthropicContentBlocks userText images)]

def roleMessage {μ : Type} (user : String → List ImageData → μ) (assistant : String → μ) (c : Codec β)
    (row : Role × β) : Option μ :=
  match readTurn c row.2, row.1 with
  | some (text, imgs), .user => some (user text imgs)
  | some (text, _), .assistant => if text = "" then none else some (assistant text)
  | _, _ => none

theorem openaiTurnMessage_eq (c : Codec β) (row : Role × β) :
    openaiTurnMessage c row = roleMessage openaiUserMessage .assistant c row := rfl

theorem anthropicTurnMessage_eq (c : Codec β) (row : Role × β) : anthropicTurnMessage c row =
    roleMessage (fun text imgs => .user (anthropicContentBlocks text imgs)) (fun text => .assistant [.text text]) c row :=
  rfl

theorem roleMessage_eq_some_iff {μ : Type} {user : String → List ImageData → μ} {assistant : String → μ} {c : Codec β}
    {row : Role × β} {m : μ} : roleMessage user assistant c row = some m ↔
      ∃ text imgs, readTurn c row.2 = some (text, imgs) ∧
        (row.1 = .user ∧ user text imgs = m ∨ row.1 = .assistant ∧ text ≠ "" ∧ assistant text = m) := by
  obtain ⟨role, parts⟩ := row
  simp only [roleMessage]
  cases hread : readTurn c parts with
  | none => simp
  | some r => cases role <;> simp [Prod.ext_iff]

inductive GeminiPart
  | text (s : String)
  | inlineData (data : List UInt8) (mimeType : String)
  deriving DecidableEq

inductive GeminiRole
  | user | model
  deriving DecidableEq

structure GeminiContent where
  role : GeminiRole
  parts : List GeminiPart
  deriving DecidableEq

def geminiImage : GeminiPart := .inlineData img.data img.mediaType

def turnToContent (row : Role × β) : Option GeminiContent :=
  match readTurn c row.2 with
  | none => none
  | some (text, imgs) =>
    some ⟨if row.1 = .assistant then .model else .user,
      (if text = "" then [] else [.text text]) ++ imgs.map geminiImage⟩

def geminiUserContent (userText : String) (images : List ImageData) : GeminiContent :=
  ⟨.user, .text userText :: images.map geminiImage⟩

def historyToContents (hist : List (Turn β)) (userText : String) (images : List ImageData) : List GeminiContent :=
  hist.filterMap (fun t => turnToContent c t.row) ++ [geminiUserContent userText images]

end NomadDev.Middleware
