import NomadDev.FirstRequest

namespace NomadDev.Middleware

open History

variable {β μ : Type} {provider : Provider}

def OpenAIPart.isImage : OpenAIPart → Bool
  | .text _ => false
  | .imageURL _ => true

def OpenAIMessage.hasImage : OpenAIMessage → Bool
  | .userParts parts => parts.any OpenAIPart.isImage
  | _ => false

def AnthropicBlock.isImage : AnthropicBlock → Bool
  | .text _ => false
  | .image _ _ => true

def AnthropicMessage.hasImage : AnthropicMessage → Bool
  | .user content => content.any AnthropicBlock.isImage
  | .assistant content => content.any AnthropicBlock.isImage

def GeminiPart.isImage : GeminiPart → Bool
  | .text _ => false
  | .inlineData _ _ => true

def GeminiContent.hasImage (content : GeminiContent) : Bool := content.parts.any GeminiPart.isImage

def sendsImage (provider : Provider) (c : Codec β) (turn : TurnInput β) : Bool :=
  match provider with
  | .openai => (openaiHistoryToMessages c turn.systemPrompt turn.history turn.userText turn.images).any
      OpenAIMessage.hasImage
  | .anthropic => (anthropicHistoryToMessages c turn.history turn.userText turn.images).any AnthropicMessage.hasImage
  | .gemini => (historyToContents c turn.history turn.userText turn.images).any GeminiContent.hasImage

def rowImages (provider : Provider) (c : Codec β) (t : Turn β) : List ImageData :=
  match readTurn c t.parts with
  | none => []
  | some (_, imgs) => if t.role = .user ∨ provider = .gemini then imgs else []

theorem openaiUserMessage_hasImage (text : String) (images : List ImageData) :
    (openaiUserMessage text images).hasImage = false ↔ images = [] := by
  unfold openaiUserMessage
  split
  · next h => simp [OpenAIMessage.hasImage, h]
  next h =>
  cases images with
  | nil => exact absurd rfl h
  | cons img rest => simp [OpenAIMessage.hasImage, OpenAIPart.isImage]

theorem anthropicContentBlocks_hasImage (text : String) (images : List ImageData) :
    (AnthropicMessage.user (anthropicContentBlocks text images)).hasImage = false ↔ images = [] := by
  simp only [AnthropicMessage.hasImage, anthropicContentBlocks]
  cases images with
  | nil => split <;> simp [AnthropicBlock.isImage]
  | cons img rest => simp [AnthropicBlock.isImage]

theorem geminiImages_hasImage (role : GeminiRole) {text : List GeminiPart} (images : List ImageData)
    (h : text.any GeminiPart.isImage = false) :
    GeminiContent.hasImage ⟨role, text ++ images.map geminiImage⟩ = false ↔ images = [] := by
  unfold GeminiContent.hasImage
  cases images with
  | nil => simp [h]
  | cons img rest => simp [geminiImage, GeminiPart.isImage]

theorem rowImages_eq_nil_iff {c : Codec β} {t : Turn β} : rowImages provider c t = [] ↔
    ∀ text imgs, readTurn c t.parts = some (text, imgs) → t.role = .user ∨ provider = .gemini → imgs = [] := by
  unfold rowImages
  split
  · next h => simp [h]
  · next text imgs h =>
    rw [h]
    simp only [ite_eq_right_iff, Option.some.injEq, Prod.mk.injEq, and_imp, forall_apply_eq_imp_iff, forall_eq']

theorem roleMessage_hasImage {user : String → List ImageData → μ} {assistant : String → μ} {hasImage : μ → Bool}
    (hp : provider ≠ .gemini) (c : Codec β) (huser : ∀ text imgs, hasImage (user text imgs) = false ↔ imgs = [])
    (hassistant : ∀ text, hasImage (assistant text) = false) (t : Turn β) :
    (∀ m, roleMessage user assistant c t.row = some m → hasImage m = false) ↔ rowImages provider c t = [] := by
  simp only [roleMessage_eq_some_iff, rowImages_eq_nil_iff, Turn.row]
  constructor
  · intro h text imgs hread hrole
    exact (huser text imgs).mp (h _ ⟨text, imgs, hread, .inl ⟨hrole.resolve_right hp, rfl⟩⟩)
  · rintro h m ⟨text, imgs, hread, ⟨hrole, rfl⟩ | ⟨-, -, rfl⟩⟩
    · exact (huser text imgs).mpr (h text imgs hread (.inl hrole))
    · exact hassistant text

theorem turnToContent_hasImage (c : Codec β) (t : Turn β) :
    (∀ m, turnToContent c t.row = some m → m.hasImage = false) ↔ rowImages .gemini c t = [] := by
  simp only [turnToContent, Turn.row, rowImages]
  cases hread : readTurn c t.parts with
  | none => simp
  | some r =>
    have htext : (if r.1 = "" then [] else [GeminiPart.text r.1]).any GeminiPart.isImage = false := by
      split <;> rfl
    simp [geminiImages_hasImage _ r.2 htext]

theorem any_messages_eq_false {γ : Type} {q : μ → Bool} {f : γ → Option μ} {g : γ → List ImageData} {pre : List μ}
    {last : μ} {images : List ImageData} (hpre : pre.any q = false)
    (hrow : ∀ t, (∀ m, f t = some m → q m = false) ↔ g t = []) (hlast : q last = false ↔ images = []) (rows : List γ) :
    (pre ++ rows.filterMap f ++ [last]).any q = false ↔ images = [] ∧ ∀ t ∈ rows, g t = [] := by
  have hrows : (rows.filterMap f).any q = false ↔ ∀ t ∈ rows, g t = [] := by
    simp only [← hrow, List.any_eq_false, List.mem_filterMap, Bool.not_eq_true]
    constructor
    · intro h t ht m hm
      exact h m ⟨t, ht, hm⟩
    · rintro h m ⟨t, ht, hm⟩
      exact h t ht m hm
  rw [List.any_append, List.any_append, hpre, Bool.false_or, Bool.or_eq_false_iff, hrows, and_comm]
  simp [hlast]

theorem sendsImage_eq_false_iff (provider : Provider) (c : Codec β) (turn : TurnInput β) :
    sendsImage provider c turn = false ↔ turn.images = [] ∧ ∀ t ∈ turn.history, rowImages provider c t = [] := by
  cases provider with
  | openai =>
    have hrow : ∀ t, (∀ m, openaiTurnMessage c t.row = some m → m.hasImage = false) ↔ rowImages .openai c t = [] := by
      simp only [openaiTurnMessage_eq]
      exact roleMessage_hasImage (by decide) c openaiUserMessage_hasImage fun _ => rfl
    apply any_messages_eq_false _ hrow (openaiUserMessage_hasImage _ _)
    split <;> rfl
  | anthropic =>
    have hpre : ([] : List AnthropicMessage).any AnthropicMessage.hasImage = false := rfl
    have hrow : ∀ t, (∀ m, anthropicTurnMessage c t.row = some m → m.hasImage = false) ↔
        rowImages .anthropic c t = [] := by
      simp only [anthropicTurnMessage_eq]
      exact roleMessage_hasImage (by decide) c anthropicContentBlocks_hasImage fun _ => rfl
    exact any_messages_eq_false hpre hrow (anthropicContentBlocks_hasImage _ _) _
  | gemini =>
    have htext : [GeminiPart.text turn.userText].any GeminiPart.isImage = false := rfl
    have hlast : (geminiUserContent turn.userText turn.images).hasImage = false ↔ turn.images = [] :=
      geminiImages_hasImage .user turn.images htext
    have hpre : ([] : List GeminiContent).any GeminiContent.hasImage = false := rfl
    exact any_messages_eq_false hpre (turnToContent_hasImage c) hlast _

end NomadDev.Middleware
