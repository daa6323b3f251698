import NomadDev.HistoryReset

namespace NomadDev.Middleware

open History List

variable {β : Type}

def OpenAIPart.texts : OpenAIPart → List String
  | .text s => [s]
  | .imageURL _ => []

def OpenAIMessage.texts : OpenAIMessage → List String
  | .system s => [s]
  | .user s => [s]
  | .userParts parts => parts.flatMap OpenAIPart.texts
  | .assistant s => [s]

def AnthropicBlock.texts : AnthropicBlock → List String
  | .text s => [s]
  | .image _ _ => []

def AnthropicMessage.texts : AnthropicMessage → List String
  | .user content => content.flatMap AnthropicBlock.texts
  | .assistant content => content.flatMap AnthropicBlock.texts

def GeminiPart.texts : GeminiPart → List String
  | .text s => [s]
  | .inlineData _ _ => []

def GeminiContent.texts (content : GeminiContent) : List String := content.parts.flatMap GeminiPart.texts

def messageTexts (provider : Provider) (c : Codec β) (turn : TurnInput β) : List String :=
  match provider with
  | .openai => (openaiHistoryToMessages c turn.systemPrompt turn.history turn.userText turn.images).flatMap
      OpenAIMessage.texts
  | .anthropic => (anthropicHistoryToMessages c turn.history turn.userText turn.images).flatMap AnthropicMessage.texts
  | .gemini => (historyToContents c turn.history turn.userText turn.images).flatMap GeminiContent.texts

def Appears (text : String) (texts : List String) : Prop :=
  text = "" ∨ ∃ s ∈ texts, text.toList <:+: s.toList

def rowText (c : Codec β) (t : Turn β) : String := ((readTurn c t.parts).map Prod.fst).getD ""

def summaries (hist : List (Turn β)) : List (Turn β) := hist.filter fun t => t.role == .systemSummary

variable {t : Turn β} {s text : String} {images : List ImageData} {μ : Type} {texts : μ → List String}

theorem appears_congr {xs ys : List String} (h : ∀ s, s ≠ "" → (s ∈ xs ↔ s ∈ ys)) :
    Appears text xs ↔ Appears text ys := by
  apply or_congr_right'
  intro htext
  have hne : ∀ s : String, text.toList <:+: s.toList → s ≠ "" := by
    rintro s hs rfl
    exact htext (String.toList_eq_nil_iff.mp (infix_nil.mp hs))
  constructor
  · rintro ⟨s, hs, hin⟩
    exact ⟨s, (h s (hne s hin)).mp hs, hin⟩
  · rintro ⟨s, hs, hin⟩
    exact ⟨s, (h s (hne s hin)).mpr hs, hin⟩

def spokenText (c : Codec β) (t : Turn β) : Option String :=
  if spoken t then (readTurn c t.parts).map Prod.fst else none

def otherTexts (provider : Provider) (c : Codec β) (turn : TurnInput β) : List String :=
  (if provider = .openai then [turn.systemPrompt] else []) ++ turn.history.filterMap (spokenText c) ++ [turn.userText]

theorem mem_openaiUserMessage (hs : s ≠ "") : s ∈ (openaiUserMessage text images).texts ↔ s = text := by
  unfold openaiUserMessage
  split
  · exact mem_singleton
  have himages : ∀ f : ImageData → String,
      (images.map fun img => OpenAIPart.imageURL (f img)).flatMap OpenAIPart.texts = [] := by
    intro f
    simp [flatMap_map, OpenAIPart.texts]
  rw [OpenAIMessage.texts, flatMap_append, himages, append_nil]
  split
  · next h => simp [h, hs]
  · simp [OpenAIPart.texts]

theorem mem_anthropicContentBlocks (hs : s ≠ "") :
    s ∈ (anthropicContentBlocks text images).flatMap AnthropicBlock.texts ↔ s = text := by
  have himages : (images.map fun img => AnthropicBlock.image img.mediaType (Foundation.Base64.encode img.data)).flatMap
      AnthropicBlock.texts = [] := by
    simp [flatMap_map, AnthropicBlock.texts]
  rw [anthropicContentBlocks, flatMap_append, himages, append_nil]
  split
  · next h => simp [h, hs]
  · simp [AnthropicBlock.texts]

theorem spokenText_eq_some_iff {c : Codec β} :
    spokenText c t = some s ↔ spoken t = true ∧ ∃ imgs, readTurn c t.parts = some (s, imgs) := by
  unfold spokenText
  split
  · next h => simp [h]
  · next h => simp [h]

theorem mem_roleMessage {user : String → List ImageData → μ} {assistant : String → μ} (c : Codec β) (hs : s ≠ "")
    (huser : ∀ text imgs, s ∈ texts (user text imgs) ↔ s = text)
    (hassistant : ∀ text, s ∈ texts (assistant text) ↔ s = text) (t : Turn β) :
    (∃ m, roleMessage user assistant c t.row = some m ∧ s ∈ texts m) ↔ spokenText c t = some s := by
  simp only [roleMessage_eq_some_iff, spokenText_eq_some_iff, Turn.row]
  constructor
  · rintro ⟨m, ⟨text, imgs, hread, ⟨hrole, rfl⟩ | ⟨hrole, -, rfl⟩⟩, hmem⟩
    · cases (huser text imgs).mp hmem
      exact ⟨by simp [spoken, hrole], imgs, hread⟩
    · cases (hassistant text).mp hmem
      exact ⟨by simp [spoken, hrole], imgs, hread⟩
  · rintro ⟨hspoken, imgs, hread⟩
    rcases of_decide_eq_true hspoken with hrole | hrole
    · exact ⟨_, ⟨s, imgs, hread, .inl ⟨hrole, rfl⟩⟩, (huser s imgs).mpr rfl⟩
    · exact ⟨_, ⟨s, imgs, hread, .inr ⟨hrole, hs, rfl⟩⟩, (hassistant s).mpr rfl⟩

theorem mem_texts_of_rows {γ : Type} {f : γ → Option μ} {g : γ → Option String}
    (h : ∀ t, (∃ m, f t = some m ∧ s ∈ texts m) ↔ g t = some s) (rows : List γ) :
    s ∈ (rows.filterMap f).flatMap texts ↔ s ∈ rows.filterMap g := by
  simp only [mem_flatMap, mem_filterMap, ← h]
  constructor
  · rintro ⟨m, ⟨t, ht, hf⟩, hm⟩
    exact ⟨t, ht, m, hf, hm⟩
  · rintro ⟨t, ht, m, hf, hm⟩
    exact ⟨m, ⟨t, ht, hf⟩, hm⟩

theorem mem_messageTexts {provider : Provider} (hp : provider ≠ .gemini) (c : Codec β) (turn : TurnInput β)
    (hs : s ≠ "") : s ∈ messageTexts provider c turn ↔ s ∈ otherTexts provider c turn := by
  cases provider with
  | openai =>
    have hrow : ∀ t, (∃ m, openaiTurnMessage c t.row = some m ∧ s ∈ m.texts) ↔ spokenText c t = some s := by
      simp only [openaiTurnMessage_eq]
      exact mem_roleMessage c hs (fun _ _ => mem_openaiUserMessage hs) fun _ => mem_singleton
    have hrows := mem_texts_of_rows hrow turn.history
    have hsystem : s ∈ (if turn.systemPrompt = "" then [] else [OpenAIMessage.system turn.systemPrompt]).flatMap
        OpenAIMessage.texts ↔ s = turn.systemPrompt := by
      split
      · next h => simp [h, hs]
      · simp [OpenAIMessage.texts]
    simp only [messageTexts, openaiHistoryToMessages, otherTexts, flatMap_append, mem_append, hrows, hsystem,
      flatMap_singleton, mem_openaiUserMessage hs, if_true, mem_singleton]
  | anthropic =>
    have hrow : ∀ t, (∃ m, anthropicTurnMessage c t.row = some m ∧ s ∈ m.texts) ↔ spokenText c t = some s := by
      simp only [anthropicTurnMessage_eq]
      exact mem_roleMessage c hs (fun _ _ => mem_anthropicContentBlocks hs) fun _ => mem_singleton
    have hrows := mem_texts_of_rows hrow turn.history
    simp [messageTexts, anthropicHistoryToMessages, otherTexts, flatMap_append, mem_append, hrows,
      AnthropicMessage.texts, mem_anthropicContentBlocks hs]
  | gemini => exact absurd rfl hp

theorem gemini_appears (c : Codec β) (turn : TurnInput β) (ht : t ∈ turn.history) :
    Appears (rowText c t) (messageTexts .gemini c turn) := by
  cases hread : readTurn c t.parts with
  | none => exact .inl (by simp [rowText, hread])
  | some r =>
    have htext : rowText c t = r.1 := by simp [rowText, hread]
    rw [htext]
    by_cases hempty : r.1 = ""
    · exact .inl hempty
    refine .inr ⟨r.1, ?_, infix_rfl⟩
    obtain ⟨role, hcontent⟩ : ∃ role, turnToContent c t.row = some ⟨role, .text r.1 :: r.2.map geminiImage⟩ := by
      simp only [turnToContent, Turn.row, hread, hempty, if_false]
      exact ⟨_, rfl⟩
    apply mem_flatMap.mpr
    refine ⟨_, mem_append_left _ (mem_filterMap.mpr ⟨t, ht, hcontent⟩), ?_⟩
    exact mem_flatMap.mpr ⟨.text r.1, mem_cons_self, mem_singleton.mpr rfl⟩

theorem summary_appears_iff (provider : Provider) (c : Codec β) (turn : TurnInput β) {t : Turn β}
    (ht : t ∈ summaries turn.history) :
    Appears (rowText c t) (messageTexts provider c turn) ↔
      provider = .gemini ∨ Appears (rowText c t) (otherTexts provider c turn) := by
  by_cases hp : provider = .gemini
  · rw [hp]
    exact iff_of_true (gemini_appears c turn (mem_filter.mp ht).1) (.inl rfl)
  · rw [or_iff_right hp]
    exact appears_congr fun s hs => mem_messageTexts hp c turn hs

def summaryRow : Turn Json := ⟨"s1", 0, .systemSummary, marshalText treeCodec "wants tabs"⟩

theorem summary_appears_iff_repeated :
    Appears "wants tabs" (messageTexts .anthropic treeCodec ⟨"one wants tabs", [summaryRow], "", []⟩) :=
  (summary_appears_iff .anthropic treeCodec ⟨"one wants tabs", [summaryRow], "", []⟩ (t := summaryRow)
    mem_cons_self).mpr (.inr (.inr ⟨"one wants tabs", by decide, "one ".toList, [], rfl⟩))

open Resets in
theorem summary_not_sent : ∃ u, Foundation.Transition.run (step tabs) init compacted = some u ∧
    ∃ s : SQLiteStore Json, s.table.Perm (u.table.map Row.turn) ∧ ∃ t ∈ summaries (s.loadWindow "s1" 10),
      ¬ Appears (rowText treeCodec t) (messageTexts .openai treeCodec ⟨"hello", s.loadWindow "s1" 10, "", []⟩) := by
  refine ⟨_, rfl, ⟨[summaryRow, { spokenTurn .assistant "noted" with idx := 1 }], by decide⟩, Perm.swap .., ?_⟩
  rw [SQLiteStore.loadWindow_eq _ _ (by decide)]
  refine ⟨summaryRow, mem_cons_self, ?_⟩
  rintro (hempty | ⟨s, hs, hin⟩)
  · exact absurd hempty (by decide)
  · have hlen := hin.length_le
    have hshort : ∀ u ∈ ["noted", "hello"], u.toList.length < ("wants tabs".toList).length := by decide
    exact absurd hlen (Nat.not_le.mpr (hshort s hs))

end NomadDev.Middleware
