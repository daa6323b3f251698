import NomadDev.Streams

namespace NomadDev.Middleware

open Tools

variable {α : Type} {events : List (AssistantEvent α)}

structure ToolResult where
  (callID tool : String)
  output : Option (List (String × Json))
  error : String

inductive Entry (α : Type) : Provider → Type
  | openai (m : OpenAIMessage) : Entry α .openai
  | openaiToolCall (callID name argsJSON : String) : Entry α .openai
  | openaiToolResult (body : Json) (callID : String) : Entry α .openai
  | anthropic (m : AnthropicMessage) : Entry α .anthropic
  | anthropicToolUse (toolID : String) (args : α) (name : String) : Entry α .anthropic
  | anthropicToolResult (callID : String) (body : Json) (isError : Bool) : Entry α .anthropic
  | gemini (content : GeminiContent) : Entry α .gemini
  | functionCall (id name : String) (args : α) : Entry α .gemini
  | functionResponse (name : String) (response : Option (List (String × Json))) : Entry α .gemini

def marshalOutput : Option (List (String × Json)) → Json
  | none => .null
  | some fields => .obj fields

def resultEntry : (provider : Provider) → ToolResult → Entry α provider
  | .openai, r => .openaiToolResult (marshalOutput r.output) r.callID
  | .anthropic, r => .anthropicToolResult r.callID (marshalOutput r.output) (r.error != "")
  | .gemini, r => .functionResponse r.tool r.output

variable (codec : CallCodec α)

def openaiCallEntry (st : OpenAIState α) : List (Entry α .openai) :=
  match st.pending with
  | p :: _ =>
    if st.finishReason = "tool_calls" then
      [.openaiToolCall (if p.id = "" then codec.newID else p.id) p.name p.args]
    else []
  | [] => []

def openaiMirror (stream : OpenAIStream) : List (Entry α .openai) :=
  match stream.err with
  | some _ => []
  | none => openaiCallEntry codec (stream.chunks.foldl openaiChunk ⟨[], [], none, ""⟩)

def anthropicCallEntry (st : AnthropicState α) : List (Entry α .anthropic) :=
  if st.stopReason = "tool_use" ∧ st.toolCallID ≠ "" then
    [.anthropicToolUse st.toolCallID (codec.args st.toolCallArgs) st.toolCallName]
  else []

def anthropicMirror (stream : AnthropicStream) : List (Entry α .anthropic) :=
  match stream.err with
  | some _ => []
  | none =>
    anthropicCallEntry codec (stream.events.foldl anthropicEvent ⟨[], fun _ => none, "", none, "", "", ""⟩)

def geminiPartsMirror : List (StreamPart α) → Option (Entry α .gemini)
  | [] => none
  | .functionCall id name args :: _ => some (.functionCall id name args)
  | _ :: rest => geminiPartsMirror rest

def geminiMirror : List (GeminiItem α) → List (Entry α .gemini)
  | [] => []
  | .err _ :: _ => []
  | .response _ none :: rest => geminiMirror rest
  | .response _ (some cand) :: rest =>
    match geminiPartsMirror cand.parts with
    | some e => [e]
    | none => if cand.finishReason ≠ "" then [] else geminiMirror rest

def stageMirror : (provider : Provider) → ProviderStream α provider → List (Entry α provider)
  | .openai, stream => openaiMirror codec stream
  | .anthropic, stream => anthropicMirror codec stream
  | .gemini, stream => geminiMirror stream

def Entry.callID : {provider : Provider} → Entry α provider → Option String
  | _, .openaiToolCall id _ _ => some id
  | _, .anthropicToolUse id _ _ => some id
  | _, .functionCall id _ _ => some id
  | _, _ => none

def Entry.resultID : {provider : Provider} → Entry α provider → Option String
  | _, .openaiToolResult _ id => some id
  | _, .anthropicToolResult id _ _ => some id
  | _, .functionResponse _ _ => some ""
  | _, _ => none

def openaiMessageText : OpenAIMessage → String
  | .assistant text => text
  | _ => ""

def blockText : AnthropicBlock → String
  | .text s => s
  | .image _ _ => ""

def partText : GeminiPart → String
  | .text s => s
  | .inlineData _ _ => ""

def Entry.modelText : {provider : Provider} → Entry α provider → String
  | _, .openai m => openaiMessageText m
  | _, .anthropic (.assistant content) => String.join (content.map blockText)
  | _, .gemini ⟨.model, parts⟩ => String.join (parts.map partText)
  | _, _ => ""

def AssistantEvent.Spoken : AssistantEvent α → Prop
  | .text _ => True
  | .thinking _ => True
  | _ => False

def AllSpoken (events : List (AssistantEvent α)) : Prop := ∀ e ∈ events, e.Spoken

inductive StageSpec (provider : Provider) : List (AssistantEvent α) → List (Entry α provider) → Prop
  | err (spoken : List (AssistantEvent α)) (hs : AllSpoken spoken) (e : String) :
      StageSpec provider (spoken ++ [.err e]) []
  | final (spoken : List (AssistantEvent α)) (hs : AllSpoken spoken) (finishReason : String) (u : Usage) :
      StageSpec provider (spoken ++ [.final ⟨"", finishReason, u⟩]) []
  | call (spoken : List (AssistantEvent α)) (hs : AllSpoken spoken) (u : Option Usage) (call : ToolCall α)
      (entry : Entry α provider) (hcall : entry.callID.isSome)
      (hid : provider ≠ .gemini → entry.callID = some call.id) (htext : entry.modelText = "") :
      StageSpec provider (spoken ++ (usageEvents u ++ [.toolCall call])) [entry]

theorem foldl_preserves {γ δ : Type} {P : γ → Prop} {f : γ → δ → γ} (hf : ∀ x y, P x → P (f x y)) (ys : List δ) {x : γ}
    (hx : P x) : P (ys.foldl f x) := by
  induction ys generalizing x with
  | nil => exact hx
  | cons y ys ih => exact ih (hf x y hx)

theorem AllSpoken.nil : AllSpoken ([] : List (AssistantEvent α)) := fun _ h => absurd h List.not_mem_nil

theorem AllSpoken.append {xs ys : List (AssistantEvent α)} (hx : AllSpoken xs) (hy : AllSpoken ys) :
    AllSpoken (xs ++ ys) := List.forall_mem_append.mpr ⟨hx, hy⟩

theorem AllSpoken.text (h : AllSpoken events) (s : String) :
    AllSpoken (events ++ [.text s]) := h.append (List.forall_mem_singleton.mpr trivial)

theorem AllSpoken.thinking (h : AllSpoken events) (s : String) :
    AllSpoken (events ++ [.thinking s]) := h.append (List.forall_mem_singleton.mpr trivial)

theorem spoken_openaiChoice (st : OpenAIState α) (choice : OpenAIChoice) (h : AllSpoken st.events) :
    AllSpoken (openaiChoice st choice).events := by
  unfold openaiChoice
  split
  · exact h
  · exact h.text _

theorem spoken_openaiChunk (st : OpenAIState α) (chunk : OpenAIChunk) (h : AllSpoken st.events) :
    AllSpoken (openaiChunk st chunk).events :=
  foldl_preserves spoken_openaiChoice chunk.choices h

theorem openaiTerminal_spec (codec : CallCodec α) (st : OpenAIState α) (hs : AllSpoken st.events) :
    StageSpec .openai (st.events ++ openaiTerminal codec st) (openaiCallEntry codec st) := by
  unfold openaiTerminal openaiCallEntry
  cases st.pending with
  | nil => exact .final _ hs _ _
  | cons p rest =>
    by_cases hf : st.finishReason = "tool_calls"
    · simp only [hf, if_true]
      exact .call _ hs _ _ _ rfl (fun _ => rfl) rfl
    · simp only [hf, if_false]
      exact .final _ hs _ _

theorem openaiRun_spec (codec : CallCodec α) (stream : OpenAIStream) :
    StageSpec .openai (openaiRun codec stream) (openaiMirror codec stream) := by
  have hs : AllSpoken (stream.chunks.foldl openaiChunk (⟨[], [], none, ""⟩ : OpenAIState α)).events :=
    foldl_preserves spoken_openaiChunk stream.chunks .nil
  unfold openaiRun openaiMirror
  cases stream.err with
  | some e => exact .err _ hs e
  | none => exact openaiTerminal_spec codec _ hs

theorem spoken_anthropicDelta (st : AnthropicState α) (index : ℤ) (b : Block) (delta : AnthropicDelta)
    (h : AllSpoken st.events) : AllSpoken (anthropicDelta st index b delta).events := by
  cases delta with simp only [anthropicDelta]
  | text s =>
    split
    · exact h
    · exact h.text s
  | thinking s =>
    split
    · exact h
    · exact h.thinking s
  | inputJSON s => exact h
  | other => exact h

theorem spoken_anthropicEvent (st : AnthropicState α) (ev : AnthropicEvent) (h : AllSpoken st.events) :
    AllSpoken (anthropicEvent st ev).events := by
  cases ev with simp only [anthropicEvent]
  | contentBlockDelta index delta =>
    split
    · exact h
    · exact spoken_anthropicDelta st index _ delta h
  | contentBlockStop index =>
    split
    · exact h
    · split <;> exact h
  | _ => exact h

theorem anthropicTerminal_spec (codec : CallCodec α) (st : AnthropicState α) (hs : AllSpoken st.events) :
    StageSpec .anthropic (st.events ++ anthropicTerminal codec st) (anthropicCallEntry codec st) := by
  unfold anthropicTerminal anthropicCallEntry
  by_cases hc : st.stopReason = "tool_use" ∧ st.toolCallID ≠ ""
  · rw [if_pos hc, if_pos hc]
    exact .call _ hs _ _ _ rfl (fun _ => rfl) rfl
  · rw [if_neg hc, if_neg hc]
    exact .final _ hs _ _

theorem anthropicRun_spec (codec : CallCodec α) (stream : AnthropicStream) :
    StageSpec .anthropic (anthropicRun codec stream) (anthropicMirror codec stream) := by
  have hs : AllSpoken (stream.events.foldl anthropicEvent
      (⟨[], fun _ => none, "", none, "", "", ""⟩ : AnthropicState α)).events :=
    foldl_preserves spoken_anthropicEvent stream.events .nil
  unfold anthropicRun anthropicMirror
  cases stream.err with
  | some e => exact .err _ hs e
  | none => exact anthropicTerminal_spec codec _ hs

theorem StageSpec.prepend {provider : Provider} {entries : List (Entry α provider)}
    (h : StageSpec provider events entries) {pre : List (AssistantEvent α)} (hp : AllSpoken pre) :
    StageSpec provider (pre ++ events) entries := by
  cases h with
  | err spoken hs e =>
    rw [← List.append_assoc]
    exact .err _ (hp.append hs) e
  | final spoken hs fr u =>
    rw [← List.append_assoc]
    exact .final _ (hp.append hs) fr u
  | call spoken hs u call entry hcall hid htext =>
    rw [← List.append_assoc]
    exact .call _ (hp.append hs) u call entry hcall hid htext

theorem geminiParts_spec (codec : CallCodec α) (lastUsage : Option Usage) (parts : List (StreamPart α)) :
    (geminiParts codec lastUsage parts).2 = false ∧ geminiPartsMirror parts = none ∧
        AllSpoken (geminiParts codec lastUsage parts).1 ∨
      ∃ entry, (geminiParts codec lastUsage parts).2 = true ∧ geminiPartsMirror parts = some entry ∧
        StageSpec .gemini (geminiParts codec lastUsage parts).1 [entry] := by
  induction parts with
  | nil => exact .inl ⟨rfl, rfl, .nil⟩
  | cons part rest ih =>
    cases part with
    | functionCall id name args =>
      exact .inr ⟨_, rfl, rfl, .call [] .nil _ _ _ rfl (fun h => absurd rfl h) rfl⟩
    | other => exact ih
    | text s =>
      simp only [geminiParts, geminiPartsMirror]
      by_cases hs : s = ""
      · simpa [hs] using ih
      simp only [hs, if_false]
      have hpre : AllSpoken [(.text s : AssistantEvent α)] := List.forall_mem_singleton.mpr trivial
      rcases ih with ⟨h₁, h₂, h₃⟩ | ⟨entry, h₁, h₂, h₃⟩
      · exact .inl ⟨h₁, h₂, hpre.append h₃⟩
      · exact .inr ⟨entry, h₁, h₂, h₃.prepend hpre⟩

theorem geminiRun_spec (codec : CallCodec α) (lastUsage : Option Usage) (items : List (GeminiItem α)) :
    StageSpec .gemini (geminiRun codec lastUsage items) (geminiMirror items) := by
  induction items generalizing lastUsage with
  | nil => exact .final [] .nil _ _
  | cons item rest ih =>
    cases item with
    | err e => exact .err [] .nil e
    | response usage candidate =>
      cases candidate with
      | none => exact ih _
      | some cand =>
        simp only [geminiRun, geminiMirror]
        rcases geminiParts_spec codec (usage.or lastUsage) cand.parts with ⟨h₁, h₂, h₃⟩ | ⟨entry, h₁, h₂, h₃⟩
        · rw [h₁, h₂]
          by_cases hf : cand.finishReason = ""
          · simpa [hf] using (ih _).prepend h₃
          · simpa [hf] using StageSpec.final _ h₃ _ _
        · rw [h₁, h₂]
          simpa using h₃

theorem stage_spec (codec : CallCodec α) (provider : Provider) (stream : ProviderStream α provider) :
    StageSpec provider (streamEvents codec provider stream) (stageMirror codec provider stream) := by
  cases provider with
  | openai => exact openaiRun_spec codec stream
  | anthropic => exact anthropicRun_spec codec stream
  | gemini => exact geminiRun_spec codec none stream

end NomadDev.Middleware
