import NomadDev.FirstRequest

/-!
A canceled context cuts the events of a stage off at any point.
-/

namespace NomadDev.Middleware

open Tools Function

variable {α : Type}

structure Usage where
  (promptTokens candidatesTokens totalTokens : Int64)
  deriving DecidableEq

def Usage.zero : Usage := ⟨0, 0, 0⟩

structure FinalMessage where
  (text finishReason : String)
  usage : Usage

inductive AssistantEvent (α : Type)
  | text (s : String)
  | thinking (s : String)
  | toolCall (call : ToolCall α)
  | final (m : FinalMessage)
  | usage (u : Usage)
  | err (e : String)

-- What a translator leaves to libraries: the arguments read from JSON text, and a fresh id for a call without one.
structure CallCodec (α : Type) where
  args : String → α
  newID : String

def usageEvents (u : Option Usage) : List (AssistantEvent α) :=
  match u with
  | none => []
  | some u => [.usage u]

structure ToolDelta where
  index : ℤ
  (id name args : String)

structure OpenAIChoice where
  content : String
  toolCalls : List ToolDelta
  finishReason : String

structure OpenAIChunk where
  usage : Usage
  choices : List OpenAIChoice

structure OpenAIStream where
  chunks : List OpenAIChunk
  err : Option String

structure PendingCall where
  index : ℤ
  (id name args : String)

def PendingCall.merge (p : PendingCall) (d : ToolDelta) : PendingCall where
  index := p.index
  id := if d.id = "" then p.id else d.id
  name := if d.name = "" then p.name else d.name
  args := p.args ++ d.args

-- `pending` and `callOrder` together: the calls in the order their indices first came.
def addDelta : List PendingCall → ToolDelta → List PendingCall
  | [], d => [PendingCall.merge ⟨d.index, "", "", ""⟩ d]
  | p :: ps, d => if p.index = d.index then p.merge d :: ps else p :: addDelta ps d

structure OpenAIState (α : Type) where
  events : List (AssistantEvent α)
  pending : List PendingCall
  lastUsage : Option Usage
  finishReason : String

def openaiChoice (st : OpenAIState α) (choice : OpenAIChoice) : OpenAIState α where
  events := if choice.content = "" then st.events else st.events ++ [.text choice.content]
  pending := choice.toolCalls.foldl addDelta st.pending
  lastUsage := st.lastUsage
  finishReason := if choice.finishReason = "" then st.finishReason else choice.finishReason

def openaiChunk (st : OpenAIState α) (chunk : OpenAIChunk) : OpenAIState α :=
  let u := chunk.usage
  let lastUsage := if u.totalTokens > 0 ∨ u.promptTokens > 0 ∨ u.candidatesTokens > 0 then some u else st.lastUsage
  chunk.choices.foldl openaiChoice { st with lastUsage := lastUsage }

variable (codec : CallCodec α)

def openaiTerminal (st : OpenAIState α) : List (AssistantEvent α) :=
  match st.pending with
  | p :: _ =>
    if st.finishReason = "tool_calls" then
      usageEvents st.lastUsage ++ [.toolCall ⟨if p.id = "" then codec.newID else p.id, p.name, codec.args p.args⟩]
    else [.final ⟨"", if st.finishReason = "" then "stop" else st.finishReason, st.lastUsage.getD .zero⟩]
  | [] => [.final ⟨"", if st.finishReason = "" then "stop" else st.finishReason, st.lastUsage.getD .zero⟩]

def openaiRun (stream : OpenAIStream) : List (AssistantEvent α) :=
  let st := stream.chunks.foldl openaiChunk ⟨[], [], none, ""⟩
  match stream.err with
  | some e => st.events ++ [.err e]
  | none => st.events ++ openaiTerminal codec st

inductive AnthropicDelta
  | text (s : String)
  | thinking (s : String)
  | inputJSON (s : String)
  | other

inductive AnthropicEvent
  | messageStart (inputTokens outputTokens : Int64)
  | contentBlockStart (index : ℤ) (type id name : String)
  | contentBlockDelta (index : ℤ) (delta : AnthropicDelta)
  | contentBlockStop (index : ℤ)
  | messageDelta (stopReason : String) (outputTokens : Int64)
  | messageStop

structure AnthropicStream where
  events : List AnthropicEvent
  err : Option String

structure Block where
  (kind toolID toolName toolArgsRaw : String)

structure AnthropicState (α : Type) where
  events : List (AssistantEvent α)
  blocks : ℤ → Option Block
  stopReason : String
  usage : Option Usage
  (toolCallID toolCallName toolCallArgs : String)

def anthropicDelta (st : AnthropicState α) (index : ℤ) (b : Block) : AnthropicDelta → AnthropicState α
  | .text s => if s = "" then st else { st with events := st.events ++ [.text s] }
  | .thinking s => if s = "" then st else { st with events := st.events ++ [.thinking s] }
  | .inputJSON s =>
    { st with blocks := update st.blocks index (some { b with toolArgsRaw := b.toolArgsRaw ++ s }) }
  | .other => st

def anthropicEvent (st : AnthropicState α) : AnthropicEvent → AnthropicState α
  | .messageStart input output => { st with usage := some ⟨input, 0, input + output⟩ }
  | .contentBlockStart index type id name =>
    let b : Block := if type = "tool_use" then ⟨type, id, name, ""⟩ else ⟨type, "", "", ""⟩
    { st with blocks := update st.blocks index (some b) }
  | .contentBlockDelta index delta =>
    match st.blocks index with
    | none => st
    | some b => anthropicDelta st index b delta
  | .contentBlockStop index =>
    match st.blocks index with
    | none => st
    | some b =>
      if b.kind = "tool_use" ∧ st.toolCallID = "" then
        { st with toolCallID := b.toolID, toolCallName := b.toolName, toolCallArgs := b.toolArgsRaw }
      else st
  | .messageDelta stopReason output =>
    let u := st.usage.getD .zero
    { st with
      stopReason := stopReason
      usage := if output > 0 then some ⟨u.promptTokens, output, u.promptTokens + output⟩ else st.usage }
  | .messageStop => st

def anthropicTerminal (st : AnthropicState α) : List (AssistantEvent α) :=
  if st.stopReason = "tool_use" ∧ st.toolCallID ≠ "" then
    usageEvents st.usage ++ [.toolCall ⟨st.toolCallID, st.toolCallName, codec.args st.toolCallArgs⟩]
  else [.final ⟨"", if st.stopReason = "" then "stop" else st.stopReason, st.usage.getD .zero⟩]

def anthropicRun (stream : AnthropicStream) : List (AssistantEvent α) :=
  let st := stream.events.foldl anthropicEvent ⟨[], fun _ => none, "", none, "", "", ""⟩
  match stream.err with
  | some e => st.events ++ [.err e]
  | none => st.events ++ anthropicTerminal codec st

inductive StreamPart (α : Type)
  | text (s : String)
  | functionCall (id name : String) (args : α)
  | other

structure Candidate (α : Type) where
  parts : List (StreamPart α)
  finishReason : String

inductive GeminiItem (α : Type)
  | err (e : String)
  | response (usage : Option Usage) (candidate : Option (Candidate α))

def geminiParts (codec : CallCodec α) (lastUsage : Option Usage) : List (StreamPart α) → List (AssistantEvent α) × Bool
  | [] => ([], false)
  | .text s :: rest =>
    let (events, stopped) := geminiParts codec lastUsage rest
    if s = "" then (events, stopped) else (.text s :: events, stopped)
  | .functionCall id name args :: _ =>
    (usageEvents lastUsage ++ [.toolCall ⟨if id = "" then codec.newID else id, name, args⟩], true)
  | .other :: rest => geminiParts codec lastUsage rest

def geminiRun (codec : CallCodec α) (lastUsage : Option Usage) : List (GeminiItem α) → List (AssistantEvent α)
  | [] => [.final ⟨"", "stop", lastUsage.getD .zero⟩]
  | .err e :: _ => [.err e]
  | .response usage none :: rest => geminiRun codec (usage.or lastUsage) rest
  | .response usage (some cand) :: rest =>
    let last := usage.or lastUsage
    let (events, stopped) := geminiParts codec last cand.parts
    if stopped then events
    else if cand.finishReason ≠ "" then events ++ [.final ⟨"", cand.finishReason, last.getD .zero⟩]
    else events ++ geminiRun codec last rest

def ProviderStream (α : Type) : Provider → Type
  | .openai => OpenAIStream
  | .anthropic => AnthropicStream
  | .gemini => List (GeminiItem α)

def streamEvents : (provider : Provider) → ProviderStream α provider → List (AssistantEvent α)
  | .openai, stream => openaiRun codec stream
  | .anthropic, stream => anthropicRun codec stream
  | .gemini, stream => geminiRun codec none stream

end NomadDev.Middleware
