import NomadDev.Streams

namespace NomadDev.Middleware

open History

variable {α β : Type}

inductive Frame
  | chunk (seq : ℕ) (text : String)
  | thinking (seq : ℕ) (text : String)
  | errorReport (attempt maxAttempts : ℕ)
  | message (text finishReason error : String)
  deriving DecidableEq

structure RetryBudget where
  (used max : ℕ)

def newRetryBudget (max : ℤ) : RetryBudget := ⟨0, max.toNat⟩

variable (b : RetryBudget)

def RetryBudget.reset : RetryBudget := { b with used := 0 }

def RetryBudget.consume : Bool × RetryBudget := (b.used < b.max, { b with used := b.used + 1 })

def RetryBudget.attempt : ℕ := if b.used = 0 then 1 else b.used

def shouldAutoRetry (exitCode : ℤ) (errCode : String) : Bool :=
  if errCode = "" then exitCode != 0 else errCode == "sandbox_timeout" || errCode == "sandbox_oom"

structure ToolOutcome (β : Type) where
  ok : Bool
  exitCode : ℤ
  error : String
  recorded : Option (β × β)

structure TurnState (β : Type) where
  (seq thinkingSeq : ℕ)
  budget : RetryBudget
  usage : Usage
  frames : List Frame
  rows : List (Role × β)

inductive StageEnd
  | terminal (m : FinalMessage)
  | next
  | closed

def Usage.add (u v : Usage) : Usage :=
  ⟨u.promptTokens + v.promptTokens, u.candidatesTokens + v.candidatesTokens, u.totalTokens + v.totalTokens⟩

def errorFinal (text : String) : FinalMessage := ⟨text, "error", .zero⟩

def toolRows (tool : ToolOutcome β) : List (Role × β) :=
  match tool.recorded with
  | none => []
  | some (call, result) => [(.toolCall, call), (.toolResult, result)]

def finishToolCall (tool : ToolOutcome β) (st : TurnState β) : TurnState β × StageEnd :=
  let st := { st with rows := st.rows ++ toolRows tool }
  if tool.ok = false then (st, .terminal (errorFinal ""))
  else if shouldAutoRetry tool.exitCode tool.error then
    match st.budget.consume with
    | (true, budget) => ({ st with budget := budget }, .next)
    | (false, budget) =>
      ({ st with budget := budget, frames := st.frames ++ [.errorReport budget.attempt (budget.max + 1)] },
        .terminal (errorFinal "exceeded NOMADDEV_MAX_AUTORETRIES; escalated to operator"))
  else ({ st with budget := st.budget.reset }, .next)

def consumeStage (tool : ToolOutcome β) : TurnState β → List (AssistantEvent α) → TurnState β × StageEnd
  | st, [] => (st, .closed)
  | st, .err _ :: _ => (st, .terminal (errorFinal ""))
  | st, .text s :: rest =>
    if s = "" then consumeStage tool st rest
    else consumeStage tool { st with frames := st.frames ++ [.chunk st.seq s], seq := st.seq + 1 } rest
  | st, .thinking s :: rest =>
    if s = "" then consumeStage tool st rest
    else consumeStage tool
      { st with frames := st.frames ++ [.thinking st.thinkingSeq s], thinkingSeq := st.thinkingSeq + 1 } rest
  | st, .usage u :: rest => consumeStage tool { st with usage := st.usage.add u } rest
  | st, .toolCall _ :: _ => finishToolCall tool st
  | st, .final m :: _ => ({ st with usage := st.usage.add m.usage }, .terminal m)

/-- What one stage meets: the provider's stream, how many of its events get through before the context
is canceled, and the outcome of the tool call it may end with. -/
structure StageInput (α β : Type) (provider : Provider) where
  stream : ProviderStream α provider
  delivered : ℕ
  tool : ToolOutcome β

def emitAssistantMessage (st : TurnState β) (text finishReason errMsg : String) : TurnState β :=
  { st with frames := st.frames ++ [.message text (if finishReason = "" then "stop" else finishReason) errMsg] }

def finishTurn (c : Codec β) (st : TurnState β) (m : FinalMessage) : TurnState β :=
  let st := emitAssistantMessage st m.text m.finishReason ""
  if m.text = "" then st else { st with rows := st.rows ++ [(.assistant, mustMarshalText c m.text)] }

def runStages (provider : Provider) (codec : CallCodec α) (c : Codec β) :
    TurnState β → List (StageInput α β provider) → Option (TurnState β)
  | _, [] => none
  | st, i :: rest =>
    match consumeStage i.tool st ((streamEvents codec provider i.stream).take i.delivered) with
    | (st, .terminal m) => some (finishTurn c st m)
    | (st, .closed) => some (emitAssistantMessage st "" "error" "translator closed without final message")
    | (st, .next) => runStages provider codec c st rest

def runIntent (provider : Provider) (codec : CallCodec α) (c : Codec β) (maxAutoRetries : ℤ) (p : Intent)
    (stages : List (StageInput α β provider)) : Option (TurnState β) :=
  runStages provider codec c
    ⟨0, 0, newRetryBudget maxAutoRetries, .zero, [], [(.user, mustMarshalUserTurn c p.text p.images)]⟩ stages

def EndedOK (st : TurnState β) : Prop :=
  ∃ text finishReason, st.frames.getLast? = some (.message text finishReason "") ∧ finishReason ≠ "error"

def streamedText (frames : List Frame) : String :=
  String.join (frames.filterMap fun f => match f with
    | .chunk _ s => some s
    | _ => none)

def Remembered (c : Codec β) (st : TurnState β) : Prop :=
  ∃ parts text images, (Role.assistant, parts) ∈ st.rows ∧ readTurn c parts = some (text, images) ∧
    (streamedText st.frames).toList <:+: text.toList

end NomadDev.Middleware
