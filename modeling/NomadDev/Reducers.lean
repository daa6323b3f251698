import NomadDev.ClientState
import NomadDev.Foundation.ListUpdate
import NomadDev.Foundation.Transition

/-!
The reply to a ping, which only TypeScript's reducer builds, is left out.
-/

namespace NomadDev.Clients

open Foundation.ListUpdate Foundation.Double

variable {V : Type}

namespace Native

structure State (V : Type) where
  (sessionID provider model : String)
  availableModels : List String
  turns : List (Turn V)
  pendingApprovals : List (ApprovalRequest V)
  sessionTokens : TokenCounts
  (lastEventID lastError : String)
  restartPending : Bool

def new : State V where
  sessionID := ""
  provider := ""
  model := ""
  availableModels := []
  turns := []
  pendingApprovals := []
  sessionTokens := ⟨0, 0, 0⟩
  lastEventID := ""
  lastError := ""
  restartPending := false

variable (st : State V)

def findTurn (correlationID : String) : Option (Turn V) :=
  if correlationID = "" then none else st.turns.find? fun turn => turn.intentID = correlationID

def findToolCall (commandID : String) : Option (ToolCall V) :=
  if commandID = "" then none
  else st.turns.findSome? fun turn => turn.toolCalls.find? fun call => call.commandID = commandID

def State.updateTurn (correlationID : String) (f : Turn V → Turn V) : State V :=
  if correlationID = "" then st
  else { st with turns := updateFirst (fun turn => turn.intentID = correlationID) f st.turns }

def State.updateToolCall (commandID : String) (f : ToolCall V → ToolCall V) : State V :=
  if commandID = "" then st
  else
    let matching : ToolCall V → Bool := fun call => call.commandID = commandID
    { st with
      turns := updateFirst (fun turn => turn.toolCalls.any matching)
        (fun turn => { turn with toolCalls := updateFirst matching f turn.toolCalls }) st.turns }

def applyHello (sessionID provider model : String) (availableModels : List String) : State V :=
  { st with
    sessionID := sessionID
    provider := if provider = "" then st.provider else provider
    model := if model = "" then st.model else model
    availableModels := if availableModels = [] then st.availableModels else availableModels
    lastError := ""
    restartPending := false }

def applyAssistantChunk (correlationID : String) (text : Text) : State V :=
  st.updateTurn correlationID fun turn => { turn with assistantText := turn.assistantText ++ text }

def errorFrameText : String := "assistant returned an error frame"

def finishTurn (text : Text) (finishReason error : String) (turn : Turn V) : Turn V :=
  { turn with
    assistantText := if text = [] then turn.assistantText else text
    finishReason := if finishReason = "" then turn.finishReason else finishReason
    error :=
      if finishReason = "error" ∨ error ≠ "" then (if error = "" then errorFrameText else error) else turn.error
    finished := true }

def addTokens (a : ℤ) (b : Int64) : ℤ := (a + b.toInt).bmod (2 ^ 64)

def addUsage (tokens : TokenCounts) : Option Usage → TokenCounts
  | none => tokens
  | some usage =>
    ⟨addTokens tokens.prompt usage.promptTokens, addTokens tokens.candidates usage.candidatesTokens,
      addTokens tokens.total usage.totalTokens⟩

def applyAssistantMessage (correlationID : String) (text : Text) (finishReason error : String)
    (usage : Option Usage) : State V :=
  if (findTurn st correlationID).isNone then st
  else
    { st.updateTurn correlationID (finishTurn text finishReason error) with
      sessionTokens := addUsage st.sessionTokens usage }

def applyCommandRequest (correlationID id tool : String) (args : List (String × V)) : State V :=
  st.updateTurn correlationID fun turn => { turn with toolCalls := turn.toolCalls ++ [newToolCall id tool args] }

def mergeChunkIntoToolCall (c : ToolCall V) (stream : String) (data : Text) : ToolCall V :=
  mergeChunk utf8Length c (.ofName stream) data

def applyCommandChunk (correlationID stream : String) (data : Text) : State V :=
  st.updateToolCall correlationID fun call => mergeChunkIntoToolCall call stream data

def applyCommandResult (correlationID : String) (exitCode durationMs : Int64) (error errorMessage : String) : State V :=
  st.updateToolCall correlationID fun call =>
    { call with
      result := some ⟨exitCode.toInt, durationMs.toInt, error, errorMessage⟩
      awaitingApproval := false }

def applySandboxHeartbeat (correlationID : String) (elapsedMs : Int64) : State V :=
  st.updateToolCall correlationID fun call => { call with elapsedMs := elapsedMs.toInt }

def extractPreview : Option ApprovalPreview → Option ApprovalPreview
  | none => none
  | some p =>
    if p.path = "" ∧ p.unifiedDiff = "" ∧ p.verifyCommand = "" ∧ p.lineNumber = 0 then none else some p

def approvalTimeout (timeoutMs : Option Int64) : ℤ :=
  let timeoutMs := (timeoutMs.getD 0).toInt
  if timeoutMs ≤ 0 then 60000 else timeoutMs

def applyToolApprovalRequest (now : Int64) (id tool : String) (args : List (String × V))
    (reason pendingCommandID : String) (timeoutMs : Option Int64) (preview : Option ApprovalPreview) : State V :=
  let request : ApprovalRequest V :=
    ⟨id, pendingCommandID, tool, args, reason, (now.toInt + approvalTimeout timeoutMs).bmod (2 ^ 64),
      extractPreview preview⟩
  State.updateToolCall { st with pendingApprovals := st.pendingApprovals ++ [request] } pendingCommandID fun call =>
    { call with awaitingApproval := true }

def applyError (message : String) : State V := { st with lastError := message }

def applyAck (action error model : String) : State V :=
  if action = setModelAction ∧ error = "" ∧ model ≠ "" then { st with model := model } else st

def applyPayload (now : Int64) (id correlationID : String) : Payload V → State V
  | .hello sessionID provider model availableModels => applyHello st sessionID provider model availableModels
  | .assistantChunk text => applyAssistantChunk st correlationID text
  | .assistantMessage text finishReason error usage =>
    applyAssistantMessage st correlationID text finishReason error usage
  | .commandRequest tool args => applyCommandRequest st correlationID id tool args
  | .commandChunk stream data => applyCommandChunk st correlationID stream data
  | .commandResult exitCode durationMs error errorMessage =>
    applyCommandResult st correlationID exitCode durationMs error errorMessage
  | .sandboxHeartbeat elapsedMs => applySandboxHeartbeat st correlationID elapsedMs
  | .toolApprovalRequest tool args reason pendingCommandID timeoutMs preview =>
    applyToolApprovalRequest st now id tool args reason pendingCommandID timeoutMs preview
  | .error _ message => applyError st message
  | .ack action error _ model => applyAck st action error model
  | .sessionStale | .sessionReplaced | .other _ => st

def ingest (now : Int64) (env : Envelope V) : State V :=
  applyPayload { st with lastEventID := env.id } now env.id env.correlationID env.payload

def recordSentIntent (intentID text : String) : State V :=
  { st with turns := st.turns ++ [newTurn intentID text] }

def popApproval (envelopeID : String) : State V :=
  { st with pendingApprovals := st.pendingApprovals.eraseP fun a => a.envelopeID = envelopeID }

def resetTurns : State V :=
  { st with turns := [], pendingApprovals := [], sessionTokens := ⟨0, 0, 0⟩ }

def signOut : State V :=
  { st with sessionID := "", lastEventID := "", turns := [], pendingApprovals := [] }

inductive Action (V : Type)
  | inbound (env : Envelope V) (now : Int64)
  | sentIntent (intentID text : String)
  | popApproval (envelopeID : String)
  | resetTurns
  | signOut

def step : Action V → Option (State V)
  | .inbound env now => some (ingest st now env)
  | .sentIntent intentID text => some (recordSentIntent st intentID text)
  | .popApproval envelopeID => some (popApproval st envelopeID)
  | .resetTurns => some (resetTurns st)
  | .signOut => some (signOut st)

end Native

namespace Spa

structure AppState (V : Type) where
  (sessionId provider currentModel : String)
  availableModels : List String
  pendingModel : String
  turns : List (Turn V)
  pendingApprovals : List (ApprovalRequest V)
  sessionTokens : TokenCounts
  lastEventId : String
  lastError : Option (String × String)
  restartPending : Bool

def initial : AppState V where
  sessionId := ""
  provider := ""
  currentModel := ""
  availableModels := []
  pendingModel := ""
  turns := []
  pendingApprovals := []
  sessionTokens := ⟨0, 0, 0⟩
  lastEventId := ""
  lastError := none
  restartPending := false

variable (st : AppState V)

def reset : AppState V :=
  { st with
    turns := []
    pendingApprovals := []
    lastEventId := ""
    lastError := none
    sessionId := ""
    sessionTokens := ⟨0, 0, 0⟩ }

def AppState.mapTurns (intentId : String) (f : Turn V → Turn V) : AppState V :=
  if intentId = "" then st else { st with turns := updateAll (fun t => t.intentID = intentId) f st.turns }

def AppState.mapToolCalls (commandId : String) (f : ToolCall V → ToolCall V) : AppState V :=
  { st with
    turns := st.turns.map fun t => { t with toolCalls := updateAll (fun c => c.commandID = commandId) f t.toolCalls } }

def appendAssistantText (intentId : String) (text : Text) : AppState V :=
  st.mapTurns intentId fun t => { t with assistantText := t.assistantText ++ text }

def readUsage (usage : Usage) : TokenCounts :=
  ⟨toDouble usage.promptTokens.toInt, toDouble usage.candidatesTokens.toInt, toDouble usage.totalTokens.toInt⟩

def finishedTurn (text : Text) (finishReason error : String) (usage : Option Usage) (t : Turn V) : Turn V :=
  { t with
    assistantText := if text = [] then t.assistantText else t.assistantText ++ text
    finished := true
    finishReason := finishReason
    error := error
    usage := usage.map readUsage }

def addUsage (tokens : TokenCounts) : Option Usage → TokenCounts
  | none => tokens
  | some usage =>
    let read := readUsage usage
    ⟨toDouble (tokens.prompt + read.prompt), toDouble (tokens.candidates + read.candidates),
      toDouble (tokens.total + read.total)⟩

def finishTurn (intentId : String) (text : Text) (finishReason error : String) (usage : Option Usage) : AppState V :=
  if intentId = "" then st
  else
    { st.mapTurns intentId (finishedTurn text finishReason error usage) with
      sessionTokens := addUsage st.sessionTokens usage }

def attachToolCall (intentId commandId tool : String) (args : List (String × V)) : AppState V :=
  st.mapTurns intentId fun t => { t with toolCalls := t.toolCalls ++ [newToolCall commandId tool args] }

def mergeChunkIntoToolCall (c : ToolCall V) (stream : String) (data : Text) : ToolCall V :=
  mergeChunk utf16Length c (.ofName stream) data

def appendToolChunk (commandId stream : String) (data : Text) : AppState V :=
  if commandId = "" then st else st.mapToolCalls commandId fun c => mergeChunkIntoToolCall c stream data

def finishToolCall (commandId : String) (exitCode durationMs : Int64) (error errorMessage : String) : AppState V :=
  if commandId = "" then st
  else
    st.mapToolCalls commandId fun c =>
      { c with
        result := some ⟨toDouble exitCode.toInt, toDouble durationMs.toInt, error, errorMessage⟩
        awaitingApproval := false }

def applyHeartbeat (commandId : String) (elapsedMs : Int64) : AppState V :=
  if commandId = "" then st
  else st.mapToolCalls commandId fun c => { c with elapsedMs := toDouble elapsedMs.toInt }

def markAwaitingApproval (commandId : String) (value : Bool) : AppState V :=
  st.mapToolCalls commandId fun c => { c with awaitingApproval := value }

def requestApproval (now : Int64) (id tool : String) (args : List (String × V))
    (reason pendingCommandId : String) (timeoutMs : Option Int64) (preview : Option ApprovalPreview) : AppState V :=
  let deadlineMs := toDouble (toDouble now.toInt + toDouble (timeoutMs.getD 60000).toInt)
  let request : ApprovalRequest V := ⟨id, pendingCommandId, tool, args, reason, deadlineMs, preview⟩
  markAwaitingApproval { st with pendingApprovals := st.pendingApprovals ++ [request] } pendingCommandId true

def ackCommand (action error message model : String) : AppState V :=
  if action = setModelAction then
    if error ≠ "" then
      { st with
        pendingModel := ""
        lastError := some (error, if message = "" then "set_model failed" else message) }
    else if model ≠ "" then { st with currentModel := model, pendingModel := "" }
    else st
  else st

def reducePayload (now : Int64) (id correlationId : String) : Payload V → AppState V
  | .hello sessionId provider model availableModels =>
    { st with
      sessionId := sessionId
      provider := provider
      currentModel := model
      availableModels := availableModels
      restartPending := false }
  | .ack action error message model => ackCommand st action error message model
  | .error code message => { st with lastError := some (code, message) }
  | .sessionStale => reset st
  | .sessionReplaced =>
    { st with lastError := some ("session_replaced", "session replaced by newer connection") }
  | .assistantChunk text => appendAssistantText st correlationId text
  | .assistantMessage text finishReason error usage => finishTurn st correlationId text finishReason error usage
  | .commandRequest tool args => attachToolCall st correlationId id tool args
  | .commandChunk stream data => appendToolChunk st correlationId stream data
  | .commandResult exitCode durationMs error errorMessage =>
    finishToolCall st correlationId exitCode durationMs error errorMessage
  | .sandboxHeartbeat elapsedMs => applyHeartbeat st correlationId elapsedMs
  | .toolApprovalRequest tool args reason pendingCommandId timeoutMs preview =>
    requestApproval st now id tool args reason pendingCommandId timeoutMs preview
  | .other _ => st

def ingest (now : Int64) (env : Envelope V) : AppState V :=
  reducePayload { st with lastEventId := env.id } now env.id env.correlationID env.payload

def recordSentIntent (intentId text : String) : AppState V :=
  { st with turns := st.turns ++ [newTurn intentId text] }

def popApproval (envelopeId : String) : AppState V :=
  { st with pendingApprovals := st.pendingApprovals.filter fun a => a.envelopeID ≠ envelopeId }

inductive Action (V : Type)
  | inbound (env : Envelope V) (now : Int64)
  | sentIntent (intentId text : String)
  | popApproval (envelopeId : String)
  | reset

def step : Action V → Option (AppState V)
  | .inbound env now => some (ingest st now env)
  | .sentIntent intentId text => some (recordSentIntent st intentId text)
  | .popApproval envelopeId => some (popApproval st envelopeId)
  | .reset => some (reset st)

end Spa

end NomadDev.Clients
