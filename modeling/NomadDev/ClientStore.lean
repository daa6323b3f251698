import NomadDev.Reducers
import NomadDev.Foundation.Slices

namespace NomadDev.Clients.Shared

open Foundation.Slices Foundation.Lines Heap Slice

variable {V : Type}

structure ImageInput where
  (mediaType data : String)
  deriving DecidableEq, Inhabited

structure CallCell (V : Type) where
  (commandID tool : String)
  args : List (String × V)
  lines : Slice
  lineCount : ℕ
  (stdoutPartial stderrPartial : Text)
  elapsedMs : ℤ
  result : Option CommandResult
  awaitingApproval : Bool
  deriving DecidableEq, Inhabited

structure TurnCell where
  (intentID userText : String)
  userImages : Slice
  assistantText : Text
  toolCalls : Slice
  finished : Bool
  (finishReason error : String)
  deriving DecidableEq, Inhabited

instance : Inhabited TerminalLine := ⟨⟨.stdout, [], 0⟩⟩

instance : Inhabited (ApprovalRequest V) := ⟨⟨"", "", "", [], "", 0, none⟩⟩

structure Memory (V : Type) where
  lines : Heap TerminalLine
  calls : Heap (CallCell V)
  turns : Heap TurnCell
  approvals : Heap (ApprovalRequest V)
  images : Heap ImageInput

structure State where
  (sessionID provider model : String)
  availableModels : List String
  (turns pendingApprovals pendingImages : Slice)
  sessionTokens : TokenCounts
  (lastEventID lastError : String)
  restartPending : Bool

structure Store (V : Type) where
  mem : Memory V
  state : State

structure Growth where
  (lines calls turns approvals images : ℕ → ℕ → ℕ)

def new : Store V where
  mem := ⟨.empty, .empty, .empty, .empty, .empty⟩
  state := ⟨"", "", "", [], default, default, default, ⟨0, 0, 0⟩, "", "", false⟩

def newCall (commandID tool : String) (args : List (String × V)) : CallCell V :=
  { (default : CallCell V) with commandID := commandID, tool := tool, args := args }

def newTurn (intentID text : String) (images : Slice) : TurnCell :=
  { (default : TurnCell) with intentID := intentID, userText := text, userImages := images }

def TurnCell.addText (text : Text) (t : TurnCell) : TurnCell := { t with assistantText := t.assistantText ++ text }

def TurnCell.finish (text : Text) (finishReason error : String) (t : TurnCell) : TurnCell :=
  { t with
    assistantText := if text = [] then t.assistantText else text
    finishReason := if finishReason = "" then t.finishReason else finishReason
    error :=
      if finishReason = "error" ∨ error ≠ "" then (if error = "" then Native.errorFrameText else error) else t.error
    finished := true }

def CallCell.setResult (exitCode durationMs : Int64) (error errorMessage : String) (c : CallCell V) : CallCell V :=
  { c with
    result := some ⟨exitCode.toInt, durationMs.toInt, error, errorMessage⟩
    awaitingApproval := false }

def CallCell.setElapsed (elapsedMs : Int64) (c : CallCell V) : CallCell V := { c with elapsedMs := elapsedMs.toInt }

def CallCell.await (c : CallCell V) : CallCell V := { c with awaitingApproval := true }

def CallCell.carry (c : CallCell V) : Stream → Text
  | .stdout => c.stdoutPartial
  | .stderr => c.stderrPartial

def CallCell.setCarry (c : CallCell V) : Stream → Text → CallCell V
  | .stdout, text => { c with stdoutPartial := text }
  | .stderr, text => { c with stderrPartial := text }

def addLines (grow : ℕ → ℕ → ℕ) (h : Heap TerminalLine) (lines : Slice) (additions : List TerminalLine) :
    Heap TerminalLine × Slice :=
  if additions = [] then (h, lines)
  else
    let merged := h.append grow lines additions
    if merged.2.len > terminalLineCap then (merged.1, merged.2.drop (merged.2.len - terminalLineCap)) else merged

def mergeChunkIntoToolCall (grow : ℕ → ℕ → ℕ) (h : Heap TerminalLine) (c : CallCell V) (stream : String)
    (data : Text) : Heap TerminalLine × CallCell V :=
  let stream := Stream.ofName stream
  let buf := c.carry stream ++ data
  let nextPartial := fragment '\n' buf
  let overflow := utf8Length nextPartial > partialLineCap
  let texts := completed '\n' buf ++ if overflow then [nextPartial] else []
  let merged := addLines grow h c.lines (numbered stream c.lineCount texts)
  let carried := c.setCarry stream (if overflow then [] else nextPartial)
  (merged.1, { carried with lines := merged.2, lineCount := c.lineCount + texts.length })

structure ScalarTurn (f : TurnCell → TurnCell) : Prop where
  calls : ∀ t, (f t).toolCalls = t.toolCalls
  images : ∀ t, (f t).userImages = t.userImages

theorem scalar_addText (text : Text) : ScalarTurn (TurnCell.addText text) := ⟨fun _ => rfl, fun _ => rfl⟩

theorem scalar_finish (text : Text) (finishReason error : String) :
    ScalarTurn (TurnCell.finish text finishReason error) := ⟨fun _ => rfl, fun _ => rfl⟩

structure ScalarCall (f : CallCell V → CallCell V) : Prop where
  lines : ∀ c, (f c).lines = c.lines
  carry : ∀ c stream, (f c).carry stream = c.carry stream

theorem scalar_setResult (exitCode durationMs : Int64) (error errorMessage : String) :
    ScalarCall (V := V) (CallCell.setResult exitCode durationMs error errorMessage) :=
  ⟨fun _ => rfl, fun _ stream => by cases stream <;> rfl⟩

theorem scalar_setElapsed (elapsedMs : Int64) : ScalarCall (V := V) (CallCell.setElapsed elapsedMs) :=
  ⟨fun _ => rfl, fun _ stream => by cases stream <;> rfl⟩

theorem scalar_await : ScalarCall (V := V) CallCell.await := ⟨fun _ => rfl, fun _ stream => by cases stream <;> rfl⟩

section Lines

variable {grow : ℕ → ℕ → ℕ} {h : Heap TerminalLine} {lines t : Slice} {additions : List TerminalLine}
  {cells : List Addr}

theorem addLines_cases (grow : ℕ → ℕ → ℕ) (h : Heap TerminalLine) (lines : Slice) (additions : List TerminalLine) :
    addLines grow h lines additions = (h, lines) ∨ ∃ n ≤ (h.append grow lines additions).2.len,
      addLines grow h lines additions =
        ((h.append grow lines additions).1, (h.append grow lines additions).2.drop n) := by
  unfold addLines
  split
  · exact .inl rfl
  right
  dsimp only
  split
  · exact ⟨_, Nat.sub_le _ _, rfl⟩
  · exact ⟨0, Nat.zero_le _, rfl⟩

theorem next_le_addLines : h.next ≤ (addLines grow h lines additions).1.next := by
  rcases addLines_cases grow h lines additions with heq | ⟨n, -, heq⟩
  · rw [heq]
  · rw [heq]
    exact next_le_append

theorem addLines_ok (hok : lines.Ok h.next) :
    (addLines grow h lines additions).2.Ok (addLines grow h lines additions).1.next := by
  rcases addLines_cases grow h lines additions with heq | ⟨n, -, heq⟩
  · rw [heq]
    exact hok
  · rw [heq]
    exact (append_ok hok).drop n

theorem addLines_apart (hapart : lines.Apart t) (ht : t.Ok h.next) : (addLines grow h lines additions).2.Apart t := by
  rcases addLines_cases grow h lines additions with heq | ⟨n, -, heq⟩
  · rw [heq]
    exact hapart
  · rw [heq]
    exact (append_apart hapart ht).drop n

theorem addLines_clear (hclear : lines.Clear cells) (hcells : ∀ a ∈ cells, a.1 < h.next) :
    (addLines grow h lines additions).2.Clear cells := by
  rcases addLines_cases grow h lines additions with heq | ⟨n, hn, heq⟩
  · rw [heq]
    exact hclear
  · rw [heq]
    exact (append_clear hclear hcells).drop hn

theorem addLines_cell_of_clear (hclear : lines.Clear cells) (hcells : ∀ a ∈ cells, a.1 < h.next) :
    ∀ a ∈ cells, (addLines grow h lines additions).1.cell a = h.cell a := by
  rcases addLines_cases grow h lines additions with heq | ⟨n, -, heq⟩
  · rw [heq]
    exact fun _ _ => rfl
  · rw [heq]
    exact append_cell_of_clear hclear hcells

theorem read_addLines : (addLines grow h lines additions).1.read (addLines grow h lines additions).2 =
      keepLast (h.read lines) additions := by
  have happend : (h.append grow lines additions).1.read (h.append grow lines additions).2 = h.read lines ++ additions :=
    read_append
  unfold addLines keepLast
  split
  · rfl
  dsimp only
  rw [← happend, length_read]
  split
  · exact read_drop
  · rfl

end Lines

def Memory.callAddrs (m : Memory V) (turns : Slice) : List Addr :=
  turns.addrs.flatMap fun a => (m.turns.cell a).toolCalls.addrs

def Memory.lineAddrs (m : Memory V) (turns : Slice) : List Addr :=
  (m.callAddrs turns).flatMap fun b => (m.calls.cell b).lines.addrs

def Memory.imageAddrs (m : Memory V) (st : State) : List Addr :=
  st.pendingImages.addrs ++ st.turns.addrs.flatMap fun a => (m.turns.cell a).userImages.addrs

def Store.findTurn (s : Store V) (correlationID : String) : Option Addr :=
  if correlationID = "" then none
  else s.state.turns.addrs.find? fun a => (s.mem.turns.cell a).intentID = correlationID

def Store.findToolCall (s : Store V) (commandID : String) : Option Addr :=
  if commandID = "" then none
  else (s.mem.callAddrs s.state.turns).find? fun b => (s.mem.calls.cell b).commandID = commandID

section Writes

variable (s : Store V)

def Store.writeTurn (a : Addr) (t : TurnCell) : Store V :=
  { s with mem := { s.mem with turns := s.mem.turns.write a t } }

def Store.writeCall (b : Addr) (c : CallCell V) : Store V :=
  { s with mem := { s.mem with calls := s.mem.calls.write b c } }

def Store.putApprovals (p : Heap (ApprovalRequest V) × Slice) : Store V :=
  ⟨{ s.mem with approvals := p.1 }, { s.state with pendingApprovals := p.2 }⟩

def Store.putImages (p : Heap ImageInput × Slice) : Store V :=
  ⟨{ s.mem with images := p.1 }, { s.state with pendingImages := p.2 }⟩

def Store.updateTurn (correlationID : String) (f : TurnCell → TurnCell) : Store V :=
  match s.findTurn correlationID with
  | none => s
  | some a => s.writeTurn a (f (s.mem.turns.cell a))

def Store.updateToolCall (commandID : String) (f : CallCell V → CallCell V) : Store V :=
  match s.findToolCall commandID with
  | none => s
  | some b => s.writeCall b (f (s.mem.calls.cell b))

variable (g : Growth)

def Store.addCall (s : Store V) (a : Addr) (c : CallCell V) : Store V :=
  let t := s.mem.turns.cell a
  let added := s.mem.calls.append g.calls t.toolCalls [c]
  Store.writeTurn { s with mem := { s.mem with calls := added.1 } } a { t with toolCalls := added.2 }

def Store.mergeChunk (s : Store V) (b : Addr) (stream : String) (data : Text) : Store V :=
  let merged := mergeChunkIntoToolCall g.lines s.mem.lines (s.mem.calls.cell b) stream data
  Store.writeCall { s with mem := { s.mem with lines := merged.1 } } b merged.2

def Store.addTurn (s : Store V) (t : TurnCell) : Store V :=
  let added := s.mem.turns.append g.turns s.state.turns [t]
  ⟨{ s.mem with turns := added.1 }, { s.state with turns := added.2 }⟩

end Writes

section Reducer

variable (g : Growth) (s : Store V)

def applyHello (sessionID provider model : String) (availableModels : List String) : Store V :=
  { s with
    state := { s.state with
      sessionID := sessionID
      provider := if provider = "" then s.state.provider else provider
      model := if model = "" then s.state.model else model
      availableModels := if availableModels = [] then s.state.availableModels else availableModels
      lastError := ""
      restartPending := false } }

def applyAssistantChunk (correlationID : String) (text : Text) : Store V :=
  s.updateTurn correlationID (TurnCell.addText text)

def applyAssistantMessage (correlationID : String) (text : Text) (finishReason error : String)
    (usage : Option Usage) : Store V :=
  if (s.findTurn correlationID).isNone then s
  else
    let s := s.updateTurn correlationID (TurnCell.finish text finishReason error)
    { s with state := { s.state with sessionTokens := Native.addUsage s.state.sessionTokens usage } }

def applyCommandRequest (correlationID id tool : String) (args : List (String × V)) : Store V :=
  match s.findTurn correlationID with
  | none => s
  | some a => s.addCall g a (newCall id tool args)

def applyCommandChunk (correlationID stream : String) (data : Text) : Store V :=
  match s.findToolCall correlationID with
  | none => s
  | some b => s.mergeChunk g b stream data

def applyCommandResult (correlationID : String) (exitCode durationMs : Int64) (error errorMessage : String) : Store V :=
  s.updateToolCall correlationID (CallCell.setResult exitCode durationMs error errorMessage)

def applySandboxHeartbeat (correlationID : String) (elapsedMs : Int64) : Store V :=
  s.updateToolCall correlationID (CallCell.setElapsed elapsedMs)

def approvalRequest (now : Int64) (id tool : String) (args : List (String × V)) (reason pendingCommandID : String)
    (timeoutMs : Option Int64) (preview : Option ApprovalPreview) : ApprovalRequest V :=
  ⟨id, pendingCommandID, tool, args, reason, (now.toInt + Native.approvalTimeout timeoutMs).bmod (2 ^ 64),
    Native.extractPreview preview⟩

def applyToolApprovalRequest (request : ApprovalRequest V) : Store V :=
  let s := s.putApprovals (s.mem.approvals.append g.approvals s.state.pendingApprovals [request])
  s.updateToolCall request.pendingCommandID CallCell.await

def applyError (message : String) : Store V := { s with state := { s.state with lastError := message } }

def applyAck (action error model : String) : Store V :=
  if action = setModelAction ∧ error = "" ∧ model ≠ "" then { s with state := { s.state with model := model } } else s

def applyPayload (now : Int64) (id correlationID : String) : Payload V → Store V
  | .hello sessionID provider model availableModels => applyHello s sessionID provider model availableModels
  | .assistantChunk text => applyAssistantChunk s correlationID text
  | .assistantMessage text finishReason error usage =>
    applyAssistantMessage s correlationID text finishReason error usage
  | .commandRequest tool args => applyCommandRequest g s correlationID id tool args
  | .commandChunk stream data => applyCommandChunk g s correlationID stream data
  | .commandResult exitCode durationMs error errorMessage =>
    applyCommandResult s correlationID exitCode durationMs error errorMessage
  | .sandboxHeartbeat elapsedMs => applySandboxHeartbeat s correlationID elapsedMs
  | .toolApprovalRequest tool args reason pendingCommandID timeoutMs preview =>
    applyToolApprovalRequest g s (approvalRequest now id tool args reason pendingCommandID timeoutMs preview)
  | .error _ message => applyError s message
  | .ack action error _ model => applyAck s action error model
  | .sessionStale | .sessionReplaced | .other _ => s

def ingest (now : Int64) (env : Envelope V) : Store V :=
  applyPayload g { s with state := { s.state with lastEventID := env.id } } now env.id env.correlationID env.payload

def popApproval (envelopeID : String) : Store V :=
  match (s.mem.approvals.read s.state.pendingApprovals).findIdx? fun a => a.envelopeID = envelopeID with
  | none => s
  | some i => s.putApprovals (s.mem.approvals.delete g.approvals s.state.pendingApprovals i)

def maxImageCount : ℕ := 4

def maxImageBytes : ℤ := 5 * 1024 * 1024

def isAcceptedImageMIME (mediaType : String) : Bool :=
  mediaType ∈ ["image/jpeg", "image/png", "image/gif", "image/webp"]

def addPendingImage (img : ImageInput) (decodedBytes : ℤ) : Store V :=
  if ¬ isAcceptedImageMIME img.mediaType ∨ decodedBytes > maxImageBytes ∨
      s.state.pendingImages.len ≥ maxImageCount then s
  else s.putImages (s.mem.images.append g.images s.state.pendingImages [img])

def removePendingImage (idx : ℤ) : Store V :=
  if idx < 0 ∨ idx ≥ s.state.pendingImages.len then s
  else s.putImages (s.mem.images.delete g.images s.state.pendingImages idx.toNat)

def takePendingImages : Store V := { s with state := { s.state with pendingImages := default } }

def recordSentIntent (intentID text : String) (images : Slice) : Store V :=
  s.addTurn g (newTurn intentID text images)

def resetTurns : Store V :=
  { s with state := { s.state with turns := default, pendingApprovals := default, sessionTokens := ⟨0, 0, 0⟩ } }

def signOut : Store V :=
  { s with
    state := { s.state with
      sessionID := ""
      lastEventID := ""
      turns := default
      pendingApprovals := default
      pendingImages := default } }

inductive Action (V : Type)
  | inbound (env : Envelope V) (now : Int64)
  | sentIntent (intentID text : String) (images : Slice)
  | popApproval (envelopeID : String)
  | addPendingImage (img : ImageInput) (decodedBytes : ℤ)
  | removePendingImage (idx : ℤ)
  | takePendingImages
  | resetTurns
  | signOut
  | makeImages (images : List ImageInput)

def step : Action V → Option (Store V)
  | .inbound env now => some (ingest g s now env)
  | .sentIntent intentID text images =>
    if images.Ok s.mem.images.next then some (recordSentIntent g s intentID text images) else none
  | .popApproval envelopeID => some (popApproval g s envelopeID)
  | .addPendingImage img decodedBytes => some (addPendingImage g s img decodedBytes)
  | .removePendingImage idx => some (removePendingImage g s idx)
  | .takePendingImages => some (takePendingImages s)
  | .resetTurns => some (resetTurns s)
  | .signOut => some (signOut s)
  | .makeImages images =>
    some { s with mem := { s.mem with images := (s.mem.images.append g.images default images).1 } }

end Reducer

def CallCell.toCall (c : CallCell V) (lines : List TerminalLine) : ToolCall V where
  commandID := c.commandID
  tool := c.tool
  args := c.args
  lines := lines
  lineCount := c.lineCount
  stdoutPartial := c.stdoutPartial
  stderrPartial := c.stderrPartial
  elapsedMs := c.elapsedMs
  result := c.result
  awaitingApproval := c.awaitingApproval

def TurnCell.toTurn (t : TurnCell) (toolCalls : List (ToolCall V)) : Turn V where
  intentID := t.intentID
  userText := t.userText
  assistantText := t.assistantText
  toolCalls := toolCalls
  finished := t.finished
  finishReason := t.finishReason
  error := t.error
  usage := none

def Memory.call (m : Memory V) (c : CallCell V) : ToolCall V := c.toCall (m.lines.read c.lines)

def Memory.turn (m : Memory V) (t : TurnCell) : Turn V := t.toTurn ((m.calls.read t.toolCalls).map m.call)

theorem mergeChunkIntoToolCall_toCall (grow : ℕ → ℕ → ℕ) (h : Heap TerminalLine) (c : CallCell V) (stream : String)
    (data : Text) :
    (mergeChunkIntoToolCall grow h c stream data).2.toCall
        ((mergeChunkIntoToolCall grow h c stream data).1.read (mergeChunkIntoToolCall grow h c stream data).2.lines) =
      Native.mergeChunkIntoToolCall (c.toCall (h.read c.lines)) stream data := by
  unfold mergeChunkIntoToolCall Native.mergeChunkIntoToolCall Clients.mergeChunk
  dsimp only
  rw [read_addLines]
  cases Stream.ofName stream <;> rfl

variable {t : TurnCell} {c : CallCell V}

section Invariant

structure HeadOk (m : Memory V) (st : State) : Prop where
  turns : st.turns.Ok m.turns.next
  approvals : st.pendingApprovals.Ok m.approvals.next
  images : st.pendingImages.Ok m.images.next

/-- No two turns of the store share an array of tool calls, and no two calls an array of lines. -/
structure Sep (s : Store V) : Prop where
  calls_ok : ∀ a, (s.mem.turns.cell a).toolCalls.Ok s.mem.calls.next
  images_ok : ∀ a, (s.mem.turns.cell a).userImages.Ok s.mem.images.next
  lines_ok : ∀ b, (s.mem.calls.cell b).lines.Ok s.mem.lines.next
  waiting : ∀ b, ((s.mem.calls.cell b).toCall []).Waiting utf8Length
  head : HeadOk s.mem s.state
  calls_apart : ∀ a ∈ s.state.turns.addrs, ∀ a' ∈ s.state.turns.addrs, a ≠ a' →
    (s.mem.turns.cell a).toolCalls.Apart (s.mem.turns.cell a').toolCalls
  lines_apart : ∀ b ∈ s.mem.callAddrs s.state.turns, ∀ b' ∈ s.mem.callAddrs s.state.turns, b ≠ b' →
    (s.mem.calls.cell b).lines.Apart (s.mem.calls.cell b').lines

variable {s : Store V} {a b x : Addr} {m : Memory V} {turns : Slice} {g : Growth} {stream : String} {data : Text}

theorem mem_callAddrs :
    b ∈ m.callAddrs turns ↔ ∃ a ∈ turns.addrs, b ∈ (m.turns.cell a).toolCalls.addrs := List.mem_flatMap

theorem mem_of_findTurn {correlationID : String} (h : s.findTurn correlationID = some a) : a ∈ s.state.turns.addrs := by
  unfold Store.findTurn at h
  split at h
  · cases h
  · exact List.mem_of_find?_eq_some h

theorem mem_of_findToolCall {commandID : String} (h : s.findToolCall commandID = some b) :
    b ∈ s.mem.callAddrs s.state.turns := by
  unfold Store.findToolCall at h
  split at h
  · cases h
  · exact List.mem_of_find?_eq_some h

theorem sep_new : Sep (new : Store V) where
  calls_ok _ := ok_default _
  images_ok _ := ok_default _
  lines_ok _ := ok_default _
  waiting _ := waiting_newToolCall rfl "" "" []
  head := ⟨ok_default _, ok_default _, ok_default _⟩
  calls_apart _ ha := by cases ha
  lines_apart _ hb := by cases hb

theorem callAddrs_mono {turns' : Slice} (h : ∀ a ∈ turns.addrs, a ∈ turns'.addrs) (hb : b ∈ m.callAddrs turns) :
    b ∈ m.callAddrs turns' := by
  obtain ⟨a, ha, hba⟩ := mem_callAddrs.mp hb
  exact mem_callAddrs.mpr ⟨a, h a ha, hba⟩

theorem writeTurn_toolCalls (ht : t.toolCalls = (s.mem.turns.cell a).toolCalls) (x : Addr) :
    ((s.writeTurn a t).mem.turns.cell x).toolCalls = (s.mem.turns.cell x).toolCalls := by
  by_cases hx : x = a
  · subst hx
    rw [← ht]
    exact congrArg TurnCell.toolCalls write_cell_self
  · exact congrArg TurnCell.toolCalls (write_cell_of_ne hx)

theorem writeTurn_callAddrs (ht : t.toolCalls = (s.mem.turns.cell a).toolCalls) (turns : Slice) :
    (s.writeTurn a t).mem.callAddrs turns = s.mem.callAddrs turns := by
  simp only [Memory.callAddrs, writeTurn_toolCalls ht]

theorem Sep.writeTurn (h : Sep s) (hcalls : t.toolCalls = (s.mem.turns.cell a).toolCalls)
    (himages : t.userImages = (s.mem.turns.cell a).userImages) : Sep (s.writeTurn a t) where
  calls_ok x := by
    rw [writeTurn_toolCalls hcalls]
    exact h.calls_ok x
  images_ok := forall_cell_write (P := fun t : TurnCell => t.userImages.Ok s.mem.images.next) h.images_ok
    (himages ▸ h.images_ok a)
  lines_ok := h.lines_ok
  waiting := h.waiting
  head := { h.head with }
  calls_apart x hx x' hx' hne := by
    rw [writeTurn_toolCalls hcalls, writeTurn_toolCalls hcalls]
    exact h.calls_apart x hx x' hx' hne
  lines_apart := by
    rw [writeTurn_callAddrs hcalls]
    exact h.lines_apart

theorem writeCall_lines (hc : c.lines = (s.mem.calls.cell b).lines) (x : Addr) :
    ((s.writeCall b c).mem.calls.cell x).lines = (s.mem.calls.cell x).lines := by
  by_cases hx : x = b
  · subst hx
    rw [← hc]
    exact congrArg CallCell.lines write_cell_self
  · exact congrArg CallCell.lines (write_cell_of_ne hx)

theorem Sep.writeCall (h : Sep s) (hlines : c.lines = (s.mem.calls.cell b).lines)
    (hwaiting : (c.toCall []).Waiting utf8Length) : Sep (s.writeCall b c) where
  calls_ok := h.calls_ok
  images_ok := h.images_ok
  lines_ok x := by
    rw [writeCall_lines hlines]
    exact h.lines_ok x
  waiting := forall_cell_write (P := fun c : CallCell V => (c.toCall []).Waiting utf8Length) h.waiting hwaiting
  head := { h.head with }
  calls_apart := h.calls_apart
  lines_apart x hx x' hx' hne := by
    rw [writeCall_lines hlines, writeCall_lines hlines]
    exact h.lines_apart x hx x' hx' hne

theorem Sep.callAddr_ne (h : Sep s) {a' : Addr} {i j : ℕ} (ha : a ∈ s.state.turns.addrs)
    (ha' : a' ∈ s.state.turns.addrs) (hi : i < (s.mem.turns.cell a).toolCalls.len)
    (hj : j < (s.mem.turns.cell a').toolCalls.len) (hne : a ≠ a' ∨ i ≠ j) :
    (s.mem.turns.cell a).toolCalls.addr i ≠ (s.mem.turns.cell a').toolCalls.addr j := by
  by_cases haa : a = a'
  · subst haa
    exact fun heq => hne.elim (fun hne => hne rfl) fun hne => hne (addr_inj.mp heq)
  · exact (h.calls_apart a ha a' ha' haa).addr_ne (h.calls_ok a) (h.calls_ok a') hi hj

theorem Sep.append_call_other (h : Sep s) {grow : ℕ → ℕ → ℕ} {vs : List (CallCell V)} (ha : a ∈ s.state.turns.addrs)
    (hx : x ∈ s.state.turns.addrs) (hne : x ≠ a) (hb : b ∈ (s.mem.turns.cell x).toolCalls.addrs) :
    (s.mem.calls.append grow (s.mem.turns.cell a).toolCalls vs).1.cell b = s.mem.calls.cell b := by
  have hclear := (h.calls_apart a ha x hx hne.symm).clear (h.calls_ok x)
  exact append_cell_of_clear hclear (fun _ => (h.calls_ok x).addr_lt) b hb

theorem addCall_toolCalls (g : Growth) (c : CallCell V) (x : Addr) : ((s.addCall g a c).mem.turns.cell x).toolCalls =
      if x = a then (s.mem.calls.append g.calls (s.mem.turns.cell a).toolCalls [c]).2
      else (s.mem.turns.cell x).toolCalls := by
  by_cases hx : x = a
  · subst hx
    rw [if_pos rfl]
    exact congrArg TurnCell.toolCalls write_cell_self
  · rw [if_neg hx]
    exact congrArg TurnCell.toolCalls (write_cell_of_ne hx)

theorem Sep.addCall_origin (h : Sep s) (g : Growth) (ha : a ∈ s.state.turns.addrs)
    (hb : b ∈ (s.addCall g a c).mem.callAddrs s.state.turns) :
    (s.addCall g a c).mem.calls.cell b = c ∨ ∃ x ∈ s.state.turns.addrs, ∃ i < (s.mem.turns.cell x).toolCalls.len,
        b = ((s.addCall g a c).mem.turns.cell x).toolCalls.addr i ∧
        (s.addCall g a c).mem.calls.cell b = s.mem.calls.cell ((s.mem.turns.cell x).toolCalls.addr i) := by
  obtain ⟨x, hx, hbx⟩ := mem_callAddrs.mp hb
  obtain ⟨i, hi, rfl⟩ := mem_addrs.mp hbx
  rw [addCall_toolCalls] at hi ⊢
  by_cases hxa : x = a
  · subst hxa
    rw [if_pos rfl] at hi ⊢
    by_cases hold : i < (s.mem.turns.cell x).toolCalls.len
    · refine .inr ⟨x, hx, i, hold, ?_, append_cell_old hold⟩
      rw [addCall_toolCalls, if_pos rfl]
    · rw [append_len, List.length_singleton] at hi
      obtain rfl : i = (s.mem.turns.cell x).toolCalls.len + 0 := by omega
      exact .inl (append_cell_new rfl)
  · rw [if_neg hxa] at hi ⊢
    refine .inr ⟨x, hx, i, hi, ?_, h.append_call_other ha hx hxa (addr_mem hi)⟩
    rw [addCall_toolCalls, if_neg hxa]

theorem Sep.addCall (h : Sep s) (g : Growth) (ha : a ∈ s.state.turns.addrs)
    (hlines : c.lines = default) (hwaiting : (c.toCall []).Waiting utf8Length) : Sep (s.addCall g a c) where
  calls_ok x := by
    rw [addCall_toolCalls]
    split
    · exact append_ok (h.calls_ok a)
    · exact (h.calls_ok x).mono next_le_append
  images_ok := forall_cell_write (P := fun t : TurnCell => t.userImages.Ok s.mem.images.next) h.images_ok
    (h.images_ok a)
  lines_ok := forall_cell_append (P := fun c : CallCell V => c.lines.Ok s.mem.lines.next) h.lines_ok fun v hv => by
      rw [List.mem_singleton.mp hv, hlines]
      exact ok_default _
  waiting := forall_cell_append (P := fun c : CallCell V => (c.toCall []).Waiting utf8Length) h.waiting fun v hv => by
      rw [List.mem_singleton.mp hv]
      exact hwaiting
  head := { h.head with }
  calls_apart x hx x' hx' hne := by
    rw [addCall_toolCalls, addCall_toolCalls]
    by_cases hxa : x = a
    · subst hxa
      rw [if_pos rfl, if_neg hne.symm]
      exact append_apart (h.calls_apart x hx x' hx' hne) (h.calls_ok x')
    · rw [if_neg hxa]
      split
      next hxa' =>
        subst hxa'
        exact (append_apart (h.calls_apart x' hx' x hx hne.symm) (h.calls_ok x)).symm
      next => exact h.calls_apart x hx x' hx' hne
  lines_apart b hb b' hb' hne := by
    rcases h.addCall_origin g ha hb with hnew | ⟨x, hx, i, hi, rfl, hcell⟩
    · rw [hnew, hlines]
      exact apart_default _
    rcases h.addCall_origin g ha hb' with hnew | ⟨x', hx', i', hi', rfl, hcell'⟩
    · rw [hnew, hlines]
      exact (apart_default _).symm
    rw [hcell, hcell']
    refine h.lines_apart _ (mem_callAddrs.mpr ⟨x, hx, addr_mem hi⟩) _
      (mem_callAddrs.mpr ⟨x', hx', addr_mem hi'⟩) (h.callAddr_ne hx hx' hi hi' ?_)
    by_contra hsame
    simp only [not_or, not_not] at hsame
    obtain ⟨rfl, rfl⟩ := hsame
    exact hne rfl

theorem mergeChunkIntoToolCall_waiting (grow : ℕ → ℕ → ℕ) (h : Heap TerminalLine)
    (hc : (c.toCall []).Waiting utf8Length) (stream : String) (data : Text) :
    ((mergeChunkIntoToolCall grow h c stream data).2.toCall []).Waiting utf8Length := by
  have hmerge := hc.mergeChunk rfl (.ofName stream) data
  intro other
  have hother := hmerge other
  unfold mergeChunkIntoToolCall
  cases hstream : Stream.ofName stream <;> cases other <;> rw [hstream] at hother <;> exact hother

theorem mergeChunk_cell_of_ne {y : Addr} (hy : y ≠ b) :
    (s.mergeChunk g b stream data).mem.calls.cell y = s.mem.calls.cell y := write_cell_of_ne hy

theorem mergeChunk_cell_self : (s.mergeChunk g b stream data).mem.calls.cell b =
      (mergeChunkIntoToolCall g.lines s.mem.lines (s.mem.calls.cell b) stream data).2 := write_cell_self

theorem Sep.mergeChunk (h : Sep s) (g : Growth) (hb : b ∈ s.mem.callAddrs s.state.turns) (stream : String)
    (data : Text) : Sep (s.mergeChunk g b stream data) where
  calls_ok := h.calls_ok
  images_ok := h.images_ok
  lines_ok := forall_cell_write
    (P := fun c : CallCell V => c.lines.Ok (s.mergeChunk g b stream data).mem.lines.next)
    (fun x => (h.lines_ok x).mono next_le_addLines) (addLines_ok (h.lines_ok b))
  waiting := forall_cell_write (P := fun c : CallCell V => (c.toCall []).Waiting utf8Length) h.waiting
    (mergeChunkIntoToolCall_waiting g.lines s.mem.lines (h.waiting b) stream data)
  head := { h.head with }
  calls_apart := h.calls_apart
  lines_apart x hx x' hx' hne := by
    by_cases hxb : x = b
    · subst hxb
      rw [mergeChunk_cell_self, mergeChunk_cell_of_ne hne.symm]
      exact addLines_apart (h.lines_apart x hx x' hx' hne) (h.lines_ok x')
    · rw [mergeChunk_cell_of_ne hxb]
      by_cases hxb' : x' = b
      · subst hxb'
        rw [mergeChunk_cell_self]
        exact (addLines_apart (h.lines_apart x' hx' x hx hne.symm) (h.lines_ok x)).symm
      · rw [mergeChunk_cell_of_ne hxb']
        exact h.lines_apart x hx x' hx' hne

theorem addTurn_cell (g : Growth) (t : TurnCell) {k : ℕ} (hk : k < s.state.turns.len) :
    (s.addTurn g t).mem.turns.cell ((s.addTurn g t).state.turns.addr k) = s.mem.turns.cell (s.state.turns.addr k) :=
  append_cell_old hk

theorem addTurn_cell_new (g : Growth) (t : TurnCell) :
    (s.addTurn g t).mem.turns.cell ((s.addTurn g t).state.turns.addr s.state.turns.len) = t :=
  append_cell_new (i := 0) rfl

theorem addTurn_addrs (g : Growth) (t : TurnCell) (hx : x ∈ (s.addTurn g t).state.turns.addrs) :
    ∃ k, x = (s.addTurn g t).state.turns.addr k ∧ (k < s.state.turns.len ∨ k = s.state.turns.len) := by
  obtain ⟨k, hk, rfl⟩ := mem_addrs.mp hx
  have hlen : (s.addTurn g t).state.turns.len = s.state.turns.len + 1 := append_len
  exact ⟨k, rfl, by omega⟩

theorem addTurn_callAddrs (g : Growth) (ht : t.toolCalls = default)
    (hb : b ∈ (s.addTurn g t).mem.callAddrs (s.addTurn g t).state.turns) : b ∈ s.mem.callAddrs s.state.turns := by
  obtain ⟨x, hx, hbx⟩ := mem_callAddrs.mp hb
  obtain ⟨k, rfl, hk | rfl⟩ := addTurn_addrs g t hx
  · rw [addTurn_cell g t hk] at hbx
    exact mem_callAddrs.mpr ⟨_, addr_mem hk, hbx⟩
  · rw [addTurn_cell_new, ht] at hbx
    cases hbx

theorem Sep.addTurn (h : Sep s) (g : Growth) (hcalls : t.toolCalls = default)
    (himages : t.userImages.Ok s.mem.images.next) : Sep (s.addTurn g t) where
  calls_ok := forall_cell_append (P := fun t : TurnCell => t.toolCalls.Ok s.mem.calls.next) h.calls_ok fun v hv => by
      rw [List.mem_singleton.mp hv, hcalls]
      exact ok_default _
  images_ok := forall_cell_append (P := fun t : TurnCell => t.userImages.Ok s.mem.images.next) h.images_ok
    fun v hv => by
      rw [List.mem_singleton.mp hv]
      exact himages
  lines_ok := h.lines_ok
  waiting := h.waiting
  head := { h.head with turns := append_ok h.head.turns }
  calls_apart x hx x' hx' hne := by
    obtain ⟨k, rfl, hk | rfl⟩ := addTurn_addrs g t hx
    · obtain ⟨k', rfl, hk' | rfl⟩ := addTurn_addrs g t hx'
      · rw [addTurn_cell g t hk, addTurn_cell g t hk']
        have hkk : k ≠ k' := fun heq => hne (congrArg _ heq)
        exact h.calls_apart _ (addr_mem hk) _ (addr_mem hk') fun heq => hkk (addr_inj.mp heq)
      · rw [addTurn_cell_new, hcalls]
        exact (apart_default _).symm
    · rw [addTurn_cell_new, hcalls]
      exact apart_default _
  lines_apart b hb b' hb' hne :=
    h.lines_apart b (addTurn_callAddrs g hcalls hb) b' (addTurn_callAddrs g hcalls hb') hne

theorem toCall_carry (c : CallCell V) (lines : List TerminalLine) (stream : Stream) :
    (c.toCall lines).carry stream = c.carry stream := by
  cases stream <;> rfl

end Invariant

end NomadDev.Clients.Shared
