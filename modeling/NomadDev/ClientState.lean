import NomadDev.Foundation.Double
import NomadDev.Foundation.Lines

/-!
An optional text that is absent is empty. `V` is the type of the JSON values of a tool's arguments.
-/

namespace NomadDev.Clients

open Foundation.Lines

variable {V : Type}

abbrev Text := List Char

inductive Stream
  | stdout | stderr
  deriving DecidableEq

def Stream.ofName (name : String) : Stream := if name = "stderr" then .stderr else .stdout

structure TerminalLine where
  stream : Stream
  text : Text
  seq : ℕ
  deriving DecidableEq

structure CommandResult where
  (exitCode durationMs : ℤ)
  (error errorMessage : String)
  deriving DecidableEq

structure ToolCall (V : Type) where
  (commandID tool : String)
  args : List (String × V)
  lines : List TerminalLine
  lineCount : ℕ
  (stdoutPartial stderrPartial : Text)
  elapsedMs : ℤ
  result : Option CommandResult
  awaitingApproval : Bool
  deriving DecidableEq

def newToolCall (commandID tool : String) (args : List (String × V)) : ToolCall V where
  commandID := commandID
  tool := tool
  args := args
  lines := []
  lineCount := 0
  stdoutPartial := []
  stderrPartial := []
  elapsedMs := 0
  result := none
  awaitingApproval := false

structure TokenCounts where
  (prompt candidates total : ℤ)
  deriving DecidableEq

structure Turn (V : Type) where
  (intentID userText : String)
  assistantText : Text
  toolCalls : List (ToolCall V)
  finished : Bool
  (finishReason error : String)
  usage : Option TokenCounts
  deriving DecidableEq

def newTurn (intentID text : String) : Turn V where
  intentID := intentID
  userText := text
  assistantText := []
  toolCalls := []
  finished := false
  finishReason := ""
  error := ""
  usage := none

structure ApprovalPreview where
  path : String
  lineNumber : ℕ
  (unifiedDiff verifyCommand : String)
  deriving DecidableEq

structure ApprovalRequest (V : Type) where
  (envelopeID pendingCommandID tool : String)
  args : List (String × V)
  reason : String
  deadlineMs : ℤ
  preview : Option ApprovalPreview
  deriving DecidableEq

structure Usage where
  (promptTokens candidatesTokens totalTokens : Int64)

inductive Payload (V : Type)
  | hello (sessionID provider model : String) (availableModels : List String)
  | ack (action error message model : String)
  | error (code message : String)
  | sessionStale
  | sessionReplaced
  | assistantChunk (text : Text)
  | assistantMessage (text : Text) (finishReason error : String) (usage : Option Usage)
  | commandRequest (tool : String) (args : List (String × V))
  | commandChunk (stream : String) (data : Text)
  | commandResult (exitCode durationMs : Int64) (error errorMessage : String)
  | sandboxHeartbeat (elapsedMs : Int64)
  | toolApprovalRequest (tool : String) (args : List (String × V)) (reason pendingCommandID : String)
      (timeoutMs : Option Int64) (preview : Option ApprovalPreview)
  | other (type : String)

structure Envelope (V : Type) where
  (id correlationID : String)
  payload : Payload V

def setModelAction : String := "set_model"

def terminalLineCap : ℕ := 2000

def partialLineCap : ℕ := 64 * 1024

def utf8Length (text : Text) : ℕ := (text.map Char.utf8Size).sum

def utf16Length (text : Text) : ℕ := (text.map fun c => if c.toNat < 0x10000 then 1 else 2).sum

def ToolCall.carry (c : ToolCall V) : Stream → Text
  | .stdout => c.stdoutPartial
  | .stderr => c.stderrPartial

def ToolCall.setCarry (c : ToolCall V) : Stream → Text → ToolCall V
  | .stdout, text => { c with stdoutPartial := text }
  | .stderr, text => { c with stderrPartial := text }

def numbered (stream : Stream) (first : ℕ) (texts : List Text) : List TerminalLine :=
  (texts.zipIdx first).map fun entry => ⟨stream, entry.1, entry.2⟩

def keepLast (lines additions : List TerminalLine) : List TerminalLine :=
  if additions = [] then lines
  else
    let merged := lines ++ additions
    if merged.length > terminalLineCap then merged.drop (merged.length - terminalLineCap) else merged

def mergeChunk (size : Text → ℕ) (c : ToolCall V) (stream : Stream) (data : Text) : ToolCall V :=
  let buf := c.carry stream ++ data
  let nextPartial := fragment '\n' buf
  let overflow := size nextPartial > partialLineCap
  let texts := completed '\n' buf ++ if overflow then [nextPartial] else []
  let merged := c.setCarry stream (if overflow then [] else nextPartial)
  { merged with
    lines := keepLast c.lines (numbered stream c.lineCount texts)
    lineCount := c.lineCount + texts.length }

section MergeChunk

variable {size size' : Text → ℕ} {c : ToolCall V} {stream : Stream} {data : Text}

theorem setCarry_carry (c : ToolCall V) (stream : Stream) : c.setCarry stream (c.carry stream) = c := by
  cases stream <;> rfl

@[simp] theorem mergeChunk_commandID : (mergeChunk size c stream data).commandID = c.commandID := by
  cases stream <;> rfl

theorem carry_mergeChunk_self : (mergeChunk size c stream data).carry stream =
    if size (fragment '\n' (c.carry stream ++ data)) > partialLineCap then []
    else fragment '\n' (c.carry stream ++ data) := by
  cases stream <;> rfl

theorem carry_mergeChunk_of_ne {other : Stream} (h : other ≠ stream) :
    (mergeChunk size c stream data).carry other = c.carry other := by
  cases stream <;> cases other <;> first | rfl | exact absurd rfl h

theorem mergeChunk_congr (h : size (fragment '\n' (c.carry stream ++ data)) > partialLineCap ↔
    size' (fragment '\n' (c.carry stream ++ data)) > partialLineCap) :
    mergeChunk size c stream data = mergeChunk size' c stream data := by
  simp only [mergeChunk, h]

def ToolCall.Waiting (size : Text → ℕ) (c : ToolCall V) : Prop :=
  ∀ stream, '\n' ∉ c.carry stream ∧ size (c.carry stream) ≤ partialLineCap

theorem waiting_newToolCall (hsize : size [] = 0) (commandID tool : String) (args : List (String × V)) :
    (newToolCall commandID tool args).Waiting size := by
  intro stream
  have hcarry : (newToolCall commandID tool args).carry stream = [] := by cases stream <;> rfl
  rw [hcarry, hsize]
  exact ⟨List.not_mem_nil, Nat.zero_le _⟩

theorem ToolCall.Waiting.mergeChunk (hsize : size [] = 0) (h : c.Waiting size) (stream : Stream) (data : Text) :
    (mergeChunk size c stream data).Waiting size := by
  intro other
  by_cases hother : other = stream
  · subst hother
    rw [carry_mergeChunk_self]
    split
    · rw [hsize]
      exact ⟨List.not_mem_nil, Nat.zero_le _⟩
    next hfits => exact ⟨not_mem_fragment _, Nat.le_of_not_lt hfits⟩
  · rw [carry_mergeChunk_of_ne hother]
    exact h other

theorem mergeChunk_eq_self_iff (h : c.Waiting size) : mergeChunk size c stream data = c ↔ data = [] := by
  obtain ⟨hnewline, hfits⟩ := h stream
  constructor
  · intro heq
    have hcount : c.lineCount + _ = c.lineCount := congrArg ToolCall.lineCount heq
    obtain ⟨hlines, hflush⟩ := List.append_eq_nil_iff.mp (List.eq_nil_of_length_eq_zero (Nat.add_eq_left.mp hcount))
    have hbuf : fragment '\n' (c.carry stream ++ data) = c.carry stream ++ data :=
      fragment_of_not_mem (completed_eq_nil_iff.mp hlines)
    have hcarry := congrArg (ToolCall.carry · stream) heq
    simp only [carry_mergeChunk_self] at hcarry
    split at hcarry
    next hover => simp [hover] at hflush
    · rw [hbuf] at hcarry
      exact List.append_right_eq_self.mp hcarry
  · rintro rfl
    have hbuf : c.carry stream ++ [] = c.carry stream := List.append_nil _
    have hlines : completed '\n' (c.carry stream) = [] := completed_eq_nil_iff.mpr hnewline
    simp only [Clients.mergeChunk, hbuf, fragment_of_not_mem hnewline, hlines, if_neg (Nat.not_lt.mpr hfits),
      setCarry_carry]
    rfl

end MergeChunk

end NomadDev.Clients
