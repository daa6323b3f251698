import NomadDev.Conversations
import NomadDev.CommandStreams

namespace NomadDev.Middleware

open Auth Tools

variable {α : Type} {mw : Tools.Middleware α} {call : ToolCall α} {a : Answer} {r : Refusal} {canceled : Bool}
  {srv : Server α} {client : Client} {mode : Mode}

structure CallEnd where
  result : ToolResult
  stderr : List UInt8
  exitCode : ℤ
  message : String
  ok : Bool

inductive Execution
  | dispatchFails (badRequest : Bool) (err : String)
  | streamed (exitCode : ℤ) (stdout stderr : List UInt8) (errCode msg : String)

structure Handled where
  output : List (String × Json)
  exitCode : ℤ
  (errCode message : String)

def withoutOutput (call : ToolCall α) (r : Refusal) (canceled : Bool) : CallEnd :=
  ⟨⟨call.id, call.tool, none, r.code⟩, [], -1, r.message, !canceled⟩

def approvalRefusal (mw : Tools.Middleware α) (call : ToolCall α) (a : Answer) : Option (Refusal × Bool) :=
  match requiresApproval mw.policy call.tool with
  | none => none
  | some _ =>
    match buildApprovalPreview mw call.tool call.args with
    | some err => some (⟨"sandbox_bad_request", err⟩, false)
    | none => if a = .granted then none else some (classifyApprovalErr a, a == .canceled)

def gateRefusal (srv : Server α) (mw : Tools.Middleware α) (client : Client) (mode : Mode) (call : ToolCall α)
    (a : Answer) : Option (Refusal × Bool) :=
  if hasToolScope client.scopes call.tool = false then some (lacksScope call.tool, false)
  else match srv.validate call.tool call.args with
    | some err => some (⟨"sandbox_bad_request", err⟩, false)
    | none =>
      if mode = .audit ∧ isMutatingTool mw call.tool then
        some (⟨"sandbox_unauthorized", "tool " ++ call.tool ++ " is disabled in audit mode"⟩, false)
      else approvalRefusal mw call a

-- A Go string as `encoding/json` writes it: every byte that is not UTF-8 becomes U+FFFD.
def jsonText (b : List UInt8) : Json := .str ((String.fromUTF8? ⟨⟨Foundation.Utf8.coerce b⟩⟩).getD "")

def streamedOutput (exitCode : ℤ) (stdout stderr : List UInt8) : List (String × Json) :=
  ("exit_code", .num exitCode) ::
    ((if stdout = [] then [] else [("stdout", jsonText stdout)]) ++
      (if stderr = [] then [] else [("stderr", jsonText stderr)]))

def dispatchCall (call : ToolCall α) : Execution → CallEnd
  | .dispatchFails badRequest err => withoutOutput call (Commands.dispatchRefusal badRequest err) false
  | .streamed exitCode stdout stderr errCode msg =>
    ⟨⟨call.id, call.tool, some (streamedOutput exitCode stdout stderr), errCode⟩, stderr, exitCode, msg, true⟩

def executeCall (srv : Server α) (call : ToolCall α) (ran : Execution) (handled : Handled) : CallEnd :=
  match executeToolCall srv call.tool call.args with
  | .refused r => ⟨⟨call.id, call.tool, some [("error_message", .str r.message)], r.code⟩, [], -1, r.message, true⟩
  | .dispatched .dispatcher _ _ => dispatchCall call ran
  | .dispatched _ _ _ =>
    ⟨⟨call.id, call.tool, some handled.output, handled.errCode⟩, [], handled.exitCode, handled.message, true⟩

def callEnd (srv : Server α) (mw : Tools.Middleware α) (client : Client) (mode : Mode) (call : ToolCall α) (a : Answer)
    (ran : Execution) (handled : Handled) : CallEnd :=
  match gateRefusal srv mw client mode call a with
  | some (r, canceled) => withoutOutput call r canceled
  | none => executeCall srv call ran handled

theorem requestApproval_answer (mw : Tools.Middleware α) (call : ToolCall α) (a : Answer) (proceed : Outcome α) :
    (requestApproval mw call.tool call.args proceed).answer a =
      (approvalRefusal mw call a).elim proceed fun r => .refused r.1 := by
  unfold requestApproval approvalRefusal
  cases requiresApproval mw.policy call.tool with
  | none => rfl
  | some reason =>
    cases buildApprovalPreview mw call.tool call.args with
    | some err => rfl
    | none => by_cases ha : a = .granted <;> simp [Gate.answer, ha]

theorem runToolCall_answer (srv : Server α) (mw : Tools.Middleware α) (client : Client) (mode : Mode)
    (call : ToolCall α) (a : Answer) :
    (runToolCall srv mw client mode call).answer a =
      (gateRefusal srv mw client mode call a).elim (executeToolCall srv call.tool call.args) fun r => .refused r.1 := by
  unfold runToolCall gateRefusal
  split
  · rfl
  cases srv.validate call.tool call.args with
  | some err => rfl
  | none =>
    simp only
    split
    · rfl
    · exact requestApproval_answer mw call a _

def maxErrorReportStderrBytes : ℕ := 8 * 1024

def truncMarker : List UInt8 := "...[truncated]...\n".toUTF8.data.toList

def truncStderr (src : List UInt8) : List UInt8 :=
  if src.length ≤ maxErrorReportStderrBytes then src
  else truncMarker ++ src.drop (src.length - (maxErrorReportStderrBytes - truncMarker.length))

structure SystemErrorReport where
  (tool originalCallID : String)
  exitCode : ℤ
  (errorCode errorMessage : String)
  stderr : List UInt8
  (attempt maxAttempts : ℕ)
  escalated : Bool := false

def buildErrorReport (call : ToolCall α) (e : CallEnd) (attempt maxAttempts : ℕ) : SystemErrorReport where
  tool := call.tool
  originalCallID := call.id
  exitCode := e.exitCode
  errorCode := e.result.error
  errorMessage := e.message
  stderr := truncStderr e.stderr
  attempt := attempt
  maxAttempts := maxAttempts

def SystemErrorReport.marshal (r : SystemErrorReport) : Json :=
  .obj ([("tool", .str r.tool), ("original_call_id", .str r.originalCallID), ("exit_code", .num r.exitCode)] ++
    (if r.errorCode = "" then [] else [("error_code", .str r.errorCode)]) ++
    (if r.errorMessage = "" then [] else [("error_message", .str r.errorMessage)]) ++
    (if r.stderr = [] then [] else [("stderr", jsonText r.stderr)]) ++
    [("attempt", .num r.attempt), ("max_attempts", .num r.maxAttempts), ("escalated", .bool r.escalated)])

def setField (fields : List (String × Json)) (key : String) (v : Json) : List (String × Json) :=
  fields.filter (·.1 ≠ key) ++ [(key, v)]

-- What `consumeStage` resumes with; the budget is the one before the call is accounted for.
def feedback (call : ToolCall α) (b : RetryBudget) (e : CallEnd) : ToolResult :=
  if shouldAutoRetry e.exitCode e.result.error then
    let b := b.consume.2
    let report := buildErrorReport call e b.attempt (b.max + 1)
    { e.result with output := some (setField (e.result.output.getD []) "error_report" report.marshal) }
  else e.result

mutual

def Json.strings : Json → List String
  | .null => ["null"]
  | .bool b => [toString b]
  | .num n => [toString n]
  | .str s => [s]
  | .arr items => itemStrings items
  | .obj fields => fieldStrings fields

def itemStrings : List Json → List String
  | [] => []
  | v :: vs => v.strings ++ itemStrings vs

def fieldStrings : List (String × Json) → List String
  | [] => []
  | (key, v) :: vs => key :: v.strings ++ fieldStrings vs

end

def Entry.resultStrings : {provider : Provider} → Entry α provider → List String
  | _, .openaiToolResult body callID => callID :: body.strings
  | _, .anthropicToolResult callID body _ => callID :: body.strings
  | _, .functionResponse name response => name :: fieldStrings (response.getD [])
  | _, _ => []

def Entry.Mentions {provider : Provider} (e : Entry α provider) (code : String) : Prop :=
  ∃ s ∈ e.resultStrings, code.toList <:+: s.toList

def codesWithoutOutput : List String :=
  ["sandbox_unauthorized", "sandbox_bad_request", "sandbox_canceled", "sandbox_internal"]

theorem approvalRefusal_code (h : approvalRefusal mw call a = some (r, canceled)) : r.code ∈ codesWithoutOutput := by
  unfold approvalRefusal at h
  split at h
  · cases h
  split at h
  · cases h
    simp [codesWithoutOutput]
  · obtain ⟨_, h⟩ := Option.ite_none_left_eq_some.mp h
    cases h
    cases a <;> simp [classifyApprovalErr, codesWithoutOutput]

theorem gateRefusal_code (h : gateRefusal srv mw client mode call a = some (r, canceled)) :
    r.code ∈ codesWithoutOutput := by
  unfold gateRefusal at h
  split at h
  · cases h
    simp [lacksScope, codesWithoutOutput]
  split at h
  · cases h
    simp [codesWithoutOutput]
  · split at h
    · cases h
      simp [codesWithoutOutput]
    · exact approvalRefusal_code h

theorem dispatchRefusal_code (badRequest : Bool) (err : String) :
    (Commands.dispatchRefusal badRequest err).code ∈ codesWithoutOutput := by
  cases badRequest <;> simp [Commands.dispatchRefusal, codesWithoutOutput]

theorem callEnd_without_output {ran : Execution} {handled : Handled}
    (h : (callEnd srv mw client mode call a ran handled).result.output = none) :
    ∃ r canceled, callEnd srv mw client mode call a ran handled = withoutOutput call r canceled ∧
      r.code ∈ codesWithoutOutput := by
  unfold callEnd at h ⊢
  split at h
  next r canceled hr => exact ⟨r, canceled, rfl, gateRefusal_code hr⟩
  next hr =>
    unfold executeCall at h ⊢
    split at h
    · cases h
    next ht =>
      cases ran with
      | dispatchFails badRequest err => exact ⟨_, _, rfl, dispatchRefusal_code badRequest err⟩
      | streamed exitCode stdout stderr errCode msg => cases h
    · cases h

theorem feedback_withoutOutput (call : ToolCall α) (b : RetryBudget) (canceled : Bool) (h : r.code ∈ codesWithoutOutput) :
    feedback call b (withoutOutput call r canceled) = ⟨call.id, call.tool, none, r.code⟩ := by
  have hretry : ∀ code ∈ codesWithoutOutput, shouldAutoRetry (-1) code = false := by decide
  rw [feedback, if_neg (by rw [withoutOutput, hretry _ h]; exact Bool.false_ne_true)]
  rfl

def ownName (provider : Provider) (call : ToolCall α) : String :=
  if provider = .gemini then call.tool else call.id

theorem mentions_without_output (provider : Provider) (call : ToolCall α) {code : String}
    (h : code ∈ codesWithoutOutput) :
    (resultEntry provider ⟨call.id, call.tool, none, code⟩ : Entry α provider).Mentions code ↔
      code.toList <:+: (ownName provider call).toList := by
  have hnull : ∀ code ∈ codesWithoutOutput, ¬code.toList <:+: ['n', 'u', 'l', 'l'] := by decide
  cases provider with
  | openai | anthropic =>
    simp only [Entry.Mentions, resultEntry, Entry.resultStrings, marshalOutput, Json.strings, ownName, reduceCtorEq,
      if_false, List.exists_mem_cons_iff, List.not_mem_nil, false_and, exists_false, or_false]
    exact or_iff_left (hnull _ h)
  | gemini => simp [Entry.Mentions, resultEntry, Entry.resultStrings, fieldStrings, ownName]

theorem failed_call_mentions_iff {srv : Server α} {mw : Tools.Middleware α} {client : Client} {mode : Mode}
    {call : ToolCall α} {a : Answer} {ran : Execution} {handled : Handled} (provider : Provider) (b : RetryBudget)
    (h : (callEnd srv mw client mode call a ran handled).result.output = none) :
    (resultEntry provider (feedback call b (callEnd srv mw client mode call a ran handled)) : Entry α provider).Mentions
        (callEnd srv mw client mode call a ran handled).result.error ↔
      (callEnd srv mw client mode call a ran handled).result.error.toList <:+: (ownName provider call).toList := by
  obtain ⟨r, canceled, hend, hcode⟩ := callEnd_without_output h
  rw [hend, feedback_withoutOutput call b canceled hcode]
  exact mentions_without_output provider call hcode

def quietServer : Server Unit :=
  ⟨none, false, false, false, false, fun _ _ => none, fun _ args _ => .ok args, fun _ => none⟩

def quietMiddleware : Tools.Middleware Unit := ⟨⟨[], false⟩, false, fun _ => none, fun _ => false⟩

def unscoped : CallEnd :=
  callEnd quietServer quietMiddleware ⟨"sid", ["tools:read_file"]⟩ .normal ⟨"call_1", "execute_script", ()⟩ .granted
    (.streamed 0 [] [] "" "") ⟨[], 0, "", ""⟩

def unscopedFed : ToolResult := feedback ⟨"call_1", "execute_script", ()⟩ (newRetryBudget 3) unscoped

theorem failed_call_mentions_iff_unscoped : unscoped.result.error = "sandbox_unauthorized" ∧
      ¬(resultEntry .openai unscopedFed : Entry Unit .openai).Mentions unscoped.result.error :=
  ⟨rfl, (failed_call_mentions_iff .openai (newRetryBudget 3) rfl).not.mpr fun hinfix =>
    absurd hinfix.length_le (by decide)⟩

theorem unscoped_code_withheld : unscoped.result.error = "sandbox_unauthorized" ∧ unscoped.ok = true ∧
      ∀ provider, ¬(resultEntry provider unscopedFed : Entry Unit provider).Mentions "sandbox_unauthorized" := by
  have hfed : unscopedFed = ⟨"call_1", "execute_script", none, "sandbox_unauthorized"⟩ := rfl
  refine ⟨rfl, rfl, fun provider => ?_⟩
  have hown : ¬"sandbox_unauthorized".toList <:+:
      (ownName provider (⟨"call_1", "execute_script", ()⟩ : ToolCall Unit)).toList := by
    intro hinfix
    have hlen := hinfix.length_le
    revert hlen
    cases provider <;> decide
  rw [hfed]
  exact (mentions_without_output provider ⟨"call_1", "execute_script", ()⟩ (by decide)).not.mpr hown

end NomadDev.Middleware
