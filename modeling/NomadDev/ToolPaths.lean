import NomadDev.Tokens

namespace NomadDev.Tools

open Auth

def toolExecuteScript : String := "execute_script"
def toolWritePatch : String := "write_patch"
def toolApplyCodePatch : String := "apply_code_patch"
def toolLSPQuery : String := "lsp_query"
def toolMonitorDaemon : String := "monitor_daemon"
def toolStopDaemon : String := "stop_daemon"
def toolListDaemons : String := "list_daemons"
def toolDispatchWorkerPool : String := "dispatch_worker_pool"
def gitHubToolPrefix : String := "github_"

def isDaemonTool (tool : String) : Bool :=
  tool == toolMonitorDaemon || tool == toolStopDaemon || tool == toolListDaemons

def isMutatingBaseTool (tool : String) : Bool :=
  tool ∈ [toolExecuteScript, toolWritePatch, toolApplyCodePatch, toolDispatchWorkerPool,
    toolMonitorDaemon, toolStopDaemon]

structure Policy where
  requiredTools : List String
  autoGrant : Bool

def approvalReason (tool : String) : String :=
  if tool = toolExecuteScript then "runs an arbitrary shell script"
  else if tool = toolWritePatch then "writes to the host workspace"
  else if tool = toolApplyCodePatch then "edits a file via search/replace"
  else if tool = toolMonitorDaemon then "starts a long-running process on the host"
  else if hasPrefix tool gitHubToolPrefix then "mutates GitHub state"
  else "configured policy"

def requiresApproval (p : Policy) (tool : String) : Option String :=
  if p.autoGrant then none
  else if tool ∈ p.requiredTools then some (approvalReason tool)
  else none

inductive Answer
  | granted | denied | timeout | canceled | deadline | unknownID
  deriving DecidableEq

structure Refusal where
  (code message : String)
  deriving DecidableEq

inductive Target
  | runner | dispatcher | daemon | lsp | workerPool
  deriving DecidableEq

variable {α : Type}

inductive Outcome (α : Type)
  | refused (r : Refusal)
  | dispatched (target : Target) (tool : String) (args : α)

inductive Gate (α : Type)
  | done (o : Outcome α)
  | ask (reason : String) (next : Answer → Outcome α)

def Gate.answer : Gate α → Answer → Outcome α
  | .done o, _ => o
  | .ask _ next, a => next a

structure Client where
  sid : String
  scopes : List String

structure CommandRequest (α : Type) where
  tool : String
  args : α

structure ToolCall (α : Type) where
  (id tool : String)
  args : α

structure SubTask where
  id : String
  paths : List String

-- `preview` is the error of `PreviewApplyCodePatch`; `destructiveGitHub` is false where the hook is unset.
structure Middleware (α : Type) where
  policy : Policy
  gateDirectCommands : Bool
  preview : α → Option String
  destructiveGitHub : String → Bool

-- `workerPool` is the first check of `runWorkerPool` that fails before its tasks start.
structure Server (α : Type) where
  mw : Option (Middleware α)
  (runner semFree daemons lsp : Bool)
  validate : String → α → Option String
  scopeWorkerCall : String → α → SubTask → Except String α
  workerPool : α → Option Refusal

def isMutatingTool (mw : Middleware α) (tool : String) : Bool :=
  isMutatingBaseTool tool || hasPrefix tool gitHubToolPrefix && mw.destructiveGitHub tool

def classifyApprovalErr : Answer → Refusal
  | .denied => ⟨"sandbox_unauthorized", "approval denied"⟩
  | .timeout => ⟨"sandbox_unauthorized", "approval timed out"⟩
  | .canceled => ⟨"sandbox_canceled", "client disconnected"⟩
  | _ => ⟨"sandbox_unauthorized", "approval failed"⟩

def buildApprovalPreview (mw : Middleware α) (tool : String) (args : α) : Option String :=
  if tool = toolApplyCodePatch then mw.preview args else none

-- The gate of `requestApproval` and of `gateDirectCommand`, which agree up to the envelope they send.
def requestApproval (mw : Middleware α) (tool : String) (args : α) (proceed : Outcome α) : Gate α :=
  match requiresApproval mw.policy tool with
  | none => .done proceed
  | some reason =>
    match buildApprovalPreview mw tool args with
    | some err => .done (.refused ⟨"sandbox_bad_request", err⟩)
    | none => .ask reason fun a => if a = .granted then proceed else .refused (classifyApprovalErr a)

def daemonDisabled : Refusal :=
  ⟨"sandbox_bad_request", "monitor_daemon is not enabled; set NOMADDEV_DAEMON_MONITOR_ENABLED=true"⟩

def atCapacity : Refusal := ⟨"sandbox_unavailable", "sandbox at capacity"⟩

def lspUnavailable : Refusal := ⟨"sandbox_bad_request", "lsp_query is not available: no workspace is configured"⟩

def lacksScope (tool : String) : Refusal := ⟨"sandbox_unauthorized", "token lacks tools:" ++ tool ++ " scope"⟩

variable (srv : Server α)

def startDaemonAndStream (tool : String) (args : α) : Outcome α :=
  if srv.semFree then .dispatched .daemon tool args else .refused atCapacity

def handleMonitorDaemon (tool : String) (args : α) : Gate α :=
  match srv.mw with
  | none => .done (.refused ⟨"sandbox_unauthorized",
      "monitor_daemon requires the approval gate; middleware is not configured"⟩)
  | some mw => requestApproval mw toolMonitorDaemon args (startDaemonAndStream srv tool args)

def handleDaemonCommand (tool : String) (args : α) : Gate α :=
  if srv.daemons then
    match srv.validate tool args with
    | some err => .done (.refused ⟨"sandbox_bad_request", err⟩)
    | none =>
      if tool = toolMonitorDaemon then handleMonitorDaemon srv tool args
      else .done (.dispatched .daemon tool args)
  else .done (.refused daemonDisabled)

def handleLSPCommand (tool : String) (args : α) : Gate α :=
  match srv.validate tool args with
  | some err => .done (.refused ⟨"sandbox_bad_request", err⟩)
  | none => .done (if srv.lsp then .dispatched .lsp tool args else .refused lspUnavailable)

def gateDirectCommand (tool : String) (args : α) (proceed : Outcome α) : Gate α :=
  match srv.mw with
  | some mw => if mw.gateDirectCommands then requestApproval mw tool args proceed else .done proceed
  | none => .done proceed

def handleCommandRequest (client : Client) (p : Except String (CommandRequest α)) : Gate α :=
  match p with
  | .error err => .done (.refused ⟨"bad_envelope", err⟩)
  | .ok p =>
    if p.tool = "" then .done (.refused ⟨"sandbox_bad_request", "missing tool"⟩)
    else if hasToolScope client.scopes p.tool = false then .done (.refused (lacksScope p.tool))
    else if isDaemonTool p.tool then handleDaemonCommand srv p.tool p.args
    else if p.tool = toolLSPQuery then handleLSPCommand srv p.tool p.args
    else if srv.runner = false then .done (.refused ⟨"not_implemented", "sandbox runner not configured"⟩)
    else if srv.semFree = false then .done (.refused atCapacity)
    else gateDirectCommand srv p.tool p.args (.dispatched .runner p.tool p.args)

def runDaemonToolCall (tool : String) (args : α) : Outcome α :=
  if srv.daemons then
    if tool = toolMonitorDaemon then startDaemonAndStream srv tool args else .dispatched .daemon tool args
  else .refused daemonDisabled

def runLSPToolCall (tool : String) (args : α) : Outcome α :=
  if srv.lsp then .dispatched .lsp tool args else .refused lspUnavailable

def runWorkerPool (tool : String) (args : α) : Outcome α :=
  match srv.workerPool args with
  | some r => .refused r
  | none => .dispatched .workerPool tool args

def executeToolCall (tool : String) (args : α) : Outcome α :=
  if tool = toolDispatchWorkerPool then runWorkerPool srv tool args
  else if isDaemonTool tool then runDaemonToolCall srv tool args
  else if tool = toolLSPQuery then runLSPToolCall srv tool args
  else .dispatched .dispatcher tool args

inductive Mode
  | normal | audit
  deriving DecidableEq

def runToolCall (mw : Middleware α) (client : Client) (mode : Mode) (call : ToolCall α) : Gate α :=
  if hasToolScope client.scopes call.tool = false then .done (.refused (lacksScope call.tool))
  else match srv.validate call.tool call.args with
    | some err => .done (.refused ⟨"sandbox_bad_request", err⟩)
    | none =>
      if mode = .audit ∧ isMutatingTool mw call.tool then
        .done (.refused ⟨"sandbox_unauthorized", "tool " ++ call.tool ++ " is disabled in audit mode"⟩)
      else requestApproval mw call.tool call.args (executeToolCall srv call.tool call.args)

def runWorkerToolCall (mw : Middleware α) (task : SubTask) (call : ToolCall α) : Gate α :=
  match srv.validate call.tool call.args with
  | some err => .done (.refused ⟨"sandbox_bad_request", err⟩)
  | none =>
    match srv.scopeWorkerCall call.tool call.args task with
    | .error err => .done (.refused ⟨"sandbox_bad_request", err⟩)
    | .ok scopedArgs =>
      requestApproval mw call.tool scopedArgs (.dispatched .dispatcher call.tool scopedArgs)

end NomadDev.Tools
