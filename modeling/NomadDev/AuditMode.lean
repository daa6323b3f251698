import NomadDev.ToolScopes

namespace NomadDev.Tools

open Auth List

variable {α : Type}

def toolReadFile : String := "read_file"
def toolListDir : String := "list_dir"
def toolSearchSyntax : String := "search_syntax"
def toolPinFile : String := "pin_file"
def toolUnpinFile : String := "unpin_file"
def toolFetchExternalDocs : String := "fetch_external_docs"

variable {mw : Middleware α} {tool : String}

inductive Backend
  | sandbox | fsops | pins | docs | github | workerPool | daemons | lsp
  deriving DecidableEq

structure Execution (α : Type) where
  mw : Middleware α
  backend : Backend
  tool : String

structure CompositeDispatcher (α : Type) where
  (sandbox fsOps gitHub pins docs : Bool)
  (verifyCommand path url : α → String)

def notConfigured (backend : String) : Except String (List (Backend × String)) := .error (backend ++ " not configured")

variable (d : CompositeDispatcher α)

def dispatch (mode : Mode) (tool : String) (args : α) : Except String (List (Backend × String)) :=
  if mode = .audit ∧ isMutatingBaseTool tool then .error ("tool \"" ++ tool ++ "\" is disabled in audit mode")
  else if tool = toolExecuteScript ∨ tool = toolSearchSyntax then
    if d.sandbox then .ok [(.sandbox, tool)] else notConfigured "sandbox runner"
  else if tool = toolReadFile ∨ tool = toolListDir ∨ tool = toolWritePatch ∨ tool = toolApplyCodePatch then
    if d.fsOps = false then notConfigured "fsops engine"
    else if tool = toolApplyCodePatch ∧ d.verifyCommand args ≠ "" then
      if d.sandbox then .ok [(.fsops, tool), (.sandbox, toolExecuteScript)]
      else .error "verify_command requires sandbox runner"
    else .ok [(.fsops, tool)]
  else if tool = toolPinFile then
    if d.pins = false then notConfigured "reference buffer"
    else if d.fsOps = false then notConfigured "fsops engine"
    else .ok (if d.path args = "" then [] else [(.fsops, toolReadFile), (.pins, tool)])
  else if tool = toolUnpinFile then
    if d.pins then .ok (if d.path args = "" then [] else [(.pins, tool)]) else notConfigured "reference buffer"
  else if tool = toolFetchExternalDocs then
    if d.docs then .ok (if d.url args = "" then [] else [(.docs, tool)]) else notConfigured "doc fetcher"
  else if hasPrefix tool gitHubToolPrefix then
    if d.gitHub then .ok [(.github, tool)] else notConfigured "github backend"
  else .error ("unknown tool \"" ++ tool ++ "\"")

def reached (mw : Middleware α) (r : Except String (List (Backend × String))) : List (Execution α) :=
  match r with
  | .error _ => []
  | .ok backends => backends.map fun b => ⟨mw, b.1, b.2⟩

-- Sub-dispatchers run in the normal mode whatever the mode of the turn.
def workerExecutions (w : WorkerCall α) : List (Execution α) :=
  match w.srv.mw with
  | none => []
  | some mw =>
    match (runWorkerToolCall w.srv mw w.task w.call).answer w.answer with
    | .refused _ => []
    | .dispatched _ tool args => reached mw (dispatch d .normal tool args)

def executions (client : Client) (mode : Mode) (c : TurnCall α) : List (Execution α) :=
  match c.srv.mw with
  | none => []
  | some mw =>
    match (runToolCall c.srv mw client mode c.call).answer c.answer with
    | .refused _ => []
    | .dispatched .workerPool tool _ => ⟨mw, .workerPool, tool⟩ :: c.pool.flatMap (workerExecutions d)
    | .dispatched .daemon tool _ => [⟨mw, .daemons, tool⟩]
    | .dispatched .lsp tool _ => [⟨mw, .lsp, tool⟩]
    | .dispatched _ tool args => reached mw (dispatch d mode tool args)

def turnExecutions (client : Client) (mode : Mode) (calls : List (TurnCall α)) : List (Execution α) :=
  calls.flatMap (executions d client mode)

def Reaches (tool : String) (b : Backend × String) : Prop :=
  b.1 ≠ .workerPool ∧ (b.2 = tool ∨ b.2 = toolReadFile ∨ tool = toolApplyCodePatch)

theorem reaches_self {backend : Backend} (h : backend ≠ .workerPool) : ∀ b ∈ [(backend, tool)], Reaches tool b :=
  forall_mem_singleton.mpr ⟨h, .inl rfl⟩

variable {d : CompositeDispatcher α} {e : Execution α} {mode : Mode} {args : α}

theorem dispatch_reaches {backends : List (Backend × String)} (h : dispatch d mode tool args = .ok backends) :
    ∀ b ∈ backends, Reaches tool b := by
  unfold dispatch notConfigured at h
  split_ifs at h <;> cases h
  · exact reaches_self (by decide)
  · rintro b hb
    rcases mem_pair.mp hb with rfl | rfl
    · exact ⟨by simp, .inl rfl⟩
    · exact ⟨by simp, .inr (.inr (‹tool = toolApplyCodePatch ∧ _›).1)⟩
  · exact reaches_self (by decide)
  · exact fun b hb => absurd hb not_mem_nil
  · rintro b hb
    rcases mem_pair.mp hb with rfl | rfl
    · exact ⟨by simp, .inr (.inl rfl)⟩
    · exact ⟨by simp, .inl rfl⟩
  · exact fun b hb => absurd hb not_mem_nil
  · exact reaches_self (by decide)
  · exact fun b hb => absurd hb not_mem_nil
  · exact reaches_self (by decide)
  · exact reaches_self (by decide)

theorem mem_reached {r : Except String (List (Backend × String))} :
    e ∈ reached mw r ↔ e.mw = mw ∧ ∃ backends, r = .ok backends ∧ (e.backend, e.tool) ∈ backends := by
  cases r with
  | error err => simp [reached]
  | ok backends =>
    obtain ⟨mw', backend, tool⟩ := e
    simp only [reached, mem_map, Except.ok.injEq, exists_eq_left']
    constructor
    · rintro ⟨b, hb, he⟩
      cases he
      exact ⟨rfl, hb⟩
    · rintro ⟨rfl, hb⟩
      exact ⟨_, hb, rfl⟩

theorem isMutatingTool_readFile (mw : Middleware α) : isMutatingTool mw toolReadFile = false := by
  have hbase : isMutatingBaseTool toolReadFile = false := by decide
  have hprefix : hasPrefix toolReadFile gitHubToolPrefix = false := by decide
  rw [isMutatingTool, hbase, hprefix]
  rfl

theorem isMutatingTool_of_base (mw : Middleware α) (h : isMutatingBaseTool tool = true) :
    isMutatingTool mw tool = true := by
  rw [isMutatingTool, h]
  rfl

theorem reached_not_mutating (htool : isMutatingTool mw tool = false) (he : e ∈ reached mw (dispatch d mode tool args)) :
    isMutatingTool e.mw e.tool = false ∧ e.backend ≠ .workerPool := by
  obtain ⟨rfl, backends, hok, hmem⟩ := mem_reached.mp he
  obtain ⟨hbackend, hown | hread | hpatch⟩ := dispatch_reaches hok _ hmem
  · exact ⟨(congrArg (isMutatingTool e.mw) hown).trans htool, hbackend⟩
  · exact ⟨(congrArg (isMutatingTool e.mw) hread).trans (isMutatingTool_readFile e.mw), hbackend⟩
  · have hmutating := isMutatingTool_of_base e.mw (show isMutatingBaseTool toolApplyCodePatch = true by decide)
    rw [hpatch, hmutating] at htool
    cases htool

theorem audit_executions {client : Client} {c : TurnCall α}
    (he : e ∈ executions d client .audit c) : isMutatingTool e.mw e.tool = false ∧ e.backend ≠ .workerPool := by
  unfold executions at he
  split at he
  · cases he
  next mw hmw =>
  have hpassed : ∀ {target t x}, (runToolCall c.srv mw client .audit c.call).answer c.answer = .dispatched target t x →
      isMutatingTool mw t = false ∧ executeToolCall c.srv c.call.tool c.call.args = .dispatched target t x := by
    intro target t x hrun
    obtain ⟨-, -, haudit, -, hexec⟩ := runToolCall_dispatched.mp hrun
    rw [executeToolCall_tool hexec]
    exact ⟨by simpa using haudit, executeToolCall_tool hexec ▸ hexec⟩
  split at he
  · cases he
  · next tool args hrun =>
    obtain ⟨hmut, hexec⟩ := hpassed hrun
    obtain ⟨hpool, -, htool, -⟩ := executeToolCall_workerPool.mp hexec
    have hmutating := isMutatingTool_of_base mw (show isMutatingBaseTool toolDispatchWorkerPool = true by decide)
    rw [htool, hpool, hmutating] at hmut
    cases hmut
  · next tool args hrun =>
    obtain rfl := mem_singleton.mp he
    exact ⟨(hpassed hrun).1, by simp⟩
  · next tool args hrun =>
    obtain rfl := mem_singleton.mp he
    exact ⟨(hpassed hrun).1, by simp⟩
  · next hrun => exact reached_not_mutating (hpassed hrun).1 he

theorem audit_turn_mutates_nothing (d : CompositeDispatcher α) (client : Client) (calls : List (TurnCall α)) :
    ∀ e ∈ turnExecutions d client .audit calls, isMutatingTool e.mw e.tool = false ∧ e.backend ≠ .workerPool := by
  intro e he
  obtain ⟨c, -, hc⟩ := mem_flatMap.mp he
  exact audit_executions hc

def auditServer : Server (List (String × String)) :=
  { openServer with
    mw := some ⟨⟨[], true⟩, true, fun _ => none, fun tool => tool == "github_merge_pull_request"⟩
    daemons := true }

def everyBackend : CompositeDispatcher (List (String × String)) :=
  ⟨true, true, true, true, true, fun _ => "go test ./...", fun _ => "a.txt", fun _ => "https://go.dev"⟩

def auditCalls : List (TurnCall (List (String × String))) :=
  ["execute_script", "dispatch_worker_pool", "github_merge_pull_request", "apply_code_patch", "stop_daemon",
    "github_list_issues", "pin_file", "list_daemons"].map fun tool => ⟨auditServer, ⟨"c1", tool, []⟩, .granted, []⟩

theorem audit_turn_mutates_nothing_granted :
    (turnExecutions everyBackend ⟨"s1", []⟩ .audit auditCalls).map (fun e => (e.backend, e.tool)) =
        [(.github, "github_list_issues"), (.fsops, "read_file"), (.pins, "pin_file"), (.daemons, "list_daemons")] ∧
      ∀ e ∈ turnExecutions everyBackend ⟨"s1", []⟩ .audit auditCalls,
        isMutatingTool e.mw e.tool = false ∧ e.backend ≠ .workerPool :=
  ⟨by decide +kernel, audit_turn_mutates_nothing everyBackend ⟨"s1", []⟩ auditCalls⟩

end NomadDev.Tools
