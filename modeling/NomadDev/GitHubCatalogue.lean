import NomadDev.ApprovalSound

namespace NomadDev.GitHub

open Auth Tools Foundation.Transition

structure ToolAnnotations where
  destructiveHint : Option Bool
  readOnlyHint : Bool
  deriving DecidableEq

structure UpstreamTool where
  name : String
  annotations : Option ToolAnnotations

def prefixedName (mcpName : String) : String :=
  if hasPrefix mcpName gitHubToolPrefix then mcpName else gitHubToolPrefix ++ mcpName

def bareName (name : String) : List Char :=
  if hasPrefix name gitHubToolPrefix then name.toList.drop gitHubToolPrefix.length else name.toList

def destructiveVerbs : List String :=
  ["create_", "update_", "delete_", "merge_", "push_", "add_", "enable_", "disable_", "fork_", "resolve_", "unresolve_",
    "request_", "run_", "cancel_", "approve_", "dismiss_", "set_", "remove_"]

def destructiveExact : List String := ["sub_issue_write", "issue_write", "pull_request_review_write"]

def isDestructiveName (name : String) : Bool :=
  destructiveExact.any (·.toList == bareName name) || destructiveVerbs.any (·.toList.isPrefixOf (bareName name)) ||
    "_write".toList.isSuffixOf (bareName name)

def isDestructiveTool (t : UpstreamTool) : Bool :=
  match t.annotations with
  | none => isDestructiveName t.name
  | some a =>
    match a.destructiveHint with
    | some hint => hint
    | none => if a.readOnlyHint then false else isDestructiveName t.name

variable (catalogue : List UpstreamTool)

def toolNames : List String := catalogue.map fun t => prefixedName t.name

def destrSet : List String :=
  (catalogue.filter isDestructiveTool).map fun t => prefixedName t.name

def isDestructive (name : String) : Bool := name ∈ destrSet catalogue

def newPolicyApprover (requiredTools : List String) (autoGrant : Bool) : Policy :=
  ⟨requiredTools.filter (· ≠ ""), autoGrant⟩

def addRequired (p : Policy) (names : List String) : Policy :=
  { p with requiredTools := p.requiredTools ++ names.filter (· ≠ "") }

structure ServiceConfig where
  approvalRequiredTools : List String
  (approvalAutoGrant gateDirectCommands workerPoolEnabled daemonMonitorEnabled : Bool)

variable {α : Type}

def newService (c : ServiceConfig) (preview : α → Option String) (catalogue : List UpstreamTool) : Middleware α :=
  let approver := newPolicyApprover c.approvalRequiredTools c.approvalAutoGrant
  let approver := if c.workerPoolEnabled then addRequired approver [toolDispatchWorkerPool] else approver
  let approver := if c.daemonMonitorEnabled then addRequired approver [toolMonitorDaemon] else approver
  { policy := addRequired approver ((toolNames catalogue).filter (isDestructive catalogue))
    gateDirectCommands := c.gateDirectCommands
    preview := preview
    destructiveGitHub := isDestructive catalogue }

def readForm (name : String) : Bool :=
  ["get_", "list_", "search_"].any (·.toList.isPrefixOf (bareName name)) || "_read".toList.isSuffixOf (bareName name)

def Unclassified (t : UpstreamTool) : Prop :=
  (∀ a, t.annotations = some a → a.destructiveHint = none ∧ a.readOnlyHint = false) ∧ readForm t.name = false

def Guarded (mw : Middleware α) (tool : String) : Prop :=
  ∀ acts s j o ph mode call target args, run Approval.step Approval.init acts = some s → s.jobs j = some ⟨o, ph⟩ →
    o.srv.mw = some mw → o.route = .turn mode call → ph.outcome = some (.dispatched target tool args) →
      mode ≠ .audit ∧ ∃ id c out, ph = .resolved id (some c) .granted out ∧ Approval.FirstGrant s.approver id c

variable {catalogue : List UpstreamTool} {tool name : String} {c : ServiceConfig}

theorem mem_destrSet :
    isDestructive catalogue name = true ↔ ∃ t ∈ catalogue, prefixedName t.name = name ∧ isDestructiveTool t = true := by
  rw [isDestructive, decide_eq_true_eq, destrSet]
  simp only [List.mem_map, List.mem_filter]
  constructor
  · rintro ⟨t, ⟨ht, hd⟩, rfl⟩
    exact ⟨t, ht, rfl, hd⟩
  · rintro ⟨t, ht, rfl, hd⟩
    exact ⟨t, ⟨ht, hd⟩, rfl⟩

theorem prefixedName_hasPrefix (name : String) : hasPrefix (prefixedName name) gitHubToolPrefix = true := by
  unfold prefixedName
  split
  · assumption
  · simp [hasPrefix]

theorem ne_of_hasPrefix (h : hasPrefix tool gitHubToolPrefix = true) (hn : hasPrefix name gitHubToolPrefix = false) :
    tool ≠ name := by
  rintro rfl
  rw [h] at hn
  cases hn

theorem executeToolCall_github (srv : Server α) (h : hasPrefix tool gitHubToolPrefix = true) (args : α) :
    executeToolCall srv tool args = .dispatched .dispatcher tool args := by
  have hpool := ne_of_hasPrefix h (show hasPrefix toolDispatchWorkerPool gitHubToolPrefix = false by decide)
  have hmonitor := ne_of_hasPrefix h (show hasPrefix toolMonitorDaemon gitHubToolPrefix = false by decide)
  have hstop := ne_of_hasPrefix h (show hasPrefix toolStopDaemon gitHubToolPrefix = false by decide)
  have hlist := ne_of_hasPrefix h (show hasPrefix toolListDaemons gitHubToolPrefix = false by decide)
  have hlsp := ne_of_hasPrefix h (show hasPrefix toolLSPQuery gitHubToolPrefix = false by decide)
  simp [executeToolCall, isDaemonTool, hpool, hmonitor, hstop, hlist, hlsp]

theorem isMutatingTool_github (mw : Middleware α) (h : hasPrefix tool gitHubToolPrefix = true) :
    isMutatingTool mw tool = mw.destructiveGitHub tool := by
  have hbase : isMutatingBaseTool tool = false := by
    simp only [isMutatingBaseTool, decide_eq_false_iff_not]
    intro hmem
    have hnone : ∀ name ∈ [toolExecuteScript, toolWritePatch, toolApplyCodePatch, toolDispatchWorkerPool,
        toolMonitorDaemon, toolStopDaemon], hasPrefix name gitHubToolPrefix = false := by decide
    exact ne_of_hasPrefix h (hnone tool hmem) rfl
  simp [isMutatingTool, hbase, h]

theorem addRequired_autoGrant (p : Policy) (names : List String) : (addRequired p names).autoGrant = p.autoGrant := rfl

theorem newService_autoGrant (preview : α → Option String) (catalogue : List UpstreamTool) :
    (newService c preview catalogue).policy.autoGrant = c.approvalAutoGrant := by
  simp only [newService, addRequired_autoGrant]
  split
  · split
    · rfl
    · rfl
  · split
    · rfl
    · rfl

theorem prefixedName_ne_empty (name : String) : prefixedName name ≠ "" :=
  ne_of_hasPrefix (prefixedName_hasPrefix name) (by decide)

theorem newService_requires (hauto : c.approvalAutoGrant = false) (preview : α → Option String)
    (h : isDestructive catalogue name = true) :
    (requiresApproval (newService c preview catalogue).policy name).isSome := by
  have hmem : name ∈ (newService c preview catalogue).policy.requiredTools := by
    obtain ⟨t, ht, rfl, hd⟩ := mem_destrSet.mp h
    apply List.mem_append_right
    rw [List.mem_filter, List.mem_filter]
    refine ⟨⟨List.mem_map.mpr ⟨t, ht, rfl⟩, h⟩, ?_⟩
    simp [prefixedName_ne_empty]
  simp [requiresApproval, newService_autoGrant, hauto, hmem]

theorem guarded_of_destructive (hauto : c.approvalAutoGrant = false) (preview : α → Option String)
    (h : isDestructive catalogue (prefixedName name) = true) :
    Guarded (newService c preview catalogue) (prefixedName name) := by
  intro acts s j o ph mode call target args hrun hj hm hroute hout
  have hinv := Approval.inv_run hrun
  have hgated : o.Gated (newService c preview catalogue) := by simp [Approval.Origin.Gated, hroute]
  have hgate : o.gate = some (runToolCall o.srv (newService c preview catalogue) o.client mode call) := by
    simp [Approval.Origin.gate, hroute, hm]
  have hanswer : ∃ a, (runToolCall o.srv (newService c preview catalogue) o.client mode call).answer a =
      .dispatched target (prefixedName name) args := by
    rcases hinv.gate hj hout with ⟨_, _, a, _, _, _, hg, hnext⟩ | ⟨_, hg⟩
    · rw [hgate] at hg
      exact ⟨a, by rw [Option.some.inj hg, hnext]; rfl⟩
    · rw [hgate] at hg
      exact ⟨.granted, by rw [Option.some.inj hg]; rfl⟩
  obtain ⟨a, ha⟩ := hanswer
  obtain ⟨-, -, haudit, -, hexec⟩ := runToolCall_dispatched.mp ha
  have htool := executeToolCall_tool hexec
  constructor
  · intro hmode
    apply haudit
    rw [← htool, isMutatingTool_github _ (prefixedName_hasPrefix name)]
    exact ⟨hmode, h⟩
  · exact hinv.dispatchedAfterGrant j o ph _ target _ args hj hm hgated hout (newService_requires hauto preview h)

def auditTurn (mw : Middleware α) (tool : String) (args : α) : Approval.Origin α where
  srv := { mw := some mw, runner := true, semFree := true, daemons := false, lsp := false
           validate := fun _ _ => none, scopeWorkerCall := fun _ args _ => .ok args, workerPool := fun _ => none }
  client := ⟨"s1", []⟩
  route := .turn .audit ⟨"c1", tool, args⟩

theorem auditTurn_gate (mw : Middleware α) (args : α) (hgh : hasPrefix tool gitHubToolPrefix = true)
    (h : mw.destructiveGitHub tool = false) :
    (auditTurn mw tool args).gate = some (requestApproval mw tool args (.dispatched .dispatcher tool args)) := by
  have hscope : hasToolScope ([] : List String) tool = true := by
    simp [hasToolScope, ne_of_hasPrefix hgh (show hasPrefix "" gitHubToolPrefix = false by decide)]
  simp [auditTurn, Approval.Origin.gate, runToolCall, hscope, isMutatingTool_github mw hgh, h,
    executeToolCall_github _ hgh]

theorem auditTurn_dispatches (mw : Middleware α) (args : α)
    (hgh : hasPrefix tool gitHubToolPrefix = true) (h : mw.destructiveGitHub tool = false) :
    ∃ acts s ph, run Approval.step Approval.init acts = some s ∧ s.jobs 0 = some ⟨auditTurn mw tool args, ph⟩ ∧
      ph.outcome = some (.dispatched .dispatcher tool args) := by
  have hgate := auditTurn_gate mw args hgh h
  have hpreview : buildApprovalPreview mw tool args = none := by
    have hne := ne_of_hasPrefix hgh (show hasPrefix toolApplyCodePatch gitHubToolPrefix = false by decide)
    simp [buildApprovalPreview, hne]
  cases hreq : requiresApproval mw.policy tool with
  | none =>
    simp only [requestApproval, hreq] at hgate
    obtain ⟨s, hrun, hjob⟩ := Approval.startRun_finishes hgate
    exact ⟨_, s, _, hrun, hjob, rfl⟩
  | some reason =>
    simp only [requestApproval, hreq, hpreview] at hgate
    obtain ⟨s, hrun, hjob⟩ := Approval.grantingRun_resolves hgate
    exact ⟨_, s, _, hrun, hjob, rfl⟩

theorem guarded_iff [Inhabited α] (hauto : c.approvalAutoGrant = false)
    (preview : α → Option String) (catalogue : List UpstreamTool) (name : String) :
    Guarded (newService c preview catalogue) (prefixedName name) ↔
      isDestructive catalogue (prefixedName name) = true := by
  constructor
  · intro hguarded
    by_contra hnot
    obtain ⟨acts, s, ph, hrun, hjob, hout⟩ := auditTurn_dispatches (newService c preview catalogue) default
      (prefixedName_hasPrefix name) (Bool.not_eq_true _ ▸ hnot)
    have haudit := (hguarded acts s 0 _ ph .audit _ _ _ hrun hjob rfl rfl hout).1
    exact haudit rfl
  · exact guarded_of_destructive hauto preview

theorem unclassified_guarded_iff [Inhabited α] {c : ServiceConfig} (hauto : c.approvalAutoGrant = false)
    (preview : α → Option String) (catalogue : List UpstreamTool) :
    (∀ t ∈ catalogue, Unclassified t → Guarded (newService c preview catalogue) (prefixedName t.name)) ↔
      ∀ t ∈ catalogue, Unclassified t →
        ∃ t' ∈ catalogue, prefixedName t'.name = prefixedName t.name ∧ isDestructiveTool t' = true := by
  simp only [guarded_iff hauto, mem_destrSet]

def manual : ServiceConfig := ⟨["execute_script"], false, true, false, false⟩

theorem unclassified_guarded_issues : Unclassified ⟨"create_issue", none⟩ ∧
    Guarded (newService manual (fun _ : Unit => none) [⟨"create_issue", none⟩, ⟨"list_issues", none⟩])
      "github_create_issue" := by
  have hu : Unclassified ⟨"create_issue", none⟩ := by
    refine ⟨?_, by decide⟩
    nofun
  refine ⟨hu, (unclassified_guarded_iff (c := manual) rfl (fun _ : Unit => none) _).mpr ?_ ⟨"create_issue", none⟩
    List.mem_cons_self hu⟩
  intro t ht hu
  simp only [List.mem_cons, List.not_mem_nil, or_false] at ht
  rcases ht with rfl | rfl
  · exact ⟨⟨"create_issue", none⟩, by simp, rfl, by decide⟩
  · exact absurd hu.2 (by decide)

theorem star_repository_unguarded : Unclassified ⟨"star_repository", none⟩ ∧
    ¬ Guarded (newService manual (fun _ : Unit => none) [⟨"star_repository", none⟩]) "github_star_repository" := by
  constructor
  · refine ⟨?_, by decide⟩
    nofun
  · intro h
    have hd := (guarded_iff (c := manual) rfl (fun _ : Unit => none) [⟨"star_repository", none⟩] "star_repository").mp h
    exact absurd hd (by decide)

end NomadDev.GitHub
