import NomadDev.ToolPaths

namespace NomadDev.Tools

open Auth

variable {α : Type}

def approved (mw : Middleware α) (tool : String) (args : α) (a : Answer) : Bool :=
  (requiresApproval mw.policy tool).isNone || ((buildApprovalPreview mw tool args).isNone && a == .granted)

variable {mw : Middleware α} {t tool : String} {args x : α} {a : Answer} {srv : Server α} {mode : Mode}
  {proceed : Outcome α} {target : Target} {client : Client}

theorem requestApproval_dispatched : (requestApproval mw tool args proceed).answer a = .dispatched target t x ↔
      approved mw tool args a = true ∧ proceed = .dispatched target t x := by
  unfold requestApproval approved
  cases requiresApproval mw.policy tool with
  | none => simp [Gate.answer]
  | some reason =>
    cases buildApprovalPreview mw tool args with
    | some err => simp [Gate.answer]
    | none =>
      by_cases ha : a = .granted
      · simp [Gate.answer, ha]
      · simp [Gate.answer, ha]

def Outcome.tools : Outcome α → List String
  | .refused _ => []
  | .dispatched _ tool _ => [tool]

theorem mem_tools {o : Outcome α} : tool ∈ o.tools ↔ ∃ target args, o = .dispatched target tool args := by
  cases o with
  | refused r => simp [Outcome.tools]
  | dispatched target t args =>
    simp only [Outcome.tools, List.mem_singleton, Outcome.dispatched.injEq]
    constructor
    · rintro rfl
      exact ⟨target, args, rfl, rfl, rfl⟩
    · rintro ⟨_, _, _, rfl, _⟩
      rfl

structure WorkerCall (α : Type) where
  srv : Server α
  task : SubTask
  call : ToolCall α
  answer : Answer

structure TurnCall (α : Type) where
  srv : Server α
  call : ToolCall α
  answer : Answer
  pool : List (WorkerCall α)

inductive Work (α : Type)
  | command (srv : Server α) (p : Except String (CommandRequest α)) (answer : Answer)
  | turn (mode : Mode) (calls : List (TurnCall α))

def workerDispatches (w : WorkerCall α) : List String :=
  match w.srv.mw with
  | none => []
  | some mw => ((runWorkerToolCall w.srv mw w.task w.call).answer w.answer).tools

def turnDispatches (client : Client) (mode : Mode) (c : TurnCall α) : List String :=
  match c.srv.mw with
  | none => []
  | some mw =>
    match (runToolCall c.srv mw client mode c.call).answer c.answer with
    | .refused _ => []
    | .dispatched .workerPool tool _ => tool :: c.pool.flatMap workerDispatches
    | .dispatched _ tool _ => [tool]

def dispatches (client : Client) : Work α → List String
  | .command srv p a => ((handleCommandRequest srv client p).answer a).tools
  | .turn mode calls => calls.flatMap (turnDispatches client mode)

def Scoped (client : Client) (w : Work α) : Prop :=
  ∀ tool ∈ dispatches client w, hasToolScope client.scopes tool = true

theorem executeToolCall_tool (h : executeToolCall srv tool args = .dispatched target t x) : t = tool := by
  unfold executeToolCall runWorkerPool runDaemonToolCall runLSPToolCall startDaemonAndStream at h
  grind

theorem executeToolCall_workerPool : executeToolCall srv tool args = .dispatched .workerPool t x ↔
      tool = toolDispatchWorkerPool ∧ srv.workerPool args = none ∧ t = tool ∧ x = args := by
  unfold executeToolCall runWorkerPool runDaemonToolCall runLSPToolCall startDaemonAndStream
  grind

theorem handleDaemonCommand_tool (h : (handleDaemonCommand srv tool args).answer a = .dispatched target t x) :
    t = tool := by
  unfold handleDaemonCommand at h
  split at h
  · split at h
    · cases h
    split at h
    · unfold handleMonitorDaemon at h
      split at h
      · cases h
      · have hp := (requestApproval_dispatched.mp h).2
        unfold startDaemonAndStream at hp
        grind
    · cases h
      rfl
  · cases h

theorem handleLSPCommand_tool (h : (handleLSPCommand srv tool args).answer a = .dispatched target t x) : t = tool := by
  unfold handleLSPCommand Gate.answer at h
  grind

theorem gateDirectCommand_proceeds (h : (gateDirectCommand srv tool args proceed).answer a = .dispatched target t x) :
    proceed = .dispatched target t x := by
  unfold gateDirectCommand at h
  split at h
  · split at h
    · exact (requestApproval_dispatched.mp h).2
    · exact h
  · exact h

theorem handleCommandRequest_scoped {p : Except String (CommandRequest α)}
    (h : (handleCommandRequest srv client p).answer a = .dispatched target t x) :
    hasToolScope client.scopes t = true := by
  unfold handleCommandRequest at h
  split at h
  · cases h
  next p =>
  split at h
  · cases h
  split at h
  · cases h
  next hs =>
  simp only [Bool.not_eq_false] at hs
  have ht : t = p.tool := by
    split at h
    · exact handleDaemonCommand_tool h
    split at h
    · exact handleLSPCommand_tool h
    split at h
    · cases h
    split at h
    · cases h
    · have hp := gateDirectCommand_proceeds h
      cases hp
      rfl
  rw [ht]
  exact hs

theorem runToolCall_dispatched {call : ToolCall α} :
    (runToolCall srv mw client mode call).answer a = .dispatched target t x ↔
      hasToolScope client.scopes call.tool = true ∧ srv.validate call.tool call.args = none ∧
        ¬ (mode = .audit ∧ isMutatingTool mw call.tool = true) ∧ approved mw call.tool call.args a = true ∧
          executeToolCall srv call.tool call.args = .dispatched target t x := by
  unfold runToolCall
  by_cases hs : hasToolScope client.scopes call.tool = true
  · cases hv : srv.validate call.tool call.args with
    | some err => simp [hs, Gate.answer]
    | none =>
      by_cases hm : mode = .audit ∧ isMutatingTool mw call.tool = true
      · simp [hs, hm, Gate.answer]
      · simp only [hs, hm, Bool.true_eq_false, if_false, not_false_eq_true, true_and]
        exact requestApproval_dispatched
  · simp [hs, Gate.answer]

-- The sub-dispatcher's call passes every check its path makes; none of them looks at the scopes.
def workerAdmits (w : WorkerCall α) : Bool :=
  match w.srv.mw, w.srv.validate w.call.tool w.call.args, w.srv.scopeWorkerCall w.call.tool w.call.args w.task with
  | some mw, none, .ok scopedArgs => approved mw w.call.tool scopedArgs w.answer
  | _, _, _ => false

variable {w : WorkerCall α}

theorem mem_workerDispatches : tool ∈ workerDispatches w ↔ workerAdmits w = true ∧ tool = w.call.tool := by
  unfold workerDispatches workerAdmits
  cases hm : w.srv.mw with
  | none => simp
  | some mw =>
    simp only [mem_tools, runWorkerToolCall]
    cases hv : w.srv.validate w.call.tool w.call.args with
    | some err => simp [Gate.answer]
    | none =>
      cases hsc : w.srv.scopeWorkerCall w.call.tool w.call.args w.task with
      | error err => simp [Gate.answer]
      | ok scopedArgs =>
        simp only [requestApproval_dispatched, Outcome.dispatched.injEq]
        constructor
        · rintro ⟨_, _, ha, _, ht, _⟩
          exact ⟨ha, ht.symm⟩
        · rintro ⟨ha, rfl⟩
          exact ⟨_, _, ha, rfl, rfl, rfl⟩

def poolLaunches (client : Client) (mode : Mode) (c : TurnCall α) : Bool :=
  match c.srv.mw with
  | none => false
  | some mw =>
    c.call.tool == toolDispatchWorkerPool && hasToolScope client.scopes c.call.tool &&
      (c.srv.validate c.call.tool c.call.args).isNone && !(mode == .audit && isMutatingTool mw c.call.tool) &&
        approved mw c.call.tool c.call.args c.answer && (c.srv.workerPool c.call.args).isNone

def WorkersInScope (client : Client) : Work α → Prop
  | .command _ _ _ => True
  | .turn mode calls => ∀ c ∈ calls, poolLaunches client mode c = true →
      ∀ w ∈ c.pool, workerAdmits w = true → hasToolScope client.scopes w.call.tool = true

variable {c : TurnCall α}

theorem poolLaunches_iff (hm : c.srv.mw = some mw) : poolLaunches client mode c = true ↔
      ∃ t x, (runToolCall c.srv mw client mode c.call).answer c.answer = .dispatched .workerPool t x := by
  simp only [runToolCall_dispatched, executeToolCall_workerPool, poolLaunches, hm, Bool.and_eq_true,
    beq_iff_eq, Option.isNone_iff_eq_none, Bool.not_eq_true', Bool.and_eq_false_iff, beq_eq_false_iff_ne]
  constructor
  · rintro ⟨⟨⟨⟨⟨ht, hs⟩, hv⟩, hmode⟩, ha⟩, hp⟩
    refine ⟨_, _, hs, hv, ?_, ha, ht, hp, rfl, rfl⟩
    rintro ⟨h₁, h₂⟩
    simp [h₁, h₂] at hmode
  · rintro ⟨t, x, hs, hv, hmode, ha, ht, hp, _, _⟩
    refine ⟨⟨⟨⟨⟨ht, hs⟩, hv⟩, ?_⟩, ha⟩, hp⟩
    by_cases h₁ : mode = .audit
    · right
      simpa [h₁] using hmode
    · exact .inl h₁

theorem mem_turnDispatches (h : tool ∈ turnDispatches client mode c) : hasToolScope client.scopes tool = true ∨
      poolLaunches client mode c = true ∧ ∃ w ∈ c.pool, workerAdmits w = true ∧ tool = w.call.tool := by
  unfold turnDispatches at h
  split at h
  · simp at h
  next mw hm =>
  split at h
  · simp at h
  · next t x hrun =>
    have hscope := runToolCall_dispatched.mp hrun
    rcases List.mem_cons.mp h with rfl | h
    · left
      rw [executeToolCall_tool hscope.2.2.2.2]
      exact hscope.1
    · right
      obtain ⟨w, hw, hd⟩ := List.mem_flatMap.mp h
      exact ⟨(poolLaunches_iff hm).mpr ⟨t, x, hrun⟩, w, hw, mem_workerDispatches.mp hd⟩
  · next t x hrun =>
    have hscope := runToolCall_dispatched.mp hrun
    left
    rw [List.mem_singleton.mp h, executeToolCall_tool hscope.2.2.2.2]
    exact hscope.1

theorem worker_mem_turnDispatches (hl : poolLaunches client mode c = true) (hw : w ∈ c.pool)
    (ha : workerAdmits w = true) : w.call.tool ∈ turnDispatches client mode c := by
  cases hm : c.srv.mw with
  | none => simp [poolLaunches, hm] at hl
  | some mw =>
    obtain ⟨t, x, hrun⟩ := (poolLaunches_iff hm).mp hl
    simp only [turnDispatches, hm, hrun]
    apply List.mem_cons_of_mem
    exact List.mem_flatMap.mpr ⟨w, hw, mem_workerDispatches.mpr ⟨ha, rfl⟩⟩

theorem scoped_iff_workers (client : Client) (w : Work α) : Scoped client w ↔ WorkersInScope client w := by
  cases w with
  | command srv p a =>
    simp only [WorkersInScope, iff_true]
    intro tool ht
    obtain ⟨target, args, hd⟩ := mem_tools.mp ht
    exact handleCommandRequest_scoped hd
  | turn mode calls =>
    constructor
    · intro h c hc hl v hv ha
      apply h
      exact List.mem_flatMap.mpr ⟨c, hc, worker_mem_turnDispatches hl hv ha⟩
    · intro h tool ht
      obtain ⟨c, hc, hd⟩ := List.mem_flatMap.mp ht
      rcases mem_turnDispatches hd with hs | ⟨hl, v, hv, ha, rfl⟩
      · exact hs
      · exact h c hc hl v hv ha

def poolOnlyClient : Client := ⟨"s1", ["tools:dispatch_worker_pool"]⟩

def openServer : Server (List (String × String)) where
  mw := some ⟨⟨["execute_script", "write_patch"], false⟩, true, fun _ => none, fun _ => false⟩
  runner := true
  semFree := true
  daemons := false
  lsp := false
  validate := fun _ _ => none
  scopeWorkerCall := fun _ args _ => .ok args
  workerPool := fun _ => none

def poolTurn : Work (List (String × String)) :=
  .turn .normal [⟨openServer, ⟨"c1", "dispatch_worker_pool", [("tasks", "t1")]⟩, .granted,
    [⟨openServer, ⟨"t1", ["a.txt"]⟩, ⟨"c2", "execute_script", [("script", "id")]⟩, .granted⟩]⟩]

theorem poolTurn_unscoped : ¬ Scoped poolOnlyClient poolTurn := by
  intro h
  have hs := h "execute_script" (by decide)
  revert hs
  decide

end NomadDev.Tools
