import NomadDev.ApprovalRuns
import NomadDev.ToolScopes

namespace NomadDev.Tools

variable {α : Type} {mw : Middleware α} {srv : Server α} {client : Client} {a : Answer} {target : Target}
  {tool t : String} {args x : α} {proceed : Outcome α} {call : ToolCall α}

def Gate.Consented (g : Gate α) (a : Answer) : Prop := a = .granted ∧ ∃ reason next, g = .ask reason next

theorem requestApproval_asks (hreq : (requiresApproval mw.policy tool).isSome)
    (hd : (requestApproval mw tool args proceed).answer a = .dispatched target t x) :
    (requestApproval mw tool args proceed).Consented a := by
  obtain ⟨reason, hr⟩ := Option.isSome_iff_exists.mp hreq
  obtain ⟨happ, _⟩ := requestApproval_dispatched.mp hd
  simp only [approved, hr, Option.isNone_some, Bool.false_or, Bool.and_eq_true, beq_iff_eq,
    Option.isNone_iff_eq_none] at happ
  have hask : requestApproval mw tool args proceed =
      .ask reason fun a => if a = .granted then proceed else .refused (classifyApprovalErr a) := by
    simp only [requestApproval, hr, happ.1]
  exact ⟨happ.2, reason, _, hask⟩

theorem runToolCall_asks {mode : Mode} (hd : (runToolCall srv mw client mode call).answer a = .dispatched target t x)
    (hreq : (requiresApproval mw.policy t).isSome) : (runToolCall srv mw client mode call).Consented a := by
  obtain ⟨hs, hv, hm, happ, he⟩ := runToolCall_dispatched.mp hd
  have hgate : runToolCall srv mw client mode call =
      requestApproval mw call.tool call.args (executeToolCall srv call.tool call.args) := by
    simp [runToolCall, hs, hv, hm]
  rw [executeToolCall_tool he] at hreq
  rw [hgate] at hd ⊢
  exact requestApproval_asks hreq hd

theorem runWorkerToolCall_asks {task : SubTask}
    (hd : (runWorkerToolCall srv mw task call).answer a = .dispatched target t x)
    (hreq : (requiresApproval mw.policy t).isSome) : (runWorkerToolCall srv mw task call).Consented a := by
  generalize hg : runWorkerToolCall srv mw task call = g at hd ⊢
  unfold runWorkerToolCall at hg
  split at hg
  · subst hg
    cases hd
  split at hg
  · subst hg
    cases hd
  · subst hg
    cases (requestApproval_dispatched.mp hd).2
    exact requestApproval_asks hreq hd

def ungated (tool : String) : Bool :=
  tool == toolStopDaemon || tool == toolListDaemons || tool == toolLSPQuery

def DirectGated (mw : Middleware α) (tool : String) : Prop :=
  tool = toolMonitorDaemon ∨ mw.gateDirectCommands = true ∧ ungated tool = false

section

variable (hm : srv.mw = some mw)
include hm

theorem handleMonitorDaemon_asks
    (hd : (handleMonitorDaemon srv toolMonitorDaemon args).answer a = .dispatched target t x)
    (hreq : (requiresApproval mw.policy toolMonitorDaemon).isSome) :
    (handleMonitorDaemon srv toolMonitorDaemon args).Consented a := by
  simp only [handleMonitorDaemon, hm] at hd ⊢
  exact requestApproval_asks hreq hd

theorem handleDaemonCommand_asks (hg : DirectGated mw tool) (hdaemon : isDaemonTool tool = true)
    (hd : (handleDaemonCommand srv tool args).answer a = .dispatched target t x)
    (hreq : (requiresApproval mw.policy tool).isSome) : (handleDaemonCommand srv tool args).Consented a := by
  have htool : tool = toolMonitorDaemon := by
    rcases hg with h | ⟨_, hu⟩
    · exact h
    · simp only [isDaemonTool, ungated, Bool.or_eq_true, Bool.or_eq_false_iff, beq_iff_eq,
        beq_eq_false_iff_ne] at hdaemon hu
      grind
  subst htool
  generalize hgate : handleDaemonCommand srv toolMonitorDaemon args = g at hd ⊢
  unfold handleDaemonCommand at hgate
  split at hgate
  · split at hgate
    · subst hgate
      cases hd
    · rw [if_pos rfl] at hgate
      subst hgate
      exact handleMonitorDaemon_asks hm hd hreq
  · subst hgate
    cases hd

theorem gateDirectCommand_asks (hgate : mw.gateDirectCommands = true)
    (hd : (gateDirectCommand srv tool args proceed).answer a = .dispatched target t x)
    (hreq : (requiresApproval mw.policy tool).isSome) : (gateDirectCommand srv tool args proceed).Consented a := by
  simp only [gateDirectCommand, hm, hgate, if_true] at hd ⊢
  exact requestApproval_asks hreq hd

theorem handleCommandRequest_asks {p : CommandRequest α} (hg : DirectGated mw p.tool)
    (hd : (handleCommandRequest srv client (.ok p)).answer a = .dispatched target t x)
    (hreq : (requiresApproval mw.policy t).isSome) : (handleCommandRequest srv client (.ok p)).Consented a := by
  generalize hgate : handleCommandRequest srv client (.ok p) = g at hd ⊢
  simp only [handleCommandRequest] at hgate
  split at hgate
  · subst hgate
    cases hd
  split at hgate
  · subst hgate
    cases hd
  split at hgate
  · next hdaemon =>
    subst hgate
    rw [handleDaemonCommand_tool hd] at hreq
    exact handleDaemonCommand_asks hm hg hdaemon hd hreq
  next hdaemon =>
  split at hgate
  · next hlsp =>
    rcases hg with h | ⟨_, hu⟩
    · exact absurd (h.symm.trans hlsp) (by decide)
    · simp [ungated, hlsp] at hu
  split at hgate
  · subst hgate
    cases hd
  split at hgate
  · subst hgate
    cases hd
  subst hgate
  cases gateDirectCommand_proceeds hd
  have hon : mw.gateDirectCommands = true := by
    rcases hg with h | ⟨h, _⟩
    · simp [isDaemonTool, h] at hdaemon
    · exact h
  exact gateDirectCommand_asks hm hon hd hreq

end

end NomadDev.Tools

namespace NomadDev.Approval

open Tools

variable {α : Type}

def Origin.Gated (mw : Middleware α) (o : Origin α) : Prop :=
  match o.route with
  | .command (.ok p) => DirectGated mw p.tool
  | _ => True

theorem gate_consented {mw : Middleware α} {o : Origin α} {g : Gate α} {a : Answer} {target : Target} {tool : String}
    {args : α} (hm : o.srv.mw = some mw) (hgated : o.Gated mw) (hg : o.gate = some g)
    (hd : g.answer a = .dispatched target tool args) (hreq : (requiresApproval mw.policy tool).isSome) :
    g.Consented a := by
  obtain ⟨srv, client, route⟩ := o
  cases route with simp only at hm
  | command p =>
    cases hg
    cases p with
    | error err => cases hd
    | ok p => exact handleCommandRequest_asks hm hgated hd hreq
  | turn mode call =>
    simp only [Origin.gate, hm, Option.map_some, Option.some.injEq] at hg
    subst hg
    exact runToolCall_asks hd hreq
  | worker task call =>
    simp only [Origin.gate, hm, Option.map_some, Option.some.injEq] at hg
    subst hg
    exact runWorkerToolCall_asks hd hreq

end NomadDev.Approval
