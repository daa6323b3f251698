import NomadDev.ToolFeedback
import NomadDev.TurnFrames
import NomadDev.Foundation.Streaks

namespace NomadDev.Middleware

open Tools Foundation.Streaks List

variable {α β : Type}

structure CallContext (α : Type) where
  srv : Server α
  mw : Tools.Middleware α
  client : Client
  mode : Mode

structure RetryStage (α β : Type) where
  events : List (AssistantEvent α)
  answer : Answer
  ran : Execution
  handled : Handled
  recorded : Option (β × β)
  resumeOK : Bool

inductive Reaction
  | aborted
  | resumed (result : ToolResult)
  | escalated (attempt maxAttempts : ℕ)

def Reaction.resumes : Reaction → Bool
  | .resumed _ => true
  | _ => false

structure Called (α : Type) where
  call : ToolCall α
  ended : CallEnd
  reaction : Reaction

def Called.retryable (d : Called α) : Bool := shouldAutoRetry d.ended.exitCode d.ended.result.error

def reactTo (call : ToolCall α) (b : RetryBudget) (e : CallEnd) : RetryBudget × Reaction :=
  if e.ok = false then (b, .aborted)
  else if shouldAutoRetry e.exitCode e.result.error then
    match b.consume with
    | (true, b') => (b', .resumed (feedback call b e))
    | (false, b') => (b', .escalated b'.attempt (b'.max + 1))
  else (b.reset, .resumed (feedback call b e))

def Called.report (d : Called α) : Option Json :=
  match d.reaction with
  | .escalated attempt maxAttempts => some { buildErrorReport d.call d.ended attempt maxAttempts with escalated := true }.marshal
  | _ => none

def pendingCall : List (AssistantEvent α) → Option (ToolCall α)
  | .toolCall call :: _ => some call
  | .text _ :: rest => pendingCall rest
  | .thinking _ :: rest => pendingCall rest
  | .usage _ :: rest => pendingCall rest
  | _ => none

def CallContext.ends (x : CallContext α) (call : ToolCall α) (i : RetryStage α β) : CallEnd :=
  callEnd x.srv x.mw x.client x.mode call i.answer i.ran i.handled

def turnCalls (x : CallContext α) : RetryBudget → List (RetryStage α β) → List (Called α)
  | _, [] => []
  | b, i :: rest =>
    match pendingCall i.events with
    | none => []
    | some call =>
      let (b', r) := reactTo call b (x.ends call i)
      ⟨call, x.ends call i, r⟩ :: if r.resumes && i.resumeOK then turnCalls x b' rest else []

def RetryStage.stage (x : CallContext α) (i : RetryStage α β) : Stage α β :=
  match pendingCall i.events with
  | none => ⟨i.events, ⟨true, 0, "", none⟩, i.resumeOK⟩
  | some call =>
    let e := x.ends call i
    ⟨i.events, ⟨e.ok, e.exitCode, e.result.error, i.recorded⟩, i.resumeOK⟩

def Frame.isReport : Frame → Bool
  | .errorReport .. => true
  | _ => false

def reports (frames : List Frame) : List Frame := frames.filter Frame.isReport

def Reaction.frames : Reaction → List Frame
  | .escalated attempt maxAttempts => [.errorReport attempt maxAttempts]
  | _ => []

def escalationText : String := "exceeded NOMADDEV_MAX_AUTORETRIES; escalated to operator"

def Reaction.stageEnd : Reaction → StageEnd
  | .aborted => .terminal (errorFinal "")
  | .resumed _ => .next
  | .escalated .. => .terminal (errorFinal escalationText)

theorem Reaction.reports_frames (r : Reaction) : reports r.frames = r.frames := by
  cases r <;> rfl

theorem reports_append (xs ys : List Frame) : reports (xs ++ ys) = reports xs ++ reports ys :=
  filter_append xs ys

theorem finishToolCall_reactTo (call : ToolCall α) (e : CallEnd) (recorded : Option (β × β)) (st : TurnState β) :
    ∃ st', finishToolCall ⟨e.ok, e.exitCode, e.result.error, recorded⟩ st =
        (st', (reactTo call st.budget e).2.stageEnd) ∧
      st'.budget = (reactTo call st.budget e).1 ∧
      st'.frames = st.frames ++ (reactTo call st.budget e).2.frames := by
  simp only [finishToolCall, reactTo]
  split
  · exact ⟨_, rfl, rfl, (append_nil _).symm⟩
  split
  · cases hb : st.budget.consume with
    | mk more b =>
      cases more with
      | true => exact ⟨_, rfl, rfl, (append_nil _).symm⟩
      | false => exact ⟨_, rfl, rfl, rfl⟩
  · exact ⟨_, rfl, rfl, (append_nil _).symm⟩

theorem consumeStage_reads (tool : ToolOutcome β) (events : List (AssistantEvent α)) (st : TurnState β) :
    ∃ st', st'.budget = st.budget ∧ reports st'.frames = reports st.frames ∧
      (∀ call, pendingCall events = some call → consumeStage tool st events = finishToolCall tool st') ∧
      (pendingCall events = none → ∃ ended, ended ≠ .next ∧ consumeStage tool st events = (st', ended)) := by
  induction events generalizing st with
  | nil => exact ⟨st, rfl, rfl, (fun _ h => by cases h), fun _ => ⟨.closed, (fun h => by cases h), rfl⟩⟩
  | cons ev rest ih =>
    cases ev with
    | toolCall call => exact ⟨st, rfl, rfl, fun _ _ => rfl, fun h => by cases h⟩
    | text s =>
      rw [consumeStage]
      split
      · exact ih st
      · obtain ⟨st', hb, hr, hst'⟩ := ih { st with frames := st.frames ++ [.chunk st.seq s], seq := st.seq + 1 }
        exact ⟨st', hb, hr.trans ((reports_append _ _).trans (append_nil _)), hst'⟩
    | thinking s =>
      rw [consumeStage]
      split
      · exact ih st
      · obtain ⟨st', hb, hr, hst'⟩ :=
          ih { st with frames := st.frames ++ [.thinking st.thinkingSeq s], thinkingSeq := st.thinkingSeq + 1 }
        exact ⟨st', hb, hr.trans ((reports_append _ _).trans (append_nil _)), hst'⟩
    | usage u => exact ih { st with usage := st.usage.add u }
    | err e =>
      exact ⟨st, rfl, rfl, (fun _ h => by cases h), fun _ => ⟨.terminal (errorFinal ""), (fun h => by cases h), rfl⟩⟩
    | final m =>
      exact ⟨{ st with usage := st.usage.add m.usage }, rfl, rfl, (fun _ h => by cases h),
        fun _ => ⟨.terminal m, (fun h => by cases h), rfl⟩⟩

theorem emitAssistantMessage_reports (st : TurnState β) (text finishReason errMsg : String) :
    reports (emitAssistantMessage st text finishReason errMsg).frames = reports st.frames :=
  (reports_append _ _).trans (append_nil _)

theorem finishTurn_reports (c : Codec β) (st : TurnState β) (m : FinalMessage) :
    reports (finishTurn c st m).frames = reports st.frames := by
  rw [finishTurn_frames, emitAssistantMessage_reports]

theorem RetryStage.stage_events (x : CallContext α) (i : RetryStage α β) : (i.stage x).events = i.events := by
  unfold RetryStage.stage
  split <;> rfl

theorem RetryStage.stage_resumeOK (x : CallContext α) (i : RetryStage α β) : (i.stage x).resumeOK = i.resumeOK := by
  unfold RetryStage.stage
  split <;> rfl

variable {i : RetryStage α β} {stages : List (RetryStage α β)} {b : RetryBudget} {e : CallEnd} {call : ToolCall α}
  {d : Called α}

section

variable (x : CallContext α)

theorem RetryStage.stage_tool (h : pendingCall i.events = some call) : (i.stage x).tool =
      ⟨(x.ends call i).ok, (x.ends call i).exitCode, (x.ends call i).result.error, i.recorded⟩ := by
  rw [RetryStage.stage, h]

theorem RetryStage.consumeStage_call (h : pendingCall i.events = some call) (st : TurnState β) :
    ∃ (before : List Frame) (st' : TurnState β),
      consumeStage (i.stage x).tool st i.events = (st', (reactTo call st.budget (x.ends call i)).2.stageEnd) ∧
      st'.budget = (reactTo call st.budget (x.ends call i)).1 ∧
      st'.frames = before ++ (reactTo call st.budget (x.ends call i)).2.frames ∧
      reports before = reports st.frames := by
  obtain ⟨st₁, hbudget, hreports, hstage, -⟩ := consumeStage_reads (i.stage x).tool i.events st
  obtain ⟨st', hfinish, hbudget', hframes⟩ := finishToolCall_reactTo call (x.ends call i) i.recorded st₁
  rw [hbudget] at hfinish hbudget' hframes
  refine ⟨st₁.frames, st', ?_, hbudget', hframes, hreports⟩
  rw [hstage call h, RetryStage.stage_tool x h, hfinish]

theorem driveStages_reports (c : Codec β) (stages : List (RetryStage α β)) (st : TurnState β) :
    reports (driveStages c st (stages.map (RetryStage.stage x))).frames =
      reports st.frames ++ (turnCalls x st.budget stages).flatMap fun d => d.reaction.frames := by
  induction stages generalizing st with
  | nil => exact (emitAssistantMessage_reports st _ _ _).trans (append_nil _).symm
  | cons i rest ih =>
    rw [map_cons, driveStages, RetryStage.stage_events, RetryStage.stage_resumeOK, turnCalls]
    cases hcall : pendingCall i.events with
    | none =>
      obtain ⟨st', -, hreports, -, hclosed⟩ := consumeStage_reads (i.stage x).tool i.events st
      obtain ⟨ended, hend, hstage⟩ := hclosed hcall
      simp only [hstage, flatMap_nil, append_nil]
      cases ended with
      | terminal m => rw [finishTurn_reports, hreports]
      | closed => rw [emitAssistantMessage_reports, hreports]
      | next => exact absurd rfl hend
    | some call =>
      obtain ⟨before, st', hstage, hbudget, hframes, hreports⟩ := i.consumeStage_call x hcall st
      have hreports' := congrArg reports hframes
      rw [reports_append, Reaction.reports_frames, hreports] at hreports'
      rw [hstage, flatMap_cons]
      generalize reactTo call st.budget (x.ends call i) = react at hbudget hreports'
      obtain ⟨b, reaction⟩ := react
      cases reaction with
      | aborted => simpa [Reaction.stageEnd, Reaction.resumes, finishTurn_reports] using hreports'
      | escalated attempt maxAttempts =>
        simpa [Reaction.stageEnd, Reaction.resumes, finishTurn_reports] using hreports'
      | resumed r =>
        have hnone : reports st'.frames = reports st.frames := hreports'.trans (append_nil _)
        cases hresume : i.resumeOK with
        | false => simp [Reaction.stageEnd, Reaction.frames, finishTurn_reports, hnone]
        | true =>
          simp only [Reaction.stageEnd, Reaction.resumes, if_true, ih st', hbudget, hnone]
          rfl

theorem driveStages_escalated (c : Codec β) {st : TurnState β} {attempt maxAttempts : ℕ}
    (hmem : d ∈ turnCalls x st.budget stages) (hd : d.reaction = .escalated attempt maxAttempts) :
    ∃ before, (driveStages c st (stages.map (RetryStage.stage x))).frames =
      before ++ [.errorReport attempt maxAttempts, .message escalationText "error" ""] := by
  induction stages generalizing st with
  | nil => cases hmem
  | cons i rest ih =>
    rw [turnCalls] at hmem
    rw [map_cons, driveStages, RetryStage.stage_events, RetryStage.stage_resumeOK]
    cases hcall : pendingCall i.events with
    | none => rw [hcall] at hmem; cases hmem
    | some call =>
      rw [hcall] at hmem
      obtain ⟨before, st', hstage, hbudget, hframes, -⟩ := i.consumeStage_call x hcall st
      rw [hstage]
      dsimp only at hmem
      rcases mem_cons.mp hmem with rfl | hrest
      · dsimp only at hd
        rw [hd] at hframes ⊢
        refine ⟨before, ?_⟩
        rw [Reaction.stageEnd, finishTurn_frames, emitAssistantMessage, hframes, append_assoc]
        rfl
      · split at hrest
        next hgo =>
          obtain ⟨hresumes, hresume⟩ := Bool.and_eq_true_iff.mp hgo
          generalize reactTo call st.budget (x.ends call i) = react at *
          obtain ⟨b, reaction⟩ := react
          cases reaction with
          | aborted | escalated => cases hresumes
          | resumed r =>
            rw [← hbudget] at hrest
            simp only [Reaction.stageEnd, hresume, if_true]
            exact ih hrest
        next => cases hrest

theorem CallContext.ends_aborted (h : (x.ends call i).ok = false) :
    shouldAutoRetry (x.ends call i).exitCode (x.ends call i).result.error = false := by
  have hcodes : ∀ code ∈ codesWithoutOutput, shouldAutoRetry (-1) code = false := by decide
  unfold CallContext.ends callEnd at h ⊢
  split at h
  next r canceled hr => exact hcodes _ (gateRefusal_code hr)
  next hr =>
    unfold executeCall at h
    split at h
    · cases h
    · cases hran : i.ran with
      | dispatchFails | streamed => rw [hran] at h; cases h
    · cases h

end

def charge (b : RetryBudget) (d : Called α) : RetryBudget := if d.retryable then b.consume.2 else b.reset

theorem foldl_charge (calls : List (Called α)) (b : RetryBudget) :
    calls.foldl charge b = ⟨calls.foldl (fun n d => if d.retryable then n + 1 else 0) b.used, b.max⟩ := by
  induction calls generalizing b with
  | nil => rfl
  | cons d rest ih =>
    rw [foldl_cons, ih, foldl_cons]
    unfold charge
    split <;> rfl

def failureRun (calls : List (Called α)) : ℕ := streak Called.retryable calls

theorem foldl_charge_start (m : ℕ) (calls : List (Called α)) :
    calls.foldl charge (newRetryBudget m) = ⟨failureRun calls, m⟩ := by
  rw [foldl_charge]
  exact congrArg₂ RetryBudget.mk (foldl_counter Called.retryable calls) (Int.toNat_natCast m)

theorem reactTo_resumes (h : (reactTo call b e).2.resumes = true) (r : Reaction) :
    (reactTo call b e).1 = charge b ⟨call, e, r⟩ := by
  unfold reactTo at h ⊢
  unfold charge Called.retryable
  split at h
  · cases h
  split at h
  next hretry =>
    rw [if_neg ‹_›, if_pos hretry, if_pos hretry]
    cases b.consume with
    | mk more b' => cases more <;> rfl
  next hretry => rw [if_neg ‹_›, if_neg hretry, if_neg hretry]

theorem turnCalls_split (x : CallContext α) {before after : List (Called α)}
    (h : turnCalls x b stages = before ++ d :: after) :
    d.reaction = (reactTo d.call (before.foldl charge b) d.ended).2 ∧ (d.reaction.resumes = false → after = []) ∧
      (d.retryable = true → d.ended.ok = true) := by
  induction stages generalizing b before with
  | nil => exact absurd h.symm (by simp [turnCalls])
  | cons i rest ih =>
    rw [turnCalls] at h
    cases hcall : pendingCall i.events with
    | none => rw [hcall] at h; exact absurd h.symm (by simp)
    | some call =>
      rw [hcall] at h
      dsimp only at h
      cases before with
      | nil =>
        obtain ⟨rfl, hafter⟩ := List.cons.inj h
        refine ⟨rfl, fun hstop => ?_, fun hretry => Bool.eq_true_of_not_eq_false fun hno => ?_⟩
        · rw [← hafter, hstop]
          rfl
        · cases (x.ends_aborted hno).symm.trans hretry
      | cons first before =>
        obtain ⟨rfl, htail⟩ := List.cons.inj h
        split at htail
        next hgo =>
          rw [foldl_cons, ← reactTo_resumes (Bool.and_eq_true_iff.mp hgo).1]
          exact ih htail
        next => exact absurd htail.symm (by simp)

theorem reactTo_of_room (hok : e.ok = true) (hretry : shouldAutoRetry e.exitCode e.result.error = true)
    (hroom : b.used < b.max) : (reactTo call b e).2 = .resumed (feedback call b e) := by
  simp [reactTo, hok, hretry, RetryBudget.consume, hroom]

theorem reactTo_of_spent (hok : e.ok = true) (hretry : shouldAutoRetry e.exitCode e.result.error = true)
    (hspent : b.max ≤ b.used) : (reactTo call b e).2 = .escalated (b.used + 1) (b.max + 1) := by
  simp [reactTo, hok, hretry, RetryBudget.consume, Nat.not_lt.mpr hspent, RetryBudget.attempt]

theorem reactTo_of_not_retryable (hretry : shouldAutoRetry e.exitCode e.result.error = false) :
    (reactTo call b e).2.frames = [] := by
  simp only [reactTo, hretry]
  split <;> rfl

def Json.field (key : String) : Json → Option Json
  | .obj fields => fields.lookup key
  | _ => none

structure ReportFields (call : ToolCall α) (e : CallEnd) (attempt maxAttempts : ℕ) (escalated : Bool) (r : Json) :
    Prop where
  tool : r.field "tool" = some (.str call.tool)
  originalCallID : r.field "original_call_id" = some (.str call.id)
  exitCode : r.field "exit_code" = some (.num e.exitCode)
  attempt : r.field "attempt" = some (.num attempt)
  maxAttempts : r.field "max_attempts" = some (.num maxAttempts)
  escalated : r.field "escalated" = some (.bool escalated)

theorem marshal_fields (call : ToolCall α) (e : CallEnd) (attempt maxAttempts : ℕ) (escalated : Bool) :
    ReportFields call e attempt maxAttempts escalated
      { buildErrorReport call e attempt maxAttempts with escalated }.marshal := by
  by_cases hcode : e.result.error = "" <;> by_cases hmessage : e.message = "" <;>
    by_cases hstderr : truncStderr e.stderr = [] <;>
    constructor <;> simp [SystemErrorReport.marshal, buildErrorReport, Json.field, lookup_cons, hcode, hmessage, hstderr]

theorem lookup_setField (fields : List (String × Json)) (key : String) (v : Json) :
    (setField fields key v).lookup key = some v := by
  have hnone : (fields.filter (·.1 ≠ key)).lookup key = none := by
    rw [lookup_eq_none_iff]
    intro f hf
    have hne : f.1 ≠ key := by simpa using of_mem_filter hf
    simpa using hne.symm
  rw [setField, lookup_append, hnone]
  simp

theorem lookup_setField_of_ne (fields : List (String × Json)) {key other : String} (v : Json) (h : other ≠ key) :
    (setField fields key v).lookup other = fields.lookup other := by
  have hkept : (fields.filter (·.1 ≠ key)).lookup other = fields.lookup other := by
    induction fields with
    | nil => rfl
    | cons f rest ih =>
      rw [filter_cons]
      split
      next => rw [lookup_cons, lookup_cons, ih]
      next hf =>
        have hne : (other == f.1) = false := by
          rw [show f.1 = key by simpa using hf]
          exact beq_false_of_ne h
        rw [ih, lookup_cons, hne]
  rw [setField, lookup_append, hkept]
  simp [lookup_cons, beq_false_of_ne h]

structure FedBack (call : ToolCall α) (e : CallEnd) (attempt maxAttempts : ℕ) (result : ToolResult) : Prop where
  callID : result.callID = e.result.callID
  tool : result.tool = e.result.tool
  error : result.error = e.result.error
  report : ∃ r, (result.output.getD []).lookup "error_report" = some r ∧
    ReportFields call e attempt maxAttempts false r
  output : ∀ key ≠ "error_report",
    (result.output.getD []).lookup key = (e.result.output.getD []).lookup key

theorem feedback_fedBack (hretry : shouldAutoRetry e.exitCode e.result.error = true) :
    FedBack call e (b.used + 1) (b.max + 1) (feedback call b e) := by
  rw [feedback, if_pos hretry]
  exact ⟨rfl, rfl, rfl, ⟨_, lookup_setField _ _ _, marshal_fields call e _ _ false⟩,
    fun key hkey => lookup_setField_of_ne _ _ hkey⟩

section Turn

variable (x : CallContext α) (m : ℕ) {stages : List (RetryStage α β)} {before after : List (Called α)} {d : Called α}

section

variable (h : turnCalls x (newRetryBudget m) stages = before ++ d :: after)
include h

theorem failureRun_le : failureRun before ≤ m := by
  induction before using List.reverseRecOn with
  | nil => exact (streak_nil _).trans_le (Nat.zero_le m)
  | append_singleton earlier last _ =>
    rw [append_assoc] at h
    obtain ⟨hreact, hstop, hok⟩ := turnCalls_split x h
    rw [failureRun, streak_concat]
    split
    next hretry =>
      rw [foldl_charge_start] at hreact
      by_contra hspent
      have hroom : m ≤ failureRun earlier := Nat.le_of_lt_succ (Nat.lt_of_not_le hspent)
      have hescalated : (reactTo last.call ⟨failureRun earlier, m⟩ last.ended).2 =
          .escalated (failureRun earlier + 1) (m + 1) :=
        reactTo_of_spent (hok hretry) hretry hroom
      have hafter := hstop (by rw [hreact, hescalated]; rfl)
      cases hafter
    next => exact Nat.zero_le m

theorem reaction_of_retryable (hretry : d.retryable = true) :
    (failureRun before < m → ∃ result, d.reaction = .resumed result ∧
        FedBack d.call d.ended (failureRun before + 1) (m + 1) result) ∧
      (failureRun before = m → d.reaction = .escalated (m + 1) (m + 1) ∧ after = []) := by
  obtain ⟨hreact, hstop, hok⟩ := turnCalls_split x h
  rw [foldl_charge_start] at hreact
  constructor
  · intro hroom
    exact ⟨_, hreact.trans (reactTo_of_room (hok hretry) hretry hroom), feedback_fedBack (b := ⟨failureRun before, m⟩) hretry⟩
  · intro hspent
    rw [reactTo_of_spent (hok hretry) hretry hspent.ge] at hreact
    refine ⟨hreact.trans (by rw [hspent]), hstop ?_⟩
    rw [hreact]
    rfl

theorem reaction_of_not_retryable (hretry : d.retryable = false) : d.reaction.frames = [] := by
  rw [(turnCalls_split x h).1]
  exact reactTo_of_not_retryable hretry

theorem escalated_of_frames (hframes : d.reaction.frames ≠ []) :
    d.retryable = true ∧ failureRun before = m ∧ d.reaction = .escalated (m + 1) (m + 1) ∧ after = [] := by
  have hretry : d.retryable = true :=
    Bool.eq_true_of_not_eq_false fun hno => hframes (reaction_of_not_retryable x m h hno)
  obtain ⟨hfed, hlast⟩ := reaction_of_retryable x m h hretry
  have hrun : failureRun before = m := by
    apply Nat.le_antisymm (failureRun_le x m h)
    apply Nat.le_of_not_lt
    intro hroom
    obtain ⟨result, hresumed, -⟩ := hfed hroom
    rw [hresumed] at hframes
    exact hframes rfl
  obtain ⟨hreact, hafter⟩ := hlast hrun
  exact ⟨hretry, hrun, hreact, hafter⟩

end

theorem Called.report_eq_none (h : d.reaction.frames = []) : d.report = none := by
  unfold Called.report
  split
  next hreact => rw [hreact] at h; cases h
  next => rfl

theorem earlier_frames (h : turnCalls x (newRetryBudget m) stages = before ++ [d]) :
    ∀ earlier ∈ before, earlier.reaction.frames = [] := by
  intro earlier hmem
  by_contra hframes
  obtain ⟨l, r, rfl⟩ := append_of_mem hmem
  rw [append_assoc] at h
  have hnil := (escalated_of_frames x m h hframes).2.2.2
  exact cons_ne_nil _ _ ((append_eq_nil_iff.mp hnil).2)

theorem flatMap_frames (h : turnCalls x (newRetryBudget m) stages = before ++ [d]) (hretry : d.retryable = true)
    (hrun : failureRun before = m) :
    (turnCalls x (newRetryBudget m) stages).flatMap (fun d => d.reaction.frames) = [.errorReport (m + 1) (m + 1)] := by
  rw [h, flatMap_append, flatMap_eq_nil_iff.mpr (earlier_frames x m h), flatMap_singleton,
    ((reaction_of_retryable x m h hretry).2 hrun).1]
  rfl

theorem filterMap_report (h : turnCalls x (newRetryBudget m) stages = before ++ [d]) (hretry : d.retryable = true)
    (hrun : failureRun before = m) :
    (turnCalls x (newRetryBudget m) stages).filterMap Called.report =
      [{ buildErrorReport d.call d.ended (m + 1) (m + 1) with escalated := true }.marshal] := by
  have hbefore : before.filterMap Called.report = [] :=
    filterMap_eq_nil_iff.mpr fun earlier hmem => Called.report_eq_none (earlier_frames x m h earlier hmem)
  rw [h, filterMap_append, hbefore, filterMap_cons, Called.report,
    ((reaction_of_retryable x m h hretry).2 hrun).1]
  rfl

end Turn

def turnFrames (x : CallContext α) (c : Codec β) (m : ℕ) (p : Intent) (stages : List (RetryStage α β)) : List Frame :=
  (runTurn c m p .opened (stages.map (RetryStage.stage x))).frames

theorem turnFrames_reports (x : CallContext α) (c : Codec β) (m : ℕ) (p : Intent) (stages : List (RetryStage α β)) :
    reports (turnFrames x c m p stages) =
      (turnCalls x (newRetryBudget m) stages).flatMap fun d => d.reaction.frames :=
  driveStages_reports x c stages _

theorem exists_last_of_infix (x : CallContext α) (m : ℕ)
    (h : List.replicate (m + 1) true <:+: (turnCalls x (newRetryBudget m) stages).map Called.retryable) :
    ∃ before d, turnCalls x (newRetryBudget m) stages = before ++ [d] ∧ d.retryable = true ∧ failureRun before = m := by
  obtain ⟨calls, rest, hsplit, hrun⟩ := replicate_infix_iff.mp h
  induction calls using List.reverseRecOn with
  | nil => simp at hrun
  | append_singleton before d _ =>
    rw [append_assoc, singleton_append] at hsplit
    rw [streak_concat] at hrun
    split at hrun
    next hretry =>
      have hm : failureRun before = m :=
        Nat.le_antisymm (failureRun_le x m hsplit) (Nat.le_of_succ_le_succ hrun)
      obtain ⟨-, hnil⟩ := (reaction_of_retryable x m hsplit hretry).2 hm
      rw [hsplit, hnil]
      exact ⟨before, d, rfl, hretry, hm⟩
    next => cases hrun

theorem reports_ne_nil_iff (x : CallContext α) (c : Codec β) (m : ℕ) (p : Intent) (stages : List (RetryStage α β)) :
    reports (turnFrames x c m p stages) ≠ [] ↔
      List.replicate (m + 1) true <:+: (turnCalls x (newRetryBudget m) stages).map Called.retryable := by
  rw [turnFrames_reports]
  constructor
  · intro hsent
    obtain ⟨d, hmem, hframes⟩ := not_forall₂.mp (mt flatMap_eq_nil_iff.mpr hsent)
    obtain ⟨before, after, hsplit⟩ := append_of_mem hmem
    obtain ⟨hretry, hrun, -, rfl⟩ := escalated_of_frames x m hsplit hframes
    apply replicate_infix_iff.mpr
    refine ⟨before ++ [d], [], hsplit.trans (append_nil _).symm, ?_⟩
    rw [streak_concat, if_pos hretry]
    exact Nat.succ_le_succ hrun.ge
  · intro hinfix
    obtain ⟨before, d, hcalls, hretry, hrun⟩ := exists_last_of_infix x m hinfix
    rw [flatMap_frames x m hcalls hretry hrun]
    exact cons_ne_nil _ _

theorem turn_escalates_iff_run (x : CallContext α) (c : Codec β) (m : ℕ) (p : Intent) (stages : List (RetryStage α β)) :
    (reports (turnFrames x c m p stages) ≠ [] ↔
        List.replicate (m + 1) true <:+: (turnCalls x (newRetryBudget m) stages).map Called.retryable) ∧
      (reports (turnFrames x c m p stages) ≠ [] → reports (turnFrames x c m p stages) = [.errorReport (m + 1) (m + 1)] ∧
        (∃ before : List Frame, turnFrames x c m p stages =
          before ++ ([.errorReport (m + 1) (m + 1), .message escalationText "error" ""] : List Frame)) ∧
        ∃ (before : List (Called α)) (d : Called α) (report : Json),
          turnCalls x (newRetryBudget m) stages = before ++ [d] ∧
          (turnCalls x (newRetryBudget m) stages).filterMap Called.report = [report] ∧
          ReportFields d.call d.ended (m + 1) (m + 1) true report) ∧
      ∀ (before : List (Called α)) (d : Called α) (after : List (Called α)),
        turnCalls x (newRetryBudget m) stages = before ++ d :: after → d.retryable = true →
        (failureRun before < m ∧ ∃ result, d.reaction = .resumed result ∧
            FedBack d.call d.ended (failureRun before + 1) (m + 1) result) ∨
          failureRun before = m ∧ after = [] ∧
            ∃ report, d.report = some report ∧ ReportFields d.call d.ended (m + 1) (m + 1) true report := by
  have hiff := reports_ne_nil_iff x c m p stages
  refine ⟨hiff, fun hsent => ?_, fun before d after hsplit hretry => ?_⟩
  · obtain ⟨before, d, hcalls, hretry, hrun⟩ := exists_last_of_infix x m (hiff.mp hsent)
    obtain ⟨hreact, -⟩ := (reaction_of_retryable x m hcalls hretry).2 hrun
    have hmem : d ∈ turnCalls x (newRetryBudget m) stages := by
      rw [hcalls]
      exact mem_append_right before (mem_singleton_self d)
    refine ⟨(turnFrames_reports x c m p stages).trans (flatMap_frames x m hcalls hretry hrun),
      driveStages_escalated x c hmem hreact, before, d, _, hcalls, filterMap_report x m hcalls hretry hrun,
      marshal_fields d.call d.ended _ _ true⟩
  · obtain ⟨hfed, hlast⟩ := reaction_of_retryable x m hsplit hretry
    rcases (failureRun_le x m hsplit).lt_or_eq with hroom | hspent
    · exact .inl ⟨hroom, hfed hroom⟩
    · obtain ⟨hreact, hafter⟩ := hlast hspent
      exact .inr ⟨hspent, hafter, _, by rw [Called.report, hreact], marshal_fields d.call d.ended _ _ true⟩

def scripting : CallContext Unit := ⟨quietServer, quietMiddleware, ⟨"sid", ["tools:execute_script"]⟩, .normal⟩

def scripted (ending : ℤ × String) : RetryStage Unit Json where
  events := [.toolCall ⟨"call_1", "execute_script", ()⟩]
  answer := .granted
  ran := .streamed ending.1 [] [] ending.2 ""
  handled := ⟨[], 0, "", ""⟩
  recorded := none
  resumeOK := true

def failing : List (RetryStage Unit Json) := [(1, ""), (0, ""), (-1, "sandbox_timeout"), (1, "")].map scripted

def failingCalls : List (Called Unit) := turnCalls scripting (newRetryBudget 1) failing

theorem turn_escalates_iff_run_timeout :
    (∃ report, failingCalls.filterMap Called.report = [report] ∧ report.field "escalated" = some (.bool true) ∧
        report.field "attempt" = some (.num 2) ∧ report.field "max_attempts" = some (.num 2)) ∧
      ∃ result report, failingCalls[2]?.map Called.reaction = some (.resumed result) ∧
        (result.output.getD []).lookup "error_report" = some report ∧ report.field "escalated" = some (.bool false) ∧
        report.field "attempt" = some (.num 1) ∧ report.field "max_attempts" = some (.num 2) := by
  have hretryable : failingCalls.map Called.retryable = [true, false, true, true] := rfl
  obtain ⟨hiff, hsent, hfed⟩ := turn_escalates_iff_run scripting (⟨id, some, fun _ => rfl⟩ : Codec Json) 1
    ⟨"fix the build", .normal, [], 0, by decide, by simp⟩ failing
  obtain ⟨-, -, before, d, report, hcalls, hreport, hfields⟩ := hsent (hiff.mpr ⟨[true, false], [], hretryable.symm⟩)
  refine ⟨⟨report, hreport, hfields.escalated, hfields.attempt, hfields.maxAttempts⟩, ?_⟩
  rcases hfed (failingCalls.take 2) _ (failingCalls.drop 3) rfl rfl with ⟨-, result, hresumed, hback⟩ | ⟨hrun, -⟩
  · obtain ⟨report, hlookup, hfields⟩ := hback.report
    exact ⟨result, report, congrArg some hresumed, hlookup, hfields.escalated, hfields.attempt, hfields.maxAttempts⟩
  · cases hrun

end NomadDev.Middleware
