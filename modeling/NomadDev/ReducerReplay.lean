import NomadDev.Reducers

namespace NomadDev.Clients

open Foundation.ListUpdate Foundation.Double Foundation.Transition List

variable {V : Type}

structure Conversation (V : Type) where
  turns : List (Turn V)
  pendingApprovals : List (ApprovalRequest V)
  sessionTokens : TokenCounts

theorem utf8Length_nil : utf8Length [] = 0 := rfl

theorem utf16Length_nil : utf16Length [] = 0 := rfl

def Turn.Waiting (size : Text → ℕ) (turn : Turn V) : Prop := ∀ call ∈ turn.toolCalls, call.Waiting size

variable {f : ToolCall V → ToolCall V} {commandID correlationID error finishReason intentId : String}
  {usage : Option Usage} {turn : Turn V} {call : ToolCall V}

section Waiting

variable {size : Text → ℕ} {turn : Turn V}

theorem waiting_newTurn (intentID text : String) : (newTurn intentID text : Turn V).Waiting size := by
  nofun

theorem Turn.Waiting.attach (h : turn.Waiting size) (hsize : size [] = 0) (id tool : String) (args : List (String × V)) :
    Turn.Waiting size { turn with toolCalls := turn.toolCalls ++ [newToolCall id tool args] } := by
  intro call hcall
  rcases mem_append.mp hcall with hcall | hcall
  · exact h call hcall
  · rw [mem_singleton.mp hcall]
    exact waiting_newToolCall hsize id tool args

theorem Turn.Waiting.updateFirst (h : turn.Waiting size) (p : ToolCall V → Bool)
    (hf : ∀ call, call.Waiting size → (f call).Waiting size) :
    Turn.Waiting size { turn with toolCalls := updateFirst p f turn.toolCalls } :=
  forall_mem_updateFirst h hf

theorem Turn.Waiting.updateAll (h : turn.Waiting size) (p : ToolCall V → Bool)
    (hf : ∀ call, call.Waiting size → (f call).Waiting size) :
    Turn.Waiting size { turn with toolCalls := updateAll p f turn.toolCalls } :=
  forall_mem_updateAll h hf

end Waiting

theorem append_text_eq_self_iff {text : Text} :
    { turn with assistantText := turn.assistantText ++ text } = turn ↔ text = [] := by
  constructor
  · intro h
    exact append_right_eq_self.mp (congrArg Turn.assistantText h)
  · rintro rfl
    rw [append_nil]

theorem attach_ne_self : { turn with toolCalls := turn.toolCalls ++ [call] } ≠ turn := by
  intro h
  exact cons_ne_nil call [] (append_right_eq_self.mp (congrArg Turn.toolCalls h))

theorem setToolCalls_eq_self_iff {calls : List (ToolCall V)} :
    { turn with toolCalls := calls } = turn ↔ calls = turn.toolCalls := by
  constructor
  · intro h
    exact congrArg Turn.toolCalls h
  · rintro rfl
    rfl

theorem setResult_eq_self_iff {result : CommandResult} :
    { call with result := some result, awaitingApproval := false } = call ↔
      call.result = some result ∧ call.awaitingApproval = false := by
  constructor
  · intro h
    exact ⟨(congrArg ToolCall.result h).symm, (congrArg ToolCall.awaitingApproval h).symm⟩
  · rintro ⟨hresult, hawaiting⟩
    rw [← hresult, ← hawaiting]

theorem setElapsed_eq_self_iff {elapsedMs : ℤ} :
    { call with elapsedMs := elapsedMs } = call ↔ call.elapsedMs = elapsedMs := by
  constructor
  · intro h
    exact (congrArg ToolCall.elapsedMs h).symm
  · rintro rfl
    rfl

namespace Native

def State.conversation (st : State V) : Conversation V := ⟨st.turns, st.pendingApprovals, st.sessionTokens⟩

def Told (text : Text) (finishReason error : String) (turn : Turn V) : Prop :=
  (text = [] ∨ turn.assistantText = text) ∧ (finishReason = "" ∨ turn.finishReason = finishReason) ∧
    (finishReason = "error" ∨ error ≠ "" → turn.error = if error = "" then errorFrameText else error) ∧
    turn.finished = true

def Absorbs (st : State V) (correlationID : String) : Payload V → Prop
  | .assistantChunk text => ∀ turn ∈ findTurn st correlationID, text = []
  | .assistantMessage text finishReason error usage =>
    ∀ turn ∈ findTurn st correlationID, Told text finishReason error turn ∧
      addUsage st.sessionTokens usage = st.sessionTokens
  | .commandRequest _ _ => findTurn st correlationID = none
  | .commandChunk _ data => ∀ call ∈ findToolCall st correlationID, data = []
  | .commandResult exitCode durationMs error errorMessage =>
    ∀ call ∈ findToolCall st correlationID,
      call.result = some ⟨exitCode.toInt, durationMs.toInt, error, errorMessage⟩ ∧ call.awaitingApproval = false
  | .sandboxHeartbeat elapsedMs => ∀ call ∈ findToolCall st correlationID, call.elapsedMs = elapsedMs.toInt
  | .toolApprovalRequest _ _ _ _ _ _ => False
  | .hello _ _ _ _ | .ack _ _ _ _ | .error _ _ | .sessionStale | .sessionReplaced | .other _ => True

def Waiting (st : State V) : Prop := ∀ turn ∈ st.turns, turn.Waiting utf8Length

variable {st : State V} {text : Text}

theorem finishTurn_eq_self_iff {turn : Turn V} :
    finishTurn text finishReason error turn = turn ↔ Told text finishReason error turn := by
  obtain ⟨intentID, userText, assistantText, toolCalls, finished, reason, err, usage⟩ := turn
  simp only [finishTurn, Told, Turn.mk.injEq, true_and, and_true]
  constructor
  · rintro ⟨htext, hfinished, hreason, herror⟩
    refine ⟨?_, ?_, ?_, hfinished.symm⟩
    · by_cases h : text = []
      · exact .inl h
      · exact .inr ((if_neg h).symm.trans htext).symm
    · by_cases h : finishReason = ""
      · exact .inl h
      · exact .inr ((if_neg h).symm.trans hreason).symm
    · intro h
      exact ((if_pos h).symm.trans herror).symm
  · rintro ⟨htext, hreason, herror, rfl⟩
    refine ⟨?_, rfl, ?_, ?_⟩
    · rcases htext with rfl | rfl
      · rfl
      · exact ite_self _
    · rcases hreason with rfl | rfl
      · rfl
      · exact ite_self _
    · by_cases h : finishReason = "error" ∨ error ≠ ""
      · rw [if_pos h, herror h]
      · exact if_neg h

theorem updateTurn_turns_eq_iff {f : Turn V → Turn V} :
    (st.updateTurn correlationID f).turns = st.turns ↔ ∀ turn ∈ findTurn st correlationID, f turn = turn := by
  rw [State.updateTurn, findTurn]
  split
  · simp
  · exact updateFirst_eq_self_iff

theorem updateToolCall_turns_eq_iff :
    (st.updateToolCall commandID f).turns = st.turns ↔ ∀ call ∈ findToolCall st commandID, f call = call := by
  rw [State.updateToolCall, findToolCall]
  split
  · simp
  show updateFirst _ _ st.turns = st.turns ↔ _
  induction st.turns with
  | nil => simp [updateFirst]
  | cons turn turns ih =>
    by_cases hany : (turn.toolCalls.any fun call => call.commandID = commandID) = true
    · obtain ⟨call, hcall⟩ : ∃ call, turn.toolCalls.find? (fun call => call.commandID = commandID) = some call := by
        rw [← Option.isSome_iff_exists, List.find?_isSome]
        exact any_eq_true.mp hany
      rw [updateFirst_cons_pos turns hany, List.cons.injEq, setToolCalls_eq_self_iff, updateFirst_eq_self_iff,
        List.findSome?_cons_of_isSome]
      · simp
      · rw [hcall]
        rfl
    · have hnone : turn.toolCalls.find? (fun call => call.commandID = commandID) = none := by
        rw [List.find?_eq_none]
        intro call hcall hmatch
        exact hany (any_eq_true.mpr ⟨call, hcall, hmatch⟩)
      rw [updateFirst_cons_neg turns hany, List.cons.injEq, ih, List.findSome?_cons_of_isNone]
      · simp
      · rw [hnone]
        rfl

theorem conversation_updateTurn_eq_iff {f : Turn V → Turn V} :
    (st.updateTurn correlationID f).conversation = st.conversation ↔
      ∀ turn ∈ findTurn st correlationID, f turn = turn := by
  rw [← updateTurn_turns_eq_iff, State.updateTurn]
  split <;> simp [State.conversation]

theorem conversation_updateToolCall_eq_iff : (st.updateToolCall commandID f).conversation = st.conversation ↔
      ∀ call ∈ findToolCall st commandID, f call = call := by
  rw [← updateToolCall_turns_eq_iff, State.updateToolCall]
  split <;> simp [State.conversation]

theorem Waiting.of_findToolCall (h : Waiting st) {call : ToolCall V}
    (hcall : call ∈ findToolCall st commandID) : call.Waiting utf8Length := by
  rw [findToolCall] at hcall
  obtain ⟨-, hcall⟩ := Option.ite_none_left_eq_some.mp hcall
  obtain ⟨turn, hturn, hfind⟩ := exists_of_findSome?_eq_some hcall
  exact h turn hturn call (mem_of_find?_eq_some hfind)

theorem conversation_applyAssistantMessage_eq_iff :
    (applyAssistantMessage st correlationID text finishReason error usage).conversation = st.conversation ↔
      ∀ turn ∈ findTurn st correlationID, Told text finishReason error turn ∧
        addUsage st.sessionTokens usage = st.sessionTokens := by
  rw [applyAssistantMessage]
  cases hfind : findTurn st correlationID with
  | none => simp
  | some turn =>
    have hturns : (st.updateTurn correlationID (finishTurn text finishReason error)).turns = st.turns ↔
        Told text finishReason error turn := by
      rw [updateTurn_turns_eq_iff, hfind, ← finishTurn_eq_self_iff]
      simp
    have happrovals : (st.updateTurn correlationID (finishTurn text finishReason error)).pendingApprovals =
        st.pendingApprovals := by
      rw [State.updateTurn]
      split <;> rfl
    simp [State.conversation, hturns, happrovals]

theorem conversation_applyToolApprovalRequest_ne {now : Int64} {id tool : String} {args : List (String × V)}
    {reason pendingCommandID : String} {timeoutMs : Option Int64} {preview : Option ApprovalPreview} :
    (applyToolApprovalRequest st now id tool args reason pendingCommandID timeoutMs preview).conversation ≠
      st.conversation := by
  intro h
  have happrovals := congrArg Conversation.pendingApprovals h
  rw [applyToolApprovalRequest, State.updateToolCall] at happrovals
  split at happrovals <;> exact cons_ne_nil _ [] (append_right_eq_self.mp happrovals)

theorem conversation_applyPayload_eq_iff (h : Waiting st) (now : Int64) (id correlationID : String) (p : Payload V) :
    (applyPayload st now id correlationID p).conversation = st.conversation ↔ Absorbs st correlationID p := by
  cases p with
  | hello | error | sessionStale | sessionReplaced | other => exact iff_of_true rfl trivial
  | ack action error message model =>
    refine iff_of_true ?_ trivial
    rw [applyPayload, applyAck]
    split <;> rfl
  | assistantChunk text =>
    refine conversation_updateTurn_eq_iff.trans ?_
    simp only [append_text_eq_self_iff]
    exact Iff.rfl
  | assistantMessage text finishReason error usage => exact conversation_applyAssistantMessage_eq_iff
  | commandRequest tool args =>
    refine conversation_updateTurn_eq_iff.trans ?_
    simp only [attach_ne_self]
    exact Option.eq_none_iff_forall_not_mem.symm
  | commandChunk stream data =>
    refine conversation_updateToolCall_eq_iff.trans ?_
    refine forall₂_congr fun call hcall => ?_
    exact mergeChunk_eq_self_iff (h.of_findToolCall hcall)
  | commandResult exitCode durationMs error errorMessage =>
    refine conversation_updateToolCall_eq_iff.trans ?_
    simp only [setResult_eq_self_iff]
    exact Iff.rfl
  | sandboxHeartbeat elapsedMs =>
    refine conversation_updateToolCall_eq_iff.trans ?_
    simp only [setElapsed_eq_self_iff]
    exact Iff.rfl
  | toolApprovalRequest tool args reason pendingCommandID timeoutMs preview =>
    exact iff_of_false conversation_applyToolApprovalRequest_ne not_false

theorem Waiting.updateTurn (h : Waiting st) (correlationID : String) {f : Turn V → Turn V}
    (hf : ∀ turn, turn.Waiting utf8Length → (f turn).Waiting utf8Length) : Waiting (st.updateTurn correlationID f) := by
  rw [State.updateTurn]
  split
  · exact h
  · exact forall_mem_updateFirst h hf

theorem Waiting.updateToolCall (h : Waiting st) (commandID : String)
    (hf : ∀ call, call.Waiting utf8Length → (f call).Waiting utf8Length) :
    Waiting (st.updateToolCall commandID f) := by
  rw [State.updateToolCall]
  split
  · exact h
  · exact forall_mem_updateFirst h fun turn hturn => hturn.updateFirst _ hf

theorem Waiting.applyPayload (h : Waiting st) (now : Int64) (id correlationID : String) (p : Payload V) :
    Waiting (applyPayload st now id correlationID p) := by
  cases p with
  | hello | error | sessionStale | sessionReplaced | other => exact h
  | ack action error message model =>
    rw [Native.applyPayload, applyAck]
    split <;> exact h
  | assistantChunk text => exact h.updateTurn correlationID fun _ hturn => hturn
  | assistantMessage text finishReason error usage =>
    rw [Native.applyPayload, applyAssistantMessage]
    split
    · exact h
    · exact h.updateTurn correlationID fun _ hturn => hturn
  | commandRequest tool args => exact h.updateTurn correlationID fun _ hturn => hturn.attach utf8Length_nil id tool args
  | commandChunk stream data =>
    exact h.updateToolCall correlationID fun _ hcall => hcall.mergeChunk utf8Length_nil _ data
  | commandResult | sandboxHeartbeat => exact h.updateToolCall correlationID fun _ hcall => hcall
  | toolApprovalRequest tool args reason pendingCommandID timeoutMs preview =>
    refine Waiting.updateToolCall ?_ pendingCommandID fun _ hcall => hcall
    exact h

theorem Waiting.step {st' : State V} {a : Action V} (hstep : step st a = some st') (h : Waiting st) : Waiting st' := by
  cases a with
  | inbound env now =>
    cases hstep
    have hreceived : Waiting { st with lastEventID := env.id } := h
    exact hreceived.applyPayload now env.id env.correlationID env.payload
  | sentIntent intentID text =>
    cases hstep
    intro turn hturn
    rcases mem_append.mp hturn with hturn | hturn
    · exact h turn hturn
    · rw [mem_singleton.mp hturn]
      exact waiting_newTurn intentID text
  | popApproval envelopeID =>
    cases hstep
    exact h
  | resetTurns | signOut =>
    cases hstep
    exact forall_mem_nil _

theorem waiting_of_run {as : List (Action V)} (h : run step new as = some st) : Waiting st :=
  run_preserves (fun _ _ _ => Waiting.step) h (forall_mem_nil _)

theorem conversation_ingest_eq_iff (h : Waiting st) (now : Int64) (env : Envelope V) :
    (ingest st now env).conversation = st.conversation ↔ Absorbs st env.correlationID env.payload := by
  have hreceived : Waiting { st with lastEventID := env.id } := h
  refine (conversation_applyPayload_eq_iff hreceived now env.id env.correlationID env.payload).trans ?_
  cases env.payload <;> exact Iff.rfl

end Native

namespace Spa

def AppState.conversation (st : AppState V) : Conversation V := ⟨st.turns, st.pendingApprovals, st.sessionTokens⟩

def Absorbs (st : AppState V) (correlationId : String) : Payload V → Prop
  | .sessionStale => st.turns = [] ∧ st.pendingApprovals = [] ∧ st.sessionTokens = ⟨0, 0, 0⟩
  | .assistantChunk text => correlationId = "" ∨ ∀ t ∈ st.turns, t.intentID = correlationId → text = []
  | .assistantMessage text finishReason error usage =>
    correlationId = "" ∨
      (∀ t ∈ st.turns, t.intentID = correlationId →
        text = [] ∧ t.finished = true ∧ t.finishReason = finishReason ∧ t.error = error ∧
          t.usage = usage.map readUsage) ∧
      addUsage st.sessionTokens usage = st.sessionTokens
  | .commandRequest _ _ => correlationId = "" ∨ ∀ t ∈ st.turns, t.intentID ≠ correlationId
  | .commandChunk _ data =>
    correlationId = "" ∨ ∀ t ∈ st.turns, ∀ c ∈ t.toolCalls, c.commandID = correlationId → data = []
  | .commandResult exitCode durationMs error errorMessage =>
    correlationId = "" ∨ ∀ t ∈ st.turns, ∀ c ∈ t.toolCalls, c.commandID = correlationId →
      c.result = some ⟨toDouble exitCode.toInt, toDouble durationMs.toInt, error, errorMessage⟩ ∧
        c.awaitingApproval = false
  | .sandboxHeartbeat elapsedMs =>
    correlationId = "" ∨ ∀ t ∈ st.turns, ∀ c ∈ t.toolCalls, c.commandID = correlationId →
      c.elapsedMs = toDouble elapsedMs.toInt
  | .toolApprovalRequest _ _ _ _ _ _ => False
  | .hello _ _ _ _ | .ack _ _ _ _ | .error _ _ | .sessionReplaced | .other _ => True

def Waiting (st : AppState V) : Prop := ∀ t ∈ st.turns, t.Waiting utf16Length

variable {st : AppState V} {text : Text} {commandId : String}

theorem finishedTurn_eq_self_iff {t : Turn V} : finishedTurn text finishReason error usage t = t ↔
      text = [] ∧ t.finished = true ∧ t.finishReason = finishReason ∧ t.error = error ∧
        t.usage = usage.map readUsage := by
  obtain ⟨intentID, userText, assistantText, toolCalls, finished, reason, err, kept⟩ := t
  simp only [finishedTurn, Turn.mk.injEq, true_and]
  constructor
  · rintro ⟨htext, hfinished, hreason, herror, husage⟩
    refine ⟨?_, hfinished.symm, hreason.symm, herror.symm, husage.symm⟩
    by_contra h
    exact h (append_right_eq_self.mp ((if_neg h).symm.trans htext))
  · rintro ⟨rfl, rfl, rfl, rfl, rfl⟩
    exact ⟨rfl, rfl, rfl, rfl, rfl⟩

theorem mapTurns_turns_eq_iff {f : Turn V → Turn V} : (st.mapTurns intentId f).turns = st.turns ↔
      intentId = "" ∨ ∀ t ∈ st.turns, t.intentID = intentId → f t = t := by
  rw [AppState.mapTurns]
  split
  next h => simp [h]
  next h =>
    rw [or_iff_right h]
    refine updateAll_eq_self_iff.trans ?_
    simp only [decide_eq_true_eq]

theorem conversation_mapTurns_eq_iff {f : Turn V → Turn V} : (st.mapTurns intentId f).conversation = st.conversation ↔
      intentId = "" ∨ ∀ t ∈ st.turns, t.intentID = intentId → f t = t := by
  rw [← mapTurns_turns_eq_iff, AppState.mapTurns]
  split <;> simp [AppState.conversation]

theorem conversation_mapToolCalls_eq_iff : (st.mapToolCalls commandId f).conversation = st.conversation ↔
      ∀ t ∈ st.turns, ∀ c ∈ t.toolCalls, c.commandID = commandId → f c = c := by
  have hturns : (st.mapToolCalls commandId f).conversation = st.conversation ↔
      (st.mapToolCalls commandId f).turns = st.turns.map id := by
    simp [AppState.conversation, AppState.mapToolCalls]
  rw [hturns, AppState.mapToolCalls, map_inj_left]
  refine forall₂_congr fun t _ => ?_
  refine setToolCalls_eq_self_iff.trans (updateAll_eq_self_iff.trans ?_)
  simp only [decide_eq_true_eq]

theorem conversation_named_eq_iff :
    (if commandId = "" then st else st.mapToolCalls commandId f).conversation = st.conversation ↔
      commandId = "" ∨ ∀ t ∈ st.turns, ∀ c ∈ t.toolCalls, c.commandID = commandId → f c = c := by
  split
  next h => exact iff_of_true rfl (.inl h)
  next h => rw [conversation_mapToolCalls_eq_iff, or_iff_right h]

theorem conversation_finishTurn_eq_iff :
    (finishTurn st intentId text finishReason error usage).conversation = st.conversation ↔
      Absorbs st intentId (.assistantMessage text finishReason error usage) := by
  rw [finishTurn, Absorbs]
  split
  next h => exact iff_of_true rfl (.inl h)
  next h =>
    have hturns : (st.mapTurns intentId (finishedTurn text finishReason error usage)).turns = st.turns ↔ _ :=
      mapTurns_turns_eq_iff
    have happrovals : (st.mapTurns intentId (finishedTurn text finishReason error usage)).pendingApprovals =
        st.pendingApprovals := by
      rw [AppState.mapTurns]
      split <;> rfl
    simp only [finishedTurn_eq_self_iff, or_iff_right h] at hturns
    rw [or_iff_right h, ← hturns]
    simp [AppState.conversation, happrovals]

theorem conversation_requestApproval_ne {now : Int64} {id tool : String} {args : List (String × V)}
    {reason pendingCommandId : String} {timeoutMs : Option Int64} {preview : Option ApprovalPreview} :
    (requestApproval st now id tool args reason pendingCommandId timeoutMs preview).conversation ≠ st.conversation := by
  intro h
  exact cons_ne_nil _ [] (append_right_eq_self.mp (congrArg Conversation.pendingApprovals h))

section

variable (h : Waiting st)
include h

theorem conversation_reducePayload_eq_iff (now : Int64) (id correlationId : String) (p : Payload V) :
    (reducePayload st now id correlationId p).conversation = st.conversation ↔ Absorbs st correlationId p := by
  cases p with
  | hello | error | sessionReplaced | other => exact iff_of_true rfl trivial
  | ack action error message model =>
    refine iff_of_true ?_ trivial
    rw [reducePayload, ackCommand]
    split_ifs <;> rfl
  | sessionStale =>
    simp only [reducePayload, reset, AppState.conversation, Absorbs, Conversation.mk.injEq]
    simp only [eq_comm]
  | assistantChunk text =>
    refine conversation_mapTurns_eq_iff.trans ?_
    simp only [append_text_eq_self_iff]
    exact Iff.rfl
  | assistantMessage text finishReason error usage => exact conversation_finishTurn_eq_iff
  | commandRequest tool args =>
    refine conversation_mapTurns_eq_iff.trans ?_
    simp only [attach_ne_self]
    exact Iff.rfl
  | commandChunk stream data =>
    refine conversation_named_eq_iff.trans (or_congr_right ?_)
    refine forall₂_congr fun t ht => forall₂_congr fun c hc => imp_congr_right fun _ => ?_
    exact mergeChunk_eq_self_iff (h t ht c hc)
  | commandResult exitCode durationMs error errorMessage =>
    refine conversation_named_eq_iff.trans ?_
    simp only [setResult_eq_self_iff]
    exact Iff.rfl
  | sandboxHeartbeat elapsedMs =>
    refine conversation_named_eq_iff.trans ?_
    simp only [setElapsed_eq_self_iff]
    exact Iff.rfl
  | toolApprovalRequest tool args reason pendingCommandId timeoutMs preview =>
    exact iff_of_false conversation_requestApproval_ne not_false

theorem Waiting.mapTurns (intentId : String) {f : Turn V → Turn V}
    (hf : ∀ t, t.Waiting utf16Length → (f t).Waiting utf16Length) : Waiting (st.mapTurns intentId f) := by
  rw [AppState.mapTurns]
  split
  · exact h
  · exact forall_mem_updateAll h hf

theorem Waiting.mapToolCalls (commandId : String) (hf : ∀ c, c.Waiting utf16Length → (f c).Waiting utf16Length) :
    Waiting (st.mapToolCalls commandId f) := by
  intro t ht
  obtain ⟨u, hu, rfl⟩ := mem_map.mp ht
  exact (h u hu).updateAll _ hf

theorem Waiting.named (commandId : String) (hf : ∀ c, c.Waiting utf16Length → (f c).Waiting utf16Length) :
    Waiting (if commandId = "" then st else st.mapToolCalls commandId f) := by
  split
  · exact h
  · exact h.mapToolCalls commandId hf

theorem Waiting.reducePayload (now : Int64) (id correlationId : String) (p : Payload V) :
    Waiting (reducePayload st now id correlationId p) := by
  cases p with
  | hello | error | sessionReplaced | other => exact h
  | ack action error message model =>
    rw [Spa.reducePayload, ackCommand]
    split_ifs <;> exact h
  | sessionStale => exact forall_mem_nil _
  | assistantChunk text => exact h.mapTurns correlationId fun _ ht => ht
  | assistantMessage text finishReason error usage =>
    rw [Spa.reducePayload, finishTurn]
    split
    · exact h
    · exact h.mapTurns correlationId fun _ ht => ht
  | commandRequest tool args => exact h.mapTurns correlationId fun _ ht => ht.attach utf16Length_nil id tool args
  | commandChunk stream data => exact h.named correlationId fun _ hc => hc.mergeChunk utf16Length_nil _ data
  | commandResult | sandboxHeartbeat => exact h.named correlationId fun _ hc => hc
  | toolApprovalRequest tool args reason pendingCommandId timeoutMs preview =>
    refine Waiting.mapToolCalls ?_ pendingCommandId fun _ hc => hc
    exact h

end

theorem Waiting.step {st' : AppState V} {a : Action V} (hstep : step st a = some st') (h : Waiting st) :
    Waiting st' := by
  cases a with
  | inbound env now =>
    cases hstep
    have hreceived : Waiting { st with lastEventId := env.id } := h
    exact hreceived.reducePayload now env.id env.correlationID env.payload
  | sentIntent intentId text =>
    cases hstep
    intro t ht
    rcases mem_append.mp ht with ht | ht
    · exact h t ht
    · rw [mem_singleton.mp ht]
      exact waiting_newTurn intentId text
  | popApproval envelopeId =>
    cases hstep
    exact h
  | reset =>
    cases hstep
    exact forall_mem_nil _

theorem waiting_of_run {as : List (Action V)} (h : run step initial as = some st) : Waiting st :=
  run_preserves (fun _ _ _ => Waiting.step) h (forall_mem_nil _)

theorem conversation_ingest_eq_iff (h : Waiting st) (now : Int64) (env : Envelope V) :
    (ingest st now env).conversation = st.conversation ↔ Absorbs st env.correlationID env.payload := by
  have hreceived : Waiting { st with lastEventId := env.id } := h
  refine (conversation_reducePayload_eq_iff hreceived now env.id env.correlationID env.payload).trans ?_
  cases env.payload <;> exact Iff.rfl

end Spa

theorem ingest_unchanged_iff :
    (∀ (as : List (Native.Action V)) (st : Native.State V), run Native.step Native.new as = some st →
      ∀ (env : Envelope V) (now : Int64),
        (Native.ingest st now env).conversation = st.conversation ↔ Native.Absorbs st env.correlationID env.payload) ∧
    ∀ (as : List (Spa.Action V)) (st : Spa.AppState V), run Spa.step Spa.initial as = some st →
      ∀ (env : Envelope V) (now : Int64),
        (Spa.ingest st now env).conversation = st.conversation ↔ Spa.Absorbs st env.correlationID env.payload := by
  constructor
  · intro as st hrun env now
    exact Native.conversation_ingest_eq_iff (Native.waiting_of_run hrun) now env
  · intro as st hrun env now
    exact Spa.conversation_ingest_eq_iff (Spa.waiting_of_run hrun) now env

def commandFrame : Envelope String := ⟨"e1", "i1", .commandRequest "execute_script" []⟩

def heartbeatFrame : Envelope String := ⟨"e2", "e1", .sandboxHeartbeat 5000⟩

theorem ingest_unchanged_heartbeat : (∃ st, run Native.step Native.new
        [.sentIntent "i1" "run it", .inbound commandFrame 1000, .inbound heartbeatFrame 6000] = some st ∧
        (Native.ingest st 7000 heartbeatFrame).conversation = st.conversation) ∧
      ∃ st, run Spa.step Spa.initial
        [.sentIntent "i1" "run it", .inbound commandFrame 1000, .inbound heartbeatFrame 6000] = some st ∧
        (Spa.ingest st 7000 heartbeatFrame).conversation = st.conversation := by
  constructor
  · refine ⟨_, rfl, (ingest_unchanged_iff.1 [.sentIntent "i1" "run it", .inbound commandFrame 1000,
      .inbound heartbeatFrame 6000] _ rfl heartbeatFrame 7000).mpr ?_⟩
    show ∀ call ∈ Native.findToolCall _ "e1", call.elapsedMs = 5000
    decide +kernel
  · refine ⟨_, rfl, (ingest_unchanged_iff.2 [.sentIntent "i1" "run it", .inbound commandFrame 1000,
      .inbound heartbeatFrame 6000] _ rfl heartbeatFrame 7000).mpr (.inr ?_)⟩
    show ∀ t ∈ (_ : List (Turn String)), ∀ c ∈ t.toolCalls, c.commandID = "e1" → c.elapsedMs = toDouble 5000
    decide +kernel

def chunkFrame : Envelope String := ⟨"e1", "i1", .assistantChunk "Hi.".toList⟩

def closingFrame : Envelope String := ⟨"e2", "i1", .assistantMessage [] "stop" "" (some ⟨5, 3, 8⟩)⟩

theorem replay_doubles :
    (∃ st, run Native.step Native.new [.sentIntent "i1" "hello", .inbound chunkFrame 1000, .inbound closingFrame 1001] =
        some st ∧
        st.turns.map Turn.assistantText = ["Hi.".toList] ∧ st.sessionTokens = ⟨5, 3, 8⟩ ∧
        (Native.ingest st 2000 chunkFrame).turns.map Turn.assistantText = ["Hi.Hi.".toList] ∧
        (Native.ingest st 2000 closingFrame).sessionTokens = ⟨10, 6, 16⟩) ∧
      ∃ st, run Spa.step Spa.initial [.sentIntent "i1" "hello", .inbound chunkFrame 1000, .inbound closingFrame 1001] =
        some st ∧
        st.turns.map Turn.assistantText = ["Hi.".toList] ∧ st.sessionTokens = ⟨5, 3, 8⟩ ∧
        (Spa.ingest st 2000 chunkFrame).turns.map Turn.assistantText = ["Hi.Hi.".toList] ∧
        (Spa.ingest st 2000 closingFrame).sessionTokens = ⟨10, 6, 16⟩ := by
  refine ⟨⟨_, rfl, ?_, ?_, ?_, ?_⟩, ⟨_, rfl, ?_, ?_, ?_, ?_⟩⟩ <;> decide +kernel

end NomadDev.Clients
