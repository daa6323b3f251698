import Mathlib.Data.List.Nodup
import NomadDev.Reducers

namespace NomadDev.Clients

open Foundation.ListUpdate Foundation.Double Foundation.Lines Foundation.Transition List

variable {V : Type}

def Turn.observed (turn : Turn V) : Turn V := { turn with error := "", usage := none }

structure Observation (V : Type) where
  turns : List (Turn V)
  pendingApprovals : List (ApprovalRequest V)
  sessionTokens : TokenCounts
  (model lastEventID : String)

def Native.State.observed (g : Native.State V) : Observation V :=
  ⟨g.turns.map Turn.observed, g.pendingApprovals, g.sessionTokens, g.model, g.lastEventID⟩

def Spa.AppState.observed (t : Spa.AppState V) : Observation V :=
  ⟨t.turns.map Turn.observed, t.pendingApprovals, t.sessionTokens, t.currentModel, t.lastEventId⟩

variable {a b : Turn V} {usage : Option Usage} {now : Int64} {f : ToolCall V → ToolCall V} {envelopeID : String}

namespace Lockstep

structure Pair (V : Type) where
  native : Native.State V
  spa : Spa.AppState V

def start : Pair V := ⟨Native.new, Spa.initial⟩

inductive Action (V : Type)
  | sentIntent (intentID text : String)
  | inbound (env : Envelope V) (now : Int64)

def step (s : Pair V) : Action V → Option (Pair V)
  | .sentIntent intentID text =>
    some ⟨Native.recordSentIntent s.native intentID text, Spa.recordSentIntent s.spa intentID text⟩
  | .inbound env now => some ⟨Native.ingest s.native now env, Spa.ingest s.spa now env⟩

def ExactSum (a : ℤ) (b : Int64) : Prop := Safe b.toInt ∧ Safe (a + b.toInt)

def ExactUsage (tokens : TokenCounts) (usage : Usage) : Prop :=
  ExactSum tokens.prompt usage.promptTokens ∧ ExactSum tokens.candidates usage.candidatesTokens ∧
    ExactSum tokens.total usage.totalTokens

def SameFlush (call : ToolCall V) (stream : Stream) (data : Text) : Prop :=
  utf8Length (fragment '\n' (call.carry stream ++ data)) > partialLineCap ↔
    utf16Length (fragment '\n' (call.carry stream ++ data)) > partialLineCap

def PositiveTimeout (timeoutMs : Option Int64) : Prop := ∀ ms ∈ timeoutMs, 0 < ms.toInt

def InStepPayload (g : Native.State V) (now : Int64) (id correlationID : String) : Payload V → Prop
  | .hello _ _ model _ => model ≠ "" ∨ g.model = ""
  | .sessionStale => False
  | .assistantMessage text finishReason _ usage =>
    correlationID = "" ∨
      (∀ turn ∈ g.turns, turn.intentID = correlationID →
        (text = [] ∨ turn.assistantText = []) ∧ (finishReason ≠ "" ∨ turn.finishReason = "")) ∧
      ∀ u ∈ usage, (∃ turn ∈ g.turns, turn.intentID = correlationID) ∧ ExactUsage g.sessionTokens u
  | .commandRequest _ _ => ∀ turn ∈ g.turns, ∀ call ∈ turn.toolCalls, call.commandID ≠ id
  | .commandChunk stream data =>
    ∀ turn ∈ g.turns, ∀ call ∈ turn.toolCalls, call.commandID = correlationID → SameFlush call (.ofName stream) data
  | .commandResult exitCode durationMs _ _ => Safe exitCode.toInt ∧ Safe durationMs.toInt
  | .sandboxHeartbeat elapsedMs => Safe elapsedMs.toInt
  | .toolApprovalRequest _ _ _ pendingCommandID timeoutMs preview =>
    pendingCommandID ≠ "" ∧ PositiveTimeout timeoutMs ∧ Safe now.toInt ∧
      ExactSum now.toInt (timeoutMs.getD 60000) ∧ preview ≠ some ⟨"", 0, "", ""⟩
  | .ack _ _ _ _ | .error _ _ | .sessionReplaced | .assistantChunk _ | .other _ => True

def InStep (s : Pair V) : Action V → Prop
  | .sentIntent intentID _ => ∀ turn ∈ s.native.turns, turn.intentID ≠ intentID
  | .inbound env now => InStepPayload s.native now env.id env.correlationID env.payload

instance (a : ℤ) (b : Int64) : Decidable (ExactSum a b) := inferInstanceAs (Decidable (_ ∧ _))

instance (tokens : TokenCounts) (usage : Usage) : Decidable (ExactUsage tokens usage) :=
  inferInstanceAs (Decidable (_ ∧ _))

instance (call : ToolCall V) (stream : Stream) (data : Text) : Decidable (SameFlush call stream data) :=
  inferInstanceAs (Decidable (_ ↔ _))

-- by the cases of the option: a search over all timeouts would not end
instance : (timeoutMs : Option Int64) → Decidable (PositiveTimeout timeoutMs)
  | none => .isTrue nofun
  | some ms => decidable_of_iff (0 < ms.toInt) (by simp [PositiveTimeout])

instance (g : Native.State V) (now : Int64) (id correlationID : String) :
    (p : Payload V) → Decidable (InStepPayload g now id correlationID p)
  | .hello _ _ _ _ => inferInstanceAs (Decidable (_ ∨ _))
  | .sessionStale => inferInstanceAs (Decidable False)
  | .assistantMessage _ _ _ usage => inferInstanceAs (Decidable (_ ∨ (∀ turn ∈ g.turns, _) ∧ ∀ u ∈ usage, _))
  | .commandRequest _ _ => inferInstanceAs (Decidable (∀ turn ∈ g.turns, _))
  | .commandChunk _ _ => inferInstanceAs (Decidable (∀ turn ∈ g.turns, _))
  | .commandResult _ _ _ _ => inferInstanceAs (Decidable (_ ∧ _))
  | .sandboxHeartbeat _ => inferInstanceAs (Decidable (Safe _))
  | .toolApprovalRequest _ _ _ _ _ _ => inferInstanceAs (Decidable (_ ∧ _))
  | .ack _ _ _ _ | .error _ _ | .sessionReplaced | .assistantChunk _ | .other _ =>
    inferInstanceAs (Decidable True)

instance (s : Pair V) : (a : Action V) → Decidable (InStep s a)
  | .sentIntent _ _ => inferInstanceAs (Decidable (∀ turn ∈ s.native.turns, _))
  | .inbound env now => inferInstanceAs (Decidable (InStepPayload s.native now env.id env.correlationID env.payload))

def SameTurn (a b : Turn V) : Prop := ∃ error usage, a = { b with error := error, usage := usage }

def callIDs (turn : Turn V) : List String := turn.toolCalls.map ToolCall.commandID

/-- The relation that the steps keep. Ids that are given twice would be one match in Go and two in TypeScript. -/
structure Agree (g : Native.State V) (t : Spa.AppState V) : Prop where
  turns : List.Forall₂ SameTurn g.turns t.turns
  approvals : g.pendingApprovals = t.pendingApprovals
  tokens : g.sessionTokens = t.sessionTokens
  model : g.model = t.currentModel
  lastEventID : g.lastEventID = t.lastEventId
  turnIDs : (g.turns.map Turn.intentID).Nodup
  callIDs : (g.turns.map callIDs).flatten.Nodup

theorem SameTurn.observed (h : SameTurn a b) : a.observed = b.observed := by
  obtain ⟨error, usage, rfl⟩ := h
  rfl

theorem SameTurn.intentID (h : SameTurn a b) : a.intentID = b.intentID := by
  obtain ⟨error, usage, rfl⟩ := h
  rfl

theorem SameTurn.toolCalls (h : SameTurn a b) : a.toolCalls = b.toolCalls := by
  obtain ⟨error, usage, rfl⟩ := h
  rfl

theorem Agree.observed {g : Native.State V} {t : Spa.AppState V} (h : Agree g t) : g.observed = t.observed := by
  have hturns : g.turns.map Turn.observed = t.turns.map Turn.observed := by
    rw [← forall₂_eq_eq_eq, forall₂_map_left_iff, forall₂_map_right_iff]
    exact h.turns.imp fun _ _ => SameTurn.observed
  rw [Native.State.observed, Spa.AppState.observed, hturns, h.approvals, h.tokens, h.model, h.lastEventID]

theorem agree_start : Agree (start (V := V)).native start.spa where
  turns := .nil
  approvals := rfl
  tokens := rfl
  model := rfl
  lastEventID := rfl
  turnIDs := nodup_nil
  callIDs := nodup_nil

theorem ExactSum.addTokens_eq {a : ℤ} {b : Int64} (h : ExactSum a b) :
    Native.addTokens a b = toDouble (a + toDouble b.toInt) := by
  rw [Native.addTokens, toDouble_of_safe h.1, toDouble_of_safe h.2, bmod_of_safe h.2]

theorem ExactUsage.addUsage_eq {tokens : TokenCounts} {usage : Usage} (h : ExactUsage tokens usage) :
    Native.addUsage tokens (some usage) = Spa.addUsage tokens (some usage) := by
  rw [Native.addUsage, h.1.addTokens_eq, h.2.1.addTokens_eq, h.2.2.addTokens_eq]
  rfl

theorem extractPreview_eq {preview : Option ApprovalPreview} (h : preview ≠ some ⟨"", 0, "", ""⟩) :
    Native.extractPreview preview = preview := by
  cases preview with
  | none => rfl
  | some p =>
    obtain ⟨path, lineNumber, unifiedDiff, verifyCommand⟩ := p
    rw [Native.extractPreview, if_neg]
    rintro ⟨rfl, rfl, rfl, rfl⟩
    exact h rfl

theorem deadline_eq {timeoutMs : Option Int64} (hpos : PositiveTimeout timeoutMs)
    (hnow : Safe now.toInt) (hsum : ExactSum now.toInt (timeoutMs.getD 60000)) :
    (now.toInt + Native.approvalTimeout timeoutMs).bmod (2 ^ 64) =
      toDouble (toDouble now.toInt + toDouble (timeoutMs.getD 60000).toInt) := by
  have htimeout : Native.approvalTimeout timeoutMs = (timeoutMs.getD 60000).toInt := by
    cases timeoutMs with
    | none => rfl
    | some ms => exact if_neg (Int.not_le.mpr (hpos ms rfl))
  rw [htimeout, toDouble_of_safe hnow, toDouble_of_safe hsum.1, toDouble_of_safe hsum.2, bmod_of_safe hsum.2]

section Turns

variable {g : Native.State V} {t : Spa.AppState V} {f' : ToolCall V → ToolCall V}
  {id finishReason error tool : String} {text : Text} {args : List (String × V)}

theorem Agree.withTurns (h : Agree g t) {l m : List (Turn V)} (hlm : List.Forall₂ SameTurn l m)
    (hturns : (l.map Turn.intentID).Nodup) (hcalls : (l.map Lockstep.callIDs).flatten.Nodup) :
    Agree { g with turns := l } { t with turns := m } :=
  { h with turns := hlm, turnIDs := hturns, callIDs := hcalls }

theorem Agree.updateTurn (h : Agree g t) (id : String) {f f' : Turn V → Turn V}
    (hid : ∀ turn, (f turn).intentID = turn.intentID)
    (hcalls : ((updateFirst (fun turn => turn.intentID = id) f g.turns).map Lockstep.callIDs).flatten.Nodup)
    (hsame : ∀ a ∈ g.turns, ∀ b, SameTurn a b → a.intentID = id → SameTurn (f a) (f' b)) :
    Agree (g.updateTurn id f) (t.mapTurns id f') := by
  rw [Native.State.updateTurn, Spa.AppState.mapTurns]
  split
  · exact h
  apply h.withTurns
  · refine forall₂_update h.turns ?_ (atMostOne_of_nodup h.turnIDs id) ?_
    · intro a b hab
      simp only [hab.intentID]
    · intro a ha b hab hmatch
      exact hsame a ha b hab (of_decide_eq_true hmatch)
  · rw [map_updateFirst Turn.intentID hid]
    exact h.turnIDs
  · exact hcalls

theorem Agree.callIDs_updateFirst (h : Agree g t) (p : Turn V → Bool) {f : Turn V → Turn V}
    (hf : ∀ turn, Lockstep.callIDs (f turn) = Lockstep.callIDs turn) :
    ((updateFirst p f g.turns).map Lockstep.callIDs).flatten.Nodup := by
  rw [map_updateFirst Lockstep.callIDs hf]
  exact h.callIDs

theorem callIDs_updateFirst_call (p : ToolCall V → Bool)
    (hf : ∀ call, (f call).commandID = call.commandID) (turn : Turn V) :
    callIDs { turn with toolCalls := updateFirst p f turn.toolCalls } = callIDs turn :=
  map_updateFirst ToolCall.commandID hf turn.toolCalls

theorem mapToolCalls_eq (commandID : String) (f : ToolCall V → ToolCall V) (l : List (Turn V)) : (l.map fun turn =>
      { turn with toolCalls := updateAll (fun call => call.commandID = commandID) f turn.toolCalls }) =
    updateAll (fun turn => turn.toolCalls.any fun call => call.commandID = commandID)
      (fun turn => { turn with toolCalls := updateAll (fun call => call.commandID = commandID) f turn.toolCalls })
      l := by
  apply map_congr_left
  intro turn _
  split
  · rfl
  next hnone =>
    have hnot : ∀ call ∈ turn.toolCalls, ¬decide (call.commandID = commandID) = true := by
      intro call hcall hmatch
      exact hnone (any_eq_true.mpr ⟨call, hcall, hmatch⟩)
    rw [updateAll_of_forall_not hnot]

theorem Agree.oneTurn (h : Agree g t) (commandID : String) :
    AtMostOne (fun turn => turn.toolCalls.any fun call => call.commandID = commandID) g.turns := by
  have hdisjoint := pairwise_map.mp (nodup_flatten.mp h.callIDs).2
  refine hdisjoint.imp ?_
  intro a b hab ha hb
  obtain ⟨c, hc, hcid⟩ := any_eq_true.mp ha
  obtain ⟨d, hd, hdid⟩ := any_eq_true.mp hb
  have hcd : c.commandID = d.commandID := (of_decide_eq_true hcid).trans (of_decide_eq_true hdid).symm
  exact hab (mem_map_of_mem hc) (hcd ▸ mem_map_of_mem hd)

theorem Agree.oneCall (h : Agree g t) (commandID : String) {turn : Turn V} (hturn : turn ∈ g.turns) :
    AtMostOne (fun call => call.commandID = commandID) turn.toolCalls :=
  atMostOne_of_nodup ((nodup_flatten.mp h.callIDs).1 _ (mem_map_of_mem hturn)) commandID

theorem Agree.updateToolCall (h : Agree g t) (hne : id ≠ "") (hid : ∀ call, (f call).commandID = call.commandID)
    (hsame : ∀ turn ∈ g.turns, ∀ call ∈ turn.toolCalls, call.commandID = id → f call = f' call) :
    Agree (g.updateToolCall id f) (t.mapToolCalls id f') := by
  rw [Native.State.updateToolCall, if_neg hne, Spa.AppState.mapToolCalls, mapToolCalls_eq]
  apply h.withTurns
  · refine forall₂_update h.turns ?_ (h.oneTurn id) ?_
    · intro a b hab
      simp only [hab.toolCalls]
    · rintro a ha b hab -
      have hcalls : updateFirst (fun call => call.commandID = id) f a.toolCalls =
          updateAll (fun call => call.commandID = id) f' a.toolCalls := by
        apply updateFirst_eq_updateAll (h.oneCall id ha)
        intro call hcall hmatch
        exact hsame a ha call hcall (of_decide_eq_true hmatch)
      simp only [hcalls]
      obtain ⟨error, usage, rfl⟩ := hab
      exact ⟨error, usage, rfl⟩
  · rw [map_updateFirst Turn.intentID]
    · exact h.turnIDs
    · exact fun _ => rfl
  · exact h.callIDs_updateFirst _ (callIDs_updateFirst_call _ hid)

theorem Agree.updateToolCall_of_named (h : Agree g t) (id : String) (hid : ∀ call, (f call).commandID = call.commandID)
    (hsame : ∀ turn ∈ g.turns, ∀ call ∈ turn.toolCalls, call.commandID = id → f call = f' call) :
    Agree (g.updateToolCall id f) (if id = "" then t else t.mapToolCalls id f') := by
  split
  next hempty =>
    rw [Native.State.updateToolCall, if_pos hempty]
    exact h
  next hne => exact h.updateToolCall hne hid hsame

theorem findTurn_isNone_iff (hne : id ≠ "") :
    (Native.findTurn g id).isNone = true ↔ ∀ turn ∈ g.turns, turn.intentID ≠ id := by
  rw [Native.findTurn, if_neg hne, Option.isNone_iff_eq_none, List.find?_eq_none]
  simp only [decide_eq_true_eq, ne_eq]

theorem sameTurn_finish (hab : SameTurn a b) (htext : text = [] ∨ a.assistantText = [])
    (hreason : finishReason ≠ "" ∨ a.finishReason = "") :
    SameTurn (Native.finishTurn text finishReason error a) (Spa.finishedTurn text finishReason error usage b) := by
  obtain ⟨e, u, rfl⟩ := hab
  have htexts : (if text = [] then b.assistantText else text) =
      if text = [] then b.assistantText else b.assistantText ++ text := by
    rcases htext with rfl | hempty
    · rfl
    · rw [show b.assistantText = [] from hempty, nil_append]
  have hreasons : (if finishReason = "" then b.finishReason else finishReason) = finishReason := by
    rcases hreason with hne | hempty
    · exact if_neg hne
    rw [show b.finishReason = "" from hempty]
    split
    next h => exact h.symm
    · rfl
  simp only [Native.finishTurn, Spa.finishedTurn, htexts, hreasons]
  exact ⟨_, _, rfl⟩

section

variable (h : Agree g t)
include h

theorem Agree.addUsage_eq (hexact : ∀ u ∈ usage, ExactUsage g.sessionTokens u) :
    Native.addUsage g.sessionTokens usage = Spa.addUsage t.sessionTokens usage := by
  rw [← h.tokens]
  cases usage with
  | none => rfl
  | some u => exact (hexact u rfl).addUsage_eq

theorem Agree.assistantMessage
    (hok : InStepPayload g now envelopeID id (.assistantMessage text finishReason error usage)) :
    Agree (Native.applyAssistantMessage g id text finishReason error usage)
      (Spa.finishTurn t id text finishReason error usage) := by
  rw [Native.applyAssistantMessage, Spa.finishTurn]
  by_cases hid : id = ""
  · have hnone : (Native.findTurn g id).isNone = true := by rw [Native.findTurn, if_pos hid]; rfl
    rw [if_pos hnone, if_pos hid]
    exact h
  · obtain ⟨hturns, husage⟩ := hok.resolve_left hid
    rw [if_neg hid]
    by_cases hnone : (Native.findTurn g id).isNone = true
    · -- nothing to finish: TypeScript would still count the usage
      rw [if_pos hnone]
      have hno := (findTurn_isNone_iff hid).mp hnone
      have husage : usage = none := by
        rw [Option.eq_none_iff_forall_not_mem]
        intro u hu
        obtain ⟨⟨turn, hturn, hmatch⟩, -⟩ := husage u hu
        exact hno turn hturn hmatch
      have hsame : updateAll (fun turn => turn.intentID = id) (Spa.finishedTurn text finishReason error usage) t.turns =
          t.turns := by
        apply updateAll_of_forall_not
        refine forall_mem_of_forall₂ h.turns ?_ hno
        intro a b hab ha hb
        exact ha (hab.intentID.trans (of_decide_eq_true hb))
      rw [Spa.AppState.mapTurns, if_neg hid, hsame, husage]
      exact h
    · rw [if_neg hnone]
      have hupdate : Agree (g.updateTurn id (Native.finishTurn text finishReason error))
          (t.mapTurns id (Spa.finishedTurn text finishReason error usage)) := by
        apply h.updateTurn
        · exact fun _ => rfl
        · exact h.callIDs_updateFirst _ fun _ => rfl
        · intro a ha b hab hmatch
          obtain ⟨htext, hreason⟩ := hturns a ha hmatch
          exact sameTurn_finish hab htext hreason
      exact { hupdate with tokens := h.addUsage_eq fun u hu => (husage u hu).2 }

theorem Agree.commandRequest (hok : InStepPayload g now envelopeID id (.commandRequest tool args)) :
    Agree (Native.applyCommandRequest g id envelopeID tool args) (Spa.attachToolCall t id envelopeID tool args) := by
  apply h.updateTurn
  · exact fun _ => rfl
  · apply nodup_flatten_updateFirst_concat (x := envelopeID)
    · exact fun turn => map_append
    · exact h.callIDs
    · intro hmem
      obtain ⟨ids, hids, hin⟩ := mem_flatten.mp hmem
      obtain ⟨turn, hturn, rfl⟩ := mem_map.mp hids
      obtain ⟨call, hcall, hcid⟩ := mem_map.mp hin
      exact hok turn hturn call hcall hcid
  · rintro a - b ⟨error, usage, rfl⟩ -
    exact ⟨error, usage, rfl⟩

theorem Agree.approvalRequest {reason pendingCommandID : String} {timeoutMs : Option Int64}
    {preview : Option ApprovalPreview}
    (hok : InStepPayload g now envelopeID id (.toolApprovalRequest tool args reason pendingCommandID timeoutMs preview)) :
    Agree (Native.applyToolApprovalRequest g now envelopeID tool args reason pendingCommandID timeoutMs preview)
      (Spa.requestApproval t now envelopeID tool args reason pendingCommandID timeoutMs preview) := by
  obtain ⟨hpending, hpos, hnow, hsum, hpreview⟩ := hok
  rw [Native.applyToolApprovalRequest, Spa.requestApproval, deadline_eq hpos hnow hsum, extractPreview_eq hpreview,
    h.approvals]
  apply Agree.updateToolCall _ hpending
  · exact fun _ => rfl
  · exact fun _ _ _ _ _ => rfl
  · exact { h with approvals := rfl }

theorem Agree.payload {correlationID : String} {p : Payload V} (hok : InStepPayload g now id correlationID p) :
    Agree (Native.applyPayload g now id correlationID p) (Spa.reducePayload t now id correlationID p) := by
  cases p with
  | hello sessionID provider model availableModels =>
    have hmodel : (if model = "" then g.model else model) = model := by
      rcases hok with hne | hempty
      · exact if_neg hne
      rw [hempty]
      split
      next hm => exact hm.symm
      · rfl
    exact { h with model := hmodel }
  | ack action error message model =>
    simp only [Native.applyPayload, Native.applyAck, Spa.reducePayload, Spa.ackCommand]
    by_cases haction : action = setModelAction
    · by_cases herror : error = ""
      · by_cases hmodel : model = ""
        · simp only [hmodel, herror, ne_eq, not_true_eq_false, and_false, if_false, ite_self]
          exact h
        · simp only [haction, herror, hmodel, ne_eq, not_true_eq_false, not_false_eq_true, and_self, if_true, if_false]
          exact { h with model := rfl }
      · simp only [haction, herror, ne_eq, not_false_eq_true, false_and, and_false, if_true, if_false]
        exact { h with }
    · simp only [haction, false_and, if_false]
      exact h
  | error | sessionReplaced => exact { h with }
  | sessionStale => exact hok.elim
  | assistantChunk text =>
    apply h.updateTurn
    · exact fun _ => rfl
    · exact h.callIDs_updateFirst _ fun _ => rfl
    · rintro a - b ⟨error, usage, rfl⟩ -
      exact ⟨error, usage, rfl⟩
  | assistantMessage text finishReason error usage => exact h.assistantMessage hok
  | commandRequest tool args => exact h.commandRequest hok
  | commandChunk stream data =>
    apply h.updateToolCall_of_named
    · exact fun _ => mergeChunk_commandID
    · intro turn hturn call hcall hmatch
      exact mergeChunk_congr (hok turn hturn call hcall hmatch)
  | commandResult exitCode durationMs error errorMessage =>
    apply h.updateToolCall_of_named
    · exact fun _ => rfl
    · intro turn _ call _ _
      rw [toDouble_of_safe hok.1, toDouble_of_safe hok.2]
  | sandboxHeartbeat elapsedMs =>
    apply h.updateToolCall_of_named
    · exact fun _ => rfl
    · intro turn _ call _ _
      rw [toDouble_of_safe hok]
  | toolApprovalRequest tool args reason pendingCommandID timeoutMs preview => exact h.approvalRequest hok
  | other type => exact h

theorem Agree.sentIntent {intentID : String} (hnew : ∀ turn ∈ g.turns, turn.intentID ≠ intentID) (text : String) :
    Agree (Native.recordSentIntent g intentID text) (Spa.recordSentIntent t intentID text) := by
  apply h.withTurns
  · exact rel_append h.turns (.cons ⟨"", none, rfl⟩ .nil)
  · rw [map_append, map_singleton]
    have hfresh : intentID ∉ g.turns.map Turn.intentID := by
      intro hmem
      obtain ⟨turn, hturn, hid⟩ := mem_map.mp hmem
      exact hnew turn hturn hid
    exact (perm_append_singleton intentID _).nodup_iff.mpr (nodup_cons.mpr ⟨hfresh, h.turnIDs⟩)
  · rw [map_append, flatten_append, show (List.map Lockstep.callIDs [newTurn intentID text]).flatten =
      ([] : List String) from rfl, append_nil]
    exact h.callIDs

end

end Turns

theorem Agree.step {s s' : Pair V} {a : Action V} (hok : InStep s a) (hstep : step s a = some s')
    (h : Agree s.native s.spa) : Agree s'.native s'.spa := by
  cases a with
  | sentIntent intentID text =>
    cases hstep
    exact h.sentIntent hok text
  | inbound env now =>
    cases hstep
    have hstart : Agree { s.native with lastEventID := env.id } { s.spa with lastEventId := env.id } :=
      { h with lastEventID := rfl }
    exact hstart.payload hok

theorem clients_agree {as : List (Action V)} {s : Pair V} (h : Steps step InStep start as s) :
    s.native.observed = s.spa.observed :=
  (h.preserves (fun _ _ _ => Agree.step) agree_start).observed

def streamedTurn : List (Action String) :=
  [.sentIntent "i1" "run the tests", .inbound ⟨"e1", "", .hello "s1" "gemini" "gemini-2.5-pro" ["gemini-2.5-pro"]⟩ 1000,
    .inbound ⟨"e2", "i1", .assistantChunk "On it. ".toList⟩ 1001,
    .inbound ⟨"e3", "i1", .commandRequest "execute_script" [("script", "go test ./...")]⟩ 1002,
    .inbound ⟨"e4", "", .toolApprovalRequest "execute_script" [("script", "go test ./...")] "" "e3" (some 30000) none⟩
      1003,
    .inbound ⟨"e5", "e3", .sandboxHeartbeat 5000⟩ 6003,
    .inbound ⟨"e6", "e3", .commandChunk "stdout" "ok\npart".toList⟩ 6004,
    .inbound ⟨"e7", "e3", .commandResult 0 5100 "" ""⟩ 6005,
    .inbound ⟨"e8", "i1", .assistantMessage [] "stop" "" (some ⟨12, 7, 19⟩)⟩ 6006]

theorem clients_agree_streamed : ∃ s, Steps step InStep start streamedTurn s ∧
    s.native.sessionTokens = ⟨12, 7, 19⟩ ∧ s.native.observed = s.spa.observed := by
  obtain ⟨s, hs, htokens⟩ : ∃ s, run (checked step InStep) start streamedTurn = some s ∧
      s.native.sessionTokens = ⟨12, 7, 19⟩ := exists_run_of_any (by decide +kernel)
  have hsteps := steps_of_checked hs
  exact ⟨s, hsteps, htokens, clients_agree hsteps⟩

theorem clients_differ : (∃ s : Pair String, run step start [.sentIntent "i1" "fix the build",
          .inbound ⟨"e1", "i1", .assistantChunk "Retrying. ".toList⟩ 1000,
          .inbound ⟨"e2", "i1", .assistantMessage "gave up".toList "error" "" none⟩ 1001] = some s ∧
        s.native.turns.map Turn.assistantText = ["gave up".toList] ∧
        s.spa.turns.map Turn.assistantText = ["Retrying. gave up".toList]) ∧
    ∃ s : Pair String,
      run step start [.sentIntent "i1" "fix the build", .inbound ⟨"e1", "", .sessionStale⟩ 1000] = some s ∧
        s.native.turns.map Turn.intentID = ["i1"] ∧ s.spa.turns = [] ∧
        s.native.lastEventID = "e1" ∧ s.spa.lastEventId = "" := by
  refine ⟨⟨_, rfl, ?_, ?_⟩, ⟨_, rfl, ?_, rfl, rfl, rfl⟩⟩ <;> decide +kernel

end Lockstep

end NomadDev.Clients
