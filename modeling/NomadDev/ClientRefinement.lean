import NomadDev.ClientSnapshots

namespace NomadDev.Clients.Shared

open Foundation.Slices Foundation.ListUpdate Foundation.Transition List Heap

variable {V : Type}

def Memory.turnAt (m : Memory V) (a : Addr) : Turn V := m.turn (m.turns.cell a)

def Memory.callAt (m : Memory V) (b : Addr) : ToolCall V := m.call (m.calls.cell b)

def Store.value (s : Store V) : Native.State V where
  sessionID := s.state.sessionID
  provider := s.state.provider
  model := s.state.model
  availableModels := s.state.availableModels
  turns := s.state.turns.addrs.map s.mem.turnAt
  pendingApprovals := s.mem.approvals.read s.state.pendingApprovals
  sessionTokens := s.state.sessionTokens
  lastEventID := s.state.lastEventID
  lastError := s.state.lastError
  restartPending := s.state.restartPending

def Action.value : Action V → List (Native.Action V)
  | .inbound env now => [.inbound env now]
  | .sentIntent intentID text _ => [.sentIntent intentID text]
  | .popApproval envelopeID => [.popApproval envelopeID]
  | .resetTurns => [.resetTurns]
  | .signOut => [.signOut]
  | .addPendingImage .. | .removePendingImage _ | .takePendingImages | .makeImages _ => []

variable {s s' : Store V} {a b : Addr} {correlationID commandID : String} {g : Growth}

section Updates

theorem turnAt_toolCalls (m : Memory V) (a : Addr) :
    (m.turnAt a).toolCalls = (m.turns.cell a).toolCalls.addrs.map m.callAt :=
  map_map

theorem turnAt_any (p : ToolCall V → Bool) (m : Memory V) (a : Addr) :
    (m.turnAt a).toolCalls.any p = (m.turns.cell a).toolCalls.addrs.any fun b => p (m.callAt b) := by
  rw [turnAt_toolCalls, any_map]
  rfl

theorem findTurn_value : Native.findTurn s.value correlationID = (s.findTurn correlationID).map s.mem.turnAt := by
  unfold Native.findTurn Store.findTurn
  split
  · rfl
  · exact find?_map ..

theorem updateTurn_value_of_none (hnone : s.findTurn correlationID = none) (F : Turn V → Turn V) :
    s.value = s.value.updateTurn correlationID F := by
  have hfind : Native.findTurn s.value correlationID = none := by rw [findTurn_value, hnone, Option.map_none]
  unfold Native.State.updateTurn
  split
  · rfl
  next hid =>
    rw [Native.findTurn, if_neg hid] at hfind
    rw [updateFirst_eq_self_iff.mpr fun turn hturn => by cases hfind.symm.trans hturn]

theorem updateTurn_value_of_some (hfind : s.findTurn correlationID = some a) {F : Turn V → Turn V}
    (hstate : s'.state = s.state) (happrovals : s'.mem.approvals = s.mem.approvals)
    (hself : s'.mem.turnAt a = F (s.mem.turnAt a))
    (hother : ∀ x ∈ s.state.turns.addrs, x ≠ a → s'.mem.turnAt x = s.mem.turnAt x) :
    s'.value = s.value.updateTurn correlationID F := by
  unfold Native.State.updateTurn
  unfold Store.findTurn at hfind
  split at hfind
  · cases hfind
  next hid =>
    have hturns := map_eq_updateFirst (p := fun turn : Turn V => turn.intentID = correlationID)
      s.state.turns.nodup_addrs hfind hself hother
    simp only [if_neg hid, Store.value, hstate, happrovals, hturns]

theorem updateToolCall_value_of_none (hnone : s.findToolCall commandID = none) (F : ToolCall V → ToolCall V) :
    s.value = s.value.updateToolCall commandID F := by
  unfold Native.State.updateToolCall
  unfold Store.findToolCall at hnone
  split
  · rfl
  next hid =>
    rw [if_neg hid, find?_eq_none] at hnone
    simp only
    rw [updateFirst_eq_self_iff.mpr]
    intro turn hturn
    obtain ⟨x, hx, rfl⟩ := mem_map.mp (mem_of_find?_eq_some hturn)
    have hany := find?_some hturn
    rw [turnAt_any] at hany
    obtain ⟨y, hy, hcall⟩ := any_eq_true.mp hany
    exact absurd hcall (hnone y (mem_callAddrs.mpr ⟨x, hx, hy⟩))

theorem updateToolCall_value_of_some (h : Sep s) (hfind : s.findToolCall commandID = some b)
    {F : ToolCall V → ToolCall V} (hstate : s'.state = s.state) (happrovals : s'.mem.approvals = s.mem.approvals)
    (hturns : s'.mem.turns = s.mem.turns) (hself : s'.mem.callAt b = F (s.mem.callAt b))
    (hother : ∀ y ∈ s.mem.callAddrs s.state.turns, y ≠ b → s'.mem.callAt y = s.mem.callAt y) :
    s'.value = s.value.updateToolCall commandID F := by
  unfold Native.State.updateToolCall
  unfold Store.findToolCall at hfind
  split at hfind
  · cases hfind
  next hid =>
    obtain ⟨a, hturn, hcall⟩ := find?_part_of_find?_flatMap hfind
    have ha : a ∈ s.state.turns.addrs := mem_of_find?_eq_some hturn
    have hb : b ∈ (s.mem.turns.cell a).toolCalls.addrs := mem_of_find?_eq_some hcall
    have hview : ∀ x, s'.mem.turnAt x = { s.mem.turnAt x with
        toolCalls := (s.mem.turns.cell x).toolCalls.addrs.map s'.mem.callAt } := by
      intro x
      rw [← hturns, ← turnAt_toolCalls]
      simp only [Memory.turnAt, Memory.turn, TurnCell.toTurn, hturns]
    have hcalls := map_eq_updateFirst (p := fun call : ToolCall V => call.commandID = commandID)
      (Slice.nodup_addrs _) hcall hself fun y hy => hother y (mem_callAddrs.mpr ⟨a, ha, hy⟩)
    have hupdate : s.state.turns.addrs.map s'.mem.turnAt =
        updateFirst (fun turn => turn.toolCalls.any fun call => call.commandID = commandID)
          (fun turn => { turn with
            toolCalls := updateFirst (fun call => call.commandID = commandID) F turn.toolCalls })
          (s.state.turns.addrs.map s.mem.turnAt) := by
      refine map_eq_updateFirst s.state.turns.nodup_addrs (k := a) ?_ ?_ ?_
      · simp only [turnAt_any]
        exact hturn
      · rw [hview, turnAt_toolCalls, hcalls]
      · intro x hx hxa
        have hsame : (s.mem.turns.cell x).toolCalls.addrs.map s'.mem.callAt =
            (s.mem.turns.cell x).toolCalls.addrs.map s.mem.callAt := by
          refine map_inj_left.mpr fun y hy => hother y (mem_callAddrs.mpr ⟨x, hx, hy⟩) ?_
          obtain ⟨i, hi, rfl⟩ := Slice.mem_addrs.mp hy
          obtain ⟨j, hj, rfl⟩ := Slice.mem_addrs.mp hb
          exact h.callAddr_ne hx ha hi hj (.inl hxa)
        rw [hview, hsame, ← turnAt_toolCalls]
    simp only [if_neg hid, Store.value, hstate, happrovals, hupdate]

end Updates

section Operations

theorem writeTurn_turnAt_self {t : TurnCell} : (s.writeTurn a t).mem.turnAt a = s.mem.turn t :=
  congrArg s.mem.turn write_cell_self

theorem writeTurn_turnAt_of_ne {t : TurnCell} {x : Addr} (hx : x ≠ a) :
    (s.writeTurn a t).mem.turnAt x = s.mem.turnAt x :=
  congrArg s.mem.turn (write_cell_of_ne hx)

theorem updateTurn_value {f : TurnCell → TurnCell} {F : Turn V → Turn V} (hf : ScalarTurn f)
    (hview : ∀ t calls, (f t).toTurn calls = F (t.toTurn calls)) (correlationID : String) :
    (s.updateTurn correlationID f).value = s.value.updateTurn correlationID F := by
  unfold Store.updateTurn
  cases hfind : s.findTurn correlationID with
  | none => exact updateTurn_value_of_none hfind F
  | some a =>
    refine updateTurn_value_of_some hfind rfl rfl ?_ fun x _ hx => writeTurn_turnAt_of_ne hx
    rw [writeTurn_turnAt_self, Memory.turn, hf.calls, hview]
    rfl

theorem updateToolCall_value (h : Sep s) {f : CallCell V → CallCell V} {F : ToolCall V → ToolCall V}
    (hf : ScalarCall f) (hview : ∀ c lines, (f c).toCall lines = F (c.toCall lines)) (commandID : String) :
    (s.updateToolCall commandID f).value = s.value.updateToolCall commandID F := by
  unfold Store.updateToolCall
  cases hfind : s.findToolCall commandID with
  | none => exact updateToolCall_value_of_none hfind F
  | some b =>
    refine updateToolCall_value_of_some h hfind rfl rfl rfl ?_ fun y _ hy =>
      congrArg s.mem.call (write_cell_of_ne hy)
    refine (congrArg s.mem.call write_cell_self).trans ?_
    rw [Memory.call, hf.lines, hview]
    rfl

theorem addCall_value (h : Sep s) (hfind : s.findTurn correlationID = some a) (c : CallCell V) :
    (s.addCall g a c).value = s.value.updateTurn correlationID fun turn =>
      { turn with toolCalls := turn.toolCalls ++ [s.mem.call c] } := by
  refine updateTurn_value_of_some hfind rfl rfl ?_ fun x hx hxa => ?_
  · refine writeTurn_turnAt_self.trans ?_
    simp only [Memory.turn, TurnCell.toTurn, read_append, map_append]
    rfl
  · have hread : (s.addCall g a c).mem.calls.read (s.mem.turns.cell x).toolCalls =
        s.mem.calls.read (s.mem.turns.cell x).toolCalls :=
      read_eq_iff.mpr fun y hy => h.append_call_other (mem_of_findTurn hfind) hx hxa hy
    refine (writeTurn_turnAt_of_ne hxa).trans ?_
    exact congrArg (fun calls => (s.mem.turns.cell x).toTurn (calls.map s.mem.call)) hread

theorem mergeChunk_value (h : Sep s) (hfind : s.findToolCall commandID = some b) (stream : String) (data : Text) :
    (s.mergeChunk g b stream data).value =
      s.value.updateToolCall commandID fun call => Native.mergeChunkIntoToolCall call stream data := by
  refine updateToolCall_value_of_some h hfind rfl rfl rfl ?_ fun y hy hyb => ?_
  · rw [Memory.callAt, mergeChunk_cell_self]
    exact mergeChunkIntoToolCall_toCall g.lines s.mem.lines (s.mem.calls.cell b) stream data
  · have hclear := (h.lines_apart b (mem_of_findToolCall hfind) y hy hyb.symm).clear (h.lines_ok y)
    have hread : (s.mergeChunk g b stream data).mem.lines.read (s.mem.calls.cell y).lines =
        s.mem.lines.read (s.mem.calls.cell y).lines :=
      read_eq_iff.mpr (addLines_cell_of_clear hclear fun _ => (h.lines_ok y).addr_lt)
    rw [Memory.callAt, mergeChunk_cell_of_ne hyb, Memory.call, hread]
    rfl

theorem addTurn_value (t : TurnCell) :
    (s.addTurn g t).value = { s.value with turns := s.value.turns ++ [s.mem.turn t] } := by
  have hread : (s.addTurn g t).mem.turns.read (s.addTurn g t).state.turns = s.mem.turns.read s.state.turns ++ [t] :=
    read_append
  have hturns := congrArg (map s.mem.turn) hread
  rw [map_append, Heap.read, Heap.read, map_map, map_map] at hturns
  exact congrArg (fun turns => { s.value with turns := turns }) hturns

theorem popApproval_value (envelopeID : String) :
    (popApproval g s envelopeID).value = Native.popApproval s.value envelopeID := by
  have herase : Native.popApproval s.value envelopeID = { s.value with
      pendingApprovals :=
        (s.mem.approvals.read s.state.pendingApprovals).eraseP fun a => a.envelopeID = envelopeID } := rfl
  rw [herase, eraseP_eq_eraseIdx]
  unfold popApproval
  cases hi : (s.mem.approvals.read s.state.pendingApprovals).findIdx? fun a => a.envelopeID = envelopeID with
  | none => rfl
  | some i =>
    have hlt := (findIdx?_eq_some_iff_getElem.mp hi).1
    rw [length_read] at hlt
    simp only [← read_delete g.approvals hlt]
    rfl

end Operations

section Steps

theorem applyPayload_value (h : Sep s) (now : Int64) (id correlationID : String) (payload : Payload V) :
    (applyPayload g s now id correlationID payload).value =
      Native.applyPayload s.value now id correlationID payload := by
  cases payload with
  | hello | error | sessionStale | sessionReplaced | other => rfl
  | assistantChunk text => exact updateTurn_value (scalar_addText text) (fun _ _ => rfl) correlationID
  | assistantMessage text finishReason error usage =>
    have hupdate : (s.updateTurn correlationID _).value = s.value.updateTurn correlationID _ :=
      updateTurn_value (scalar_finish text finishReason error) (F := Native.finishTurn text finishReason error)
        (fun _ _ => rfl) correlationID
    have htokens : s.value.sessionTokens =
        (s.updateTurn correlationID (TurnCell.finish text finishReason error)).state.sessionTokens := by
      unfold Store.updateTurn
      split <;> rfl
    simp only [applyPayload, applyAssistantMessage, Native.applyPayload, Native.applyAssistantMessage, findTurn_value,
      Option.isNone_map, ← hupdate, htokens]
    split <;> rfl
  | commandRequest tool args =>
    simp only [applyPayload, applyCommandRequest, Native.applyPayload, Native.applyCommandRequest]
    split
    next hnone => exact updateTurn_value_of_none hnone _
    next a ha => exact addCall_value h ha (newCall id tool args)
  | commandChunk stream data =>
    simp only [applyPayload, applyCommandChunk, Native.applyPayload, Native.applyCommandChunk]
    split
    next hnone => exact updateToolCall_value_of_none hnone _
    next b hb => exact mergeChunk_value h hb stream data
  | commandResult exitCode durationMs error errorMessage =>
    have hf := scalar_setResult (V := V) exitCode durationMs error errorMessage
    exact updateToolCall_value h hf (fun _ _ => rfl) correlationID
  | sandboxHeartbeat elapsedMs =>
    exact updateToolCall_value h (scalar_setElapsed elapsedMs) (fun _ _ => rfl) correlationID
  | toolApprovalRequest tool args reason pendingCommandID timeoutMs preview =>
    let request := approvalRequest now id tool args reason pendingCommandID timeoutMs preview
    have hput : Keeps s (s.putApprovals (s.mem.approvals.append g.approvals s.state.pendingApprovals [request]))
        fun _ => True := (Keeps.refl h).putApprovals next_le_append (append_ok h.head.approvals)
    refine (updateToolCall_value (F := fun call => { call with awaitingApproval := true }) hput.1 scalar_await
      (fun _ _ => rfl) pendingCommandID).trans ?_
    simp only [Store.value, Store.putApprovals, read_append]
    rfl
  | ack action error message model =>
    simp only [applyPayload, applyAck, Native.applyPayload, Native.applyAck]
    split <;> rfl

theorem step_value {act : Action V} (h : Sep s) (hstep : step g s act = some s') :
    run Native.step s.value act.value = some s'.value := by
  cases act with
  | inbound env now =>
    cases hstep
    exact congrArg some (applyPayload_value (keeps_received h env.id).1 now env.id env.correlationID env.payload).symm
  | sentIntent intentID text images =>
    obtain ⟨-, hs'⟩ := Option.ite_none_right_eq_some.mp hstep
    cases hs'
    exact congrArg some (addTurn_value (newTurn intentID text images)).symm
  | popApproval envelopeID =>
    cases hstep
    exact congrArg some (popApproval_value envelopeID).symm
  | addPendingImage img decodedBytes =>
    cases hstep
    unfold addPendingImage
    split <;> rfl
  | removePendingImage idx =>
    cases hstep
    unfold removePendingImage
    split <;> rfl
  | takePendingImages | resetTurns | signOut | makeImages =>
    cases hstep
    rfl

/-- The store with its slices computes what the reducer over lists does. -/
theorem run_value {as : List (Action V)} (h : run (step g) new as = some s) :
    run Native.step Native.new (as.flatMap Action.value) = some s.value := by
  suffices hfrom : ∀ {s₀ : Store V}, Sep s₀ → run (step g) s₀ as = some s →
      run Native.step s₀.value (as.flatMap Action.value) = some s.value from hfrom sep_new h
  clear h
  induction as with
  | nil =>
    intro s₀ _ h
    cases h
    rfl
  | cons act as ih =>
    intro s₀ hs₀ h
    obtain ⟨s₁, hstep, hrest⟩ := Option.bind_eq_some_iff.mp h
    rw [flatMap_cons]
    exact run_append (step_value hs₀ hstep) (ih (step_keeps hs₀ hstep).1 hrest)

end Steps

end NomadDev.Clients.Shared
