import NomadDev.Turns

namespace NomadDev.Middleware

open History Tools List

variable {α β : Type}

structure Stage (α β : Type) where
  events : List (AssistantEvent α)
  tool : ToolOutcome β
  resumeOK : Bool

-- The list ends where a resume returns no channel.
def driveStages (c : Codec β) : TurnState β → List (Stage α β) → TurnState β
  | st, [] => emitAssistantMessage st "" "error" "translator closed without final message"
  | st, i :: rest =>
    match consumeStage i.tool st i.events with
    | (st, .terminal m) => finishTurn c st m
    | (st, .closed) => emitAssistantMessage st "" "error" "translator closed without final message"
    | (st, .next) => if i.resumeOK then driveStages c st rest else finishTurn c st (errorFinal "")

inductive Opening
  | appendFails (err : String)
  | loadFails (err : String)
  | streamFails (err : String)
  | opened

def turnStart (maxAutoRetries : ℤ) (rows : List (Role × β)) : TurnState β :=
  ⟨0, 0, newRetryBudget maxAutoRetries, .zero, [], rows⟩

def runTurn (c : Codec β) (maxAutoRetries : ℤ) (p : Intent) (o : Opening) (stages : List (Stage α β)) : TurnState β :=
  let user := [(Role.user, mustMarshalUserTurn c p.text p.images)]
  match o with
  | .appendFails err => emitAssistantMessage (turnStart maxAutoRetries []) "" "error" err
  | .loadFails err => emitAssistantMessage (turnStart maxAutoRetries user) "" "error" err
  | .streamFails err => emitAssistantMessage (turnStart maxAutoRetries user) "" "error" err
  | .opened => driveStages c (turnStart maxAutoRetries user) stages

def Frame.chunkSeq : Frame → Option ℕ
  | .chunk seq _ => some seq
  | _ => none

def Frame.thinkingSeq : Frame → Option ℕ
  | .thinking seq _ => some seq
  | _ => none

def chunkSeqs (frames : List Frame) : List ℕ := frames.filterMap Frame.chunkSeq

def thinkingSeqs (frames : List Frame) : List ℕ := frames.filterMap Frame.thinkingSeq

def Frame.isMessage : Frame → Bool
  | .message .. => true
  | _ => false

structure Streaming (st : TurnState β) : Prop where
  noMessage : ∀ f ∈ st.frames, f.isMessage = false
  chunks : chunkSeqs st.frames = List.range st.seq
  thinking : thinkingSeqs st.frames = List.range st.thinkingSeq

structure Ended (frames : List Frame) : Prop where
  last : ∃ before text finishReason error,
    frames = before ++ [.message text finishReason error] ∧ ∀ f ∈ before, f.isMessage = false
  chunks : chunkSeqs frames = List.range (chunkSeqs frames).length
  thinking : thinkingSeqs frames = List.range (thinkingSeqs frames).length

theorem streaming_turnStart (maxAutoRetries : ℤ) (rows : List (Role × β)) : Streaming (turnStart maxAutoRetries rows) :=
  ⟨fun _ h => absurd h not_mem_nil, rfl, rfl⟩

theorem chunkSeqs_concat (frames : List Frame) (f : Frame) :
    chunkSeqs (frames ++ [f]) = chunkSeqs frames ++ f.chunkSeq.toList := by
  rw [chunkSeqs, filterMap_append]
  cases f <;> rfl

theorem thinkingSeqs_concat (frames : List Frame) (f : Frame) :
    thinkingSeqs (frames ++ [f]) = thinkingSeqs frames ++ f.thinkingSeq.toList := by
  rw [thinkingSeqs, filterMap_append]
  cases f <;> rfl

theorem forall_mem_concat {frames : List Frame} {f : Frame} (h : ∀ g ∈ frames, g.isMessage = false)
    (hf : f.isMessage = false) : ∀ g ∈ frames ++ [f], g.isMessage = false :=
  forall_mem_append.mpr ⟨h, forall_mem_singleton.mpr hf⟩

variable {st : TurnState β}

section

variable (h : Streaming st)
include h

theorem Streaming.chunk (s : String) :
    Streaming { st with frames := st.frames ++ [.chunk st.seq s], seq := st.seq + 1 } where
  noMessage := forall_mem_concat h.noMessage rfl
  chunks := by rw [chunkSeqs_concat, h.chunks, range_succ]; rfl
  thinking := by rw [thinkingSeqs_concat, h.thinking]; exact append_nil _

theorem Streaming.think (s : String) :
    Streaming { st with frames := st.frames ++ [.thinking st.thinkingSeq s], thinkingSeq := st.thinkingSeq + 1 } where
  noMessage := forall_mem_concat h.noMessage rfl
  chunks := by rw [chunkSeqs_concat, h.chunks]; exact append_nil _
  thinking := by rw [thinkingSeqs_concat, h.thinking, range_succ]; rfl

theorem Streaming.report (attempt max : ℕ) (b : RetryBudget) :
    Streaming { st with budget := b, frames := st.frames ++ [.errorReport attempt max] } where
  noMessage := forall_mem_concat h.noMessage rfl
  chunks := by rw [chunkSeqs_concat, h.chunks]; exact append_nil _
  thinking := by rw [thinkingSeqs_concat, h.thinking]; exact append_nil _

theorem Streaming.finishToolCall (tool : ToolOutcome β) : Streaming (finishToolCall tool st).1 := by
  have hrows : Streaming { st with rows := st.rows ++ toolRows tool } := ⟨h.noMessage, h.chunks, h.thinking⟩
  simp only [Middleware.finishToolCall]
  split
  · exact hrows
  split
  · split
    · exact ⟨h.noMessage, h.chunks, h.thinking⟩
    · exact hrows.report _ _ _
  · exact ⟨h.noMessage, h.chunks, h.thinking⟩

theorem Streaming.consumeStage (tool : ToolOutcome β) (events : List (AssistantEvent α)) :
    Streaming (consumeStage tool st events).1 := by
  induction events generalizing st with
  | nil => exact h
  | cons ev rest ih =>
    cases ev with
    | err e => exact h
    | text s =>
      rw [Middleware.consumeStage]
      split
      · exact ih h
      · exact ih (h.chunk s)
    | thinking s =>
      rw [Middleware.consumeStage]
      split
      · exact ih h
      · exact ih (h.think s)
    | usage u => exact ih ⟨h.noMessage, h.chunks, h.thinking⟩
    | toolCall call => exact h.finishToolCall tool
    | final m => exact ⟨h.noMessage, h.chunks, h.thinking⟩

theorem Streaming.ended (text finishReason errMsg : String) :
    Ended (emitAssistantMessage st text finishReason errMsg).frames where
  last := ⟨st.frames, _, _, _, rfl, h.noMessage⟩
  chunks := by
    rw [emitAssistantMessage, chunkSeqs_concat, h.chunks]
    simp [Frame.chunkSeq]
  thinking := by
    rw [emitAssistantMessage, thinkingSeqs_concat, h.thinking]
    simp [Frame.thinkingSeq]

end

theorem finishTurn_frames (c : Codec β) (st : TurnState β) (m : FinalMessage) :
    (finishTurn c st m).frames = (emitAssistantMessage st m.text m.finishReason "").frames := by
  unfold finishTurn
  split <;> rfl

theorem driveStages_ended (c : Codec β) (h : Streaming st) (stages : List (Stage α β)) :
    Ended (driveStages c st stages).frames := by
  induction stages generalizing st with
  | nil => exact h.ended _ _ _
  | cons i rest ih =>
    have hstage := h.consumeStage i.tool i.events
    rw [driveStages]
    split
    next he =>
      rw [finishTurn_frames]
      exact (he ▸ hstage).ended _ _ _
    next he => exact (he ▸ hstage).ended _ _ _
    next he =>
      rw [he] at hstage
      split
      · exact ih hstage
      · rw [finishTurn_frames]
        exact hstage.ended _ _ _

theorem runTurn_ended (c : Codec β) (maxAutoRetries : ℤ) (p : Intent) (o : Opening) (stages : List (Stage α β)) :
    Ended (runTurn c maxAutoRetries p o stages).frames := by
  have hstart : ∀ rows : List (Role × β), Streaming (turnStart maxAutoRetries rows) := streaming_turnStart _
  cases o with
  | appendFails | loadFails | streamFails => exact (hstart _).ended _ _ _
  | opened => exact driveStages_ended c (hstart _) stages

inductive Failure
  | event (err : String)
  | toolAborted
  | resumeFailed

-- A tool call and a final message end the stage: what follows them on the channel is drained unread.
def stageFailure (tool : ToolOutcome β) : List (AssistantEvent α) → Option Failure
  | [] => none
  | .err e :: _ => some (.event e)
  | .toolCall _ :: _ => if tool.ok then none else some .toolAborted
  | .final _ :: _ => none
  | .text _ :: rest => stageFailure tool rest
  | .thinking _ :: rest => stageFailure tool rest
  | .usage _ :: rest => stageFailure tool rest

def turnFailure : TurnState β → List (Stage α β) → Option Failure
  | _, [] => none
  | st, i :: rest =>
    match stageFailure i.tool i.events with
    | some f => some f
    | none =>
      match consumeStage i.tool st i.events with
      | (st, .next) => if i.resumeOK then turnFailure st rest else some .resumeFailed
      | _ => none

theorem consumeStage_of_failure {tool : ToolOutcome β} {events : List (AssistantEvent α)} {f : Failure}
    (h : stageFailure tool events = some f) (st : TurnState β) :
    ∃ st', consumeStage tool st events = (st', .terminal (errorFinal "")) := by
  induction events generalizing st with
  | nil => cases h
  | cons ev rest ih =>
    cases ev with
    | err e => exact ⟨st, rfl⟩
    | text | thinking =>
      rw [consumeStage]
      split
      · exact ih h st
      · exact ih h _
    | usage u => exact ih h _
    | toolCall call =>
      obtain ⟨hok, -⟩ := Option.ite_none_left_eq_some.mp h
      refine ⟨{ st with rows := st.rows ++ toolRows tool }, ?_⟩
      rw [consumeStage, finishToolCall, if_pos (Bool.eq_false_of_not_eq_true hok)]
    | final m => cases h

theorem finishTurn_errorFinal (c : Codec β) (st : TurnState β) :
    (finishTurn c st (errorFinal "")).frames = st.frames ++ [.message "" "error" ""] :=
  finishTurn_frames c st (errorFinal "")

theorem driveStages_of_failure (c : Codec β) {st : TurnState β} {stages : List (Stage α β)} {f : Failure}
    (h : turnFailure st stages = some f) :
    ∃ before, (driveStages c st stages).frames = before ++ [.message "" "error" ""] := by
  induction stages generalizing st with
  | nil => cases h
  | cons i rest ih =>
    rw [turnFailure] at h
    rw [driveStages]
    split at h
    next f' hstage =>
      obtain ⟨st', hconsume⟩ := consumeStage_of_failure hstage st
      rw [hconsume]
      exact ⟨st'.frames, finishTurn_errorFinal c st'⟩
    next =>
      split at h
      next st' hconsume =>
        rw [hconsume]
        dsimp only
        split at h
        next hresume =>
          rw [if_pos hresume]
          exact ih h
        next hresume =>
          rw [if_neg hresume]
          exact ⟨st'.frames, finishTurn_errorFinal c st'⟩
      next => cases h

theorem failed_turn_error_empty (c : Codec β) (maxAutoRetries : ℤ) (p : Intent) {stages : List (Stage α β)}
    {f : Failure}
    (h : turnFailure (turnStart maxAutoRetries [(Role.user, mustMarshalUserTurn c p.text p.images)]) stages = some f) :
    ∃ before, (runTurn c maxAutoRetries p .opened stages).frames = before ++ [.message "" "error" ""] ∧
      ∀ g ∈ before, g.isMessage = false := by
  obtain ⟨before, hframes⟩ := driveStages_of_failure c h
  obtain ⟨earlier, text, finishReason, error, hended, hnone⟩ :=
    (driveStages_ended c (streaming_turnStart maxAutoRetries _) stages).last
  obtain ⟨rfl, -⟩ := List.append_inj' (hended.symm.trans hframes) rfl
  exact ⟨earlier, hframes, hnone⟩

def ranTool : ToolOutcome Json := ⟨true, 0, "", none⟩

def lostTool : ToolOutcome Json := ⟨false, -1, "", none⟩

def limitedStages : List (Stage Unit Json) := [⟨[.text "Look", .err "429 rate limited"], ranTool, true⟩]

def disconnectedStages : List (Stage Unit Json) := [⟨[.toolCall ⟨"t1", toolExecuteScript, ()⟩], lostTool, true⟩]

theorem aborted_turn_error_empty :
    turnFailure (turnStart 3 [(Role.user, mustMarshalUserTurn treeCodec hello.text hello.images)]) disconnectedStages =
      some .toolAborted ∧
    ∃ before, (runTurn treeCodec 3 hello .opened disconnectedStages).frames = before ++ [.message "" "error" ""] ∧
      ∀ g ∈ before, g.isMessage = false :=
  ⟨rfl, failed_turn_error_empty treeCodec 3 hello rfl⟩

theorem rate_limit_not_told :
    turnFailure (turnStart 3 [(Role.user, mustMarshalUserTurn treeCodec hello.text hello.images)]) limitedStages =
      some (.event "429 rate limited") ∧
    (runTurn treeCodec 3 hello .opened limitedStages).frames = [.chunk 0 "Look", .message "" "error" ""] := by
  refine ⟨rfl, by decide +kernel⟩

end NomadDev.Middleware
