import Mathlib.Data.Int.ModEq
import NomadDev.TurnFrames
import NomadDev.StageEntries
import NomadDev.WorkerMerge
import NomadDev.Endpoints

namespace NomadDev.Middleware

open List

variable {α β : Type}

inductive Series
  | prompt | candidates | total

def Usage.tokens (u : Usage) : Series → ℤ
  | .prompt => u.promptTokens.toInt
  | .candidates => u.candidatesTokens.toInt
  | .total => u.totalTokens.toInt

theorem Usage.tokens_add (u v : Usage) (k : Series) : (u.add v).tokens k ≡ u.tokens k + v.tokens k [ZMOD 2 ^ 64] := by
  have hadd : ∀ a b : Int64, (a + b).toInt ≡ a.toInt + b.toInt [ZMOD 2 ^ 64] := by
    intro a b
    rw [Int64.toInt_add]
    exact Int.bmod_emod
  cases k <;> exact hadd _ _

theorem Usage.tokens_range (u : Usage) (k : Series) : -2 ^ 63 ≤ u.tokens k ∧ u.tokens k < 2 ^ 63 := by
  cases k <;> exact ⟨Int64.le_toInt _, Int64.toInt_lt _⟩

theorem Usage.tokens_zero (k : Series) : Usage.zero.tokens k = 0 := by
  cases k <;> rfl

namespace AssistantEvent

def spent : AssistantEvent α → Usage
  | .usage u => u
  | .final m => m.usage
  | _ => .zero

def isTerminal : AssistantEvent α → Bool
  | .toolCall _ | .final _ | .err _ => true
  | _ => false

def isToolCall : AssistantEvent α → Bool
  | .toolCall _ => true
  | _ => false

def isFinal : AssistantEvent α → Bool
  | .final _ => true
  | _ => false

def isErr : AssistantEvent α → Bool
  | .err _ => true
  | _ => false

end AssistantEvent

variable (events : List (AssistantEvent α))

def TerminalLast : Prop := ∀ e ∈ events.dropLast, e.isTerminal = false

/-- What a translator sends in one stage; a tool call, a final message or an error is the last it sends. -/
structure StageEvents (α : Type) where
  events : List (AssistantEvent α)
  terminalLast : TerminalLast events

def spentIn (k : Series) : ℤ := (events.map fun e => e.spent.tokens k).sum

def StageEvents.spent (k : Series) (s : StageEvents α) : ℤ := spentIn s.events k

def StageEvents.callsTool (s : StageEvents α) : Bool := s.events.any AssistantEvent.isToolCall

structure WorkerStage (α : Type) where
  stage : StageEvents α
  canceled : Bool
  resumeErr : Option String

/-- How a task of the pool comes to its first stage: not at all without a free slot or when `Stream` fails. -/
inductive WorkerTask (α : Type)
  | noSlot
  | streamFails (err : String)
  | streams (stages : List (WorkerStage α))

structure WorkerTaskResult where
  status : WorkerPool.Status
  summary : String
  usage : Usage
  error : String

def trimmed (s : String) : String := String.ofList (Endpoints.trimSpace s.toList)

structure WorkerRead (α : Type) where
  summary : String
  usage : Usage
  toolCall : Option (Tools.ToolCall α)
  (streamErr final : Bool)

def WorkerRead.read (r : WorkerRead α) : AssistantEvent α → WorkerRead α
  | .err _ => { r with streamErr := true }
  | .text s => { r with summary := r.summary ++ s }
  | .usage u => { r with usage := r.usage.add u }
  | .toolCall call => { r with toolCall := some call }
  | .final m => { r with usage := r.usage.add m.usage, final := true }
  | .thinking _ => r

-- Where the list ends, the translator has closed its channel at once.
def dispatchStages (summary : String) (usage : Usage) : List (WorkerStage α) → WorkerTaskResult
  | [] => ⟨.failed, "", usage, "translator closed without a final message or tool call"⟩
  | i :: rest =>
    let r := i.stage.events.foldl WorkerRead.read ⟨summary, usage, none, false, false⟩
    if r.streamErr then ⟨.failed, "", r.usage, "translator reported a fatal turn error"⟩
    else if i.canceled then ⟨.canceled, "", r.usage, "sandbox_canceled"⟩
    else if r.final then ⟨.success, trimmed r.summary, r.usage, ""⟩
    else match r.toolCall, i.resumeErr with
      | none, _ => ⟨.failed, "", r.usage, "translator closed without a final message or tool call"⟩
      | some _, some err => ⟨.failed, trimmed r.summary, r.usage, "translator resume: " ++ err⟩
      | some _, none => dispatchStages r.summary r.usage rest

def dispatchOneTask : WorkerTask α → WorkerTaskResult
  | .noSlot => ⟨.canceled, "", .zero, "sandbox_canceled"⟩
  | .streamFails err => ⟨.failed, "", .zero, "translator stream: " ++ err⟩
  | .streams stages => dispatchStages "" .zero stages

def WorkerStage.resumes (i : WorkerStage α) : Bool :=
  !i.stage.events.any AssistantEvent.isErr && !i.canceled && !i.stage.events.any AssistantEvent.isFinal &&
    i.stage.callsTool && i.resumeErr.isNone

def ranWorkerStages : List (WorkerStage α) → List (StageEvents α)
  | [] => []
  | i :: rest => i.stage :: if i.resumes then ranWorkerStages rest else []

def WorkerTask.ran : WorkerTask α → List (StageEvents α)
  | .streams stages => ranWorkerStages stages
  | _ => []

inductive StageCall (α β : Type)
  | tool (outcome : ToolOutcome β)
  | pool (tasks : List (WorkerTask α)) (recorded : Option (β × β))

def StageCall.outcome : StageCall α β → ToolOutcome β
  | .tool outcome => outcome
  | .pool _ recorded => ⟨true, 0, "", recorded⟩

def StageCall.tasks : StageCall α β → List (WorkerTask α)
  | .tool _ => []
  | .pool tasks _ => tasks

structure TurnStage (α β : Type) where
  stage : StageEvents α
  call : StageCall α β
  resumeOK : Bool

def TurnStage.toStage (i : TurnStage α β) : Stage α β := ⟨i.stage.events, i.call.outcome, i.resumeOK⟩

def ranStages : TurnState β → List (TurnStage α β) → List (TurnStage α β)
  | _, [] => []
  | st, i :: rest =>
    i :: match consumeStage i.call.outcome st i.stage.events with
      | (st, .next) => if i.resumeOK then ranStages st rest else []
      | _ => []

def ranInTurn (maxAutoRetries : ℤ) (p : Intent) (c : Codec β) (stages : List (TurnStage α β)) :
    Opening → List (TurnStage α β)
  | .opened => ranStages (turnStart maxAutoRetries [(.user, mustMarshalUserTurn c p.text p.images)]) stages
  | _ => []

def TurnStage.workerStages (i : TurnStage α β) : List (StageEvents α) :=
  if i.stage.callsTool then i.call.tasks.flatMap WorkerTask.ran else []

def workerStages (ran : List (TurnStage α β)) : List (StageEvents α) := ran.flatMap TurnStage.workerStages

def allStages (ran : List (TurnStage α β)) : List (StageEvents α) := ran.flatMap fun i => i.stage :: i.workerStages

def messageUsage (u : Usage) : Option Usage := if u = .zero then none else some u

section Streams

variable {l : List (AssistantEvent α)}

theorem terminalLast_concat (hl : ∀ e ∈ l, e.isTerminal = false) (e : AssistantEvent α) : TerminalLast (l ++ [e]) := by
  unfold TerminalLast
  rw [dropLast_concat]
  exact hl

theorem TerminalLast.take (h : TerminalLast l) (n : ℕ) : TerminalLast (l.take n) := by
  intro e he
  rcases Nat.lt_or_ge n l.length with hlt | hge
  · rw [dropLast_take hlt] at he
    refine h e ?_
    rw [dropLast_eq_take]
    exact (take_subset_take_left l (by omega)) he
  · rw [take_of_length_le hge] at he
    exact h e he

theorem AllSpoken.notTerminal (h : AllSpoken l) : ∀ e ∈ l, e.isTerminal = false := by
  intro e he
  have hspoken := h e he
  cases e with
  | text s => rfl
  | thinking s => rfl
  | toolCall | final | usage | err => cases hspoken

theorem usageEvents_notTerminal (u : Option Usage) : ∀ e ∈ usageEvents (α := α) u, e.isTerminal = false := by
  intro e he
  cases u with
  | none => cases he
  | some u =>
    obtain rfl := mem_singleton.mp he
    rfl

theorem StageSpec.terminalLast {provider : Provider} {entries : List (Entry α provider)}
    (h : StageSpec provider l entries) : TerminalLast l := by
  cases h with
  | err spoken hs e => exact terminalLast_concat hs.notTerminal _
  | final spoken hs finishReason u => exact terminalLast_concat hs.notTerminal _
  | call spoken hs u call entry _ _ _ =>
    rw [← append_assoc]
    exact terminalLast_concat (forall_mem_append.mpr ⟨hs.notTerminal, usageEvents_notTerminal u⟩) _

def streamStage (codec : CallCodec α) (provider : Provider) (stream : ProviderStream α provider) (delivered : ℕ) :
    StageEvents α :=
  ⟨(streamEvents codec provider stream).take delivered, (stage_spec codec provider stream).terminalLast.take delivered⟩

end Streams

section Reported

variable (c : Codec β)

@[simp]
theorem finishTurn_usage (st : TurnState β) (m : FinalMessage) : (finishTurn c st m).usage = st.usage := by
  unfold finishTurn
  dsimp only
  split <;> rfl

theorem finishToolCall_usage (tool : ToolOutcome β) (st : TurnState β) :
    (finishToolCall tool st).1.usage = st.usage := by
  unfold finishToolCall
  dsimp only
  split
  · rfl
  · split
    · split <;> rfl
    · rfl

variable {k : Series}

theorem spentIn_cons (e : AssistantEvent α) (events : List (AssistantEvent α)) :
    spentIn (e :: events) k = e.spent.tokens k + spentIn events k := sum_cons

theorem spentIn_cons_of_none {e : AssistantEvent α} (he : e.spent = .zero) (events : List (AssistantEvent α)) :
    spentIn (e :: events) k = spentIn events k := by
  rw [spentIn_cons, he, Usage.tokens_zero, zero_add]

theorem rest_eq_nil_of_isTerminal {e : AssistantEvent α} {rest : List (AssistantEvent α)}
    (hlast : TerminalLast (e :: rest)) (he : e.isTerminal = true) : rest = [] := by
  cases rest with
  | nil => rfl
  | cons e' rest =>
    have hfalse := hlast e mem_cons_self
    rw [he] at hfalse
    cases hfalse

theorem consumeStage_usage (tool : ToolOutcome β) (st : TurnState β) (events : List (AssistantEvent α))
    (hlast : TerminalLast events) :
    (consumeStage tool st events).1.usage.tokens k ≡ st.usage.tokens k + spentIn events k [ZMOD 2 ^ 64] := by
  induction events generalizing st with
  | nil => simp [consumeStage, spentIn]
  | cons e rest ih =>
    have htail : TerminalLast rest := by
      intro e' he'
      cases rest with
      | nil => cases he'
      | cons x xs => exact hlast e' (mem_cons_of_mem _ he')
    cases e with
    | text s | thinking s =>
      rw [consumeStage, spentIn_cons_of_none rfl]
      split
      · exact ih st htail
      · exact ih _ htail
    | usage u =>
      rw [consumeStage, spentIn_cons, ← add_assoc]
      exact (ih _ htail).trans ((Usage.tokens_add st.usage u k).add_right _)
    | toolCall call =>
      obtain rfl := rest_eq_nil_of_isTerminal hlast rfl
      rw [consumeStage, finishToolCall_usage]
      simp [spentIn, AssistantEvent.spent, Usage.tokens_zero]
    | final m =>
      obtain rfl := rest_eq_nil_of_isTerminal hlast rfl
      rw [consumeStage, spentIn_cons, show spentIn [] k = 0 from rfl, add_zero]
      exact Usage.tokens_add st.usage m.usage k
    | err msg =>
      obtain rfl := rest_eq_nil_of_isTerminal hlast rfl
      simp [consumeStage, spentIn, AssistantEvent.spent, Usage.tokens_zero]

def mainStages (ran : List (TurnStage α β)) : List (StageEvents α) := ran.map TurnStage.stage

def spentBy (k : Series) (stages : List (StageEvents α)) : ℤ := (stages.map (StageEvents.spent k)).sum

@[simp]
theorem spentBy_cons (s : StageEvents α) (stages : List (StageEvents α)) :
    spentBy k (s :: stages) = s.spent k + spentBy k stages := sum_cons

theorem spentBy_append (xs ys : List (StageEvents α)) : spentBy k (xs ++ ys) = spentBy k xs + spentBy k ys := by
  rw [spentBy, map_append, sum_append]
  rfl

theorem driveStages_usage (st : TurnState β) (stages : List (TurnStage α β)) :
    (driveStages c st (stages.map TurnStage.toStage)).usage.tokens k ≡
      st.usage.tokens k + spentBy k (mainStages (ranStages st stages)) [ZMOD 2 ^ 64] := by
  induction stages generalizing st with
  | nil => simp [driveStages, emitAssistantMessage, ranStages, mainStages, spentBy]
  | cons i rest ih =>
    obtain ⟨stage, call, resumeOK⟩ := i
    have hstage := consumeStage_usage (k := k) call.outcome st stage.events stage.terminalLast
    have hlast : ∀ {u : ℤ}, u ≡ st.usage.tokens k + stage.spent k [ZMOD 2 ^ 64] →
        u ≡ st.usage.tokens k + spentBy k [stage] [ZMOD 2 ^ 64] := by
      intro u hu
      rwa [spentBy_cons, show spentBy k [] = 0 from rfl, add_zero]
    rw [map_cons, driveStages, ranStages]
    simp only [TurnStage.toStage, mainStages, map_cons]
    cases hc : consumeStage call.outcome st stage.events with
    | mk st' e =>
      rw [hc] at hstage
      cases e with
      | terminal m => exact hlast (finishTurn_usage c st' m ▸ hstage)
      | closed => exact hlast hstage
      | next =>
        cases resumeOK with
        | false => exact hlast (finishTurn_usage c st' (errorFinal "") ▸ hstage)
        | true =>
          simp only [if_true, spentBy_cons, ← add_assoc]
          exact (ih st').trans (hstage.add_right _)

theorem runTurn_usage (maxAutoRetries : ℤ) (p : Intent) (o : Opening) (stages : List (TurnStage α β)) :
    (runTurn c maxAutoRetries p o (stages.map TurnStage.toStage)).usage.tokens k ≡
      spentBy k (mainStages (ranInTurn maxAutoRetries p c stages o)) [ZMOD 2 ^ 64] := by
  cases o with
  | appendFails | loadFails | streamFails => exact congrArg (· % 2 ^ 64) (Usage.tokens_zero k)
  | opened =>
    have hdrive := driveStages_usage (k := k) c
      (turnStart maxAutoRetries [(.user, mustMarshalUserTurn c p.text p.images)]) stages
    rwa [show (turnStart maxAutoRetries _).usage = Usage.zero from rfl, Usage.tokens_zero, zero_add] at hdrive

theorem messageUsage_getD (u : Usage) : (messageUsage u).getD .zero = u := by
  unfold messageUsage
  split
  · next h => exact h.symm
  · rfl

theorem spentBy_allStages (ran : List (TurnStage α β)) :
    spentBy k (allStages ran) = spentBy k (mainStages ran) + spentBy k (workerStages ran) := by
  induction ran with
  | nil => rfl
  | cons i ran ih =>
    simp only [allStages, mainStages, workerStages, flatMap_cons, map_cons, spentBy_cons, spentBy_append] at ih ⊢
    rw [ih]
    omega

section Worker

variable (r : WorkerRead α) (events : List (AssistantEvent α))

theorem foldl_read_flags : let r' := events.foldl WorkerRead.read r
    r'.streamErr = (r.streamErr || events.any AssistantEvent.isErr) ∧
      r'.final = (r.final || events.any AssistantEvent.isFinal) ∧
        r'.toolCall.isSome = (r.toolCall.isSome || events.any AssistantEvent.isToolCall) := by
  induction events generalizing r with
  | nil => simp
  | cons e events ih =>
    obtain ⟨herr, hfinal, hcall⟩ := ih (r.read e)
    simp only [foldl_cons, herr, hfinal, hcall]
    cases e <;> simp [WorkerRead.read, AssistantEvent.isErr, AssistantEvent.isFinal, AssistantEvent.isToolCall]

theorem foldl_read_usage :
    (events.foldl WorkerRead.read r).usage.tokens k ≡ r.usage.tokens k + spentIn events k [ZMOD 2 ^ 64] := by
  induction events generalizing r with
  | nil => simp [spentIn]
  | cons e events ih =>
    rw [foldl_cons]
    cases e with
    | err | text | toolCall | thinking =>
      rw [spentIn_cons_of_none rfl]
      exact ih _
    | usage u =>
      rw [spentIn_cons, ← add_assoc]
      exact (ih _).trans ((Usage.tokens_add r.usage u k).add_right _)
    | final m =>
      rw [spentIn_cons, ← add_assoc]
      exact (ih _).trans ((Usage.tokens_add r.usage m.usage k).add_right _)

theorem dispatchStages_cons_usage (summary : String) (usage : Usage) (i : WorkerStage α) (rest : List (WorkerStage α)) :
    let r := i.stage.events.foldl WorkerRead.read ⟨summary, usage, none, false, false⟩
    (dispatchStages summary usage (i :: rest)).usage =
      if i.resumes then (dispatchStages r.summary r.usage rest).usage else r.usage := by
  dsimp only
  obtain ⟨herr, hfinal, hcall⟩ := foldl_read_flags ⟨summary, usage, none, false, false⟩ i.stage.events
  simp only [Option.isSome_none, Bool.false_or] at herr hfinal hcall
  rw [dispatchStages, WorkerStage.resumes, StageEvents.callsTool, ← herr, ← hfinal, ← hcall]
  generalize i.stage.events.foldl WorkerRead.read ⟨summary, usage, none, false, false⟩ = r
  cases r.streamErr <;> cases i.canceled <;> cases r.final <;> cases r.toolCall <;> cases i.resumeErr <;> rfl

theorem dispatchStages_usage (summary : String) (usage : Usage) (stages : List (WorkerStage α)) :
    (dispatchStages summary usage stages).usage.tokens k ≡
      usage.tokens k + spentBy k (ranWorkerStages stages) [ZMOD 2 ^ 64] := by
  induction stages generalizing summary usage with
  | nil => simp [dispatchStages, ranWorkerStages, spentBy]
  | cons i rest ih =>
    have hread := foldl_read_usage (k := k) ⟨summary, usage, none, false, false⟩ i.stage.events
    rw [dispatchStages_cons_usage, ranWorkerStages, spentBy_cons, ← add_assoc]
    split
    · exact (ih _ _).trans (hread.add_right _)
    · rwa [show spentBy k [] = 0 from rfl, add_zero]

end Worker

theorem eq_bmod_of_modEq {u : Usage} {z : ℤ} (h : u.tokens k ≡ z [ZMOD 2 ^ 64]) : u.tokens k = z.bmod (2 ^ 64) := by
  obtain ⟨hle, hlt⟩ := u.tokens_range k
  have hmod : u.tokens k % ((2 ^ 64 : ℕ) : ℤ) = z % ((2 ^ 64 : ℕ) : ℤ) := h
  rw [← Int.emod_bmod, ← hmod, Int.emod_bmod]
  exact (Int.bmod_eq_of_le hle hlt).symm

theorem dispatchOneTask_usage (t : WorkerTask α) (k : Series) :
    (dispatchOneTask t).usage.tokens k = (spentBy k t.ran).bmod (2 ^ 64) := by
  refine eq_bmod_of_modEq ?_
  cases t with
  | noSlot | streamFails => exact congrArg (· % 2 ^ 64) (Usage.tokens_zero k)
  | streams stages =>
    have hstages := dispatchStages_usage (k := k) "" .zero stages
    rwa [Usage.tokens_zero, zero_add] at hstages

theorem usage_reported_iff (maxAutoRetries : ℤ) (p : Intent) (o : Opening) (stages : List (TurnStage α β)) :
    let ran := ranInTurn maxAutoRetries p c stages o
    (∀ k, ((messageUsage (runTurn c maxAutoRetries p o (stages.map TurnStage.toStage)).usage).getD .zero).tokens k =
        spentBy k (allStages ran)) ↔
      ∀ k, (-2 ^ 63 ≤ spentBy k (allStages ran) ∧ spentBy k (allStages ran) < 2 ^ 63) ∧
        2 ^ 64 ∣ spentBy k (workerStages ran) := by
  intro ran
  refine forall_congr' fun k => ?_
  have hmain := runTurn_usage (k := k) c maxAutoRetries p o stages
  have hrange := (runTurn c maxAutoRetries p o (stages.map TurnStage.toStage)).usage.tokens_range k
  rw [messageUsage_getD, spentBy_allStages]
  have hmain : _ % 2 ^ 64 = spentBy k (mainStages ran) % 2 ^ 64 := hmain
  omega

end Reported

def openaiStage (finishReason : String) (calls : List ToolDelta) (usage : Usage) : StageEvents Unit :=
  streamStage ⟨fun _ => (), "c0"⟩ .openai ⟨[⟨usage, [⟨"", calls, finishReason⟩]⟩], none⟩ 5

def refactorIntent : Intent :=
  ⟨"refactor both packages", .normal, [], 0, by decide, List.forall_mem_nil ImageData.Valid⟩

def pooledTurn : List (TurnStage Unit Json) :=
  [⟨openaiStage "tool_calls" [⟨0, "c1", "dispatch_worker_pool", "\x7b\x7d"⟩] ⟨100, 20, 120⟩,
      .pool [.streams [⟨openaiStage "stop" [] ⟨50, 10, 60⟩, false, none⟩]] none, true⟩,
    ⟨openaiStage "stop" [] ⟨200, 30, 230⟩, .tool ⟨true, 0, "", none⟩, true⟩]

theorem pool_usage_unreported :
    (messageUsage (runTurn treeCodec 3 refactorIntent .opened (pooledTurn.map TurnStage.toStage)).usage).getD .zero =
        ⟨300, 50, 350⟩ ∧
      ∀ k, spentBy k (allStages (ranInTurn 3 refactorIntent treeCodec pooledTurn .opened)) =
        (⟨350, 60, 410⟩ : Usage).tokens k := by
  refine ⟨rfl, fun k => ?_⟩
  cases k <;> rfl

end NomadDev.Middleware
