import NomadDev.Turns
import NomadDev.StageEntries

namespace NomadDev.Middleware

open History List

variable {α β : Type}

def Wordless (event : AssistantEvent α) : Prop := ∀ m, event = .final m → m.text = ""

theorem wordless_spoken {e : AssistantEvent α} (h : e.Spoken) : Wordless e := by
  rintro m rfl
  exact h.elim

theorem wordless_usageEvents (u : Option Usage) : ∀ e ∈ (usageEvents u : List (AssistantEvent α)), Wordless e := by
  cases u with
  | none => simp [usageEvents]
  | some u => simp [usageEvents, Wordless]

theorem StageSpec.wordless {provider : Provider} {events : List (AssistantEvent α)} {entries : List (Entry α provider)}
    (h : StageSpec provider events entries) : ∀ e ∈ events, Wordless e := by
  cases h with
  | err spoken hs e =>
    refine forall_mem_append.mpr ⟨fun e he => wordless_spoken (hs e he), ?_⟩
    simp [Wordless]
  | final spoken hs finishReason u =>
    refine forall_mem_append.mpr ⟨fun e he => wordless_spoken (hs e he), ?_⟩
    simp [Wordless]
  | call spoken hs u call entry _ _ _ =>
    refine forall_mem_append.mpr ⟨fun e he => wordless_spoken (hs e he), ?_⟩
    refine forall_mem_append.mpr ⟨wordless_usageEvents u, ?_⟩
    simp [Wordless]

def NoAssistant (rows : List (Role × β)) : Prop := ∀ row ∈ rows, row.1 ≠ .assistant

theorem noAssistant_toolRows {rows : List (Role × β)} (h : NoAssistant rows) (tool : ToolOutcome β) :
    NoAssistant (rows ++ toolRows tool) := by
  intro row hrow
  rcases mem_append.mp hrow with hrow | hrow
  · exact h row hrow
  unfold toolRows at hrow
  split at hrow
  · cases hrow
  · simp only [mem_cons, not_mem_nil, or_false] at hrow
    rcases hrow with rfl | rfl <;> simp

structure StageSilent (result : TurnState β × StageEnd) : Prop where
  rows : NoAssistant result.1.rows
  terminal : ∀ m, result.2 = .terminal m → m.text = "" ∨ m.finishReason = "error"

theorem finishToolCall_silent (tool : ToolOutcome β) (st : TurnState β) (h : NoAssistant st.rows) :
    StageSilent (finishToolCall tool st) := by
  have hrows := noAssistant_toolRows h tool
  simp only [finishToolCall]
  split
  · refine ⟨hrows, ?_⟩
    rintro m hm
    cases hm
    exact .inl rfl
  · split
    · split
      · exact ⟨hrows, nofun⟩
      refine ⟨hrows, ?_⟩
      rintro m hm
      cases hm
      exact .inr rfl
    · exact ⟨hrows, nofun⟩

theorem consumeStage_silent (tool : ToolOutcome β) (st : TurnState β) (events : List (AssistantEvent α))
    (hw : ∀ e ∈ events, Wordless e) (h : NoAssistant st.rows) : StageSilent (consumeStage tool st events) := by
  induction events generalizing st with
  | nil => exact ⟨h, nofun⟩
  | cons e rest ih =>
    have hrest : ∀ e ∈ rest, Wordless e := fun e he => hw e (mem_cons_of_mem _ he)
    cases e with
    | err e =>
      refine ⟨h, ?_⟩
      rintro m hm
      cases hm
      exact .inl rfl
    | text s | thinking s =>
      simp only [consumeStage]
      split
      · exact ih st hrest h
      · exact ih _ hrest h
    | usage u => exact ih _ hrest h
    | toolCall call => exact finishToolCall_silent tool st h
    | final m =>
      refine ⟨h, ?_⟩
      rintro m' hm
      cases hm
      exact .inl (hw _ mem_cons_self m rfl)

theorem finishTurn_silent (c : Codec β) (st : TurnState β) {m : FinalMessage} (h : NoAssistant st.rows)
    (hm : m.text = "" ∨ m.finishReason = "error") (hok : EndedOK (finishTurn c st m)) :
    NoAssistant (finishTurn c st m).rows := by
  have hframes : (finishTurn c st m).frames.getLast? =
      some (.message m.text (if m.finishReason = "" then "stop" else m.finishReason) "") := by
    simp only [finishTurn, emitAssistantMessage]
    split <;> exact List.getLast?_concat
  rcases hm with htext | herr
  · simpa [finishTurn, emitAssistantMessage, htext] using h
  obtain ⟨text, finishReason, hlast, hne⟩ := hok
  rw [hframes] at hlast
  simp only [Option.some.injEq, Frame.message.injEq, herr] at hlast
  exact absurd hlast.2.1.symm hne

theorem runStages_silent {provider : Provider} {codec : CallCodec α} {c : Codec β} {st st' : TurnState β}
    {stages : List (StageInput α β provider)} (h : NoAssistant st.rows)
    (hrun : runStages provider codec c st stages = some st') (hok : EndedOK st') : NoAssistant st'.rows := by
  induction stages generalizing st with
  | nil => cases hrun
  | cons i rest ih =>
    have hw : ∀ e ∈ (streamEvents codec provider i.stream).take i.delivered, Wordless e :=
      fun e he => (stage_spec codec provider i.stream).wordless e (mem_of_mem_take he)
    have hstage := consumeStage_silent i.tool st _ hw h
    simp only [runStages] at hrun
    split at hrun
    · next st₁ m heq =>
      rw [heq] at hstage
      cases hrun
      exact finishTurn_silent c st₁ hstage.rows (hstage.terminal m rfl) hok
    · next st₁ heq =>
      rw [heq] at hstage
      cases hrun
      exact hstage.rows
    · next st₁ heq =>
      rw [heq] at hstage
      exact ih hstage.rows hrun

theorem runIntent_not_remembered {provider : Provider} {codec : CallCodec α} {c : Codec β} {maxAutoRetries : ℤ}
    {p : Intent} {stages : List (StageInput α β provider)} {st : TurnState β}
    (hrun : runIntent provider codec c maxAutoRetries p stages = some st) (hok : EndedOK st) : ¬ Remembered c st := by
  rintro ⟨parts, text, images, hmem, _, _⟩
  have hstart : NoAssistant [((.user, mustMarshalUserTurn c p.text p.images) : Role × β)] := by
    intro row hrow
    rw [mem_singleton.mp hrow]
    simp
  exact runStages_silent hstart hrun hok _ hmem rfl

def noCalls : CallCodec Unit := ⟨fun _ => (), "id"⟩

def helloReply : StageInput Unit Json .openai where
  stream := ⟨[⟨.zero, [⟨"Hi", [], ""⟩]⟩, ⟨.zero, [⟨" there", [], "stop"⟩]⟩], none⟩
  delivered := 3
  tool := ⟨true, 0, "", none⟩

theorem runIntent_not_remembered_hello :
    ∃ st, runIntent .openai noCalls treeCodec 3 hello [helloReply] = some st ∧ EndedOK st ∧ ¬ Remembered treeCodec st := by
  have hrun : ∃ st, runIntent .openai noCalls treeCodec 3 hello [helloReply] = some st ∧ EndedOK st :=
    ⟨_, rfl, "", "stop", rfl, by decide⟩
  obtain ⟨st, hst, hok⟩ := hrun
  exact ⟨st, hst, hok, runIntent_not_remembered hst hok⟩

theorem helloReply_forgotten : ∃ st, runIntent .openai noCalls treeCodec 3 hello [helloReply] = some st ∧ EndedOK st ∧
      streamedText st.frames = "Hi there" ∧ ¬ Remembered treeCodec st := by
  refine ⟨_, rfl, ⟨"", "stop", rfl, by decide⟩, by decide, ?_⟩
  rintro ⟨parts, text, images, hmem, _, _⟩
  cases mem_singleton.mp hmem

end NomadDev.Middleware
