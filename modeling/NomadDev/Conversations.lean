import NomadDev.Turns
import NomadDev.StageEntries

namespace NomadDev.Middleware

open Tools List

variable {α β : Type} {provider : Provider}

def firstEntries (c : Codec β) : (provider : Provider) → TurnInput β → List (Entry α provider)
  | .openai, t => (openaiHistoryToMessages c t.systemPrompt t.history t.userText t.images).map .openai
  | .anthropic, t => (anthropicHistoryToMessages c t.history t.userText t.images).map .anthropic
  | .gemini, t => (historyToContents c t.history t.userText t.images).map .gemini

structure ToolStage (α : Type) (provider : Provider) where
  codec : CallCodec α
  stream : ProviderStream α provider
  result : ToolResult

variable (i : ToolStage α provider)

def ToolStage.events : List (AssistantEvent α) := streamEvents i.codec provider i.stream

def ToolStage.entries : List (Entry α provider) :=
  stageMirror i.codec provider i.stream ++ [resultEntry provider i.result]

def resume (messages : List (Entry α provider)) (i : ToolStage α provider) : List (Entry α provider) :=
  messages ++ i.entries

def request (first : List (Entry α provider)) (stages : List (ToolStage α provider)) : List (Entry α provider) :=
  stages.foldl resume first

theorem request_eq (first : List (Entry α provider)) (stages : List (ToolStage α provider)) :
    request first stages = first ++ stages.flatMap ToolStage.entries := by
  induction stages generalizing first with
  | nil => exact (append_nil first).symm
  | cons i rest ih =>
    rw [request, foldl_cons, flatMap_cons, ← append_assoc]
    exact ih (resume first i)

def AssistantEvent.call : AssistantEvent α → Option (ToolCall α)
  | .toolCall call => some call
  | _ => none

def ToolStage.calls : List (ToolCall α) := i.events.filterMap AssistantEvent.call

def ToolStage.Resumed : Prop :=
  ∃ call, .toolCall call ∈ i.events ∧ i.result.callID = call.id

inductive Paired : List (Entry α provider) → Prop
  | nil : Paired []
  | plain {e : Entry α provider} {es : List (Entry α provider)} (hc : e.callID = none) (hr : e.resultID = none)
      (h : Paired es) : Paired (e :: es)
  | pair {e r : Entry α provider} {es : List (Entry α provider)} (id : String) (he : e.callID = some id)
      (hr : r.resultID = some id) (h : Paired es) : Paired (e :: r :: es)

theorem Paired.append {xs ys : List (Entry α provider)} (hx : Paired xs) (hy : Paired ys) : Paired (xs ++ ys) := by
  induction hx with
  | nil => exact hy
  | plain hc hr _ ih => exact .plain hc hr ih
  | pair id he hr _ ih => exact .pair id he hr ih

theorem plain_firstEntries (c : Codec β) (t : TurnInput β) :
    ∀ e ∈ (firstEntries c provider t : List (Entry α provider)), e.callID = none ∧ e.resultID = none := by
  cases provider with
  | openai | anthropic | gemini => exact forall_mem_map.mpr fun _ _ => ⟨rfl, rfl⟩

theorem paired_of_plain {es : List (Entry α provider)} (h : ∀ e ∈ es, e.callID = none ∧ e.resultID = none) :
    Paired es := by
  induction es with
  | nil => exact .nil
  | cons e es ih =>
    rw [forall_mem_cons] at h
    exact .plain h.1.1 h.1.2 (ih h.2)

theorem resultEntry_ids (hp : provider ≠ .gemini) (r : ToolResult) :
    (resultEntry provider r : Entry α provider).resultID = some r.callID ∧
      (resultEntry provider r : Entry α provider).callID = none := by
  cases provider with
  | openai | anthropic => exact ⟨rfl, rfl⟩
  | gemini => exact absurd rfl hp

theorem calls_spoken {events : List (AssistantEvent α)} (h : AllSpoken events) :
    events.filterMap AssistantEvent.call = [] := by
  rw [filterMap_eq_nil_iff]
  intro e he
  have hs := h e he
  cases e with
  | text s => rfl
  | thinking s => rfl
  | _ => exact hs.elim

theorem calls_usageEvents (u : Option Usage) :
    (usageEvents u : List (AssistantEvent α)).filterMap AssistantEvent.call = [] := by
  cases u <;> rfl

theorem StageSpec.calls {events : List (AssistantEvent α)} {entries : List (Entry α provider)}
    (h : StageSpec provider events entries) :
    (events.filterMap AssistantEvent.call = [] ∧ entries = []) ∨
      ∃ call entry, events.filterMap AssistantEvent.call = [call] ∧ entries = [entry] ∧
        (provider ≠ .gemini → entry.callID = some call.id) := by
  cases h with
  | err spoken hs e =>
    refine .inl ⟨?_, rfl⟩
    rw [filterMap_append, calls_spoken hs]
    rfl
  | final spoken hs finishReason u =>
    refine .inl ⟨?_, rfl⟩
    rw [filterMap_append, calls_spoken hs]
    rfl
  | call spoken hs u call entry _ hid _ =>
    refine .inr ⟨call, entry, ?_, rfl, hid⟩
    rw [filterMap_append, filterMap_append, calls_spoken hs, calls_usageEvents]
    rfl

theorem ToolStage.Resumed.entries {i : ToolStage α provider} (h : i.Resumed) (hp : provider ≠ .gemini) :
    ∃ call entry, i.calls = [call] ∧ i.entries = [entry, resultEntry provider i.result] ∧
      entry.callID = some call.id ∧ (resultEntry provider i.result : Entry α provider).resultID = some call.id := by
  obtain ⟨call, hmem, hid⟩ := h
  have hcall : call ∈ i.calls := mem_filterMap.mpr ⟨_, hmem, rfl⟩
  rcases (stage_spec i.codec provider i.stream).calls with ⟨hnone, _⟩ | ⟨call', entry, hone, hentry, hentryID⟩
  · rw [ToolStage.calls, ToolStage.events, hnone] at hcall
    cases hcall
  rw [ToolStage.calls, ToolStage.events, hone, mem_singleton] at hcall
  subst hcall
  refine ⟨call, entry, hone, ?_, hentryID hp, ?_⟩
  · rw [ToolStage.entries, hentry]
    rfl
  · rw [(resultEntry_ids hp i.result).1, hid]

theorem paired_stages {stages : List (ToolStage α provider)} (hp : provider ≠ .gemini) (h : ∀ i ∈ stages, i.Resumed) :
    Paired (stages.flatMap ToolStage.entries) ∧
      (stages.flatMap ToolStage.entries).filterMap Entry.callID = stages.flatMap fun i => i.calls.map ToolCall.id := by
  induction stages with
  | nil => exact ⟨.nil, rfl⟩
  | cons i rest ih =>
    rw [forall_mem_cons] at h
    obtain ⟨hpaired, hids⟩ := ih h.2
    obtain ⟨call, entry, hcalls, hentries, hentry, hresult⟩ := h.1.entries hp
    rw [flatMap_cons, flatMap_cons, hentries, hcalls]
    refine ⟨.pair call.id hentry hresult hpaired, ?_⟩
    rw [filterMap_append, hids, filterMap_cons_some hentry, filterMap_cons_none (resultEntry_ids hp i.result).2]
    rfl

theorem request_paired (hp : provider ≠ .gemini) (c : Codec β) (t : TurnInput β) {stages : List (ToolStage α provider)}
    (h : ∀ i ∈ stages, i.Resumed) :
    Paired (request (firstEntries c provider t) stages) ∧
      (request (firstEntries c provider t) stages).filterMap Entry.callID =
        stages.flatMap fun i => i.calls.map ToolCall.id := by
  obtain ⟨hpaired, hids⟩ := paired_stages hp h
  have hplain : ∀ e ∈ (firstEntries c provider t : List (Entry α provider)), e.callID = none ∧ e.resultID = none :=
    plain_firstEntries c t
  rw [request_eq, filterMap_append, hids]
  refine ⟨(paired_of_plain hplain).append hpaired, ?_⟩
  rw [filterMap_eq_nil_iff.mpr fun e he => (hplain e he).1]
  rfl

def lookCodec : CallCodec Unit := ⟨fun _ => (), "id"⟩

def lookInput : TurnInput Json := ⟨"hello", [], "", []⟩

def lookStage : ToolStage Unit .openai where
  codec := lookCodec
  stream := ⟨[⟨.zero, [⟨"Let me look.", [], ""⟩]⟩, ⟨.zero, [⟨"", [⟨0, "call_1", "list_dir", ""⟩], ""⟩]⟩,
    ⟨.zero, [⟨"", [⟨0, "", "", "\x7b\x7d"⟩], "tool_calls"⟩]⟩], none⟩
  result := ⟨"call_1", "list_dir", some [("stdout", .str "README.md")], ""⟩

theorem request_paired_look : Paired (request (firstEntries treeCodec .openai lookInput) [lookStage]) ∧
      (request (firstEntries treeCodec .openai lookInput) [lookStage]).filterMap Entry.callID = ["call_1"] := by
  have hresumed : ∀ i ∈ [lookStage], i.Resumed :=
    forall_mem_singleton.mpr ⟨⟨"call_1", "list_dir", ()⟩, mem_cons_of_mem _ mem_cons_self, rfl⟩
  exact request_paired (by decide) treeCodec lookInput hresumed

def AssistantEvent.spokenText : AssistantEvent α → String
  | .text s => s
  | _ => ""

def ToolStage.text : String := String.join (i.events.map AssistantEvent.spokenText)

def modelText (es : List (Entry α provider)) : String := String.join (es.map Entry.modelText)

def CarriesText (first : List (Entry α provider)) (stages : List (ToolStage α provider)) : Prop :=
  (String.join (stages.map ToolStage.text)).toList <:+:
    (modelText ((request first stages).drop first.length)).toList

theorem join_eq_empty_iff {l : List String} : String.join l = "" ↔ ∀ s ∈ l, s = "" := by
  rw [← String.toList_inj, String.toList_join]
  simp [String.toList_eq_nil_iff]

theorem StageSpec.modelText {events : List (AssistantEvent α)} {entries : List (Entry α provider)}
    (h : StageSpec provider events entries) : ∀ e ∈ entries, e.modelText = "" := by
  cases h with
  | err | final => exact fun _ he => absurd he not_mem_nil
  | call _ _ _ _ _ _ _ htext => exact forall_mem_singleton.mpr htext

theorem modelText_resultEntry (r : ToolResult) : (resultEntry provider r : Entry α provider).modelText = "" := by
  cases provider <;> rfl

theorem modelText_entries (i : ToolStage α provider) : ∀ e ∈ i.entries, e.modelText = "" :=
  forall_mem_append.mpr
    ⟨(stage_spec i.codec provider i.stream).modelText, forall_mem_singleton.mpr (modelText_resultEntry i.result)⟩

theorem carriesText_iff (first : List (Entry α provider)) (stages : List (ToolStage α provider)) :
    CarriesText first stages ↔ ∀ i ∈ stages, i.text = "" := by
  have hnone : Middleware.modelText ((request first stages).drop first.length) = "" := by
    rw [request_eq, drop_left, Middleware.modelText, join_eq_empty_iff, forall_mem_map]
    intro e he
    obtain ⟨i, _, hi⟩ := mem_flatMap.mp he
    exact modelText_entries i e hi
  rw [CarriesText, hnone, String.toList_empty, infix_nil, String.toList_eq_nil_iff, join_eq_empty_iff, forall_mem_map]

theorem lookStage_text_dropped : lookStage.text = "Let me look." ∧
      request (firstEntries treeCodec .openai lookInput) [lookStage] =
        [.openai (.user "hello"), .openaiToolCall "call_1" "list_dir" "\x7b\x7d",
          .openaiToolResult (.obj [("stdout", .str "README.md")]) "call_1"] ∧
      ¬CarriesText (firstEntries treeCodec .openai lookInput) [lookStage] := by
  refine ⟨by decide, rfl, ?_⟩
  intro h
  exact absurd (infix_nil.mp h) (by decide)

end NomadDev.Middleware
