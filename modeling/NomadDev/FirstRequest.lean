import NomadDev.Intents

namespace NomadDev.Middleware

open History List

variable {β σ : Type}

inductive Provider
  | openai | anthropic | gemini
  deriving DecidableEq

variable (provider : Provider)

def userMessageCount (c : Codec β) (turn : TurnInput β) : ℕ :=
  match provider with
  | .openai => (openaiHistoryToMessages c turn.systemPrompt turn.history turn.userText turn.images).count
      (openaiUserMessage turn.userText turn.images)
  | .anthropic => (anthropicHistoryToMessages c turn.history turn.userText turn.images).count
      (.user (anthropicContentBlocks turn.userText turn.images))
  | .gemini => (historyToContents c turn.history turn.userText turn.images).count
      (geminiUserContent turn.userText turn.images)

def ExactlyOnce (c : Codec β) (turn : TurnInput β) : Prop :=
  userMessageCount provider c turn = 1

instance (provider : Provider) (c : Codec β) (turn : TurnInput β) : Decidable (ExactlyOnce provider c turn) :=
  inferInstanceAs (Decidable (userMessageCount provider c turn = 1))

def readsAs (c : Codec β) (text : String) (images : List ImageData) (row : Role × β) : Bool :=
  match provider with
  | .openai => openaiTurnMessage c row == some (openaiUserMessage text images)
  | .anthropic => anthropicTurnMessage c row == some (.user (anthropicContentBlocks text images))
  | .gemini => turnToContent c row == some (geminiUserContent text images)

theorem count_snoc_filterMap {γ μ : Type} [DecidableEq μ] {pre : List μ} {f : γ → Option μ} {rows : List γ} {m : μ}
    (hpre : m ∉ pre) : (pre ++ rows.filterMap f ++ [m]).count m = 1 ↔ ∀ r ∈ rows, (f r == some m) = false := by
  have hcount : (pre ++ rows.filterMap f ++ [m]).count m = (rows.filterMap f).count m + 1 := by
    rw [count_append, count_append, count_eq_zero_of_not_mem hpre, count_singleton_self]
    omega
  have hmem : (rows.filterMap f).count m = 0 ↔ ∀ r ∈ rows, (f r == some m) = false := by
    simp [count_eq_zero, mem_filterMap]
  rw [hcount, ← hmem]
  omega

theorem system_ne_user (text userText : String) (images : List ImageData) :
    openaiUserMessage userText images ≠ .system text := by
  unfold openaiUserMessage
  split <;> simp

theorem exactlyOnce_iff_history (provider : Provider) (c : Codec β) (turn : TurnInput β) : ExactlyOnce provider c turn ↔
      ∀ row ∈ turn.history.map Turn.row, readsAs provider c turn.userText turn.images row = false := by
  rw [forall_mem_map]
  cases provider with
  | openai =>
    apply count_snoc_filterMap
    intro hmem
    split at hmem
    · cases hmem
    · exact system_ne_user _ _ _ (mem_singleton.mp hmem)
  | anthropic =>
    have hnil : AnthropicMessage.user (anthropicContentBlocks turn.userText turn.images) ∉ [] := not_mem_nil
    exact count_snoc_filterMap hnil
  | gemini =>
    have hnil : geminiUserContent turn.userText turn.images ∉ [] := not_mem_nil
    exact count_snoc_filterMap hnil

theorem readsAs_user (provider : Provider) (c : Codec β) {text : String} {images : List ImageData} (ht : text ≠ "")
    (hi : ∀ img ∈ images, img.Valid) :
    readsAs provider c text images (.user, mustMarshalUserTurn c text images) = true := by
  have hread := readTurn_user c ht hi
  cases provider with
  | openai => simp [readsAs, openaiTurnMessage, hread]
  | anthropic => simp [readsAs, anthropicTurnMessage, hread]
  | gemini => simp [readsAs, turnToContent, hread, ht, geminiUserContent]

theorem exactlyOnce_iff_overtaken (provider : Provider) {b : Backend σ β} {c : Codec β} {cfg : IntentConfig}
    {sid : String} {p : Intent} {s s' : σ} {others : List (Turn β)} {turn : TurnInput β} (hn : 0 < windowN cfg p)
    (h : openTurn b c cfg sid p s others = .ok (turn, s')) :
    ExactlyOnce provider c turn ↔
      (windowN cfg p).toNat ≤ (others.filter fun t => t.sid == sid).length ∧
        ∀ row ∈ lastN (windowN cfg p).toNat ((others.filter fun t => t.sid == sid).map Turn.row),
          readsAs provider c p.text p.images row = false := by
  obtain ⟨htext, himages, hhist⟩ := openTurn_window hn h
  rw [exactlyOnce_iff_history, htext, himages, hhist]
  set rows := (others.filter fun t => t.sid == sid).map Turn.row with hrows
  have hlen : rows.length = (others.filter fun t => t.sid == sid).length := length_map ..
  rw [← hlen]
  by_cases hle : (windowN cfg p).toNat ≤ rows.length
  · have hdrop : lastN (windowN cfg p).toNat
        (b.thread s sid ++ (.user, mustMarshalUserTurn c p.text p.images) :: rows) =
          lastN (windowN cfg p).toNat rows := by
      rw [append_cons]
      exact lastN_append hle
    rw [hdrop]
    simp only [hle, true_and]
  · simp only [hle, false_and, iff_false]
    intro hall
    have hmem : ((.user, mustMarshalUserTurn c p.text p.images) : Role × β) ∈ lastN (windowN cfg p).toNat
        (b.thread s sid ++ (.user, mustMarshalUserTurn c p.text p.images) :: rows) :=
      mem_lastN_append (Nat.lt_of_not_le hle)
    have hread := readsAs_user provider c p.text_ne p.images_valid
    rw [hall _ hmem] at hread
    cases hread

def treeCodec : Codec Json := ⟨id, some, fun _ => rfl⟩

def plainConfig : IntentConfig where
  maxImagesPerIntent := 4
  maxImageBytes := 1024
  base64Error := fun _ => ""
  provider := "openai"
  model := "gpt-4o-mini"
  supportsVision := true
  windowTurns := 20
  systemPrompt := "You are NomadDev."
  pinned := ""

def hello : Intent := ⟨"hello", .normal, [], 0, by decide, by simp⟩

def shortHello : Intent := { hello with historyHint := 1 }

def rowOf (sid : String) (role : Role) (text : String) : Turn Json := ⟨sid, 0, role, .obj [("text", .str text)]⟩

def greeted : SQLiteStore Json := ⟨[rowOf "s1" .user "hello"], by decide⟩

theorem exactlyOnce_iff_overtaken_answer : ∃ turn s' turn' s'',
      openTurn (sqliteBackend Json) treeCodec plainConfig "s1" shortHello greeted
          [rowOf "s2" .user "hello", rowOf "s1" .assistant "hi"] = .ok (turn, s') ∧
        (∀ provider, ExactlyOnce provider treeCodec turn) ∧
        openTurn (sqliteBackend Json) treeCodec plainConfig "s1" shortHello greeted [rowOf "s2" .user "hello"] =
            .ok (turn', s'') ∧
          ∀ provider, ¬ ExactlyOnce provider treeCodec turn' := by
  have hn : 0 < windowN plainConfig shortHello := by decide
  have hanswered : openTurn (sqliteBackend Json) treeCodec plainConfig "s1" shortHello greeted
      [rowOf "s2" .user "hello", rowOf "s1" .assistant "hi"] = .ok _ := rfl
  have halone : openTurn (sqliteBackend Json) treeCodec plainConfig "s1" shortHello greeted
      [rowOf "s2" .user "hello"] = .ok _ := rfl
  refine ⟨_, _, _, _, hanswered, fun provider => ?_, halone, fun provider => ?_⟩
  · rw [exactlyOnce_iff_overtaken provider hn hanswered]
    cases provider <;> decide
  · rw [exactlyOnce_iff_overtaken provider hn halone]
    cases provider <;> decide

theorem hello_sent_twice : ∃ turn s', 0 < windowN plainConfig hello ∧
      openTurn (memoryBackend Json) treeCodec plainConfig "s1" hello ⟨fun _ => []⟩ [] = .ok (turn, s') ∧
        ¬ ExactlyOnce .openai treeCodec turn ∧ ¬ ExactlyOnce .anthropic treeCodec turn ∧
          ¬ ExactlyOnce .gemini treeCodec turn := by
  refine ⟨_, _, by decide, rfl, ?_, ?_, ?_⟩ <;> decide

variable {cfg : IntentConfig}

theorem handleUserIntent_ok {p : IntentPayload} {intent : Intent}
    (h : handleUserIntent (some cfg) (.ok p) = .ok intent) :
    intent.text = p.text ∧ decodeIntentImages cfg p.images = .ok intent.images := by
  simp only [handleUserIntent] at h
  split at h
  · cases h
  split at h
  · cases h
  split at h
  · cases h
  next images himages =>
  split at h
  · cases h
  cases h
  exact ⟨rfl, himages⟩

theorem intent_read_back (b : Backend σ β) (c : Codec β) {cfg : IntentConfig} {p : IntentPayload}
    {imgs : List ImageData} (hdec : decodeIntentImages cfg p.images = .ok imgs) :
    List.Forall₂ SameImage p.images imgs ∧ ∀ intent, handleUserIntent (some cfg) (.ok p) = .ok intent →
        ∀ sid s others turn s', openTurn b c cfg sid intent s others = .ok (turn, s') →
          ∃ row ∈ b.thread s' sid, row = (.user, mustMarshalUserTurn c p.text imgs) ∧
            readTurn c row.2 = some (p.text, imgs) ∧ ∀ provider, readsAs provider c p.text imgs row = true := by
  refine ⟨(decodeIntentImages_ok hdec).1, fun intent hintent sid s others turn s' hopen => ?_⟩
  obtain ⟨htext, himages⟩ := handleUserIntent_ok hintent
  obtain rfl : imgs = intent.images := Except.ok.inj (hdec.symm.trans himages)
  have hne : p.text ≠ "" := htext ▸ intent.text_ne
  have hmem : (Role.user, mustMarshalUserTurn c p.text intent.images) ∈ b.thread s' sid := by
    rw [(openTurn_thread hopen).2, htext]
    exact List.mem_append_right _ List.mem_cons_self
  exact ⟨_, hmem, rfl, readTurn_user c hne intent.images_valid,
    fun provider => readsAs_user provider c hne intent.images_valid⟩

def pixel : IntentPayload := ⟨"what is this?", "", [⟨"image/png", "iVBORw0K"⟩], 0⟩

def pixelImages : List ImageData := [⟨"image/png", [0x89, 0x50, 0x4E, 0x47, 0x0D, 0x0A]⟩]

def pixelIntent : Intent := ⟨"what is this?", .normal, pixelImages, 0, by decide, by simp [pixelImages, ImageData.Valid]⟩

theorem intent_read_back_pixel : decodeIntentImages plainConfig pixel.images = .ok pixelImages ∧
      handleUserIntent (some plainConfig) (.ok pixel) = .ok pixelIntent ∧
      ∃ turn s', openTurn (memoryBackend Json) treeCodec plainConfig "s1" pixelIntent ⟨fun _ => []⟩ [] = .ok (turn, s') ∧
        ∃ row ∈ (memoryBackend Json).thread s' "s1", readTurn treeCodec row.2 = some (pixel.text, pixelImages) := by
  have hdec : decodeIntentImages plainConfig pixel.images = .ok pixelImages := by decide +kernel
  have hintent : handleUserIntent (some plainConfig) (.ok pixel) = .ok pixelIntent := by
    rfl
  refine ⟨hdec, hintent, _, _, rfl, ?_⟩
  obtain ⟨row, hrow, -, hread, -⟩ := (intent_read_back (memoryBackend Json) treeCodec hdec).2 pixelIntent hintent "s1"
    ⟨fun _ => []⟩ [] _ _ rfl
  exact ⟨row, hrow, hread⟩

end NomadDev.Middleware
