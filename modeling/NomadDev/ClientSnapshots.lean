import NomadDev.ClientStore

namespace NomadDev.Clients.Shared

open Foundation.Slices Foundation.Transition List Heap Slice

variable {V : Type}

structure TurnView (V : Type) where
  turn : Turn V
  userImages : List ImageInput
  deriving DecidableEq

structure Shown (V : Type) where
  turns : List (TurnView V)
  pendingApprovals : List (ApprovalRequest V)
  pendingImages : List ImageInput

def Memory.turnView (m : Memory V) (t : TurnCell) : TurnView V := ⟨m.turn t, m.images.read t.userImages⟩

def Memory.shown (m : Memory V) (st : State) : Shown V where
  turns := (m.turns.read st.turns).map m.turnView
  pendingApprovals := m.approvals.read st.pendingApprovals
  pendingImages := m.images.read st.pendingImages

def SparesPayload (snap : State) (s : Store V) (now : Int64) (id correlationID : String) : Payload V → Prop
  | .assistantChunk text => ∀ a, s.findTurn correlationID = some a → a ∈ snap.turns.addrs → text = []
  | .assistantMessage text finishReason error _ => ∀ a, s.findTurn correlationID = some a → a ∈ snap.turns.addrs →
      (s.mem.turns.cell a).finish text finishReason error = s.mem.turns.cell a
  | .commandRequest _ _ => ∀ a, s.findTurn correlationID = some a → a ∉ snap.turns.addrs
  | .commandChunk _ data => ∀ b, s.findToolCall correlationID = some b → b ∈ s.mem.callAddrs snap.turns → data = []
  | .commandResult exitCode durationMs error errorMessage =>
    ∀ b, s.findToolCall correlationID = some b → b ∈ s.mem.callAddrs snap.turns →
      (s.mem.calls.cell b).setResult exitCode durationMs error errorMessage = s.mem.calls.cell b
  | .sandboxHeartbeat elapsedMs => ∀ b, s.findToolCall correlationID = some b → b ∈ s.mem.callAddrs snap.turns →
      (s.mem.calls.cell b).elapsedMs = elapsedMs.toInt
  | .toolApprovalRequest tool args reason pendingCommandID timeoutMs preview =>
    s.mem.approvals.Spares s.state.pendingApprovals
      [approvalRequest now id tool args reason pendingCommandID timeoutMs preview] snap.pendingApprovals.addrs ∧
    ∀ b, s.findToolCall pendingCommandID = some b → b ∈ s.mem.callAddrs snap.turns →
      (s.mem.calls.cell b).awaitingApproval = true
  | _ => True

def Spares (snap : State) (s : Store V) : Action V → Prop
  | .inbound env now => SparesPayload snap s now env.id env.correlationID env.payload
  | .popApproval envelopeID =>
    ∀ i, ((s.mem.approvals.read s.state.pendingApprovals).findIdx? fun a => a.envelopeID = envelopeID) = some i →
      s.mem.approvals.Spares (s.state.pendingApprovals.take i)
        ((s.mem.approvals.read s.state.pendingApprovals).drop (i + 1)) snap.pendingApprovals.addrs
  | .addPendingImage img decodedBytes =>
    isAcceptedImageMIME img.mediaType = true → decodedBytes ≤ maxImageBytes →
      s.state.pendingImages.len < maxImageCount →
      s.mem.images.Spares s.state.pendingImages [img] (s.mem.imageAddrs snap)
  | .removePendingImage idx =>
    0 ≤ idx → idx < s.state.pendingImages.len → s.mem.images.Spares (s.state.pendingImages.take idx.toNat)
        ((s.mem.images.read s.state.pendingImages).drop (idx.toNat + 1)) (s.mem.imageAddrs snap)
  | _ => True

variable {t : TurnCell} {c : CallCell V} {turns : Slice} {f : CallCell V → CallCell V}

section Frame

variable {s : Store V} {m m' : Memory V} {st : State} {a b : Addr}

def SameTurns (m m' : Memory V) (st : State) : Prop :=
  ∀ a ∈ st.turns.addrs, m'.turnView (m'.turns.cell a) = m.turnView (m.turns.cell a)

theorem shown_eq_iff : m'.shown st = m.shown st ↔ SameTurns m m' st ∧
    (∀ a ∈ st.pendingApprovals.addrs, m'.approvals.cell a = m.approvals.cell a) ∧
    ∀ a ∈ st.pendingImages.addrs, m'.images.cell a = m.images.cell a := by
  simp only [Memory.shown, Shown.mk.injEq, read_eq_iff]
  refine and_congr_left' ?_
  simp only [Heap.read, map_map, map_inj_left, SameTurns, Function.comp_apply]

theorem turnView_eq_iff : m'.turnView t = m.turnView t ↔
    (∀ b ∈ t.toolCalls.addrs, m'.call (m'.calls.cell b) = m.call (m.calls.cell b)) ∧
    ∀ a ∈ t.userImages.addrs, m'.images.cell a = m.images.cell a := by
  simp only [Memory.turnView, TurnView.mk.injEq, read_eq_iff]
  refine and_congr_left' ?_
  simp only [Memory.turn, TurnCell.toTurn, Turn.mk.injEq, true_and, and_true, Heap.read, map_map,
    map_inj_left, Function.comp_apply]

theorem turnView_inj {t' : TurnCell} (hcalls : t'.toolCalls = t.toolCalls) (himages : t'.userImages = t.userImages) :
    m.turnView t' = m.turnView t ↔ t' = t := by
  constructor
  · intro h
    have hturn := congrArg TurnView.turn h
    simp only [Memory.turnView, Memory.turn, TurnCell.toTurn, Turn.mk.injEq] at hturn
    cases t
    cases t'
    simp_all
  · rintro rfl
    rfl

theorem call_inj {c' : CallCell V} (hlines : c'.lines = c.lines) : m.call c' = m.call c ↔ c' = c := by
  constructor
  · intro h
    simp only [Memory.call, CallCell.toCall, ToolCall.mk.injEq] at h
    cases c
    cases c'
    simp_all
  · rintro rfl
    rfl

theorem call_congr (h : ∀ l ∈ c.lines.addrs, m'.lines.cell l = m.lines.cell l) : m'.call c = m.call c := by
  rw [Memory.call, Memory.call, read_eq_iff.mpr h]

theorem sameTurns_of_cells (hturns : ∀ a ∈ st.turns.addrs, m'.turns.cell a = m.turns.cell a)
    (hcalls : ∀ b ∈ m.callAddrs st.turns, m'.calls.cell b = m.calls.cell b)
    (hlines : ∀ l ∈ m.lineAddrs st.turns, m'.lines.cell l = m.lines.cell l) (himages : m'.images = m.images) :
    SameTurns m m' st := by
  intro a ha
  rw [hturns a ha, turnView_eq_iff, himages]
  refine ⟨fun b hb => ?_, fun _ _ => rfl⟩
  have hcall : b ∈ m.callAddrs st.turns := mem_callAddrs.mpr ⟨a, ha, hb⟩
  rw [hcalls b hcall]
  exact call_congr fun l hl => hlines l (mem_flatMap.mpr ⟨b, hcall, hl⟩)

theorem sameTurns_writeTurn_iff (hcalls : t.toolCalls = (s.mem.turns.cell a).toolCalls)
    (himages : t.userImages = (s.mem.turns.cell a).userImages) :
    SameTurns s.mem (s.writeTurn a t).mem st ↔ (a ∈ st.turns.addrs → t = s.mem.turns.cell a) := by
  rw [← turnView_inj (m := s.mem) hcalls himages]
  exact write_same_iff s.mem.turnView

theorem sameTurns_writeCall_iff (hlines : c.lines = (s.mem.calls.cell b).lines) :
    SameTurns s.mem (s.writeCall b c).mem st ↔ (b ∈ s.mem.callAddrs st.turns → c = s.mem.calls.cell b) := by
  rw [← call_inj (m := s.mem) hlines, ← write_same_iff s.mem.call]
  constructor
  · intro h y hy
    obtain ⟨x, hx, hyx⟩ := mem_callAddrs.mp hy
    exact (turnView_eq_iff.mp (h x hx)).1 y hyx
  · intro h x hx
    exact turnView_eq_iff.mpr ⟨fun y hy => h y (mem_callAddrs.mpr ⟨x, hx, hy⟩), fun _ _ => rfl⟩

end Frame

section Held

structure Held (snap : State) (s : Store V) : Prop where
  head : HeadOk s.mem snap
  turns_clear : s.state.turns.Clear snap.turns.addrs
  calls_clear : ∀ a ∈ s.state.turns.addrs, (s.mem.turns.cell a).toolCalls.Clear (s.mem.callAddrs snap.turns)
  lines_clear : ∀ b ∈ s.mem.callAddrs s.state.turns, (s.mem.calls.cell b).lines.Clear (s.mem.lineAddrs snap.turns)

variable {s : Store V} {snap : State} {a b : Addr}

theorem Sep.held (h : Sep s) : Held s.state s where
  head := h.head
  turns_clear := clear_self _
  calls_clear a ha := by
    refine clear_flatMap fun x hx => ?_
    by_cases hxa : x = a
    · subst hxa
      exact clear_self _
    · exact (h.calls_apart a ha x hx (Ne.symm hxa)).clear (h.calls_ok x)
  lines_clear b hb := by
    refine clear_flatMap fun y hy => ?_
    by_cases hyb : y = b
    · subst hyb
      exact clear_self _
    · exact (h.lines_apart b hb y hy (Ne.symm hyb)).clear (h.lines_ok y)

theorem Sep.callAddrs_lt (h : Sep s) : ∀ b ∈ s.mem.callAddrs turns, b.1 < s.mem.calls.next := by
  intro b hb
  obtain ⟨a, -, hba⟩ := mem_callAddrs.mp hb
  exact (h.calls_ok a).addr_lt hba

theorem Sep.lineAddrs_lt (h : Sep s) : ∀ l ∈ s.mem.lineAddrs turns, l.1 < s.mem.lines.next := by
  intro l hl
  obtain ⟨b, -, hlb⟩ := mem_flatMap.mp hl
  exact (h.lines_ok b).addr_lt hlb

theorem Sep.imageAddrs_lt (h : Sep s) (hsnap : HeadOk s.mem snap) :
    ∀ i ∈ s.mem.imageAddrs snap, i.1 < s.mem.images.next := by
  intro i hi
  rcases mem_append.mp hi with hi | hi
  · exact hsnap.images.addr_lt hi
  · obtain ⟨a, -, hia⟩ := mem_flatMap.mp hi
    exact (h.images_ok a).addr_lt hia

theorem lineAddrs_congr {m m' : Memory V} (hcalls : m'.callAddrs turns = m.callAddrs turns)
    (hlines : ∀ b ∈ m.callAddrs turns, (m'.calls.cell b).lines = (m.calls.cell b).lines) :
    m'.lineAddrs turns = m.lineAddrs turns := by
  rw [Memory.lineAddrs, hcalls]
  exact flatMap_congr fun b hb => congrArg Slice.addrs (hlines b hb)

theorem callAddrs_congr {m m' : Memory V}
    (hturns : ∀ a ∈ turns.addrs, m'.turns.cell a = m.turns.cell a) : m'.callAddrs turns = m.callAddrs turns :=
  flatMap_congr fun a ha => congrArg (fun t : TurnCell => t.toolCalls.addrs) (hturns a ha)

theorem Held.writeTurn (h : Held snap s) (ht : t.toolCalls = (s.mem.turns.cell a).toolCalls) :
    Held snap (s.writeTurn a t) where
  head := { h.head with }
  turns_clear := h.turns_clear
  calls_clear x hx := by
    rw [writeTurn_toolCalls ht, writeTurn_callAddrs ht]
    exact h.calls_clear x hx
  lines_clear := by
    have hlines : (s.writeTurn a t).mem.lineAddrs snap.turns = s.mem.lineAddrs snap.turns :=
      lineAddrs_congr (writeTurn_callAddrs ht _) fun _ _ => rfl
    rw [writeTurn_callAddrs ht, hlines]
    exact h.lines_clear

theorem Held.writeCall (h : Held snap s) (hc : c.lines = (s.mem.calls.cell b).lines) : Held snap (s.writeCall b c) where
  head := { h.head with }
  turns_clear := h.turns_clear
  calls_clear := h.calls_clear
  lines_clear y hy := by
    have hlines : (s.writeCall b c).mem.lineAddrs snap.turns = s.mem.lineAddrs snap.turns :=
      lineAddrs_congr rfl fun x _ => writeCall_lines hc x
    rw [writeCall_lines hc, hlines]
    exact h.lines_clear y hy

variable (g : Growth)

section AddCall

variable {c : CallCell V} (hsep : Sep s) (h : Held snap s) (ha : a ∈ s.state.turns.addrs)
include hsep h ha

theorem Held.addCall_calls :
    ∀ b ∈ s.mem.callAddrs snap.turns, (s.addCall g a c).mem.calls.cell b = s.mem.calls.cell b :=
  append_cell_of_clear (h.calls_clear a ha) hsep.callAddrs_lt

omit hsep h ha in
theorem addCall_callAddrs (hsnap : a ∉ snap.turns.addrs) :
    (s.addCall g a c).mem.callAddrs snap.turns = s.mem.callAddrs snap.turns :=
  callAddrs_congr fun _ hx => write_cell_of_ne fun hxa => hsnap (hxa ▸ hx)

theorem Held.addCall (hlines : c.lines = default) (hsnap : a ∉ snap.turns.addrs) : Held snap (s.addCall g a c) where
  head := { h.head with }
  turns_clear := h.turns_clear
  calls_clear x hx := by
    rw [addCall_toolCalls, addCall_callAddrs g hsnap]
    split
    · exact append_clear (h.calls_clear a ha) hsep.callAddrs_lt
    · exact h.calls_clear x hx
  lines_clear b hb := by
    have haddrs : (s.addCall g a c).mem.lineAddrs snap.turns = s.mem.lineAddrs snap.turns :=
      lineAddrs_congr (addCall_callAddrs g hsnap) fun y hy => congrArg CallCell.lines (h.addCall_calls g hsep ha y hy)
    rw [haddrs]
    rcases hsep.addCall_origin g ha hb with hnew | ⟨x, hx, i, hi, -, hcell⟩
    · rw [hnew, hlines]
      exact clear_default _
    · rw [hcell]
      exact h.lines_clear _ (mem_callAddrs.mpr ⟨x, hx, addr_mem hi⟩)

theorem sameTurns_addCall_iff : SameTurns s.mem (s.addCall g a c).mem snap ↔ a ∉ snap.turns.addrs := by
  constructor
  · intro hsame hsnap
    have hview := congrArg (fun v : TurnView V => v.turn.toolCalls.length) (hsame a hsnap)
    have hlen : ((s.addCall g a c).mem.turns.cell a).toolCalls.len = (s.mem.turns.cell a).toolCalls.len + 1 := by
      rw [addCall_toolCalls, if_pos rfl, append_len, length_singleton]
    simp only [Memory.turnView, Memory.turn, TurnCell.toTurn, length_map, length_read, hlen] at hview
    omega
  · intro hsnap
    exact sameTurns_of_cells (fun x hx => write_cell_of_ne fun hxa => hsnap (hxa ▸ hx))
      (h.addCall_calls g hsep ha) (fun _ _ => rfl) rfl

end AddCall

section MergeChunk

variable (hsep : Sep s) (h : Held snap s) (hb : b ∈ s.mem.callAddrs s.state.turns)
include hsep

omit hsep in
theorem waiting_toCall (hc : (c.toCall []).Waiting utf8Length) (lines : List TerminalLine) :
    (c.toCall lines).Waiting utf8Length := by
  intro stream
  have hwait := hc stream
  rw [toCall_carry] at hwait ⊢
  exact hwait

theorem mergeChunk_nil (b : Addr) (stream : String) : s.mergeChunk g b stream [] = s := by
  have hmerge : mergeChunkIntoToolCall g.lines s.mem.lines (s.mem.calls.cell b) stream [] =
      (s.mem.lines, s.mem.calls.cell b) := by
    obtain ⟨hnewline, hfits⟩ := hsep.waiting b (.ofName stream)
    rw [toCall_carry] at hnewline hfits
    have hlines := Foundation.Lines.completed_eq_nil_iff.mpr hnewline
    simp only [mergeChunkIntoToolCall, append_nil, Foundation.Lines.fragment_of_not_mem hnewline, hlines,
      if_neg (Nat.not_lt.mpr hfits)]
    cases Stream.ofName stream <;> rfl
  rw [Store.mergeChunk, hmerge]
  show Store.mk { s.mem with calls := s.mem.calls.write b (s.mem.calls.cell b) } s.state = s
  rw [write_cell_eq]

include h hb

theorem Held.mergeChunk_lines (stream : String) (data : Text) :
    ∀ l ∈ s.mem.lineAddrs snap.turns, (s.mergeChunk g b stream data).mem.lines.cell l = s.mem.lines.cell l :=
  addLines_cell_of_clear (h.lines_clear b hb) hsep.lineAddrs_lt

theorem Held.mergeChunk (stream : String) (data : Text) (hsnap : b ∈ s.mem.callAddrs snap.turns → data = []) :
    Held snap (s.mergeChunk g b stream data) := by
  by_cases hmem : b ∈ s.mem.callAddrs snap.turns
  · rw [hsnap hmem, mergeChunk_nil g hsep]
    exact h
  have haddrs : (s.mergeChunk g b stream data).mem.lineAddrs snap.turns = s.mem.lineAddrs snap.turns :=
    lineAddrs_congr rfl fun y hy => congrArg CallCell.lines (mergeChunk_cell_of_ne fun hyb => hmem (hyb ▸ hy))
  refine ⟨{ h.head with }, h.turns_clear, h.calls_clear, fun y hy => ?_⟩
  rw [haddrs]
  by_cases hyb : y = b
  · subst hyb
    rw [mergeChunk_cell_self]
    exact addLines_clear (h.lines_clear y hb) hsep.lineAddrs_lt
  · rw [mergeChunk_cell_of_ne hyb]
    exact h.lines_clear y hy

theorem sameTurns_mergeChunk_iff (stream : String) (data : Text) :
    SameTurns s.mem (s.mergeChunk g b stream data).mem snap ↔ (b ∈ s.mem.callAddrs snap.turns → data = []) := by
  constructor
  · intro hsame hmem
    obtain ⟨x, hx, hbx⟩ := mem_callAddrs.mp hmem
    have hcall := (turnView_eq_iff.mp (hsame x hx)).1 b hbx
    rw [mergeChunk_cell_self] at hcall
    have hvalue := mergeChunkIntoToolCall_toCall g.lines s.mem.lines (s.mem.calls.cell b) stream data
    exact (mergeChunk_eq_self_iff (waiting_toCall (hsep.waiting b) _)).mp (hvalue.symm.trans hcall)
  · intro hsnap
    by_cases hmem : b ∈ s.mem.callAddrs snap.turns
    · rw [hsnap hmem, mergeChunk_nil g hsep]
      exact fun _ _ => rfl
    · exact sameTurns_of_cells (fun _ _ => rfl)
        (fun y hy => write_cell_of_ne fun hyb => hmem (hyb ▸ hy)) (h.mergeChunk_lines g hsep hb stream data) rfl

end MergeChunk

section AddTurn

variable {t : TurnCell} (h : Held snap s)
include h

theorem Held.addTurn_turns : ∀ a ∈ snap.turns.addrs, (s.addTurn g t).mem.turns.cell a = s.mem.turns.cell a :=
  append_cell_of_clear h.turns_clear fun _ => h.head.turns.addr_lt

theorem Held.addTurn (ht : t.toolCalls = default) : Held snap (s.addTurn g t) where
  head := { h.head with turns := h.head.turns.mono next_le_append }
  turns_clear := append_clear h.turns_clear fun _ => h.head.turns.addr_lt
  calls_clear x hx := by
    rw [callAddrs_congr (h.addTurn_turns g)]
    obtain ⟨k, rfl, hk | rfl⟩ := addTurn_addrs g t hx
    · rw [addTurn_cell g t hk]
      exact h.calls_clear _ (addr_mem hk)
    · rw [addTurn_cell_new, ht]
      exact clear_default _
  lines_clear b hb := by
    have haddrs : (s.addTurn g t).mem.lineAddrs snap.turns = s.mem.lineAddrs snap.turns :=
      lineAddrs_congr (callAddrs_congr (h.addTurn_turns g)) fun _ _ => rfl
    rw [haddrs]
    exact h.lines_clear b (addTurn_callAddrs g ht hb)

theorem Held.sameTurns_addTurn : SameTurns s.mem (s.addTurn g t).mem snap :=
  sameTurns_of_cells (h.addTurn_turns g) (fun _ _ => rfl) (fun _ _ => rfl) rfl

end AddTurn

end Held

section Keeps

variable {s s' : Store V} {snap : State} {g : Growth} {act : Action V} {P : State → Prop}

def Keeps (s s' : Store V) (spares : State → Prop) : Prop :=
  Sep s' ∧ ∀ snap, Held snap s → spares snap → Held snap s'

theorem Keeps.refl (h : Sep s) : Keeps s s P := ⟨h, fun _ hheld _ => hheld⟩

section

variable (h : Keeps s s' P)
include h

theorem Keeps.setState {st : State} (hturns : st.turns = s'.state.turns ∨ st.turns = default)
    (hhead : HeadOk s'.mem s'.state → HeadOk s'.mem st) : Keeps s { s' with state := st } P := by
  have hmem : ∀ a ∈ st.turns.addrs, a ∈ s'.state.turns.addrs := by
    intro a ha
    rcases hturns with hturns | hturns <;> rw [hturns] at ha
    · exact ha
    · cases ha
  refine ⟨{ h.1 with head := hhead h.1.head, calls_apart := ?_, lines_apart := ?_ }, fun snap hheld hspares => ?_⟩
  · exact fun a ha a' ha' => h.1.calls_apart a (hmem a ha) a' (hmem a' ha')
  · exact fun b hb b' hb' => h.1.lines_apart b (callAddrs_mono hmem hb) b' (callAddrs_mono hmem hb')
  · have hkept := h.2 snap hheld hspares
    refine { hkept with turns_clear := ?_, calls_clear := ?_, lines_clear := ?_ }
    · rcases hturns with hturns | hturns <;> rw [hturns]
      · exact hkept.turns_clear
      · exact clear_default _
    · exact fun a ha => hkept.calls_clear a (hmem a ha)
    · exact fun b hb => hkept.lines_clear b (callAddrs_mono hmem hb)

theorem Keeps.putApprovals {p : Heap (ApprovalRequest V) × Slice} (hle : s'.mem.approvals.next ≤ p.1.next)
    (hp : p.2.Ok p.1.next) : Keeps s (s'.putApprovals p) P := by
  refine ⟨{ h.1 with head := { h.1.head with approvals := hp } }, fun snap hheld hspares => ?_⟩
  have hkept := h.2 snap hheld hspares
  exact { hkept with head := { hkept.head with approvals := hkept.head.approvals.mono hle } }

theorem Keeps.putImages {p : Heap ImageInput × Slice} (hle : s'.mem.images.next ≤ p.1.next) (hp : p.2.Ok p.1.next) :
    Keeps s (s'.putImages p) P := by
  refine ⟨{ h.1 with images_ok := fun a => (h.1.images_ok a).mono hle, head := { h.1.head with images := hp } },
    fun snap hheld hspares => ?_⟩
  have hkept := h.2 snap hheld hspares
  exact { hkept with head := { hkept.head with images := hkept.head.images.mono hle } }

theorem Keeps.updateTurn {f : TurnCell → TurnCell} (hf : ScalarTurn f) (correlationID : String) :
    Keeps s (s'.updateTurn correlationID f) P := by
  unfold Store.updateTurn
  split
  · exact h
  · exact ⟨h.1.writeTurn (hf.calls _) (hf.images _), fun snap hheld hspares =>
      (h.2 snap hheld hspares).writeTurn (hf.calls _)⟩

theorem Keeps.updateToolCall (hf : ScalarCall f) (commandID : String) : Keeps s (s'.updateToolCall commandID f) P := by
  unfold Store.updateToolCall
  split
  · exact h
  next b _ =>
    refine ⟨h.1.writeCall (hf.lines _) fun stream => ?_, fun snap hheld hspares =>
      (h.2 snap hheld hspares).writeCall (hf.lines _)⟩
    have hwait := h.1.waiting b stream
    rw [toCall_carry] at hwait
    rwa [toCall_carry, hf.carry]

end

theorem applyPayload_keeps (h : Sep s) (now : Int64) (id correlationID : String) (payload : Payload V) :
    Keeps s (applyPayload g s now id correlationID payload)
      (SparesPayload · s now id correlationID payload) := by
  cases payload with
  | hello | error => exact (Keeps.refl h).setState (.inl rfl) fun hhead => { hhead with }
  | assistantChunk text => exact (Keeps.refl h).updateTurn (scalar_addText text) correlationID
  | assistantMessage text finishReason error usage =>
    simp only [applyPayload, applyAssistantMessage]
    split
    · exact .refl h
    · refine ((Keeps.refl h).updateTurn (scalar_finish text finishReason error) correlationID).setState (.inl rfl) ?_
      exact fun hhead => { hhead with }
  | commandRequest tool args =>
    simp only [applyPayload, applyCommandRequest]
    split
    · exact .refl h
    next a ha =>
      exact ⟨h.addCall g (mem_of_findTurn ha) rfl (waiting_newToolCall rfl id tool args), fun _ hheld hspares =>
        hheld.addCall g h (mem_of_findTurn ha) rfl (hspares a ha)⟩
  | commandChunk stream data =>
    simp only [applyPayload, applyCommandChunk]
    split
    · exact .refl h
    next b hb =>
      exact ⟨h.mergeChunk g (mem_of_findToolCall hb) stream data, fun _ hheld hspares =>
        hheld.mergeChunk g h (mem_of_findToolCall hb) stream data (hspares b hb)⟩
  | commandResult exitCode durationMs error errorMessage =>
    exact (Keeps.refl h).updateToolCall (scalar_setResult exitCode durationMs error errorMessage) correlationID
  | sandboxHeartbeat elapsedMs => exact (Keeps.refl h).updateToolCall (scalar_setElapsed elapsedMs) correlationID
  | toolApprovalRequest =>
    refine Keeps.updateToolCall ?_ scalar_await _
    exact (Keeps.refl h).putApprovals next_le_append (append_ok h.head.approvals)
  | ack action error message model =>
    simp only [applyPayload, applyAck]
    split
    · exact (Keeps.refl h).setState (.inl rfl) fun hhead => { hhead with }
    · exact .refl h
  | sessionStale | sessionReplaced | other => exact .refl h

theorem keeps_received (h : Sep s) (id : String) :
    Keeps s { s with state := { s.state with lastEventID := id } } fun _ => True :=
  (Keeps.refl h).setState (.inl rfl) fun hhead => { hhead with }

theorem step_keeps (h : Sep s) (hstep : step g s act = some s') : Keeps s s' (Spares · s act) := by
  have hnil : ∀ next, (default : Slice).Ok next := ok_default
  cases act with
  | inbound env now =>
    cases hstep
    have hid := keeps_received h env.id
    have hpayload := applyPayload_keeps (g := g) hid.1 now env.id env.correlationID env.payload
    exact ⟨hpayload.1, fun snap hheld hspares => hpayload.2 snap (hid.2 snap hheld trivial) hspares⟩
  | sentIntent intentID text images =>
    obtain ⟨himages, hs'⟩ := Option.ite_none_right_eq_some.mp hstep
    cases hs'
    exact ⟨h.addTurn g rfl himages, fun _ hheld _ => hheld.addTurn g rfl⟩
  | popApproval envelopeID =>
    cases hstep
    unfold popApproval
    split
    · exact .refl h
    next i hi =>
      have hlt := (List.findIdx?_eq_some_iff_getElem.mp hi).1
      rw [length_read] at hlt
      exact (Keeps.refl h).putApprovals next_le_append (delete_ok h.head.approvals hlt)
  | addPendingImage img decodedBytes =>
    cases hstep
    unfold addPendingImage
    split
    · exact .refl h
    · exact (Keeps.refl h).putImages next_le_append (append_ok h.head.images)
  | removePendingImage idx =>
    cases hstep
    unfold removePendingImage
    split
    · exact .refl h
    next hidx =>
      simp only [not_or, not_lt, not_le, ge_iff_le] at hidx
      exact (Keeps.refl h).putImages next_le_append (delete_ok h.head.images (by omega))
  | takePendingImages =>
    cases hstep
    exact (Keeps.refl h).setState (.inl rfl) fun hhead => { hhead with images := hnil _ }
  | resetTurns =>
    cases hstep
    exact (Keeps.refl h).setState (.inr rfl) fun hhead => { hhead with turns := hnil _, approvals := hnil _ }
  | signOut =>
    cases hstep
    exact (Keeps.refl h).setState (.inr rfl) fun _ => ⟨hnil _, hnil _, hnil _⟩
  | makeImages images =>
    cases hstep
    have hle : s.mem.images.next ≤ (s.mem.images.append g.images default images).1.next := next_le_append
    exact (Keeps.refl h).putImages (p := (_, s.state.pendingImages)) hle (h.head.images.mono hle)

end Keeps

section Payload

variable {s : Store V} {m m' : Memory V} {snap : State}

theorem shown_iff_of_sameTurns {p : Prop} (hturns : SameTurns m m' snap ↔ p) (happrovals : m'.approvals = m.approvals)
    (himages : m'.images = m.images) : m'.shown snap = m.shown snap ↔ p := by
  rw [shown_eq_iff, happrovals, himages, hturns]
  exact and_iff_left ⟨fun _ _ => rfl, fun _ _ => rfl⟩

theorem updateTurn_shown_iff {f : TurnCell → TurnCell} (hf : ScalarTurn f) (correlationID : String) :
    (s.updateTurn correlationID f).mem.shown snap = s.mem.shown snap ↔
      ∀ a, s.findTurn correlationID = some a → a ∈ snap.turns.addrs → f (s.mem.turns.cell a) = s.mem.turns.cell a := by
  unfold Store.updateTurn
  cases s.findTurn correlationID with
  | none => exact iff_of_true rfl nofun
  | some a =>
    refine (shown_iff_of_sameTurns (sameTurns_writeTurn_iff (hf.calls _) (hf.images _)) rfl rfl).trans ?_
    simp only [Option.some.injEq, forall_eq']

theorem sameTurns_updateToolCall_iff (hf : ScalarCall f) (commandID : String) :
    SameTurns s.mem (s.updateToolCall commandID f).mem snap ↔
      ∀ b, s.findToolCall commandID = some b → b ∈ s.mem.callAddrs snap.turns →
        f (s.mem.calls.cell b) = s.mem.calls.cell b := by
  unfold Store.updateToolCall
  cases s.findToolCall commandID with
  | none => exact iff_of_true (fun _ _ => rfl) nofun
  | some b =>
    refine (sameTurns_writeCall_iff (hf.lines _)).trans ?_
    simp only [Option.some.injEq, forall_eq']

theorem updateToolCall_approvals (commandID : String) (f : CallCell V → CallCell V) :
    (s.updateToolCall commandID f).mem.approvals = s.mem.approvals := by
  unfold Store.updateToolCall
  split <;> rfl

theorem updateToolCall_images (commandID : String) (f : CallCell V → CallCell V) :
    (s.updateToolCall commandID f).mem.images = s.mem.images := by
  unfold Store.updateToolCall
  split <;> rfl

theorem updateToolCall_shown_iff (hf : ScalarCall f) (commandID : String) :
    (s.updateToolCall commandID f).mem.shown snap = s.mem.shown snap ↔
      ∀ b, s.findToolCall commandID = some b → b ∈ s.mem.callAddrs snap.turns →
        f (s.mem.calls.cell b) = s.mem.calls.cell b :=
  shown_iff_of_sameTurns (sameTurns_updateToolCall_iff hf commandID) (updateToolCall_approvals _ _)
    (updateToolCall_images _ _)

theorem addText_eq_self_iff {text : Text} : t.addText text = t ↔ text = [] := by
  cases t
  simp [TurnCell.addText]

theorem setElapsed_eq_self_iff {elapsedMs : Int64} : c.setElapsed elapsedMs = c ↔ c.elapsedMs = elapsedMs.toInt := by
  cases c
  simp [CallCell.setElapsed, eq_comm]

theorem await_eq_self_iff : c.await = c ↔ c.awaitingApproval = true := by
  cases c
  simp [CallCell.await, eq_comm]

variable (g : Growth) (hsep : Sep s) (h : Held snap s)
include hsep h

theorem applyPayload_shown_iff (now : Int64) (id correlationID : String) (payload : Payload V) :
    (applyPayload g s now id correlationID payload).mem.shown snap = s.mem.shown snap ↔
      SparesPayload snap s now id correlationID payload := by
  cases payload with
  | assistantChunk text =>
    refine (updateTurn_shown_iff (scalar_addText text) correlationID).trans ?_
    simp only [addText_eq_self_iff, SparesPayload]
  | assistantMessage text finishReason error usage =>
    have hupdate : (s.updateTurn correlationID _).mem.shown snap = s.mem.shown snap ↔ _ :=
      updateTurn_shown_iff (scalar_finish text finishReason error) correlationID
    simp only [applyPayload, applyAssistantMessage]
    split
    next hnone =>
      rw [Option.isNone_iff_eq_none] at hnone
      exact iff_of_true rfl fun a ha => by rw [hnone] at ha; cases ha
    · exact hupdate
  | commandRequest tool args =>
    simp only [applyPayload, applyCommandRequest, SparesPayload]
    cases ha : s.findTurn correlationID with
    | none => exact iff_of_true rfl nofun
    | some a =>
      refine (shown_iff_of_sameTurns (sameTurns_addCall_iff g hsep h (mem_of_findTurn ha)) rfl rfl).trans ?_
      simp only [Option.some.injEq, forall_eq']
  | commandChunk stream data =>
    simp only [applyPayload, applyCommandChunk, SparesPayload]
    cases hb : s.findToolCall correlationID with
    | none => exact iff_of_true rfl nofun
    | some b =>
      have hsame := sameTurns_mergeChunk_iff g hsep h (mem_of_findToolCall hb) stream data
      refine (shown_iff_of_sameTurns hsame rfl rfl).trans ?_
      simp only [Option.some.injEq, forall_eq']
  | commandResult exitCode durationMs error errorMessage =>
    exact updateToolCall_shown_iff (scalar_setResult exitCode durationMs error errorMessage) correlationID
  | sandboxHeartbeat elapsedMs =>
    refine (updateToolCall_shown_iff (scalar_setElapsed elapsedMs) correlationID).trans ?_
    simp only [setElapsed_eq_self_iff, SparesPayload]
  | toolApprovalRequest tool args reason pendingCommandID timeoutMs preview =>
    let request := approvalRequest now id tool args reason pendingCommandID timeoutMs preview
    let s₁ := s.putApprovals (s.mem.approvals.append g.approvals s.state.pendingApprovals [request])
    have hturns : SameTurns s.mem (s₁.updateToolCall pendingCommandID CallCell.await).mem snap ↔ _ :=
      sameTurns_updateToolCall_iff (s := s₁) scalar_await pendingCommandID
    have happrovals : (∀ a ∈ snap.pendingApprovals.addrs, s₁.mem.approvals.cell a = s.mem.approvals.cell a) ↔ _ :=
      append_same_iff fun _ => h.head.approvals.addr_lt
    show (s₁.updateToolCall pendingCommandID CallCell.await).mem.shown snap = s.mem.shown snap ↔ _
    rw [shown_eq_iff, hturns, updateToolCall_approvals, updateToolCall_images]
    simp only [await_eq_self_iff]
    exact and_comm.trans (and_congr_left' ((and_iff_left fun _ _ => rfl).trans happrovals))
  | ack action error message model =>
    simp only [applyPayload, applyAck]
    split <;> exact iff_of_true rfl trivial
  | hello | error | sessionStale | sessionReplaced | other => exact iff_of_true rfl trivial

end Payload

section Steps

variable {s s' : Store V} {snap : State} {g : Growth} {act : Action V}

theorem putApprovals_shown_iff {p : Heap (ApprovalRequest V) × Slice} :
    (s.putApprovals p).mem.shown snap = s.mem.shown snap ↔
      ∀ a ∈ snap.pendingApprovals.addrs, p.1.cell a = s.mem.approvals.cell a := by
  rw [shown_eq_iff]
  exact (and_iff_right fun _ _ => rfl).trans (and_iff_left fun _ _ => rfl)

theorem images_shown_iff {h : Heap ImageInput} : Memory.shown { s.mem with images := h } snap = s.mem.shown snap ↔
      ∀ i ∈ s.mem.imageAddrs snap, h.cell i = s.mem.images.cell i := by
  rw [shown_eq_iff]
  constructor
  · rintro ⟨hturns, -, hpending⟩ i hi
    rcases mem_append.mp hi with hi | hi
    · exact hpending i hi
    · obtain ⟨a, ha, hia⟩ := mem_flatMap.mp hi
      exact (turnView_eq_iff.mp (hturns a ha)).2 i hia
  · intro hcells
    refine ⟨fun a ha => turnView_eq_iff.mpr ⟨fun _ _ => rfl, fun i hi => ?_⟩, fun _ _ => rfl, fun i hi => ?_⟩
    · exact hcells i (mem_append_right _ (mem_flatMap.mpr ⟨a, ha, hi⟩))
    · exact hcells i (mem_append_left _ hi)

theorem step_shown_iff (hsep : Sep s) (h : Held snap s) (hstep : step g s act = some s') :
    s'.mem.shown snap = s.mem.shown snap ↔ Spares snap s act := by
  cases act with
  | inbound env now =>
    cases hstep
    have hid := keeps_received hsep env.id
    exact applyPayload_shown_iff g hid.1 (hid.2 snap h trivial) now env.id env.correlationID env.payload
  | sentIntent intentID text images =>
    obtain ⟨-, hs'⟩ := Option.ite_none_right_eq_some.mp hstep
    cases hs'
    exact shown_iff_of_sameTurns (iff_of_true (h.sameTurns_addTurn g) trivial) rfl rfl
  | popApproval envelopeID =>
    cases hstep
    simp only [popApproval, Spares]
    cases (s.mem.approvals.read s.state.pendingApprovals).findIdx? fun a => a.envelopeID = envelopeID with
    | none => exact iff_of_true rfl nofun
    | some i =>
      refine putApprovals_shown_iff.trans ((append_same_iff fun _ => h.head.approvals.addr_lt).trans ?_)
      simp only [Option.some.injEq, forall_eq']
  | addPendingImage img decodedBytes =>
    cases hstep
    unfold addPendingImage Spares
    split
    next hrefused =>
      refine iff_of_true rfl fun hmime hbytes hcount => ?_
      rcases hrefused with hrefused | hrefused | hrefused
      · exact absurd hmime hrefused
      · exact absurd hrefused (not_lt.mpr hbytes)
      · exact absurd hrefused (not_le.mpr hcount)
    next haccepted =>
      simp only [not_or, not_not, gt_iff_lt, ge_iff_le, not_lt, not_le] at haccepted
      refine images_shown_iff.trans ((append_same_iff (hsep.imageAddrs_lt h.head)).trans ?_)
      exact ⟨fun hspares _ _ _ => hspares, fun hspares => hspares haccepted.1 haccepted.2.1 haccepted.2.2⟩
  | removePendingImage idx =>
    cases hstep
    unfold removePendingImage Spares
    split
    next hout => exact iff_of_true rfl fun hlow hhigh => by omega
    next hin =>
      simp only [not_or, not_lt, not_le, ge_iff_le] at hin
      refine images_shown_iff.trans ((append_same_iff (hsep.imageAddrs_lt h.head)).trans ?_)
      exact ⟨fun hspares _ _ => hspares, fun hspares => hspares hin.1 hin.2⟩
  | makeImages images =>
    cases hstep
    refine iff_of_true (images_shown_iff.mpr ?_) trivial
    exact append_cell_of_clear (clear_default _) (hsep.imageAddrs_lt h.head)
  | takePendingImages | resetTurns | signOut =>
    cases hstep
    exact iff_of_true rfl trivial

end Steps

section Snapshots

variable {g : Growth} {s₀ s : Store V} {as bs : List (Action V)}

theorem snapshot_kept_iff (h₀ : run (step g) new bs = some s₀) (h : run (step g) s₀ as = some s) :
    Throughout (step g) (fun s => s.mem.shown s₀.state = s₀.mem.shown s₀.state) s₀ as ↔
      Steps (step g) (Spares s₀.state) s₀ as s := by
  have hsep : Sep s₀ := run_preserves (fun _ _ _ hstep hs => (step_keeps hs hstep).1) h₀ sep_new
  refine throughout_iff_steps_of_kept
    (J := fun s => Sep s ∧ Held s₀.state s ∧ s.mem.shown s₀.state = s₀.mem.shown s₀.state) ?_ ?_ h
    ⟨hsep, hsep.held, rfl⟩ rfl
  · rintro s act t ⟨hs, hheld, hshown⟩ hspares hstep
    obtain ⟨ht, hkept⟩ := step_keeps hs hstep
    exact ⟨ht, hkept _ hheld hspares,
      ((step_shown_iff hs hheld hstep).mpr hspares).trans hshown⟩
  · rintro s act t ⟨hs, hheld, hshown⟩ hstep
    rw [← step_shown_iff hs hheld hstep, hshown]

def doubling : Growth :=
  let grow : ℕ → ℕ → ℕ := fun cap _ => 2 * cap
  ⟨grow, grow, grow, grow, grow⟩

def answer (id intentID : String) (text : Text) : Action Unit := .inbound ⟨id, intentID, .assistantChunk text⟩ 0

def ask (id : String) : Envelope Unit := ⟨id, "", .toolApprovalRequest "run_script" [] "" "" none none⟩

def oneTurn : Store Unit := recordSentIntent doubling new "i1" "hello" default

def nextTurn : List (Action Unit) := [.sentIntent "i2" "more" default, answer "e1" "i2" ['y', 'e', 's']]

theorem snapshot_kept_nextTurn : run (step doubling) new [.sentIntent "i1" "hello" default] = some oneTurn ∧
    Throughout (step doubling) (fun s => s.mem.shown oneTurn.state = oneTurn.mem.shown oneTurn.state) oneTurn
      nextTurn := by
  obtain ⟨s, hsteps⟩ : ∃ s, Steps (step doubling) (Spares oneTurn.state) oneTurn nextTurn s := by
    refine ⟨_, .cons trivial rfl (.cons (fun a ha hsnap => ?_) rfl (.nil _))⟩
    have hfind : (recordSentIntent doubling oneTurn "i2" "more" default).findTurn "i2" = some (1, 1) := rfl
    cases hfind.symm.trans ha
    exact absurd hsnap (by decide)
  have hrun : run (step doubling) new [.sentIntent "i1" "hello" default] = some oneTurn := rfl
  exact ⟨hrun, (snapshot_kept_iff hrun hsteps.run_eq).mpr hsteps⟩

def twoApprovals : Store Unit := ingest doubling (ingest doubling oneTurn 0 (ask "a1")) 0 (ask "a2")

theorem snapshot_not_kept : run (step doubling) new [.sentIntent "i1" "hello" default, .inbound (ask "a1") 0,
      .inbound (ask "a2") 0] = some twoApprovals ∧
    ∃ s, run (step doubling) twoApprovals [answer "e1" "i1" ['y', 'e', 's'], .popApproval "a1"] = some s ∧
      (twoApprovals.mem.shown twoApprovals.state).turns.map (·.turn.assistantText) = [[]] ∧
      (s.mem.shown twoApprovals.state).turns.map (·.turn.assistantText) = [['y', 'e', 's']] ∧
      (twoApprovals.mem.shown twoApprovals.state).pendingApprovals.map (·.envelopeID) = ["a1", "a2"] ∧
      (s.mem.shown twoApprovals.state).pendingApprovals.map (·.envelopeID) = ["a2", "a2"] :=
  ⟨rfl, _, rfl, by decide +kernel, by decide +kernel, by decide +kernel, by decide +kernel⟩

end Snapshots

end NomadDev.Clients.Shared
