import NomadDev.CommandStreams
import NomadDev.Foundation.Delivery

namespace NomadDev.Commands

open Tools Foundation.Transition Foundation.Delivery Function List

variable {α : Type} {s t : State α} {id id' : ℕ} {h : Handler α} {a : Action α}

def silent (c : ExecChunk) : Bool :=
  match c.stream with
  | .exit => false
  | .other _ => true
  | .stdout | .stderr => c.data.isEmpty

def endsInOneExit : List ExecChunk → Bool
  | [] => false
  | c :: cs => if c.stream = .exit then cs.all silent else endsInOneExit cs

def chunkMask (c : ExecChunk) : List Bool :=
  match c.stream with
  | .exit => [true]
  | .other _ => []
  | .stdout | .stderr => List.replicate (slices c.data).length false

theorem slices_eq_nil {data : List UInt8} : slices data = [] ↔ data = [] := by
  cases data <;> simp [slices, slicesAux]

theorem emitChunk_mask (c : ExecChunk) (seq : ℕ) :
    (emitChunk c seq).map Payload.isResult = List.replicate (slices c.data).length false := by
  rw [emitChunk, map_map, eq_replicate_iff]
  constructor
  · simp
  · intro b hb
    obtain ⟨piece, -, rfl⟩ := mem_map.mp hb
    rfl

theorem onChunk_mask (l : Loop) (c : ExecChunk) : (l.onChunk c).2.map Payload.isResult = chunkMask c := by
  unfold Loop.onChunk chunkMask
  cases c.stream with
  | stdout | stderr => exact emitChunk_mask c _
  | exit => rfl
  | other name => rfl

theorem onChunk_received (l : Loop) (c : ExecChunk) : (l.onChunk c).1.received = l.received ++ [c] := by
  unfold Loop.onChunk
  cases c.stream with
  | stdout | stderr | exit | other name => rfl

theorem chunkMask_eq_nil (c : ExecChunk) : chunkMask c = [] ↔ silent c = true := by
  unfold chunkMask silent
  cases c.stream with
  | stdout | stderr => simp [slices_eq_nil]
  | exit | other name => simp

theorem flatMap_chunkMask_isEmpty (cs : List ExecChunk) : (cs.flatMap chunkMask).isEmpty = cs.all silent := by
  rw [Bool.eq_iff_iff, List.isEmpty_iff, List.flatMap_eq_nil_iff, List.all_eq_true]
  exact forall₂_congr fun c _ => chunkMask_eq_nil c

theorem chunkMask_of_ne_exit {c : ExecChunk} (h : c.stream ≠ .exit) : ∀ b ∈ chunkMask c, b = false := by
  unfold chunkMask
  cases hc : c.stream with
  | stdout | stderr => exact fun b hb => eq_of_mem_replicate hb
  | exit => exact absurd hc h
  | other name => simp

theorem lastOnly_chunkMask (cs : List ExecChunk) : lastOnly (fun b => b) (cs.flatMap chunkMask) = endsInOneExit cs := by
  induction cs with
  | nil => rfl
  | cons c cs ih =>
    by_cases hc : c.stream = .exit
    · have hmask : chunkMask c = [true] := by simp [chunkMask, hc]
      rw [flatMap_cons, hmask, endsInOneExit, if_pos hc, ← flatMap_chunkMask_isEmpty]
      rfl
    · rw [flatMap_cons, lastOnly_append _ (chunkMask_of_ne_exit hc), endsInOneExit, if_neg hc, ih]

theorem replies_append (log log' : List Envelope) (id : ℕ) :
    replies (log ++ log') id = replies log id ++ replies log' id :=
  filterMap_append

theorem replies_reply_self (ps : List Payload) (id : ℕ) : replies (ps.map (.reply id)) id = ps := by
  simp [replies, filterMap_map]

theorem replies_reply_of_ne (ps : List Payload) (h : id ≠ id') : replies (ps.map (.reply id)) id' = [] := by
  simp [replies, h]

def replyMask (log : List Envelope) (id : ℕ) : List Bool := (replies log id).map Payload.isResult

def Requested (log : List Envelope) (id : ℕ) : Prop :=
  ∃ before intentID tool after, log = before ++ .commandRequest intentID id tool :: after ∧ replies before id = []

theorem Requested.append {log : List Envelope} {id : ℕ} (h : Requested log id) (log' : List Envelope) :
    Requested (log ++ log') id := by
  obtain ⟨before, intentID, tool, after, rfl, hb⟩ := h
  exact ⟨before, intentID, tool, after ++ log', by simp, hb⟩

def Mute (mask : List Bool) : Prop := ∀ b ∈ mask, b = false

def PhaseOK (mask : List Bool) : Phase α → Prop
  | .awaiting _ | .dispatching | .handedOver _ => Mute mask
  | .streaming l => ∃ pre, Mute pre ∧ mask = pre ++ l.received.flatMap chunkMask
  | .finished _ none => lastOnly (fun b => b) mask = true
  | .finished _ (some cs) => ∃ pre, Mute pre ∧ mask = pre ++ cs.flatMap chunkMask

structure Inv (s : State α) : Prop where
  unborn : ∀ id, s.nextID ≤ id → s.handlers id = none ∧ replies s.log id = []
  requested : ∀ id < s.nextID, Requested s.log id
  phases : ∀ id h, s.handlers id = some h → PhaseOK (replyMask s.log id) h.phase

theorem Inv.lt (hI : Inv s) (hh : s.handlers id = some h) : id < s.nextID := by
  by_contra hle
  have hnone := (hI.unborn id (Nat.not_lt.mp hle)).1
  rw [hh] at hnone
  cases hnone

theorem inv_init : Inv (init : State α) := by
  constructor
  · intro id _
    exact ⟨rfl, rfl⟩
  · nofun
  · nofun

theorem Inv.mint (hI : Inv s) (intentID tool : String) : Inv (s.mint intentID tool) := by
  have hreplies : ∀ id, replies (s.mint intentID tool).log id = replies s.log id := by
    intro id
    simp [State.mint, replies]
  constructor
  · intro id hid
    rw [hreplies]
    exact hI.unborn id (Nat.le_of_succ_le hid)
  · intro id hid
    by_cases hlt : id < s.nextID
    · exact (hI.requested id hlt).append _
    · have hid : id = s.nextID := Nat.le_antisymm (Nat.lt_succ_iff.mp hid) (Nat.not_lt.mp hlt)
      subst hid
      exact ⟨s.log, intentID, tool, [], rfl, (hI.unborn _ (Nat.le_refl _)).2⟩
  · intro id h hh
    rw [replyMask, hreplies]
    exact hI.phases id h hh

theorem mint_mask (hI : Inv s) (intentID tool : String) : replyMask (s.mint intentID tool).log s.nextID = [] := by
  have hnone := (hI.unborn s.nextID (Nat.le_refl _)).2
  simp only [replyMask, State.mint, replies_append, hnone]
  rfl

theorem enter_self (s : State α) (id : ℕ) (h : Handler α) (phase : Phase α) :
    (s.enter id h phase).handlers id = some { h with phase := phase } :=
  update_self ..

theorem enter_of_ne (s : State α) (h : Handler α) (phase : Phase α) (hne : id' ≠ id) :
    (s.enter id h phase).handlers id' = s.handlers id' :=
  update_of_ne hne ..

theorem Inv.write (hI : Inv s) {id : ℕ} (hid : id < s.nextID) {hd : Handler α} {ps : List Payload} {phase : Phase α}
    (hp : PhaseOK (replyMask s.log id ++ ps.map Payload.isResult) phase) : Inv ((s.reply id ps).enter id hd phase) := by
  have hother : ∀ id', id' ≠ id → replies (s.log ++ ps.map (.reply id)) id' = replies s.log id' := by
    intro id' hne
    rw [replies_append, replies_reply_of_ne ps hne.symm, append_nil]
  constructor
  · intro id' hle
    have hne : id' ≠ id := by
      rintro rfl
      exact absurd hid (Nat.not_lt.mpr hle)
    obtain ⟨hnone, hr⟩ := hI.unborn id' hle
    exact ⟨(enter_of_ne _ _ _ hne).trans hnone, (hother id' hne).trans hr⟩
  · intro id' hlt
    exact (hI.requested id' hlt).append _
  · intro id' h' hh
    by_cases hne : id' = id
    · subst hne
      rw [enter_self] at hh
      cases hh
      show PhaseOK ((replies (s.log ++ ps.map (.reply id')) id').map _) phase
      rw [replies_append, replies_reply_self, map_append]
      exact hp
    · show PhaseOK ((replies (s.log ++ ps.map (.reply id)) id').map _) h'.phase
      rw [hother id' hne]
      exact hI.phases id' h' ((enter_of_ne _ _ _ hne).symm.trans hh)

theorem reply_nil (s : State α) (id : ℕ) : s.reply id [] = s := by simp [State.reply]

theorem Inv.enter (hI : Inv s) (hid : id < s.nextID) {hd : Handler α} {phase : Phase α}
    (hp : PhaseOK (replyMask s.log id) phase) : Inv (s.enter id hd phase) := by
  rw [← reply_nil s id]
  apply hI.write hid
  rw [map_nil, append_nil]
  exact hp

theorem Inv.refuse (hI : Inv s) {id : ℕ} (hid : id < s.nextID) (hd : Handler α) (r : Refusal)
    (hm : Mute (replyMask s.log id)) : Inv (s.refuse id hd r) := by
  apply hI.write hid
  show lastOnly _ (_ ++ _) = true
  rw [lastOnly_append _ hm]
  rfl

theorem Inv.settle (hI : Inv s) (hid : id < s.nextID) (hd : Handler α) (o : Outcome α) (hm : Mute (replyMask s.log id)) :
    Inv (s.settle id hd o) := by
  cases o with
  | refused r => exact hI.refuse hid hd r hm
  | dispatched target tool args =>
    cases target with
    | dispatcher | runner | daemon | lsp | workerPool => exact hI.enter hid hm

theorem Inv.openCall (hI : Inv s) (path : Path) (intentID : String) (call : ToolCall α) (gate : Gate α) :
    Inv (s.openCall path intentID call gate) := by
  have hM := hI.mint intentID call.tool
  have hid : s.nextID < (s.mint intentID call.tool).nextID := Nat.lt_succ_self _
  have hmask := mint_mask hI intentID call.tool
  cases gate with
  | done o =>
    apply hM.settle hid
    rw [hmask]
    exact fun b hb => absurd hb (not_mem_nil)
  | ask reason next =>
    apply hM.write hid
    rw [hmask]
    exact fun b hb => mem_singleton.mp hb

theorem Inv.onHandler (hI : Inv s) (h : s.onHandler id a = some t) : Inv t := by
  obtain ⟨hd, hh, hstep⟩ := Option.bind_eq_some_iff.mp h
  have hid := hI.lt hh
  have hp := hI.phases id hd hh
  generalize hd.phase = phase at hp hstep
  unfold stepPhase at hstep
  split at hstep
  · cases hstep
    exact hI.settle hid hd _ hp
  · cases hstep
    apply hI.enter hid
    exact ⟨_, hp, by simp [Loop.start]⟩
  · cases hstep
    exact hI.refuse hid hd _ hp
  · rename_i c l
    cases hstep
    obtain ⟨pre, hpre, hmask⟩ := hp
    apply hI.write hid
    refine ⟨pre, hpre, ?_⟩
    rw [hmask, onChunk_mask, onChunk_received, flatMap_append, append_assoc, flatMap_singleton]
  · cases hstep
    exact hI.enter hid hp
  · cases hstep

theorem Inv.step (hI : Inv s) (h : Commands.step s a = some t) : Inv t := by
  cases a with
  | runToolCall srv mw client mode intentID call | runWorkerToolCall srv mw task intentID call =>
    cases h
    exact hI.openCall ..
  | answer id a | dispatch id | dispatchFails id badRequest err | chunk id c | close id => exact hI.onHandler h

theorem inv_run {acts : List (Action α)} (h : run step init acts = some s) : Inv s :=
  run_preserves (fun _ _ _ hst hI => hI.step hst) h inv_init

theorem answered_iff {log : List Envelope} (h : Requested log id) :
    Answered log id ↔ lastOnly (fun b => b) (replyMask log id) = true := by
  rw [replyMask, lastOnly_map, lastOnly_iff]
  exact ⟨fun ha => ha.result, fun hr => ⟨h, hr⟩⟩

theorem hasExit_of_endsInOneExit {cs : List ExecChunk} (h : endsInOneExit cs = true) : hasExit cs := by
  induction cs with
  | nil => cases h
  | cons c cs ih =>
    by_cases hc : c.stream = .exit
    · exact ⟨c, mem_cons_self, hc⟩
    · rw [endsInOneExit, if_neg hc] at h
      obtain ⟨d, hd, hexit⟩ := ih h
      exact ⟨d, mem_cons_of_mem c hd, hexit⟩

theorem finished_answered_iff (hI : Inv s) {res : ToolResult} {stream : Option (List ExecChunk)}
    (hh : s.handlers id = some h) (hf : h.phase = .finished res stream) :
    Answered s.log id ↔ ∀ cs, stream = some cs → endsInOneExit cs = true := by
  have hp := hI.phases id h hh
  rw [hf] at hp
  rw [answered_iff (hI.requested id (hI.lt hh))]
  cases stream with
  | none =>
    constructor
    · nofun
    · intro _
      exact hp
  | some cs =>
    obtain ⟨pre, hpre, hmask⟩ := hp
    rw [hmask, lastOnly_append _ hpre, lastOnly_chunkMask]
    constructor
    · rintro hone cs' ⟨⟩
      exact hone
    · intro hone
      exact hone cs rfl

theorem command_result_once_iff {acts : List (Action α)} (hrun : run step init acts = some s) {id : ℕ} {h : Handler α}
    {res : ToolResult} {stream : Option (List ExecChunk)} (hh : s.handlers id = some h)
    (hf : h.phase = .finished res stream) :
    (Answered s.log id ∧ ∀ cs, stream = some cs → ¬ hasExit cs → ¬ ReportedSuccess s.log id res) ↔
      ∀ cs, stream = some cs → endsInOneExit cs = true := by
  rw [finished_answered_iff (inv_run hrun) hh hf]
  constructor
  · intro hleft
    exact hleft.1
  · intro hone
    refine ⟨hone, ?_⟩
    intro cs hcs hexit
    exact absurd (hasExit_of_endsInOneExit (hone cs hcs)) hexit

def readServer : Server Unit := ⟨none, true, true, false, false, fun _ _ => none, fun _ args _ => .ok args, fun _ => none⟩

def readCall (callID : String) : Action Unit :=
  .runToolCall readServer ⟨⟨[], false⟩, false, fun _ => none, fun _ => false⟩ ⟨"s1", []⟩ .normal "i1"
    ⟨callID, "read_file", ()⟩

def readRun (stream : List ExecChunk) : List (Action Unit) :=
  readCall "c1" :: .dispatch 0 :: stream.map (.chunk 0) ++ [.close 0]

def exitChunk : ExecChunk := ⟨.exit, [], 0, none⟩

def twoReads : List (Action Unit) :=
  [readCall "c1", readCall "c2", .dispatch 0, .dispatch 1, .chunk 1 ⟨.stdout, [104], 0, none⟩, .chunk 0 exitChunk,
    .chunk 1 ⟨.stderr, [105], 0, none⟩, .close 0, .chunk 1 exitChunk, .close 1]

theorem command_result_once_two_reads : ∃ s, run step init twoReads = some s ∧ Answered s.log 0 ∧ Answered s.log 1 := by
  have hrun : run step init twoReads = some _ := rfl
  refine ⟨_, hrun, ((command_result_once_iff hrun rfl rfl).mpr ?_).1, ((command_result_once_iff hrun rfl rfl).mpr ?_).1⟩
  · rintro cs ⟨⟩
    rfl
  · rintro cs ⟨⟩
    rfl

theorem empty_stream_succeeds_unanswered : ∃ s h res, run step init (readRun []) = some s ∧ s.handlers 0 = some h ∧
    h.phase = .finished res (some []) ∧ ¬ Answered s.log 0 ∧ ReportedSuccess s.log 0 res := by
  refine ⟨_, _, _, rfl, rfl, rfl, ?_, ?_⟩
  · rintro ⟨-, rs, last, hlast, -⟩
    have hnil : rs ++ [last] = [] := hlast.symm.trans (by rfl)
    simp at hnil
  · exact .inl ⟨rfl, [], [], rfl⟩

end NomadDev.Commands
