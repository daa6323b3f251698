import NomadDev.CommandResults
import NomadDev.PatchFailures

namespace NomadDev.Commands

open Tools Foundation.Transition Foundation.Utf8 List

variable {α : Type} (stream : ChunkStream)

def Payload.chunkOf : Payload → Option (ℕ × List UInt8)
  | .chunk s seq data => if s = stream then some (seq, data) else none
  | _ => none

def chunksOf (ps : List Payload) : List (ℕ × List UInt8) := ps.filterMap (Payload.chunkOf stream)

def chunkData (cs : List ExecChunk) : List (List UInt8) :=
  (cs.filter fun c => c.stream = stream).map ExecChunk.data

def output (cs : List ExecChunk) : List UInt8 := (chunkData stream cs).flatten

def pieces (cs : List ExecChunk) : List (List UInt8) := (chunkData stream cs).flatMap slices

def numbered (first : ℕ) (ps : List (List UInt8)) : List (ℕ × List UInt8) :=
  (ps.zipIdx first).map fun piece => (piece.2, toValid piece.1)

-- The loop of a command.request that comes from the client. It stops at the exit chunk; heartbeats are left out.
def runExec (l : Loop) : List ExecChunk → List Payload
  | [] => [.result (-1) ⟨"sandbox_internal", "runner closed channel without exit"⟩]
  | c :: cs => if c.stream = .exit then (l.onChunk c).2 else (l.onChunk c).2 ++ runExec (l.onChunk c).1 cs

def Phase.received : Phase α → Option (List ExecChunk)
  | .streaming l => some l.received
  | .finished _ stream => stream
  | _ => none

/-- The chunks that were read for a call, and the envelopes that went out for it: a call of a turn or of a worker in any
run of the server, or a request of the client, whose loop reads no further than the exit chunk. -/
inductive Emits (α : Type) : List ExecChunk → List Payload → Prop
  | turn {acts : List (Action α)} {s : State α} {id : ℕ} {h : Handler α} {cs : List ExecChunk}
      (hrun : run step init acts = some s) (hh : s.handlers id = some h) (hread : h.phase.received = some cs) :
      Emits α cs (replies s.log id)
  | direct {cs rest : List ExecChunk} (hcs : ∀ c ∈ cs, c.stream ≠ .exit) (hrest : ∀ c ∈ rest.head?, c.stream = .exit) :
      Emits α cs (runExec .start (cs ++ rest))

theorem flatten_slicesAux {n : ℕ} (hn : 0 < n) {fuel : ℕ} {data : List UInt8} (h : data.length ≤ fuel) :
    (slicesAux n fuel data).flatten = data := by
  induction fuel generalizing data with
  | zero =>
    rw [eq_nil_of_length_eq_zero (Nat.le_zero.mp h)]
    rfl
  | succ fuel ih =>
    rw [slicesAux]
    split
    next hnil =>
      rw [hnil]
      rfl
    next hne =>
      have hdrop : (data.drop n).length ≤ fuel := by
        have hpos := length_pos_iff.mpr hne
        rw [length_drop]
        omega
      rw [flatten_cons, ih hdrop, take_append_drop]

theorem flatten_slices (data : List UInt8) : (slices data).flatten = data :=
  flatten_slicesAux (by decide) (Nat.le_refl _)

theorem flatten_pieces (stream : ChunkStream) (cs : List ExecChunk) :
    (pieces stream cs).flatten = output stream cs := by
  rw [pieces, output]
  induction chunkData stream cs with
  | nil => rfl
  | cons data rest ih => rw [flatMap_cons, flatten_append, flatten_slices, ih, flatten_cons]

theorem pieces_append (stream : ChunkStream) (cs cs' : List ExecChunk) :
    pieces stream (cs ++ cs') = pieces stream cs ++ pieces stream cs' := by
  simp [pieces, chunkData]

theorem pieces_singleton (stream : ChunkStream) (c : ExecChunk) :
    pieces stream [c] = if c.stream = stream then slices c.data else [] := by
  by_cases h : c.stream = stream
  · simp [pieces, chunkData, h]
  · simp [pieces, chunkData, h]

theorem numbered_append (first : ℕ) (ps qs : List (List UInt8)) :
    numbered first (ps ++ qs) = numbered first ps ++ numbered (first + ps.length) qs := by
  rw [numbered, zipIdx_append, map_append]
  rfl

theorem numbered_seqs (ps : List (List UInt8)) : (numbered 0 ps).map Prod.fst = List.range ps.length := by
  rw [numbered, map_map]
  exact zipIdx_map_snd 0 ps |>.trans range_eq_range'.symm

theorem numbered_data (ps : List (List UInt8)) : ((numbered 0 ps).map Prod.snd).flatten = ps.flatMap toValid := by
  have hfst : (ps.zipIdx 0).map Prod.fst = ps := zipIdx_map_fst 0 ps
  conv_rhs => rw [← hfst]
  rw [numbered, map_map, flatMap_map]
  rfl

section Stream

variable {stream : ChunkStream}

theorem chunksOf_append (ps qs : List Payload) :
    chunksOf stream (ps ++ qs) = chunksOf stream ps ++ chunksOf stream qs :=
  filterMap_append

theorem chunksOf_emitChunk (c : ExecChunk) (seq : ℕ) :
    chunksOf stream (emitChunk c seq) = if c.stream = stream then numbered seq (slices c.data) else [] := by
  rw [chunksOf, emitChunk, filterMap_map]
  split
  next h => simp [Payload.chunkOf, h, numbered]
  next h => simp [Function.comp_def, Payload.chunkOf, h]

def Loop.seq (l : Loop) : ChunkStream → ℕ
  | .stdout => l.stdoutSeq
  | .stderr => l.stderrSeq
  | _ => 0

variable (hstream : stream = .stdout ∨ stream = .stderr)
include hstream

theorem onChunk_chunks (l : Loop) (c : ExecChunk) :
    chunksOf stream (l.onChunk c).2 = numbered (l.seq stream) (pieces stream [c]) ∧
      (l.onChunk c).1.seq stream = l.seq stream + (pieces stream [c]).length := by
  rw [pieces_singleton]
  unfold Loop.onChunk
  cases hc : c.stream with
  | stdout | stderr =>
    simp only [chunksOf_emitChunk, hc]
    rcases hstream with rfl | rfl
    · exact ⟨rfl, rfl⟩
    · exact ⟨rfl, rfl⟩
  | exit | other =>
    rcases hstream with rfl | rfl
    · exact ⟨rfl, rfl⟩
    · exact ⟨rfl, rfl⟩

theorem runExec_chunks {cs rest : List ExecChunk} (l : Loop) (hcs : ∀ c ∈ cs, c.stream ≠ .exit)
    (hrest : ∀ c ∈ rest.head?, c.stream = .exit) :
    chunksOf stream (runExec l (cs ++ rest)) = numbered (l.seq stream) (pieces stream cs) := by
  induction cs generalizing l with
  | nil =>
    cases rest with
    | nil => rfl
    | cons c rest =>
      have hc : c.stream = .exit := hrest c rfl
      rw [nil_append, runExec, if_pos hc, (onChunk_chunks hstream l c).1, pieces_singleton, hc]
      rcases hstream with rfl | rfl
      · rfl
      · rfl
  | cons c cs ih =>
    rw [forall_mem_cons] at hcs
    obtain ⟨hemit, hseq⟩ := onChunk_chunks hstream l c
    rw [cons_append, runExec, if_neg hcs.1, chunksOf_append, hemit, ih _ hcs.2, hseq, ← numbered_append,
      ← pieces_append]
    rfl

end Stream

section Runs

variable {s : State α} {stream : ChunkStream} {id : ℕ}

def Sent (stream : ChunkStream) (rs : List Payload) : Phase α → Prop
  | .awaiting _ | .dispatching | .handedOver _ => chunksOf stream rs = []
  | .streaming l => chunksOf stream rs = numbered 0 (pieces stream l.received) ∧
      l.seq stream = (pieces stream l.received).length
  | .finished _ none => True
  | .finished _ (some cs) => chunksOf stream rs = numbered 0 (pieces stream cs)

def AllSent (stream : ChunkStream) (s : State α) : Prop :=
  ∀ id h, s.handlers id = some h → Sent stream (replies s.log id) h.phase

section

variable (hs : AllSent stream s)
include hs

theorem AllSent.write {id : ℕ} {hd : Handler α} {ps : List Payload} {phase : Phase α}
    (hp : Sent stream (replies s.log id ++ ps) phase) : AllSent stream ((s.reply id ps).enter id hd phase) := by
  intro id' h' hh
  by_cases hne : id' = id
  · subst hne
    rw [enter_self] at hh
    cases hh
    show Sent stream (replies (s.log ++ ps.map (.reply id')) id') phase
    rw [replies_append, replies_reply_self]
    exact hp
  · show Sent stream (replies (s.log ++ ps.map (.reply id)) id') h'.phase
    rw [replies_append, replies_reply_of_ne ps (Ne.symm hne), append_nil]
    exact hs id' h' ((enter_of_ne _ _ _ hne).symm.trans hh)

theorem AllSent.enter {hd : Handler α} {phase : Phase α} (hp : Sent stream (replies s.log id) phase) :
    AllSent stream (s.enter id hd phase) := by
  rw [← reply_nil s id]
  apply hs.write
  rw [append_nil]
  exact hp

theorem AllSent.settle (hd : Handler α) (o : Outcome α) (hnone : chunksOf stream (replies s.log id) = []) :
    AllSent stream (s.settle id hd o) := by
  cases o with
  | refused r => exact hs.write trivial
  | dispatched target tool args =>
    cases target with
    | dispatcher | runner | daemon | lsp | workerPool => exact hs.enter hnone

theorem AllSent.openCall (hI : Inv s) (path : Path) (intentID : String) (call : ToolCall α) (gate : Gate α) :
    AllSent stream (s.openCall path intentID call gate) := by
  have hreplies : ∀ id, replies (s.mint intentID call.tool).log id = replies s.log id := by
    intro id
    simp [State.mint, replies]
  have hmint : AllSent stream (s.mint intentID call.tool) := by
    intro id h hh
    rw [hreplies]
    exact hs id h hh
  have hfresh : replies (s.mint intentID call.tool).log s.nextID = [] :=
    (hreplies s.nextID).trans (hI.unborn s.nextID (Nat.le_refl _)).2
  cases gate with
  | done o =>
    apply hmint.settle
    rw [hfresh]
    rfl
  | ask reason next =>
    apply hmint.write
    rw [hfresh]
    rfl

end

variable (hstream : stream = .stdout ∨ stream = .stderr) {a : Action α} {t : State α}
include hstream

theorem AllSent.onHandler (hs : AllSent stream s) (h : s.onHandler id a = some t) : AllSent stream t := by
  obtain ⟨hd, hh, hstep⟩ := Option.bind_eq_some_iff.mp h
  have hp := hs id hd hh
  generalize hd.phase = phase at hp hstep
  unfold stepPhase at hstep
  split at hstep
  · cases hstep
    exact hs.settle hd _ hp
  · cases hstep
    apply hs.enter
    refine ⟨hp, ?_⟩
    rcases hstream with rfl | rfl
    · rfl
    · rfl
  · cases hstep
    exact hs.write trivial
  · rename_i c l
    cases hstep
    obtain ⟨hchunks, hseq⟩ := hp
    obtain ⟨hemit, hnext⟩ := onChunk_chunks hstream l c
    apply hs.write
    refine ⟨?_, ?_⟩
    · rw [chunksOf_append, hchunks, hemit, hseq, onChunk_received, pieces_append, numbered_append, Nat.zero_add]
    · rw [hnext, hseq, onChunk_received, pieces_append, length_append]
  · cases hstep
    exact hs.enter hp.1
  · cases hstep

theorem AllSent.step (hs : AllSent stream s) (hI : Inv s) (h : Commands.step s a = some t) : AllSent stream t := by
  cases a with
  | runToolCall srv mw client mode intentID call | runWorkerToolCall srv mw task intentID call =>
    cases h
    exact hs.openCall hI _ _ _ _
  | answer id a | dispatch id | dispatchFails id badRequest err | chunk id c | close id => exact hs.onHandler hstream h

theorem allSent_run {acts : List (Action α)} (h : run Commands.step init acts = some s) : AllSent stream s := by
  have hinit : AllSent stream (init : State α) := by
    nofun
  have hstep : ∀ (s : State α) (a : Action α) (t : State α), Commands.step s a = some t → Inv s ∧ AllSent stream s →
      Inv t ∧ AllSent stream t := by
    intro s a t hst hI
    exact ⟨hI.1.step hst, hI.2.step hstream hI.1 hst⟩
  exact (run_preserves hstep h ⟨inv_init, hinit⟩).2

theorem emits_chunks {cs : List ExecChunk} {ps : List Payload} (h : Emits α cs ps) :
    chunksOf stream ps = numbered 0 (pieces stream cs) := by
  cases h with
  | turn hrun hh hread =>
    rename_i hd
    have hsent := allSent_run hstream hrun _ _ hh
    cases hphase : hd.phase with
    | streaming l =>
      rw [hphase] at hsent hread
      cases hread
      exact hsent.1
    | finished res read =>
      rw [hphase] at hsent hread
      cases hread
      exact hsent
    | awaiting next | dispatching | handedOver target =>
      rw [hphase] at hread
      cases hread
  | direct hcs hrest =>
    rw [runExec_chunks hstream .start hcs hrest]
    rcases hstream with rfl | rfl
    · rfl
    · rfl

end Runs

theorem chunk_data_lossless_iff {cs : List ExecChunk} {ps : List Payload} {stream : ChunkStream}
    (hstream : stream = .stdout ∨ stream = .stderr) (h : Emits α cs ps) (hvalid : valid (output stream cs) = true) :
    (chunksOf stream ps).map Prod.fst = List.range (chunksOf stream ps).length ∧
      (((chunksOf stream ps).map Prod.snd).flatten = output stream cs ↔
        ∀ piece ∈ pieces stream cs, valid piece = true) := by
  rw [← flatten_pieces] at hvalid ⊢
  have hlength : (numbered 0 (pieces stream cs)).length = (pieces stream cs).length := by simp [numbered]
  rw [emits_chunks hstream h, hlength, numbered_seqs, numbered_data]
  exact ⟨rfl, flatMap_toValid_eq_iff hvalid⟩

section Writers

open Dispatcher

variable (stream : ChunkStream) (done : ℕ → Option ExecErr)

def chunkSliceBytes : ℕ := 16 * 1024

def chunkWriterWrite (p : List UInt8) : List ExecChunk × Option ExecErr :=
  emitPieces stream done 0 (slicesAux chunkSliceBytes p.length p)

def written (writes : List (List UInt8)) : List ExecChunk :=
  writes.flatMap fun p => (chunkWriterWrite stream (fun _ => none) p).1

theorem mem_slicesAux {n fuel : ℕ} (hn : 0 < n) {data piece : List UInt8} (h : piece ∈ slicesAux n fuel data) :
    piece ≠ [] ∧ piece.length ≤ n := by
  induction fuel generalizing data with
  | zero => cases h
  | succ fuel ih =>
    rw [slicesAux] at h
    split at h
    next => cases h
    next hne =>
      rcases mem_cons.mp h with rfl | h
      · refine ⟨fun hnil => ?_, length_take_le n data⟩
        rcases take_eq_nil_iff.mp hnil with hzero | hdata
        · exact absurd hzero (Nat.ne_of_gt hn)
        · exact hne hdata
      · exact ih h

theorem slices_of_length_le {data : List UInt8} (hne : data ≠ []) (h : data.length ≤ maxChunkSize) :
    slices data = [data] := by
  obtain ⟨b, rest, rfl⟩ := exists_cons_of_ne_nil hne
  rw [slices, length_cons, slicesAux, if_neg hne, take_of_length_le h, drop_of_length_le h]
  cases rest with
  | nil => rfl
  | cons c rest => rfl

theorem chunkData_emitPieces (i : ℕ) (ps : List (List UInt8)) :
    chunkData stream (emitPieces stream done i ps).1 <+: ps ∧
      ((emitPieces stream done i ps).2 = none → chunkData stream (emitPieces stream done i ps).1 = ps) := by
  induction ps generalizing i with
  | nil => exact ⟨prefix_refl _, fun _ => rfl⟩
  | cons piece ps ih =>
    unfold emitPieces
    split
    next => exact ⟨List.nil_prefix, nofun⟩
    next =>
      have hcons : ∀ cs, chunkData stream (⟨stream, piece, 0, none⟩ :: cs) = piece :: chunkData stream cs := by
        intro cs
        simp [chunkData]
      rw [hcons]
      exact ⟨(prefix_cons_inj piece).mpr (ih (i + 1)).1, fun h => congrArg (piece :: ·) ((ih (i + 1)).2 h)⟩

theorem pieces_emitPieces (data : List UInt8) :
    pieces stream (emitPieces stream done 0 (slices data)).1 <+: slices data ∧
      ((emitPieces stream done 0 (slices data)).2 = none →
        pieces stream (emitPieces stream done 0 (slices data)).1 = slices data) := by
  obtain ⟨hpieces, hall⟩ := chunkData_emitPieces stream done 0 (slices data)
  have hkept : pieces stream (emitPieces stream done 0 (slices data)).1 =
      chunkData stream (emitPieces stream done 0 (slices data)).1 := by
    have hone : ∀ piece ∈ chunkData stream (emitPieces stream done 0 (slices data)).1, slices piece = [piece] := by
      intro piece hpiece
      obtain ⟨hne, hlen⟩ := mem_slicesAux (by decide) (hpieces.subset hpiece)
      exact slices_of_length_le hne hlen
    rw [pieces, flatMap_def, map_congr_left hone, ← flatMap_def, flatMap_singleton']
  rw [hkept]
  exact ⟨hpieces, hall⟩

theorem pieces_chunkWriterWrite (p : List UInt8) :
    pieces stream (chunkWriterWrite stream done p).1 <+: slices p ∧
      ((chunkWriterWrite stream done p).2 = none → pieces stream (chunkWriterWrite stream done p).1 = slices p) :=
  pieces_emitPieces stream done p

theorem pieces_written (writes : List (List UInt8)) :
    pieces stream (written stream writes) = writes.flatMap slices := by
  induction writes with
  | nil => rfl
  | cons p writes ih =>
    have hdone : (chunkWriterWrite stream (fun _ => none) p).2 = none :=
      (emitPieces_done_iff stream _ 0 _).mpr fun _ _ => rfl
    rw [flatMap_cons, ← ih, ← (pieces_chunkWriterWrite stream _ p).2 hdone, ← pieces_append]
    rfl

theorem pieces_emitBytesResult (data : List UInt8) :
    pieces .stdout (emitBytesResult done data) <+: slices data ∧
      ((∀ i < (slices data).length, done i = none) →
        pieces .stdout (emitBytesResult done data) = slices data) := by
  have hexit : ∀ cs c, c.stream = .exit → pieces .stdout (cs ++ [c]) = pieces .stdout cs := by
    intro cs c hc
    rw [pieces_append, pieces_singleton, hc]
    exact append_nil _
  have hsent : pieces .stdout (emitBytesResult done data) =
      pieces .stdout (emitPieces .stdout done 0 (slices data)).1 := by
    unfold emitBytesResult
    split
    next sent err h => rw [hexit sent _ rfl]; exact congrArg (pieces .stdout ·.1) h.symm
    next sent h => rw [hexit sent _ rfl]; exact congrArg (pieces .stdout ·.1) h.symm
  rw [hsent]
  obtain ⟨hpieces, hall⟩ := pieces_emitPieces .stdout done data
  refine ⟨hpieces, fun hdone => hall ((emitPieces_done_iff .stdout done 0 _).mpr fun i hi => ?_)⟩
  rw [Nat.zero_add]
  exact hdone i hi

end Writers

def exitZero : ExecChunk := ⟨.exit, [], 0, none⟩

theorem chunk_data_lossless_written :
    ((chunksOf .stdout (runExec .start (written .stdout [[0xC3, 0xA9], [97]] ++ [exitZero]))).map Prod.snd).flatten =
      [0xC3, 0xA9, 97] := by
  have hemits : Emits Unit (written .stdout [[0xC3, 0xA9], [97]])
      (runExec .start (written .stdout [[0xC3, 0xA9], [97]] ++ [exitZero])) := .direct (by decide) (by decide)
  exact ((chunk_data_lossless_iff (.inl rfl) hemits (by decide)).2).mpr (by decide)

theorem split_character_replaced : valid (output .stdout (written .stdout [[0xC3], [0xA9]])) = true ∧
      Emits Unit (written .stdout [[0xC3], [0xA9]]) (runExec .start (written .stdout [[0xC3], [0xA9]] ++ [exitZero])) ∧
      chunksOf .stdout (runExec .start (written .stdout [[0xC3], [0xA9]] ++ [exitZero])) =
        [(0, replacement), (1, replacement)] := by
  refine ⟨by decide, .direct (by decide) (by decide), by decide⟩

end NomadDev.Commands
