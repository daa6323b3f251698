import NomadDev.Reducers
import Mathlib.Data.List.Range

namespace NomadDev.Clients

open Foundation.Lines List

variable {V : Type}

inductive Client
  | native | spa

def Client.size : Client → Text → ℕ
  | .native => utf8Length
  | .spa => utf16Length

def Client.mergeChunkIntoToolCall : Client → ToolCall V → String → Text → ToolCall V
  | .native => Native.mergeChunkIntoToolCall
  | .spa => Spa.mergeChunkIntoToolCall

def Client.foldChunks (client : Client) (c : ToolCall V) (chunks : List (String × Text)) : ToolCall V :=
  chunks.foldl (fun c chunk => client.mergeChunkIntoToolCall c chunk.1 chunk.2) c

theorem Client.mergeChunk_eq (client : Client) (c : ToolCall V) (stream : String) (data : Text) :
    client.mergeChunkIntoToolCall c stream data = mergeChunk client.size c (.ofName stream) data := by
  cases client <;> rfl

structure Consecutive (c : ToolCall V) : Prop where
  capped : c.lines.length ≤ terminalLineCap
  counted : c.lines.length ≤ c.lineCount
  numbers : c.lines.map TerminalLine.seq = List.range' (c.lineCount - c.lines.length) c.lines.length

theorem seq_numbered (stream : Stream) (first : ℕ) (texts : List Text) :
    (numbered stream first texts).map TerminalLine.seq = List.range' first texts.length := by
  rw [numbered, map_map]
  exact zipIdx_map_snd first texts

theorem length_numbered (stream : Stream) (first : ℕ) (texts : List Text) :
    (numbered stream first texts).length = texts.length := by
  rw [numbered, length_map, length_zipIdx]

theorem text_numbered (stream : Stream) (first : ℕ) (texts : List Text) :
    (numbered stream first texts).map TerminalLine.text = texts := by
  rw [numbered, map_map]
  exact zipIdx_map_fst first texts

theorem stream_of_mem_numbered {stream : Stream} {first : ℕ} {texts : List Text} {line : TerminalLine}
    (h : line ∈ numbered stream first texts) : line.stream = stream := by
  obtain ⟨entry, -, rfl⟩ := mem_map.mp h
  rfl

theorem keepLast_eq_rtake {lines : List TerminalLine} (additions : List TerminalLine)
    (h : lines.length ≤ terminalLineCap) : keepLast lines additions = (lines ++ additions).rtake terminalLineCap := by
  unfold keepLast
  split
  next hnil => rw [hnil, append_nil, List.rtake, Nat.sub_eq_zero_of_le h, drop_zero]
  next =>
    simp only
    split
    · rfl
    next hle => rw [List.rtake, Nat.sub_eq_zero_of_le (Nat.le_of_not_lt hle), drop_zero]

theorem consecutive_mergeChunk {c : ToolCall V} (h : Consecutive c) (size : Text → ℕ) (stream : Stream) (data : Text) :
    Consecutive (mergeChunk size c stream data) := by
  obtain ⟨texts, hlines, hcount⟩ : ∃ texts,
      (mergeChunk size c stream data).lines = keepLast c.lines (numbered stream c.lineCount texts) ∧
        (mergeChunk size c stream data).lineCount = c.lineCount + texts.length := ⟨_, rfl, rfl⟩
  rw [keepLast_eq_rtake _ h.capped] at hlines
  have hlength : (mergeChunk size c stream data).lines.length =
      c.lines.length + texts.length - (c.lines.length + texts.length - terminalLineCap) := by
    rw [hlines, List.rtake, length_drop, length_append, length_numbered]
  have hcounted := h.counted
  refine ⟨by omega, by omega, ?_⟩
  have hjoin : List.range' (c.lineCount - c.lines.length) c.lines.length ++ List.range' c.lineCount texts.length =
      List.range' (c.lineCount - c.lines.length) (c.lines.length + texts.length) := by
    have happend : List.range' (c.lineCount - c.lines.length) c.lines.length ++
        List.range' (c.lineCount - c.lines.length + c.lines.length) texts.length = _ := List.range'_append_1
    rwa [Nat.sub_add_cancel hcounted] at happend
  rw [hlength, hcount, hlines, List.rtake, map_drop, map_append, h.numbers, seq_numbered, hjoin,
    length_append, length_numbered, drop_range', Nat.mul_one]
  generalize terminalLineCap = cap
  congr 1
  omega

theorem Client.consecutive_foldChunks (client : Client) {c : ToolCall V} (h : Consecutive c)
    (chunks : List (String × Text)) : Consecutive (client.foldChunks c chunks) := by
  induction chunks generalizing c with
  | nil => exact h
  | cons chunk chunks ih =>
    have hnext : Consecutive (client.mergeChunkIntoToolCall c chunk.1 chunk.2) := by
      rw [client.mergeChunk_eq]
      exact consecutive_mergeChunk h _ _ _
    exact ih hnext

theorem consecutive_newToolCall (commandID tool : String) (args : List (String × V)) :
    Consecutive (newToolCall commandID tool args) :=
  ⟨Nat.zero_le _, Nat.zero_le _, rfl⟩

def folded (c : ToolCall V) (stream : Stream) (output : Text) : ToolCall V :=
  { c.setCarry stream (fragment '\n' output) with
    lines := (numbered stream 0 (completed '\n' output)).rtake terminalLineCap
    lineCount := (completed '\n' output).length }

theorem rtake_rtake_append {α : Type} (xs ys : List α) (n : ℕ) : (xs.rtake n ++ ys).rtake n = (xs ++ ys).rtake n := by
  simp only [List.rtake, length_append, length_drop, drop_append, drop_drop]
  congr 2 <;> omega

theorem numbered_append (stream : Stream) (first : ℕ) (xs ys : List Text) :
    numbered stream first (xs ++ ys) = numbered stream first xs ++ numbered stream (first + xs.length) ys := by
  rw [numbered, zipIdx_append, map_append]
  rfl

theorem setCarry_setCarry (c : ToolCall V) (stream : Stream) (x y : Text) (lines lines' : List TerminalLine) (n n' : ℕ) :
    { ({ c.setCarry stream x with lines := lines, lineCount := n } : ToolCall V).setCarry stream y with
      lines := lines', lineCount := n' } = { c.setCarry stream y with lines := lines', lineCount := n' } := by
  cases stream <;> rfl

theorem carry_folded (c : ToolCall V) (stream : Stream) (output : Text) :
    (folded c stream output).carry stream = fragment '\n' output := by
  cases stream <;> rfl

theorem mergeChunk_folded {size : Text → ℕ} (c : ToolCall V) (stream : Stream) (output data : Text)
    (h : size (fragment '\n' (output ++ data)) ≤ partialLineCap) :
    mergeChunk size (folded c stream output) stream data = folded c stream (output ++ data) := by
  have hlength : (folded c stream output).lines.length ≤ terminalLineCap := by
    simp only [folded, List.rtake, length_drop]
    omega
  have hlines : keepLast (folded c stream output).lines
      (numbered stream (folded c stream output).lineCount (completed '\n' (fragment '\n' output ++ data))) =
        (folded c stream (output ++ data)).lines := by
    rw [keepLast_eq_rtake _ hlength]
    simp only [folded]
    rw [rtake_rtake_append, completed_append output, numbered_append, Nat.zero_add]
  have hcount : (folded c stream output).lineCount + (completed '\n' (fragment '\n' output ++ data)).length =
      (folded c stream (output ++ data)).lineCount := by
    simp only [folded]
    rw [completed_append output, length_append]
  rw [mergeChunk]
  simp only [carry_folded, ← fragment_append, Nat.not_lt.mpr h, if_false, append_nil, hlines, hcount]
  simp only [folded]
  rw [setCarry_setCarry]

theorem folded_nil (commandID tool : String) (args : List (String × V)) (stream : Stream) :
    folded (newToolCall commandID tool args) stream [] = newToolCall commandID tool args := by
  cases stream <;> rfl

theorem Client.size_le_append (client : Client) (s t : Text) : client.size s ≤ client.size (s ++ t) := by
  cases client with
  | native =>
    simp only [Client.size, utf8Length, map_append, sum_append]
    exact Nat.le_add_right _ _
  | spa =>
    simp only [Client.size, utf16Length, map_append, sum_append]
    exact Nat.le_add_right _ _

theorem Client.foldChunks_folded (client : Client) (c : ToolCall V) {stream : Stream} {chunks : List (String × Text)}
    (hstream : ∀ chunk ∈ chunks, Stream.ofName chunk.1 = stream) (before : Text)
    (hfits : ∀ line ∈ (before ++ (chunks.map Prod.snd).flatten).splitOn '\n', client.size line ≤ partialLineCap) :
    client.foldChunks (folded c stream before) chunks = folded c stream (before ++ (chunks.map Prod.snd).flatten) := by
  induction chunks generalizing before with
  | nil =>
    rw [map_nil, flatten_nil, append_nil]
    rfl
  | cons chunk chunks ih =>
    rw [forall_mem_cons] at hstream
    rw [map_cons, flatten_cons, ← append_assoc] at hfits ⊢
    obtain ⟨rest, hline⟩ := exists_line_of_fragment '\n' (before ++ chunk.2) (chunks.map Prod.snd).flatten
    have hfragment : client.size (fragment '\n' (before ++ chunk.2)) ≤ partialLineCap :=
      (client.size_le_append _ rest).trans (hfits _ hline)
    have hmerge : client.mergeChunkIntoToolCall (folded c stream before) chunk.1 chunk.2 =
        folded c stream (before ++ chunk.2) := by
      rw [client.mergeChunk_eq, hstream.1, mergeChunk_folded c stream before chunk.2 hfragment]
    rw [← ih hstream.2 (before ++ chunk.2) hfits, ← hmerge]
    rfl

structure Shows (start : ToolCall V) (stream : Stream) (output : Text) (call : ToolCall V) : Prop where
  texts : call.lines.map TerminalLine.text = (output.splitOn '\n').dropLast.drop (output.count '\n' - terminalLineCap)
  streams : ∀ line ∈ call.lines, line.stream = stream
  seqs : call.lines.map TerminalLine.seq = (List.range (output.count '\n')).drop (output.count '\n' - terminalLineCap)
  lineCount : call.lineCount = output.count '\n'
  tail : (output.splitOn '\n').getLast? = some (call.carry stream)
  frame : ∃ lines lineCount text,
    call = { start.setCarry stream text with lines := lines, lineCount := lineCount }

theorem shows_folded (c : ToolCall V) (stream : Stream) (output : Text) :
    Shows c stream output (folded c stream output) := by
  have hlines : (folded c stream output).lines =
      (numbered stream 0 (completed '\n' output)).drop (output.count '\n' - terminalLineCap) := by
    rw [folded, List.rtake, length_numbered, length_completed]
  refine ⟨?_, ?_, ?_, length_completed output, ?_, _, _, _, rfl⟩
  · rw [hlines, map_drop, text_numbered, completed]
  · intro line hline
    rw [hlines] at hline
    exact stream_of_mem_numbered (mem_of_mem_drop hline)
  · rw [hlines, map_drop, seq_numbered, length_completed, range_eq_range']
  · rw [carry_folded, ← completed_append_fragment, getLast?_concat]

theorem chunks_fold_to_output (client : Client) (commandID tool : String) (args : List (String × V)) :
    (∀ chunks, Consecutive (client.foldChunks (newToolCall commandID tool args) chunks)) ∧
      ∀ stream output, (∀ line ∈ List.splitOn '\n' output, client.size line ≤ partialLineCap) →
        ∀ chunks chunks' : List (String × Text), (∀ chunk ∈ chunks, Stream.ofName chunk.1 = stream) →
          (chunks.map Prod.snd).flatten = output → (∀ chunk ∈ chunks', Stream.ofName chunk.1 = stream) →
          (chunks'.map Prod.snd).flatten = output → client.foldChunks (newToolCall commandID tool args) chunks =
                client.foldChunks (newToolCall commandID tool args) chunks' ∧
              Shows (newToolCall commandID tool args) stream output
                (client.foldChunks (newToolCall commandID tool args) chunks) := by
  refine ⟨client.consecutive_foldChunks (consecutive_newToolCall commandID tool args), ?_⟩
  intro stream output hfits
  have hfold : ∀ chunks : List (String × Text), (∀ chunk ∈ chunks, Stream.ofName chunk.1 = stream) →
      (chunks.map Prod.snd).flatten = output →
      client.foldChunks (newToolCall commandID tool args) chunks =
        folded (newToolCall commandID tool args) stream output := by
    rintro chunks hstream rfl
    have h := client.foldChunks_folded (newToolCall commandID tool args) hstream [] hfits
    rwa [folded_nil] at h
  intro chunks chunks' hstream hflat hstream' hflat'
  rw [hfold chunks hstream hflat, hfold chunks' hstream' hflat']
  exact ⟨rfl, shows_folded _ stream output⟩

def wholeOutput : List (String × Text) := [("stderr", "go build\nok\ndone".toList)]

def cutOutput : List (String × Text) :=
  [("stderr", "go".toList), ("stderr", " build\no".toList), ("stderr", "k\n".toList), ("stderr", "done".toList)]

def cutCall : ToolCall Unit := Client.spa.foldChunks (newToolCall "c1" "execute_script" []) cutOutput

theorem chunks_fold_to_output_cut :
    cutCall = Client.spa.foldChunks (newToolCall "c1" "execute_script" []) wholeOutput ∧
      cutCall.lines.map TerminalLine.text = ["go build".toList, "ok".toList] ∧
      cutCall.lines.map TerminalLine.seq = [0, 1] ∧ cutCall.lineCount = 2 ∧ cutCall.stderrPartial = "done".toList := by
  obtain ⟨hsame, hshows⟩ := (chunks_fold_to_output .spa "c1" "execute_script" ([] : List (String × Unit))).2 .stderr
    "go build\nok\ndone".toList (by decide +kernel) cutOutput wholeOutput (by decide) (by decide) (by decide) (by decide)
  exact ⟨hsame, hshows.texts.trans (by decide), hshows.seqs.trans (by decide), hshows.lineCount.trans (by decide),
    Option.some.inj (hshows.tail.symm.trans (by decide))⟩

end NomadDev.Clients
