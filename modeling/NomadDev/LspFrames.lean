import NomadDev.WorkerScope
import NomadDev.Foundation.Decimal
import Mathlib.Data.List.DropRight

/-!
The reader is the bytes that are still to come.
-/

namespace NomadDev.Lsp.Frames

open Fsops Foundation List

abbrev Body : Type := { b : Bytes // b.length < 2 ^ 63 }

inductive FrameErr
  | eof
  | unexpectedEOF
  | badLength (v : Bytes)
  | missingLength

def newline : UInt8 := 10

def carriageReturn : UInt8 := 13

def contentLengthKey : Bytes := utf8 "Content-Length:"

def contentLengthLine (n : ℕ) : Bytes := contentLengthKey ++ 32 :: Decimal.render n ++ [carriageReturn]

def writeLSPFrame {μ : Type} (marshal : μ → Option Body) (msg : μ) : Bytes :=
  match marshal msg with
  | none => []
  | some body => contentLengthLine body.1.length ++ [newline, carriageReturn, newline] ++ body.1

def readString : Bytes → Option (Bytes × Bytes)
  | [] => none
  | c :: r => if c = newline then some ([c], r) else (readString r).map fun found => (c :: found.1, found.2)

def lineEnd (c : UInt8) : Bool := c == carriageReturn || c == newline

-- `strconv.Atoi` where an `int` has 64 bits.
def atoi (s : Bytes) : Option ℤ := (Decimal.parseInt s).filter fun n => -2 ^ 63 ≤ n && n < 2 ^ 63

theorem readString_length {r line rest : Bytes} (h : readString r = some (line, rest)) : rest.length < r.length := by
  induction r generalizing line with
  | nil => cases h
  | cons c r ih =>
    unfold readString at h
    split at h
    · cases h
      exact Nat.lt_succ_self _
    · obtain ⟨⟨line', rest'⟩, hfound, heq⟩ := Option.map_eq_some_iff.mp h
      cases heq
      exact Nat.lt_succ_of_lt (ih hfound)

def readHeader (contentLength : ℤ) (r : Bytes) : Except FrameErr (ℤ × Bytes) :=
  match h : readString r with
  | none => .error .eof
  | some (raw, rest) =>
    have : rest.length < r.length := readString_length h
    let line := raw.rdropWhile lineEnd
    if line = [] then .ok (contentLength, rest)
    else if contentLengthKey.isPrefixOf line then
      match atoi (WorkerPool.trimSpace (line.drop contentLengthKey.length)) with
      | none => .error (.badLength (line.drop contentLengthKey.length))
      | some n => readHeader n rest
    else readHeader contentLength rest
termination_by r.length

def readFull (n : ℕ) (r : Bytes) : Except FrameErr (Bytes × Bytes) :=
  if n ≤ r.length then .ok (r.take n, r.drop n)
  else if r = [] then .error .eof
  else .error .unexpectedEOF

def readLSPFrame (r : Bytes) : Except FrameErr (Bytes × Bytes) :=
  match readHeader (-1) r with
  | .error err => .error err
  | .ok (contentLength, rest) =>
    if contentLength < 0 then .error .missingLength else readFull contentLength.toNat rest

theorem readHeader_length {contentLength n : ℤ} {r rest : Bytes} (h : readHeader contentLength r = .ok (n, rest)) :
    rest.length < r.length := by
  induction hr : r.length using Nat.strongRecOn generalizing contentLength r with
  | ind k ih =>
    subst hr
    rw [readHeader] at h
    split at h
    · cases h
    next raw rest' hread =>
    have hlt := readString_length hread
    simp only at h
    split at h
    · cases h
      exact hlt
    split at h
    · split at h
      · cases h
      · exact (ih _ hlt h rfl).trans hlt
    · exact (ih _ hlt h rfl).trans hlt

theorem readLSPFrame_length {r body rest : Bytes} (h : readLSPFrame r = .ok (body, rest)) : rest.length < r.length := by
  unfold readLSPFrame at h
  split at h
  · cases h
  next n rest' hheader =>
  have hlt := readHeader_length hheader
  split at h
  · cases h
  unfold readFull at h
  split at h
  · cases h
    rw [length_drop]
    omega
  split at h <;> cases h

def readBodies (r : Bytes) : List Bytes × FrameErr :=
  match h : readLSPFrame r with
  | .error err => ([], err)
  | .ok (body, rest) =>
    have : rest.length < r.length := readLSPFrame_length h
    (body :: (readBodies rest).1, (readBodies rest).2)
termination_by r.length

structure OtherHeader where
  line : Bytes
  noNewline : newline ∉ line
  notBlank : line.rdropWhile lineEnd ≠ []
  other : contentLengthKey.isPrefixOf (line.rdropWhile lineEnd) = false

structure Frame where
  (before after : List OtherHeader)
  body : Body

def otherLines (headers : List OtherHeader) : Bytes := headers.flatMap fun o => o.line ++ [newline]

def Frame.bytes (f : Frame) : Bytes :=
  otherLines f.before ++ contentLengthLine f.body.1.length ++ [newline] ++ otherLines f.after ++
    [carriageReturn, newline] ++ f.body.1

section Read

variable {line r : Bytes}

theorem readString_line (h : newline ∉ line) (r : Bytes) :
    readString (line ++ newline :: r) = some (line ++ [newline], r) := by
  induction line with
  | nil => rfl
  | cons c line ih =>
    rw [mem_cons, not_or] at h
    rw [cons_append, readString, if_neg (Ne.symm h.1), ih h.2]
    rfl

theorem rdropWhile_lineEnd_concat (line : Bytes) : (line ++ [newline]).rdropWhile lineEnd = line.rdropWhile lineEnd :=
  rdropWhile_concat_pos lineEnd line newline (by decide)

theorem readHeader_blank (contentLength : ℤ) (r : Bytes) :
    readHeader contentLength (carriageReturn :: newline :: r) = .ok (contentLength, r) := by
  have hnot : newline ∉ [carriageReturn] := by decide
  have hread : readString (carriageReturn :: newline :: r) = some ([carriageReturn, newline], r) := readString_line hnot r
  rw [readHeader]
  split
  next hnone => rw [hread] at hnone; cases hnone
  next raw rest hsome =>
  rw [hread] at hsome
  cases hsome
  rw [if_pos (by decide)]

theorem readHeader_other (o : OtherHeader) (contentLength : ℤ) (r : Bytes) :
    readHeader contentLength (o.line ++ newline :: r) = readHeader contentLength r := by
  have hread := readString_line o.noNewline r
  rw [readHeader]
  split
  next hnone => rw [hread] at hnone; cases hnone
  next raw rest hsome =>
  rw [hread] at hsome
  cases hsome
  simp only [rdropWhile_lineEnd_concat, if_neg o.notBlank, o.other, Bool.false_eq_true, if_false]

theorem readHeader_otherLines (headers : List OtherHeader) (contentLength : ℤ) (r : Bytes) :
    readHeader contentLength (otherLines headers ++ r) = readHeader contentLength r := by
  induction headers with
  | nil => rfl
  | cons o headers ih =>
    rw [otherLines, flatMap_cons, append_assoc, append_assoc, singleton_append, readHeader_other]
    exact ih

end Read

section ContentLength

variable {n : ℕ}

theorem trimStart_digit {cut : List Bytes} (hcut : ∀ w ∈ cut, ∃ c rest, w = c :: rest ∧ Decimal.isDigit c = false)
    {c : UInt8} (hc : Decimal.isDigit c = true) (fuel : ℕ) (s : Bytes) :
    WorkerPool.trimStart cut fuel (c :: s) = c :: s := by
  have hnone : cut.find? (·.isPrefixOf (c :: s)) = none := by
    rw [List.find?_eq_none]
    intro w hw hpre
    obtain ⟨d, rest, rfl, hd⟩ := hcut w hw
    obtain rfl := (cons_prefix_cons.mp (List.isPrefixOf_iff_prefix.mp hpre)).1
    rw [hd] at hc
    cases hc
  cases fuel with
  | zero => rfl
  | succ fuel => rw [WorkerPool.trimStart, hnone]

theorem spaces_not_digit : ∀ w ∈ WorkerPool.spaces, ∃ c rest, w = c :: rest ∧ Decimal.isDigit c = false := by
  simp [WorkerPool.spaces, Decimal.isDigit]

theorem reversed_spaces_not_digit :
    ∀ w ∈ WorkerPool.spaces.map List.reverse, ∃ c rest, w = c :: rest ∧ Decimal.isDigit c = false := by
  simp [WorkerPool.spaces, Decimal.isDigit]

theorem trimSpace_render (n : ℕ) : WorkerPool.trimSpace (32 :: Decimal.render n) = Decimal.render n := by
  obtain ⟨c, s, hcons⟩ := exists_cons_of_ne_nil (Decimal.render_ne_nil n)
  have hrev : (Decimal.render n).reverse ≠ [] := by simpa using Decimal.render_ne_nil n
  obtain ⟨d, t, hlast⟩ := exists_cons_of_ne_nil hrev
  have hc : Decimal.isDigit c = true := Decimal.isDigit_of_mem_render (n := n) (hcons ▸ mem_cons_self)
  have hd : Decimal.isDigit d = true :=
    Decimal.isDigit_of_mem_render (n := n) (mem_reverse.mp (hlast ▸ mem_cons_self))
  have hleft : WorkerPool.trimStart WorkerPool.spaces (32 :: Decimal.render n).length (32 :: Decimal.render n) =
      Decimal.render n := by
    have hfind : WorkerPool.spaces.find? (·.isPrefixOf (32 :: Decimal.render n)) = some [32] := by
      simp [WorkerPool.spaces, List.find?, List.isPrefixOf]
    rw [length_cons, WorkerPool.trimStart, hfind]
    simp only [length_singleton, drop_succ_cons, drop_zero]
    rw [hcons, trimStart_digit spaces_not_digit hc]
  rw [WorkerPool.trimSpace, hleft, hlast, trimStart_digit reversed_spaces_not_digit hd, ← hlast, reverse_reverse]

theorem atoi_render (hn : n < 2 ^ 63) : atoi (Decimal.render n) = some (n : ℤ) := by
  have hrange : (-2 ^ 63 ≤ (n : ℤ) && (n : ℤ) < 2 ^ 63) = true := by
    simp only [Bool.and_eq_true, decide_eq_true_eq]
    omega
  rw [atoi, Decimal.parseInt_render, Option.filter_some, if_pos hrange]

theorem not_mem_contentLengthLine (n : ℕ) : newline ∉ contentLengthLine n := by
  have hkey : newline ∉ contentLengthKey := by decide +kernel
  have hrender : newline ∉ Decimal.render n := fun h => absurd (Decimal.isDigit_of_mem_render h) (by decide)
  simp only [contentLengthLine, mem_append, mem_cons, not_mem_nil, or_false, not_or]
  exact ⟨⟨hkey, by decide, hrender⟩, by decide⟩

theorem rdropWhile_contentLengthLine (n : ℕ) :
    (contentLengthLine n).rdropWhile lineEnd = contentLengthKey ++ 32 :: Decimal.render n := by
  have hne : contentLengthKey ++ 32 :: Decimal.render n ≠ [] := by simp
  rw [contentLengthLine, rdropWhile_concat_pos _ _ _ (by decide), rdropWhile_eq_self_iff]
  intro _ hend
  have hmem : (contentLengthKey ++ 32 :: Decimal.render n).getLast hne ∈ Decimal.render n := by
    rw [getLast_append_of_ne_nil _ (cons_ne_nil _ _), getLast_cons (Decimal.render_ne_nil n)]
    exact getLast_mem _
  have hnot : ∀ c, Decimal.isDigit c = true → lineEnd c = false := by
    intro c hc
    rw [Bool.eq_false_iff]
    intro hcr
    simp only [lineEnd, Bool.or_eq_true, beq_iff_eq] at hcr
    rcases hcr with rfl | rfl <;> exact absurd hc (by decide)
  rw [hnot _ (Decimal.isDigit_of_mem_render hmem)] at hend
  cases hend

theorem readHeader_contentLength (hn : n < 2 ^ 63) (contentLength : ℤ) (r : Bytes) :
    readHeader contentLength (contentLengthLine n ++ newline :: r) = readHeader n r := by
  have hread := readString_line (not_mem_contentLengthLine n) r
  rw [readHeader]
  split
  next hnone => rw [hread] at hnone; cases hnone
  next raw rest hsome =>
  rw [hread] at hsome
  cases hsome
  have hne : contentLengthKey ++ 32 :: Decimal.render n ≠ [] := by simp
  have hpre : contentLengthKey.isPrefixOf (contentLengthKey ++ 32 :: Decimal.render n) = true :=
    isPrefixOf_iff_prefix.mpr (prefix_append _ _)
  simp only [rdropWhile_lineEnd_concat, rdropWhile_contentLengthLine, if_neg hne, hpre, if_true, drop_left,
    trimSpace_render, atoi_render hn]

end ContentLength

theorem readLSPFrame_bytes (f : Frame) (r : Bytes) : readLSPFrame (f.bytes ++ r) = .ok (f.body.1, r) := by
  have hheader : readHeader (-1) (f.bytes ++ r) = .ok ((f.body.1.length : ℤ), f.body.1 ++ r) := by
    simp only [Frame.bytes, append_assoc, cons_append, nil_append]
    rw [readHeader_otherLines, readHeader_contentLength f.body.2, readHeader_otherLines, readHeader_blank]
  have hle : f.body.1.length ≤ (f.body.1 ++ r).length := by simp
  have hnonneg : ¬ (f.body.1.length : ℤ) < 0 := Int.not_lt.mpr (Int.natCast_nonneg _)
  rw [readLSPFrame, hheader]
  simp only [hnonneg, if_false, Int.toNat_natCast, readFull, hle, if_true, take_left, drop_left]

theorem readBodies_cons (f : Frame) (r : Bytes) :
    readBodies (f.bytes ++ r) = (f.body.1 :: (readBodies r).1, (readBodies r).2) := by
  have hread := readLSPFrame_bytes f r
  rw [readBodies]
  split
  next err herr => rw [hread] at herr; cases herr
  next body rest hok =>
  rw [hread] at hok
  cases hok
  rfl

theorem readBodies_nil : readBodies [] = ([], .eof) := by
  have hread : readLSPFrame [] = .error .eof := by
    rw [readLSPFrame, readHeader]
    rfl
  rw [readBodies]
  split
  next err herr =>
    rw [hread] at herr
    cases herr
    rfl
  next body rest hok => rw [hread] at hok; cases hok

theorem readBodies_frames (frames : List Frame) :
    readBodies (frames.flatMap Frame.bytes) = (frames.map fun f => f.body.1, .eof) := by
  induction frames with
  | nil => exact readBodies_nil
  | cons f frames ih => rw [flatMap_cons, readBodies_cons, ih]; rfl

theorem writeLSPFrame_of_marshal {μ : Type} {marshal : μ → Option Body} {msg : μ} {body : Body}
    (h : marshal msg = some body) : writeLSPFrame marshal msg = Frame.bytes ⟨[], [], body⟩ := by
  simp [writeLSPFrame, h, Frame.bytes, otherLines]

theorem flatMap_writeLSPFrame {μ : Type} (marshal : μ → Option Body) (msgs : List μ) :
    msgs.flatMap (writeLSPFrame marshal) = ((msgs.filterMap marshal).map fun b => ⟨[], [], b⟩).flatMap Frame.bytes := by
  induction msgs with
  | nil => rfl
  | cons msg msgs ih =>
    cases h : marshal msg with
    | none => rw [flatMap_cons, filterMap_cons_none h, ih, writeLSPFrame, h]; rfl
    | some body =>
      rw [flatMap_cons, filterMap_cons_some h, ih, writeLSPFrame_of_marshal h]
      rfl

theorem read_back_frames {μ : Type} (marshal : μ → Option Body) (msgs : List μ) (frames : List Frame) :
    readBodies (msgs.flatMap (writeLSPFrame marshal)) = ((msgs.filterMap marshal).map Subtype.val, .eof) ∧
      (∀ msg body, marshal msg = some body → writeLSPFrame marshal msg = Frame.bytes ⟨[], [], body⟩) ∧
      readBodies (frames.flatMap Frame.bytes) = (frames.map fun f => f.body.1, .eof) := by
  refine ⟨?_, fun msg body => writeLSPFrame_of_marshal, readBodies_frames frames⟩
  rw [flatMap_writeLSPFrame, readBodies_frames, map_map]
  rfl

end NomadDev.Lsp.Frames
