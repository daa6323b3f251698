import NomadDev.WorkerScope
import NomadDev.Foundation.JsonText
import NomadDev.Foundation.Lines

namespace NomadDev.Search

open Fsops Foundation Foundation.JsonText List

structure RawMatch where
  (file text lines : Bytes)
  (startLine startColumn endLine endColumn : Int64)

structure SgMatch where
  file : Bytes
  (line column endLine endColumn : Int64)
  snippet : Bytes

structure SearchSyntaxResult where
  listed : List SgMatch
  (totalMatches returnedMatches : ℕ)
  truncated : Bool
  (originalBytes previewBytes : Int64)
  error : Bytes

/-- `json.Unmarshal` of an array and of one match. An error has a short text, and an element takes a byte. -/
structure Decoder where
  array : Bytes → Except { e : Bytes // e.length ≤ 512 } (List RawMatch)
  line : Bytes → Except { e : Bytes // e.length ≤ 512 } RawMatch
  length_array : ∀ {b ms}, array b = .ok ms → ms.length ≤ b.length

def projectMatch (m : RawMatch) : SgMatch :=
  ⟨m.file, m.startLine + 1, m.startColumn + 1, m.endLine + 1, m.endColumn + 1, if m.text = [] then m.lines else m.text⟩

def trimLeadingSpace (b : Bytes) : Bytes := b.dropWhile fun c => c == 32 || c == 9 || c == 10 || c == 13

def truncateForError (s : Bytes) (max : ℕ) : Bytes := if s.length ≤ max then s else s.take max ++ utf8 "…"

variable (dec : Decoder)

def addLine (out : List SgMatch × Bytes) (raw : Bytes) : List SgMatch × Bytes :=
  let line := WorkerPool.trimSpace raw
  if line = [] then out
  else match dec.line line with
    | .error err =>
      (out.1, if out.2 = [] then utf8 "ast-grep emitted a malformed JSON line: " ++ err.1 else out.2)
    | .ok m => (out.1 ++ [projectMatch m], out.2)

def parseStdout (rawStdout rawStderr : Bytes) : List SgMatch × Bytes :=
  if rawStdout = [] then ([], [])
  else
    let trimmed := trimLeadingSpace rawStdout
    if trimmed.head? = some 91 then
      match dec.array trimmed with
      | .error err =>
        let msg := WorkerPool.trimSpace rawStderr
        ([], utf8 "ast-grep returned unparseable JSON: " ++ err.1 ++
          if msg = [] then [] else utf8 " | stderr: " ++ truncateForError msg 512)
      | .ok raw => (raw.map projectMatch, [])
    else (rawStdout.splitOn 10).foldl (addLine dec) ([], [])

def parseOutput (rawStdout rawStderr : Bytes) : List SgMatch × Bytes :=
  let out := parseStdout dec rawStdout rawStderr
  let msg := WorkerPool.trimSpace rawStderr
  if out.1 = [] ∧ out.2 = [] ∧ msg ≠ [] then ([], truncateForError msg 512) else out

def int (n : Int64) : Bytes := Decimal.renderInt n.toInt

def marshalMatch (m : SgMatch) : Bytes :=
  object ([(utf8 "file", quote m.file), (utf8 "line", int m.line), (utf8 "column", int m.column)] ++
    fieldIf (m.endLine ≠ 0) (utf8 "end_line", int m.endLine) ++
    fieldIf (m.endColumn ≠ 0) (utf8 "end_column", int m.endColumn) ++ [(utf8 "snippet", quote m.snippet)])

def SearchSyntaxResult.marshal (out : SearchSyntaxResult) : Bytes :=
  object ([(utf8 "matches", array (out.listed.map marshalMatch)),
    (utf8 "total_matches", Decimal.render out.totalMatches),
    (utf8 "returned_matches", Decimal.render out.returnedMatches),
    (utf8 "truncated", utf8 (if out.truncated then "true" else "false"))] ++
    fieldIf (out.originalBytes ≠ 0) (utf8 "original_bytes", int out.originalBytes) ++
    fieldIf (out.previewBytes ≠ 0) (utf8 "preview_bytes", int out.previewBytes) ++
    fieldIf (out.error ≠ []) (utf8 "error", quote out.error))

def withinLimit (rawStdout rawStderr : Bytes) (softMaxMatches : ℤ) : SearchSyntaxResult :=
  let parsed := parseOutput dec rawStdout rawStderr
  let kept := if 0 < softMaxMatches ∧ softMaxMatches < parsed.1.length then parsed.1.take softMaxMatches.toNat else parsed.1
  ⟨kept, parsed.1.length, kept.length, false, 0, 0, parsed.2⟩

def searchEnvelopeOverhead : ℤ := 512

def dropMatches (budget : ℤ) : ℕ → SearchSyntaxResult → SearchSyntaxResult
  | 0, out => out
  | n + 1, out =>
    if out.listed = [] ∨ (out.marshal.length : ℤ) ≤ budget then out
    else dropMatches budget n
      { out with listed := out.listed.dropLast, returnedMatches := out.listed.dropLast.length }

def reshapeOut (rawStdout rawStderr : Bytes) (softMaxMatches maxBytes : ℤ) : SearchSyntaxResult :=
  let out := withinLimit dec rawStdout rawStderr softMaxMatches
  if maxBytes ≤ 0 ∨ (out.marshal.length : ℤ) ≤ maxBytes then out
  else
    let dropped := dropMatches (max (maxBytes - searchEnvelopeOverhead) 256) out.listed.length
      { out with truncated := true, originalBytes := Int64.ofNat out.marshal.length }
    { dropped with previewBytes := Int64.ofNat dropped.marshal.length }

def reshapeMatches (rawStdout rawStderr : Bytes) (softMaxMatches maxBytes : ℤ) : Bytes :=
  (reshapeOut dec rawStdout rawStderr softMaxMatches maxBytes).marshal

section Parsed

variable (dec : Decoder)

theorem length_truncateForError_le (s : Bytes) : (truncateForError s 512).length ≤ 515 := by
  have hdots : (utf8 "…").length = 3 := by decide +kernel
  unfold truncateForError
  split
  · omega
  · rw [length_append, length_take, hdots]
    omega

theorem addLine_bounds {out : List SgMatch × Bytes} (raw : Bytes) (h : out.2.length ≤ 552) :
    (addLine dec out raw).1.length ≤ out.1.length + 1 ∧ (addLine dec out raw).2.length ≤ 552 := by
  have htext : (utf8 "ast-grep emitted a malformed JSON line: ").length = 40 := by decide +kernel
  unfold addLine
  simp only
  split
  · exact ⟨Nat.le_succ _, h⟩
  split
  next err _ =>
    refine ⟨Nat.le_succ _, ?_⟩
    split
    · rw [length_append, htext]
      exact Nat.add_le_add_left err.2 40
    · exact h
  · exact ⟨by rw [length_append]; rfl, h⟩

theorem foldl_addLine_bounds (lines : List Bytes) (out : List SgMatch × Bytes) (h : out.2.length ≤ 552) :
    (lines.foldl (addLine dec) out).1.length ≤ out.1.length + lines.length ∧
      (lines.foldl (addLine dec) out).2.length ≤ 552 := by
  induction lines generalizing out with
  | nil => exact ⟨Nat.le_refl _, h⟩
  | cons line lines ih =>
    have hline := addLine_bounds dec line h
    have hrest := ih _ hline.2
    rw [foldl_cons, length_cons]
    exact ⟨by omega, hrest.2⟩

theorem parseStdout_bounds (rawStdout rawStderr : Bytes) :
    (parseStdout dec rawStdout rawStderr).1.length ≤ rawStdout.length + 1 ∧
      (parseStdout dec rawStdout rawStderr).2.length ≤ 1074 := by
  have hjson : (utf8 "ast-grep returned unparseable JSON: ").length = 36 := by decide +kernel
  have hstderr : (utf8 " | stderr: ").length = 11 := by decide +kernel
  unfold parseStdout
  split
  · exact ⟨Nat.zero_le _, Nat.zero_le _⟩
  simp only
  split
  · split
    next err _ =>
      refine ⟨Nat.zero_le _, ?_⟩
      have herr := err.2
      have hmsg := length_truncateForError_le (WorkerPool.trimSpace rawStderr)
      rw [length_append, length_append, hjson]
      split
      · rw [length_nil]
        omega
      · rw [length_append, hstderr]
        omega
    next raw hraw =>
      have htrim : (trimLeadingSpace rawStdout).length ≤ rawStdout.length := (dropWhile_sublist _).length_le
      have hlength := dec.length_array hraw
      exact ⟨by rw [length_map]; omega, Nat.zero_le _⟩
  · have hlines := foldl_addLine_bounds dec (rawStdout.splitOn 10) ([], []) (Nat.zero_le _)
    rw [Lines.length_splitOn] at hlines
    have hcount : rawStdout.count 10 ≤ rawStdout.length := count_le_length
    exact ⟨by simp only [length_nil] at hlines; omega, by omega⟩

theorem parseOutput_bounds (rawStdout rawStderr : Bytes) :
    (parseOutput dec rawStdout rawStderr).1.length ≤ rawStdout.length + 1 ∧
      (parseOutput dec rawStdout rawStderr).2.length ≤ 1074 := by
  unfold parseOutput
  simp only
  split
  · have hmsg := length_truncateForError_le (WorkerPool.trimSpace rawStderr)
    exact ⟨Nat.zero_le _, hmsg.trans (by decide)⟩
  · exact parseStdout_bounds dec rawStdout rawStderr

end Parsed

section Length

variable {out : SearchSyntaxResult}

theorem length_int_le (n : Int64) : (int n).length ≤ 20 := by
  have hlow := n.le_toInt
  have hhigh := n.toInt_lt
  exact Decimal.length_renderInt_le (k := 19) (by decide) (by omega)

theorem length_marshal (out : SearchSyntaxResult) : out.marshal.length =
    (array (out.listed.map marshalMatch)).length + (Decimal.render out.totalMatches).length +
      (Decimal.render out.returnedMatches).length + (utf8 (if out.truncated then "true" else "false")).length + 62 +
      weight (fieldIf (out.originalBytes ≠ 0) (utf8 "original_bytes", int out.originalBytes)) +
      weight (fieldIf (out.previewBytes ≠ 0) (utf8 "preview_bytes", int out.previewBytes)) +
      weight (fieldIf (out.error ≠ []) (utf8 "error", quote out.error)) := by
  have hmatches : (utf8 "matches").length = 7 := by decide +kernel
  have htotal : (utf8 "total_matches").length = 13 := by decide +kernel
  have hreturned : (utf8 "returned_matches").length = 16 := by decide +kernel
  have htruncated : (utf8 "truncated").length = 9 := by decide +kernel
  rw [SearchSyntaxResult.marshal, length_object (by simp)]
  simp only [weight_append, weight_cons, weight_nil, hmatches, htotal, hreturned, htruncated]
  omega

theorem length_marshal_preview_le (out : SearchSyntaxResult) (n : Int64) :
    ({ out with previewBytes := n } : SearchSyntaxResult).marshal.length ≤ out.marshal.length + 37 := by
  have hkey : (utf8 "preview_bytes").length = 13 := by decide +kernel
  have hweight := weight_fieldIf_le (n ≠ 0) (utf8 "preview_bytes", int n)
  have hint := length_int_le n
  simp only [hkey] at hweight
  rw [length_marshal, length_marshal]
  simp only
  omega

theorem length_marshal_nil_le (out : SearchSyntaxResult) (htotal : out.totalMatches ≤ 2 ^ 63)
    (herror : out.error.length ≤ 1074)
    (hlisted : out.listed = []) (hreturned : out.returnedMatches = 0) : out.marshal.length ≤ 8000 := by
  have horiginal : (utf8 "original_bytes").length = 14 := by decide +kernel
  have hpreview : (utf8 "preview_bytes").length = 13 := by decide +kernel
  have hkey : (utf8 "error").length = 5 := by decide +kernel
  have hbool : (utf8 (if out.truncated then "true" else "false")).length ≤ 5 := by
    cases out.truncated <;> decide +kernel
  have hzero : (Decimal.render 0).length = 1 := rfl
  have hempty : (array []).length = 2 := rfl
  have hdigits := Decimal.length_render_le (n := out.totalMatches) (k := 19) (by decide) (by omega)
  have horiginal' := weight_fieldIf_le (out.originalBytes ≠ 0) (utf8 "original_bytes", int out.originalBytes)
  have hpreview' := weight_fieldIf_le (out.previewBytes ≠ 0) (utf8 "preview_bytes", int out.previewBytes)
  have herror' := weight_fieldIf_le (out.error ≠ []) (utf8 "error", quote out.error)
  have hint := length_int_le out.originalBytes
  have hint' := length_int_le out.previewBytes
  have hquote := length_quote_le out.error
  simp only [horiginal, hpreview, hkey] at horiginal' hpreview' herror'
  rw [length_marshal, hlisted, hreturned, map_nil, hempty, hzero]
  omega

end Length

def SearchSyntaxResult.listing (out : SearchSyntaxResult) (kept : List SgMatch) : SearchSyntaxResult :=
  { out with listed := kept, returnedMatches := kept.length }

-- The loop tries the prefixes from the longest on, so what it keeps is the longest one that fits.
theorem dropMatches_spec (budget : ℤ) {n : ℕ} (out : SearchSyntaxResult) (hn : out.listed.length ≤ n)
    (hreturned : out.returnedMatches = out.listed.length) :
    ∃ kept, kept <+: out.listed ∧ dropMatches budget n out = out.listing kept ∧
      (kept = [] ∨ ((out.listing kept).marshal.length : ℤ) ≤ budget) ∧
      ∀ more, more <+: out.listed → kept.length < more.length → budget < ((out.listing more).marshal.length : ℤ) := by
  have hself : out = out.listing out.listed := by rw [SearchSyntaxResult.listing, ← hreturned]
  have hlongest : ∀ more, more <+: out.listed → ¬out.listed.length < more.length := fun more hmore =>
    Nat.not_lt.mpr hmore.length_le
  induction n generalizing out with
  | zero =>
    exact ⟨out.listed, prefix_rfl, hself, .inl (length_eq_zero_iff.mp (Nat.le_zero.mp hn)),
      fun more hmore hlt => absurd hlt (hlongest more hmore)⟩
  | succ n ih =>
    unfold dropMatches
    split
    next hstop =>
      exact ⟨out.listed, prefix_rfl, hself, by rwa [← hself], fun more hmore hlt => absurd hlt (hlongest more hmore)⟩
    next hover =>
      obtain ⟨hne, hover⟩ := not_or.mp hover
      have hlength : out.listed.dropLast.length ≤ n := by
        rw [length_dropLast]
        omega
      obtain ⟨kept, hkept, heq, hfits, hmax⟩ := ih (out.listing out.listed.dropLast) hlength rfl rfl
        fun more hmore => Nat.not_lt.mpr hmore.length_le
      refine ⟨kept, hkept.trans out.listed.dropLast_prefix, heq, hfits, fun more hmore hlt => ?_⟩
      by_cases hall : more = out.listed
      · rw [hall, ← hself]
        exact Int.not_le.mp hover
      apply hmax more _ hlt
      have hshort : more.length ≤ out.listed.dropLast.length := by
        have hlt := lt_of_le_of_ne hmore.length_le fun heq => hall (hmore.eq_of_length heq)
        rw [length_dropLast]
        omega
      exact prefix_of_prefix_length_le hmore out.listed.dropLast_prefix hshort

theorem withinLimit_eq (rawStdout rawStderr : Bytes) (softMaxMatches : ℤ) :
    withinLimit dec rawStdout rawStderr softMaxMatches =
      let parsed := parseOutput dec rawStdout rawStderr
      let within := if 0 < softMaxMatches then parsed.1.take softMaxMatches.toNat else parsed.1
      ⟨within, parsed.1.length, within.length, false, 0, 0, parsed.2⟩ := by
  have hkept : (if 0 < softMaxMatches ∧ softMaxMatches < (parseOutput dec rawStdout rawStderr).1.length then
        (parseOutput dec rawStdout rawStderr).1.take softMaxMatches.toNat else (parseOutput dec rawStdout rawStderr).1) =
      if 0 < softMaxMatches then (parseOutput dec rawStdout rawStderr).1.take softMaxMatches.toNat
      else (parseOutput dec rawStdout rawStderr).1 := by
    split <;> split
    · rfl
    · omega
    · rw [take_of_length_le (by omega)]
    · rfl
  simp only [withinLimit, hkept]

theorem reshaped_envelope (dec : Decoder) (rawStdout : { b : Bytes // b.length < 2 ^ 63 }) (rawStderr : Bytes)
    (softMaxMatches maxBytes : ℤ) (h : 8192 ≤ maxBytes) :
    let parsed := (parseOutput dec rawStdout.1 rawStderr).1
    let within := if 0 < softMaxMatches then parsed.take softMaxMatches.toNat else parsed
    let full : SearchSyntaxResult :=
      ⟨within, parsed.length, within.length, false, 0, 0, (parseOutput dec rawStdout.1 rawStderr).2⟩
    let out := reshapeOut dec rawStdout.1 rawStderr softMaxMatches maxBytes
    ((reshapeMatches dec rawStdout.1 rawStderr softMaxMatches maxBytes).length : ℤ) ≤ maxBytes ∧
      reshapeMatches dec rawStdout.1 rawStderr softMaxMatches maxBytes = out.marshal ∧ out.listed <+: within ∧
      out.returnedMatches = out.listed.length ∧ out.totalMatches = parsed.length ∧ out.error = full.error ∧
      (out.truncated = true ↔ maxBytes < full.marshal.length) ∧ (out.truncated = false → out = full) ∧
      (out.truncated = true → ∀ more, more <+: within → out.listed.length < more.length →
        maxBytes - 512 < (SearchSyntaxResult.marshal ⟨more, parsed.length, more.length, true,
          Int64.ofNat full.marshal.length, 0, full.error⟩).length) := by
  intro parsed within full out
  obtain ⟨hparsed, herror⟩ := parseOutput_bounds dec rawStdout.1 rawStderr
  have hfull : withinLimit dec rawStdout.1 rawStderr softMaxMatches = full :=
    withinLimit_eq dec rawStdout.1 rawStderr softMaxMatches
  have hout : out = if maxBytes ≤ 0 ∨ (full.marshal.length : ℤ) ≤ maxBytes then full
      else
        let dropped := dropMatches (max (maxBytes - searchEnvelopeOverhead) 256) full.listed.length
          { full with truncated := true, originalBytes := Int64.ofNat full.marshal.length }
        { dropped with previewBytes := Int64.ofNat dropped.marshal.length } := by
    rw [← hfull]
    rfl
  have hmarshal : reshapeMatches dec rawStdout.1 rawStderr softMaxMatches maxBytes = out.marshal := rfl
  by_cases hfits : (full.marshal.length : ℤ) ≤ maxBytes
  · rw [if_pos (.inr hfits)] at hout
    rw [hmarshal, hout]
    exact ⟨hfits, rfl, prefix_rfl, rfl, rfl, rfl, iff_of_false Bool.false_ne_true (Int.not_lt.mpr hfits), fun _ => rfl,
      fun htrue => absurd htrue Bool.false_ne_true⟩
  · have hbudget : max (maxBytes - searchEnvelopeOverhead) 256 = maxBytes - 512 := by
      rw [searchEnvelopeOverhead]
      omega
    rw [if_neg (not_or.mpr ⟨by omega, hfits⟩), hbudget] at hout
    obtain ⟨kept, hkept, heq, hstop, hmax⟩ := dropMatches_spec (maxBytes - 512)
      { full with truncated := true, originalBytes := Int64.ofNat full.marshal.length }
      (Nat.le_refl full.listed.length) rfl
    simp only [heq] at hout
    rw [hmarshal, hout]
    refine ⟨?_, rfl, hkept, rfl, rfl, rfl, iff_of_true rfl (Int.not_le.mp hfits),
      fun hfalse => absurd hfalse.symm Bool.false_ne_true, fun _ more hmore hlt => hmax more hmore hlt⟩
    rcases hstop with rfl | hroom
    · have hnil := length_marshal_nil_le out (by rw [hout]; exact hparsed.trans rawStdout.2) (by rw [hout]; exact herror)
        (by rw [hout]; rfl) (by rw [hout]; rfl)
      rw [hout] at hnil
      omega
    · exact (Int.ofNat_le.mpr (length_marshal_preview_le _ _)).trans (by omega)

def tags (n : ℕ) : Decoder :=
  ⟨fun _ => .error ⟨[], by decide⟩, fun line => .ok ⟨line, replicate n 60, [], 0, 0, 0, 1⟩, nofun⟩

def threeLines : { b : Bytes // b.length < 2 ^ 63 } := ⟨utf8 "a.go\nb.go\nc.go", by decide +kernel⟩

def reshapedTags (n : ℕ) : SearchSyntaxResult := reshapeOut (tags n) threeLines.1 [] 2 8192

theorem reshaped_envelope_three_matches :
    ((reshapedTags 1).listed.map SgMatch.file = [utf8 "a.go", utf8 "b.go"] ∧ (reshapedTags 1).returnedMatches = 2 ∧
        (reshapedTags 1).totalMatches = 3 ∧ (reshapedTags 1).truncated = false) ∧
      (reshapedTags 700).listed.map SgMatch.file <+: [utf8 "a.go", utf8 "b.go"] ∧ (reshapedTags 700).totalMatches = 3 ∧
      (reshapedTags 700).truncated = true ∧ ((reshapedTags 700).marshal.length : ℤ) ≤ 8192 := by
  obtain ⟨-, -, -, -, htotal, -, htruncated, hall, -⟩ := reshaped_envelope (tags 1) threeLines [] 2 8192 (by decide)
  have hshort : (reshapedTags 1).truncated = false :=
    Bool.eq_false_of_not_eq_true (htruncated.not.mpr (by decide +kernel))
  obtain ⟨hlength, -, hlisted, -, htotal', -, htruncated', -⟩ :=
    reshaped_envelope (tags 700) threeLines [] 2 8192 (by decide)
  refine ⟨⟨?_, ?_, htotal.trans (by decide +kernel), hshort⟩, ?_, htotal'.trans (by decide +kernel),
    htruncated'.mpr (by decide +kernel), hlength⟩
  · rw [show reshapedTags 1 = _ from hall hshort]
    decide +kernel
  · rw [show reshapedTags 1 = _ from hall hshort]
    decide +kernel
  · exact (hlisted.map SgMatch.file).trans (by decide +kernel)

end NomadDev.Search
