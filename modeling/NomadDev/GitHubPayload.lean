import NomadDev.Patches
import NomadDev.Foundation.JsonText

namespace NomadDev.GitHub.Payload

open Fsops Foundation Foundation.JsonText List

abbrev Marshalled : Type := { b : Bytes // Valid b }

inductive Content
  | text (s : Bytes)
  | other (raw : Option Marshalled)

/-- The structured content was decoded from JSON, so it can be encoded. -/
structure CallToolResult where
  content : List Content
  structured : Option Marshalled
  isError : Bool

structure ContentEntry where
  (type text : Bytes)

def Content.entry : Content → Option ContentEntry
  | .text s => some ⟨utf8 "text", s⟩
  | .other raw => raw.map fun r => ⟨utf8 "raw", r.1⟩

def ContentEntry.marshal (e : ContentEntry) : Bytes :=
  object ((utf8 "type", quote e.type) :: fieldIf (e.text ≠ []) (utf8 "text", quote e.text))

def marshalContent (entries : List ContentEntry) : Bytes :=
  if entries = [] then utf8 "null" else array (entries.map ContentEntry.marshal)

def errorField (isError : Bool) : List Field := fieldIf (isError = true) (utf8 "is_error", utf8 "true")

def encodeResult (r : CallToolResult) : Bytes :=
  object ((utf8 "content", marshalContent (r.content.filterMap Content.entry)) ::
    (r.structured.toList.map fun v => (utf8 "structured", v.1)) ++ errorField r.isError)

def notice (original preview : ℕ) : Bytes :=
  utf8 "[githubmcp: result truncated — original " ++ Decimal.render original ++ utf8 " bytes, preview " ++
    Decimal.render preview ++ utf8 (" bytes; retry with a narrower query (smaller page, specific path) for " ++
      "a complete response]\n\n")

def envelopeOverhead : ℤ := 512

def previewMax (maxBytes : ℤ) : ℕ := (max (maxBytes - envelopeOverhead) 256).toNat

def truncatedText (payload : Bytes) (maxBytes : ℤ) : Bytes :=
  let preview := payload.take (previewMax maxBytes)
  notice payload.length preview.length ++ preview

def truncatePayload (payload : Bytes) (maxBytes : ℤ) (wasError : Bool) : Bytes :=
  let preview := payload.take (previewMax maxBytes)
  object ((utf8 "content", array [object [(utf8 "text", quote (truncatedText payload maxBytes)),
      (utf8 "type", quote (utf8 "text"))]]) ::
    errorField wasError ++
    [(utf8 "truncated", utf8 "true"), (utf8 "original_bytes", Decimal.render payload.length),
      (utf8 "preview_bytes", Decimal.render preview.length)])

def payload (maxResultBytes : ℤ) (r : CallToolResult) : Bytes :=
  if 0 < maxResultBytes ∧ maxResultBytes < (encodeResult r).length then
    truncatePayload (encodeResult r) maxResultBytes r.isError
  else encodeResult r

def Sound (fields : List Field) : Prop := ∀ f ∈ fields, Chars f.1 ∧ Valid f.2

theorem Sound.valid {fields : List Field} (h : Sound fields) : Valid (object fields) :=
  .object (fun f hf => (h f hf).1) fun f hf => (h f hf).2

theorem Sound.append {fields fields' : List Field} (h : Sound fields) (h' : Sound fields') :
    Sound (fields ++ fields') := forall_mem_append.mpr ⟨h, h'⟩

theorem sound_fieldIf {p : Prop} [Decidable p] {f : Field} (hname : Chars f.1) (hvalue : Valid f.2) :
    Sound (fieldIf p f) := by
  unfold fieldIf
  split
  · exact forall_mem_singleton.mpr ⟨hname, hvalue⟩
  · exact forall_mem_nil _

theorem chars_names : ∀ name ∈ [utf8 "type", utf8 "text", utf8 "content", utf8 "structured", utf8 "is_error",
    utf8 "truncated", utf8 "original_bytes", utf8 "preview_bytes"], Chars name := by
  refine fun name hname => chars_of_plain ?_
  revert name
  decide +kernel

theorem valid_true : Valid (utf8 "true") := Valid.true

theorem sound_errorField (isError : Bool) : Sound (errorField isError) :=
  sound_fieldIf (chars_names _ (by simp)) valid_true

theorem valid_entry (e : ContentEntry) : Valid e.marshal :=
  Sound.valid (forall_mem_cons.mpr ⟨⟨chars_names _ (by simp), valid_quote _⟩,
    sound_fieldIf (chars_names _ (by simp)) (valid_quote _)⟩)

theorem valid_content (entries : List ContentEntry) : Valid (marshalContent entries) := by
  unfold marshalContent
  split
  · exact Valid.null
  · exact .array (forall_mem_map.mpr fun e _ => valid_entry e)

theorem valid_encodeResult (r : CallToolResult) : Valid (encodeResult r) := by
  have hstructured : Sound (r.structured.toList.map fun v => (utf8 "structured", v.1)) :=
    forall_mem_map.mpr fun v _ => ⟨chars_names _ (by simp), v.2⟩
  refine Sound.valid (Sound.append (forall_mem_cons.mpr ⟨⟨?_, valid_content _⟩, hstructured⟩) ?_)
  · exact chars_names _ (by simp)
  · exact sound_errorField r.isError

theorem valid_truncatePayload (p : Bytes) (maxBytes : ℤ) (wasError : Bool) :
    Valid (truncatePayload p maxBytes wasError) := by
  have htext : Valid (object [(utf8 "text", quote (truncatedText p maxBytes)), (utf8 "type", quote (utf8 "text"))]) :=
    Sound.valid (forall_mem_cons.mpr ⟨⟨chars_names _ (by simp), valid_quote _⟩,
      forall_mem_singleton.mpr ⟨chars_names _ (by simp), valid_quote _⟩⟩)
  have hcontent : Chars (utf8 "content") ∧ Valid (array [_]) :=
    ⟨chars_names _ (by simp), .array (forall_mem_singleton.mpr htext)⟩
  refine Sound.valid (Sound.append (forall_mem_cons.mpr ⟨hcontent, sound_errorField wasError⟩) ?_)
  refine forall_mem_cons.mpr ⟨⟨chars_names _ (by simp), valid_true⟩, forall_mem_cons.mpr ⟨?_, ?_⟩⟩
  · exact ⟨chars_names _ (by simp), valid_render _⟩
  · exact forall_mem_singleton.mpr ⟨chars_names _ (by simp), valid_render _⟩

theorem length_quote_truncatedText (p : Bytes) (maxBytes : ℤ) :
    (quote (truncatedText p maxBytes)).length = (escapeFrom 0 (p.take (previewMax maxBytes))).length +
      (Decimal.render p.length).length + (Decimal.render (p.take (previewMax maxBytes)).length).length + 154 := by
  have hdash : ∀ t, escapeFrom 0 (0xE2 :: 0x80 :: 0x94 :: t) = 0xE2 :: 0x80 :: 0x94 :: escapeFrom 0 t := by
    intro t
    rw [escapeFrom.eq_5]
    · rfl
    · rintro s - h
      cases h
    · rintro s - h
      cases h
  have hstart : utf8 "[githubmcp: result truncated — original " =
      utf8 "[githubmcp: result truncated " ++ 0xE2 :: 0x80 :: 0x94 :: utf8 " original " := by decide +kernel
  have hascii : ∀ part ∈ [("[githubmcp: result truncated ", 29), (" original ", 10), (" bytes, preview ", 16),
      (" bytes; retry with a narrower query (smaller page, specific path) for " ++ "a complete response]\n\n", 94)],
      (∀ b ∈ utf8 part.1, b < 0x80) ∧ ((utf8 part.1).flatMap escapeByte).length = part.2 := by decide +kernel
  simp only [forall_mem_cons] at hascii
  obtain ⟨⟨h₁, l₁⟩, ⟨h₂, l₂⟩, ⟨h₃, l₃⟩, ⟨h₄, l₄⟩, -⟩ := hascii
  rw [quote, truncatedText, notice, hstart]
  simp only [append_assoc, cons_append, escapeFrom_append_ascii h₁, escapeFrom_append_ascii h₂,
    escapeFrom_append_ascii h₃, escapeFrom_append_ascii h₄, hdash, escapeFrom_append_render, length_append, length_cons,
    length_nil, l₁, l₂, l₃, l₄]
  omega

theorem length_truncatePayload (p : Bytes) (maxBytes : ℤ) (wasError : Bool) :
    (truncatePayload p maxBytes wasError).length = (escapeFrom 0 (p.take (previewMax maxBytes))).length +
      2 * ((Decimal.render p.length).length + (Decimal.render (p.take (previewMax maxBytes)).length).length) + 243 +
        if wasError then 16 else 0 := by
  have hkeys : (utf8 "content").length = 7 ∧ (utf8 "text").length = 4 ∧ (utf8 "type").length = 4 ∧
      (utf8 "is_error").length = 8 ∧ (utf8 "truncated").length = 9 ∧ (utf8 "original_bytes").length = 14 ∧
      (utf8 "preview_bytes").length = 13 ∧ (utf8 "true").length = 4 ∧ (quote (utf8 "text")).length = 6 := by
    decide +kernel
  obtain ⟨h1, h2, h3, h4, h5, h6, h7, h8, h9⟩ := hkeys
  have hitem : ∀ i : Bytes, (array [i]).length = i.length + 2 := by
    intro i
    simp [array, commas, List.intercalate]
  rw [truncatePayload, length_object (by simp)]
  simp only [weight_cons, weight_append, weight_nil, cons_append, hitem, errorField, weight_fieldIf,
    length_object (cons_ne_nil _ _), length_quote_truncatedText, h1, h2, h3, h4, h5, h6, h7, h8, h9]
  split <;> omega

theorem previewMax_eq {maxBytes : ℤ} (hmax : 1024 ≤ maxBytes) : previewMax maxBytes = (maxBytes - 512).toNat := by
  rw [previewMax, envelopeOverhead, max_eq_left (by omega)]

theorem payload_capped_iff (r : CallToolResult) {maxResultBytes : ℤ} (hmax : 1024 ≤ maxResultBytes) :
    Valid (payload maxResultBytes r) ∧ ((payload maxResultBytes r).length ≤ maxResultBytes ↔
      (encodeResult r).length ≤ maxResultBytes ∨
        let preview := (encodeResult r).take (maxResultBytes - 512).toNat
        ((escapeFrom 0 preview).length - preview.length : ℤ) +
          2 * ((Decimal.render (encodeResult r).length).length + (Decimal.render preview.length).length) +
            (if r.isError then 16 else 0) ≤ 269) := by
  unfold payload
  split
  next hover =>
    refine ⟨valid_truncatePayload _ _ _, ?_⟩
    have hpreview : ((encodeResult r).take (maxResultBytes - 512).toNat).length = (maxResultBytes - 512).toNat := by
      rw [length_take]
      omega
    rw [length_truncatePayload, previewMax_eq hmax, or_iff_right (not_le.mpr hover.2)]
    dsimp only
    split <;> omega
  next hfits =>
    have hle : ((encodeResult r).length : ℤ) ≤ maxResultBytes := by omega
    exact ⟨valid_encodeResult r, iff_of_true hle (.inl hle)⟩

def readme (s : Bytes) : CallToolResult := ⟨[.text s], none, false⟩

theorem payload_capped_letters : (1024 : ℤ) < (encodeResult (readme (List.replicate 1100 97))).length ∧
    (payload 1024 (readme (List.replicate 1100 97))).length ≤ (1024 : ℤ) := by
  refine ⟨by decide +kernel, (payload_capped_iff _ (by decide)).2.mpr (.inr ?_)⟩
  decide +kernel

theorem quotes_outgrow_cap : (1024 : ℤ) < (payload 1024 (readme (List.replicate 600 34))).length := by
  decide +kernel

end NomadDev.GitHub.Payload
