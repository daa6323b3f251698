import NomadDev.SearchEnvelope

namespace NomadDev.Lsp.Envelope

open Fsops Foundation Foundation.JsonText Search List

structure LspLocation where
  file : Bytes
  (line column endLine endColumn : Int64)

structure LspSymbol where
  (name kind file : Bytes)
  (line column : Int64)
  container : Bytes

structure LspQueryResult where
  operation : Bytes
  locations : List LspLocation
  symbols : List LspSymbol
  hover : Bytes
  (total returned : ℕ)
  truncated : Bool
  error : Bytes

def marshalLocation (l : LspLocation) : Bytes :=
  object ([(utf8 "file", quote l.file), (utf8 "line", int l.line), (utf8 "column", int l.column)] ++
    fieldIf (l.endLine ≠ 0) (utf8 "end_line", int l.endLine) ++
    fieldIf (l.endColumn ≠ 0) (utf8 "end_column", int l.endColumn))

def marshalSymbol (s : LspSymbol) : Bytes :=
  object ([(utf8 "name", quote s.name), (utf8 "kind", quote s.kind), (utf8 "file", quote s.file),
    (utf8 "line", int s.line), (utf8 "column", int s.column)] ++
    fieldIf (s.container ≠ []) (utf8 "container", quote s.container))

variable (r : LspQueryResult)

def LspQueryResult.marshal : Bytes :=
  object ([(utf8 "operation", quote r.operation), (utf8 "locations", array (r.locations.map marshalLocation))] ++
    fieldIf (r.symbols ≠ []) (utf8 "symbols", array (r.symbols.map marshalSymbol)) ++
    fieldIf (r.hover ≠ []) (utf8 "hover", quote r.hover) ++
    [(utf8 "total", Decimal.render r.total), (utf8 "returned", Decimal.render r.returned)] ++
    fieldIf (r.truncated = true) (utf8 "truncated", utf8 "true") ++
    fieldIf (r.error ≠ []) (utf8 "error", quote r.error))

structure Parsers (ρ : Type) where
  locations : ρ → { l : List LspLocation // l.length < 2 ^ 63 }
  hover : ρ → Bytes
  symbols : ρ → { l : List LspSymbol // l.length < 2 ^ 63 }

inductive ExecErr
  | context
  | other (text : Bytes)

def locationOperations : List Bytes := [utf8 "definition", utf8 "implementation", utf8 "references"]

def symbolOperations : List Bytes := [utf8 "document_symbols", utf8 "workspace_symbols"]

def LspQueryResult.entries : ℕ := r.locations.length + r.symbols.length

-- The error of an ended context is returned as it is, with no envelope.
def queryResult {ρ : Type} (ps : Parsers ρ) (operation : Bytes) : Except ExecErr ρ → Option LspQueryResult
  | .error .context => none
  | .error (.other err) => some ⟨operation, [], [], [], 0, 0, false, err⟩
  | .ok raw =>
    let locations := if locationOperations.contains operation then (ps.locations raw).1 else []
    let hover := if operation = utf8 "hover" then ps.hover raw else []
    let symbols := if symbolOperations.contains operation then (ps.symbols raw).1 else []
    some ⟨operation, locations, symbols, hover, locations.length + symbols.length, locations.length + symbols.length,
      false, []⟩

def LspQueryResult.dropEntry : LspQueryResult :=
  let symbols := r.symbols.dropLast
  let locations := if r.symbols = [] then r.locations.dropLast else r.locations
  { r with
    symbols := symbols
    locations := locations
    truncated := true
    returned := locations.length + symbols.length }

def dropEntries (maxBytes : ℤ) : ℕ → LspQueryResult → LspQueryResult
  | 0, r => r
  | n + 1, r => if maxBytes < r.marshal.length ∧ r.entries ≠ 0 then dropEntries maxBytes n r.dropEntry else r

def shrunk (maxBytes : ℤ) : LspQueryResult :=
  if maxBytes ≤ 0 then r else dropEntries maxBytes r.entries r

def marshalLSPResult (maxBytes : ℤ) : Bytes := (shrunk r maxBytes).marshal

def query {ρ : Type} (ps : Parsers ρ) (operation : Bytes) (executed : Except ExecErr ρ) (maxBytes : ℤ) : Option Bytes :=
  (queryResult ps operation executed).map fun r => marshalLSPResult r maxBytes

def textLength : ℕ :=
  (if r.hover = [] then 0 else (quote r.hover).length + 9) + if r.error = [] then 0 else (quote r.error).length + 9

section Length

variable {r : LspQueryResult}

theorem length_marshal_of_no_entries (h : r.entries = 0) (hreturned : r.returned = 0) : r.marshal.length =
    (quote r.operation).length + (Decimal.render r.total).length + textLength r + 51 + if r.truncated then 17 else 0 := by
  have hlocations : r.locations = [] := length_eq_zero_iff.mp (Nat.eq_zero_of_add_eq_zero h).1
  have hsymbols : r.symbols = [] := length_eq_zero_iff.mp (Nat.eq_zero_of_add_eq_zero h).2
  have hkeys : (utf8 "operation").length = 9 ∧ (utf8 "locations").length = 9 ∧ (utf8 "hover").length = 5 ∧
      (utf8 "total").length = 5 ∧ (utf8 "returned").length = 8 ∧ (utf8 "truncated").length = 9 ∧
      (utf8 "true").length = 4 ∧ (utf8 "error").length = 5 := by decide +kernel
  obtain ⟨h1, h2, h3, h4, h5, h6, h7, h8⟩ := hkeys
  have hzero : (Decimal.render 0).length = 1 := rfl
  have hempty : (array []).length = 2 := rfl
  rw [LspQueryResult.marshal, length_object (by simp), textLength]
  simp only [hlocations, hsymbols, hreturned, map_nil, weight_append, weight_cons, weight_nil, weight_fieldIf,
    ne_eq, not_true_eq_false, if_false, ite_not, h1, h2, h3, h4, h5, h6, h7, h8, hzero, hempty]
  split_ifs <;> omega

theorem dropEntry_entries (h : r.entries ≠ 0) : r.dropEntry.entries + 1 = r.entries := by
  simp only [LspQueryResult.entries, LspQueryResult.dropEntry] at h ⊢
  split
  next hnil =>
    rw [hnil] at h ⊢
    simp only [dropLast_nil, length_nil, length_dropLast] at h ⊢
    omega
  next hne =>
    have hpos := length_pos_of_ne_nil hne
    rw [length_dropLast]
    omega

structure Shrinks (maxBytes : ℤ) (r out : LspQueryResult) : Prop where
  locations : out.locations <+: r.locations
  symbols : out.symbols <+: r.symbols
  returned : out.returned = out.entries
  total : out.total = r.total
  operation : out.operation = r.operation
  text : textLength out = textLength r
  stops : (out.marshal.length : ℤ) ≤ maxBytes ∨ out.entries = 0
  kept : r.entries = 0 → out = r

theorem dropEntries_shrinks (maxBytes : ℤ) {n : ℕ} (hn : r.entries ≤ n) (hreturned : r.returned = r.entries) :
    Shrinks maxBytes r (dropEntries maxBytes n r) := by
  induction n generalizing r with
  | zero =>
    exact ⟨prefix_rfl, prefix_rfl, hreturned, rfl, rfl, rfl, .inr (Nat.le_zero.mp hn), fun _ => rfl⟩
  | succ n ih =>
    unfold dropEntries
    split
    next hgo =>
      have hentries := dropEntry_entries hgo.2
      obtain ⟨hlocations, hsymbols, hret, htotal, hop, htext, hstops, -⟩ := ih (r := r.dropEntry) (by omega) rfl
      refine ⟨hlocations.trans ?_, hsymbols.trans r.symbols.dropLast_prefix, hret, htotal, hop, htext, hstops,
        fun h => absurd h hgo.2⟩
      simp only [LspQueryResult.dropEntry]
      split
      · exact r.locations.dropLast_prefix
      · exact prefix_rfl
    next hstop =>
      refine ⟨prefix_rfl, prefix_rfl, hreturned, rfl, rfl, rfl, ?_, fun _ => rfl⟩
      by_cases hfits : (r.marshal.length : ℤ) ≤ maxBytes
      · exact .inl hfits
      · exact .inr (by_contra fun hne => hstop ⟨Int.not_le.mp hfits, hne⟩)

end Length

section Query

variable {ρ : Type} {ps : Parsers ρ} {operation : Bytes} {executed : Except ExecErr ρ} {r : LspQueryResult}

def IsList (operation : Bytes) (executed : Except ExecErr ρ) : Prop :=
  operation ∈ locationOperations ++ symbolOperations ∧ executed.isOk = true

theorem queryResult_spec (h : queryResult ps operation executed = some r) :
    r.operation = operation ∧ r.returned = r.entries ∧ r.total = r.entries ∧ r.truncated = false ∧
      r.total < 2 ^ 63 ∧ (IsList operation executed ∧ textLength r = 0 ∨ ¬IsList operation executed ∧ r.entries = 0) := by
  cases executed with
  | error err =>
    cases err with
    | context => cases h
    | other text =>
      cases h
      exact ⟨rfl, rfl, rfl, rfl, Nat.two_pow_pos 63, .inr ⟨fun hlist => absurd hlist.2 Bool.false_ne_true, rfl⟩⟩
  | ok raw =>
    have hloc : ∀ op ∈ locationOperations, op ∉ symbolOperations ∧ op ≠ utf8 "hover" := by decide +kernel
    have hsym : ∀ op ∈ symbolOperations, op ≠ utf8 "hover" := by decide +kernel
    cases h
    refine ⟨rfl, rfl, rfl, rfl, ?_⟩
    by_cases hl : operation ∈ locationOperations
    · have hlist : IsList operation (.ok raw : Except ExecErr ρ) := ⟨mem_append_left _ hl, rfl⟩
      simp only [contains_iff_mem, hl, hloc operation hl, if_true, if_false, length_nil, Nat.add_zero]
      exact ⟨(ps.locations raw).2, .inl ⟨hlist, rfl⟩⟩
    · by_cases hs : operation ∈ symbolOperations
      · have hlist : IsList operation (.ok raw : Except ExecErr ρ) := ⟨mem_append_right _ hs, rfl⟩
        simp only [contains_iff_mem, hl, hs, hsym operation hs, if_true, if_false, length_nil, Nat.zero_add]
        exact ⟨(ps.symbols raw).2, .inl ⟨hlist, rfl⟩⟩
      · simp only [contains_iff_mem, hl, hs, if_false, length_nil]
        exact ⟨Nat.two_pow_pos 63, .inr ⟨fun hlist => (mem_append.mp hlist.1).elim hl hs, rfl⟩⟩

theorem query_fits_iff (ps : Parsers ρ) (operation : Bytes) (executed : Except ExecErr ρ) {maxBytes : ℤ}
    (hmax : 1024 ≤ maxBytes) {r : LspQueryResult} (h : queryResult ps operation executed = some r) :
    query ps operation executed maxBytes = some (shrunk r maxBytes).marshal ∧
      (shrunk r maxBytes).locations <+: r.locations ∧ (shrunk r maxBytes).symbols <+: r.symbols ∧
      (shrunk r maxBytes).returned = (shrunk r maxBytes).entries ∧ (shrunk r maxBytes).total = r.entries ∧
      (((shrunk r maxBytes).marshal.length : ℤ) ≤ maxBytes ↔
        IsList operation executed ∨ ((quote operation).length + textLength r + 52 : ℤ) ≤ maxBytes) := by
  obtain ⟨hop, hreturned, htotal, htruncated, hbound, hkind⟩ := queryResult_spec h
  have hshrunk : shrunk r maxBytes = dropEntries maxBytes r.entries r := if_neg (by omega)
  have hspec := dropEntries_shrinks maxBytes (Nat.le_refl r.entries) hreturned
  rw [← hshrunk] at hspec
  refine ⟨by rw [query, h]; rfl, hspec.locations, hspec.symbols, hspec.returned, hspec.total.trans htotal, ?_⟩
  rcases hkind with ⟨hlist, htext⟩ | ⟨hlist, hentries⟩
  · refine iff_of_true ?_ (.inl hlist)
    rcases hspec.stops with hfits | hnone
    · exact hfits
    have hlength := length_marshal_of_no_entries hnone (hspec.returned.trans hnone)
    have hname : ∀ op ∈ locationOperations ++ symbolOperations, (quote op).length ≤ 19 := by decide +kernel
    have hquote := hname operation hlist.1
    have hdigits := Decimal.length_render_le (n := r.total) (k := 19) (by decide) (by omega)
    rw [hspec.operation, hop, hspec.total, hspec.text, htext] at hlength
    split at hlength <;> omega
  · have hlength := length_marshal_of_no_entries hentries (hreturned.trans hentries)
    have hzero : (Decimal.render 0).length = 1 := rfl
    rw [hop, htotal, hentries, hzero, htruncated] at hlength
    rw [hspec.kept hentries, hlength, or_iff_right hlist]
    simp only [Bool.false_eq_true, if_false]
    omega

end Query

def hovering : Parsers Bytes := ⟨fun _ => ⟨[], by decide⟩, id, fun _ => ⟨[], by decide⟩⟩

def hoverResult (text : Bytes) : LspQueryResult := ⟨utf8 "hover", [], [], text, 0, 0, false, []⟩

theorem query_fits_hover :
    queryResult hovering (utf8 "hover") (.ok (utf8 "func F()")) = some (hoverResult (utf8 "func F()")) ∧
      ((shrunk (hoverResult (utf8 "func F()")) 1024).marshal.length : ℤ) ≤ 1024 := by
  have hres : queryResult hovering (utf8 "hover") (.ok (utf8 "func F()")) = some (hoverResult (utf8 "func F()")) := rfl
  have hfits := (query_fits_iff hovering (utf8 "hover") (.ok (utf8 "func F()")) (Int.le_refl 1024) hres).2.2.2.2.2
  exact ⟨hres, hfits.mpr (.inr (by decide +kernel))⟩

theorem long_hover_over_cap :
    (query hovering (utf8 "hover") (.ok (List.replicate 1024 97)) 1024).map List.length = some 1094 := by
  decide +kernel

end NomadDev.Lsp.Envelope
