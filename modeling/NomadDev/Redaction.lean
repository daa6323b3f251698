import NomadDev.Patches
import NomadDev.Foundation.AssocMap
import Mathlib.Data.Rat.Init

namespace NomadDev.Event

open Fsops List Option Foundation

/-- A decoded JSON value; an object is the list of its entries in key order. -/
inductive Value
  | null
  | bool (b : Bool)
  | num (q : ℚ)
  | str (s : Bytes)
  | arr (items : List Value)
  | obj (fields : List (String × Value))

abbrev Fields : Type := List (String × Value)

def redactedSentinel : Bytes := utf8 "[REDACTED]"

def maxArgStringDisplay : ℕ := 4096

def sensitiveArgKeys : List String :=
  ["password", "passwd", "secret", "token", "apikey", "api_key", "auth", "authorization", "credential",
    "private_key", "client_secret", "bearer", "pat", "x-api-key"]

def scriptKeys : List String := ["script", "command"]

-- `unicode.ToLower` as far as it gives ASCII letters, the only ones the needles have: beside `A` to `Z` those are
-- the Kelvin sign and the dotted capital I.
def lowerChar (c : Char) : Char :=
  if c = Char.ofNat 0x212A then 'k' else if c = Char.ofNat 0x130 then 'i' else c.toLower

def containsText (s needle : List Char) : Bool := s.tails.any needle.isPrefixOf

def keyHasOneOf (needles : List String) (key : String) : Bool :=
  needles.any fun needle => containsText (key.toList.map lowerChar) needle.toList

def isSensitiveKey (key : String) : Bool := keyHasOneOf sensitiveArgKeys key

def isScriptKey (key : String) : Bool := key != "" && keyHasOneOf scriptKeys key

def truncateString (s : Bytes) : Bytes :=
  if s.length ≤ maxArgStringDisplay then s
  else s.take maxArgStringDisplay ++
    utf8 ("… (" ++ toString (s.length - maxArgStringDisplay) ++ " bytes truncated for display)")

section Script

variable (c : UInt8)

def isUpper : Bool := 65 ≤ c && c ≤ 90

def isDigit : Bool := 48 ≤ c && c ≤ 57

def isNameByte : Bool := isUpper c || isDigit c || c == 95

def isWordByte : Bool := isNameByte c || (97 ≤ c && c ≤ 122)

def isBlank : Bool := c == 9 || c == 10 || c == 12 || c == 13 || c == 32

def isBareByte : Bool := !(isBlank c || c == 59 || c == 38 || c == 124)

def equalsSign : UInt8 := 61

def quoted (quote : UInt8) : Bytes → Option Bytes
  | [] => none
  | c :: t => if c == quote && t.contains quote then some (c :: (t.takeWhile (· != quote) ++ [quote])) else none

variable (s : Bytes)

def bare : Option Bytes := if s.takeWhile isBareByte = [] then none else some (s.takeWhile isBareByte)

-- The alternatives of the value group in the order the expression lists them: a quote that is never closed leaves
-- the value to the last one.
def valueAt : Option Bytes := quoted 34 s <|> quoted 39 s <|> bare s

structure Assignment where
  (lead name value : Bytes)
  deriving DecidableEq

def Assignment.text (m : Assignment) : Bytes := m.lead ++ (m.name ++ equalsSign :: m.value)

def assignAt (lead s : Bytes) : Option Assignment :=
  match s.dropWhile isNameByte with
  | [] => none
  | c :: rest =>
    if c == equalsSign && (s.head?.any isUpper) then (valueAt rest).map (⟨lead, s.takeWhile isNameByte, ·⟩) else none

-- The optional group: a word boundary, one of the two keywords, at least one blank.
def leadAt (prev : Option UInt8) (s : Bytes) : Option Bytes :=
  if prev.any isWordByte then none
  else ([utf8 "export", utf8 "set"].find? fun kw => kw.isPrefixOf s && ((s.drop kw.length).head?.any isBlank)).map
    fun kw => kw ++ (s.drop kw.length).takeWhile isBlank

def matchAt (prev : Option UInt8) (s : Bytes) : Option Assignment :=
  ((leadAt prev s).bind fun lead => assignAt lead (s.drop lead.length)) <|> assignAt [] s

inductive Segment
  | plain (c : UInt8)
  | assign (m : Assignment)
  deriving DecidableEq

def Segment.text : Segment → Bytes
  | .plain c => [c]
  | .assign m => m.text

def Assignment.masked (m : Assignment) : Bool := isSensitiveKey (String.ofList (chars m.name))

def Segment.shown : Segment → Bytes
  | .plain c => [c]
  | .assign m => if m.masked then m.lead ++ (m.name ++ equalsSign :: redactedSentinel) else m.text

-- The leftmost matches, each looked for after the end of the one before: `skip` bytes of the last one are still to
-- be passed over.
def segmentsFrom : ℕ → Option UInt8 → Bytes → List Segment
  | _, _, [] => []
  | skip + 1, _, c :: cs => segmentsFrom skip (some c) cs
  | 0, prev, c :: cs =>
    match matchAt prev (c :: cs) with
    | some m => .assign m :: segmentsFrom (m.text.length - 1) (some c) cs
    | none => .plain c :: segmentsFrom 0 (some c) cs

def segments : List Segment := segmentsFrom 0 none s

def redactScript : Bytes := (segments s).flatMap Segment.shown

variable {q : UInt8} {t : Bytes}

theorem takeWhile_ne_append (h : q ∈ t) : t.takeWhile (· != q) ++ [q] <+: t := by
  induction t with
  | nil => cases h
  | cons c t ih =>
    by_cases hc : c = q
    · simp [hc]
    · have ht : q ∈ t := (mem_cons.mp h).resolve_left fun hq => hc hq.symm
      simpa [hc] using ih ht

variable {s v : Bytes}

theorem quoted_isPrefix (h : quoted q s = some v) : v <+: s := by
  cases s with
  | nil => cases h
  | cons c t =>
    simp only [quoted, Bool.and_eq_true, contains_iff_mem, ite_none_right_eq_some, Option.some.injEq] at h
    obtain ⟨⟨_, hq⟩, rfl⟩ := h
    exact cons_prefix_cons.mpr ⟨rfl, takeWhile_ne_append hq⟩

theorem valueAt_isPrefix (h : valueAt s = some v) : v <+: s := by
  simp only [valueAt, orElse_eq_orElse, orElse_eq_or, or_eq_some_iff] at h
  obtain h | ⟨_, h | ⟨_, h⟩⟩ := h
  · exact quoted_isPrefix h
  · exact quoted_isPrefix h
  · simp only [bare, ite_none_left_eq_some, Option.some.injEq] at h
    exact h.2 ▸ takeWhile_prefix _

variable {lead : Bytes} {m : Assignment}

theorem assignAt_isPrefix (h : assignAt lead s = some m) : m.lead = lead ∧ m.name ++ equalsSign :: m.value <+: s := by
  unfold assignAt at h
  split at h
  next => cases h
  next c rest hs =>
    simp only [Bool.and_eq_true, beq_iff_eq, ite_none_right_eq_some, map_eq_some_iff] at h
    obtain ⟨⟨rfl, _⟩, v, hv, rfl⟩ := h
    refine ⟨rfl, ?_⟩
    have hsplit : s = s.takeWhile isNameByte ++ equalsSign :: rest := by
      rw [← hs, takeWhile_append_dropWhile]
    conv_rhs => rw [hsplit]
    exact (prefix_append_right_inj _).mpr (cons_prefix_cons.mpr ⟨rfl, valueAt_isPrefix hv⟩)

variable {prev : Option UInt8}

theorem leadAt_isPrefix (h : leadAt prev s = some lead) : lead <+: s := by
  simp only [leadAt, ite_none_left_eq_some, map_eq_some_iff] at h
  obtain ⟨_, kw, hkw, rfl⟩ := h
  have hp : kw <+: s := by
    have := List.find?_some hkw
    simp only [Bool.and_eq_true, isPrefixOf_iff_prefix] at this
    exact this.1
  obtain ⟨rest, rfl⟩ := hp
  rw [drop_left]
  exact (prefix_append_right_inj _).mpr (List.takeWhile_prefix _)

theorem matchAt_isPrefix (h : matchAt prev s = some m) : m.text <+: s := by
  simp only [matchAt, orElse_eq_orElse, orElse_eq_or, or_eq_some_iff, bind_eq_some_iff] at h
  obtain ⟨lead, hlead, ha⟩ | ⟨_, ha⟩ := h
  · obtain ⟨rest, rfl⟩ := leadAt_isPrefix hlead
    rw [drop_left] at ha
    obtain ⟨hl, hp⟩ := assignAt_isPrefix ha
    rw [Assignment.text, hl]
    exact (prefix_append_right_inj _).mpr hp
  · obtain ⟨hl, hp⟩ := assignAt_isPrefix ha
    rwa [Assignment.text, hl]

theorem flatMap_text_segmentsFrom (skip : ℕ) (prev : Option UInt8) (s : Bytes) :
    (segmentsFrom skip prev s).flatMap Segment.text = s.drop skip := by
  fun_induction segmentsFrom skip prev s with
  | case1 => simp
  | case2 skip prev c cs ih => simpa using ih
  | case3 prev c cs m hm ih =>
    obtain ⟨rest, hrest⟩ := matchAt_isPrefix hm
    have hlen : m.text.length = m.text.length - 1 + 1 := by simp [Assignment.text]; omega
    have hdrop : rest = cs.drop (m.text.length - 1) := by
      rw [← drop_succ_cons (a := c), ← hlen, ← hrest, drop_left]
    simp [Segment.text, ih, ← hdrop, hrest]
  | case4 prev c cs _ ih => simp [Segment.text, ih]

theorem flatMap_text_segments (s : Bytes) : (segments s).flatMap Segment.text = s :=
  flatMap_text_segmentsFrom 0 none s

theorem redactScript_eq_self (h : ∀ m, .assign m ∈ segments s → m.masked = false) : redactScript s = s := by
  have hshown : ∀ seg ∈ segments s, seg.shown = seg.text := by
    intro seg hseg
    cases seg with
    | plain c => rfl
    | assign m => simp [Segment.shown, Segment.text, h m hseg]
  rw [redactScript, flatMap_congr hshown, flatMap_text_segments]

theorem redactScript_unmasked : redactScript [65, 61, 49] = [65, 61, 49] := by
  refine redactScript_eq_self fun m hm => ?_
  cases mem_singleton.mp (show .assign m ∈ [Segment.assign ⟨[], [65], [49]⟩] from hm)
  decide

inductive Segment.SameButMasked : Segment → Segment → Prop
  | same (seg : Segment) : SameButMasked seg seg
  | masked {lead name : Bytes} (v w : Bytes) (h : isSensitiveKey (String.ofList (chars name)) = true) :
      SameButMasked (.assign ⟨lead, name, v⟩) (.assign ⟨lead, name, w⟩)

def SameButMasked (s t : Bytes) : Prop := List.Forall₂ Segment.SameButMasked (segments s) (segments t)

theorem Segment.SameButMasked.shown_eq {a b : Segment} (h : Segment.SameButMasked a b) : a.shown = b.shown := by
  cases h with
  | same => rfl
  | masked v w hs => simp [Segment.shown, Assignment.masked, hs]

theorem SameButMasked.redactScript_eq (h : SameButMasked s t) : redactScript s = redactScript t := by
  have hall : List.Forall₂ (· = ·) ((segments s).map Segment.shown) ((segments t).map Segment.shown) := by
    rw [forall₂_map_left_iff, forall₂_map_right_iff]
    exact h.imp fun _ _ hab => hab.shown_eq
  have hshown : (segments s).map Segment.shown = (segments t).map Segment.shown := by
    rwa [forall₂_eq_eq_eq] at hall
  rw [redactScript, redactScript, flatMap_def, flatMap_def, hshown]

end Script

def redactString (key : String) (s : Bytes) : Bytes :=
  if isScriptKey key then truncateString (redactScript s) else truncateString s

mutual

def Value.redact (key : String) (v : Value) : Value :=
  if isSensitiveKey key then .str redactedSentinel
  else match v with
    | .str s => .str (redactString key s)
    | .obj fields => .obj (redactFields fields)
    | .arr items => .arr (redactItems items)
    | v => v

def redactFields : Fields → Fields
  | [] => []
  | (k, v) :: rest => (k, v.redact k) :: redactFields rest

def redactItems : List Value → List Value
  | [] => []
  | v :: rest => v.redact "" :: redactItems rest

end

theorem Value.redact_of_sensitive {key : String} (v : Value) (h : isSensitiveKey key = true) :
    v.redact key = .str redactedSentinel := by
  cases v <;> simp [Value.redact, h]

theorem redactFields_eq_map (fields : Fields) : redactFields fields = fields.map fun f => (f.1, f.2.redact f.1) := by
  induction fields with
  | nil => rfl
  | cons f rest ih => simp [redactFields, ih]

theorem redactItems_eq_map (items : List Value) : redactItems items = items.map (Value.redact "") := by
  induction items with
  | nil => rfl
  | cons v rest ih => simp [redactItems, ih]

theorem Value.induct {P : Value → Prop} (null : P .null) (bool : ∀ b, P (.bool b)) (num : ∀ q, P (.num q))
    (str : ∀ s, P (.str s)) (arr : ∀ items, (∀ v ∈ items, P v) → P (.arr items))
    (obj : ∀ fields, (∀ f ∈ fields, P f.2) → P (.obj fields)) (v : Value) : P v := by
  refine @Value.rec P (fun items => ∀ v ∈ items, P v) (fun fields => ∀ f ∈ fields, P f.2) (fun f => P f.2)
    null bool num str (fun items => arr items) (fun fields => obj fields) ?_ ?_ ?_ ?_ ?_ v
  · simp
  · exact fun v items hv hitems => forall_mem_cons.mpr ⟨hv, hitems⟩
  · simp
  · exact fun f fields hf hfields => forall_mem_cons.mpr ⟨hf, hfields⟩
  · exact fun _ _ hv => hv

section Same

variable (free : String → Prop) (text : String → Bytes → Bytes → Prop)

mutual

/-- Two values stored under `key` that differ only in what stands under free keys, at any depth, and in strings that
`text` identifies under their key. A list's items have no key. -/
inductive Same : String → Value → Value → Prop
  | null (key : String) : Same key .null .null
  | bool (key : String) (b : Bool) : Same key (.bool b) (.bool b)
  | num (key : String) (q : ℚ) : Same key (.num q) (.num q)
  | str {key : String} {s t : Bytes} (h : text key s t) : Same key (.str s) (.str t)
  | arr (key : String) {vs ws : List Value} (h : SameItems vs ws) : Same key (.arr vs) (.arr ws)
  | obj (key : String) {fs gs : Fields} (h : SameFields fs gs) : Same key (.obj fs) (.obj gs)

inductive SameItems : List Value → List Value → Prop
  | nil : SameItems [] []
  | cons {v w : Value} {vs ws : List Value} (h : Same "" v w) (hs : SameItems vs ws) : SameItems (v :: vs) (w :: ws)

inductive SameFields : Fields → Fields → Prop
  | nil : SameFields [] []
  | free {k : String} (v w : Value) {fs gs : Fields} (h : free k) (hs : SameFields fs gs) :
      SameFields ((k, v) :: fs) ((k, w) :: gs)
  | cons {k : String} {v w : Value} {fs gs : Fields} (h : Same k v w) (hs : SameFields fs gs) :
      SameFields ((k, v) :: fs) ((k, w) :: gs)

end

variable {free text}

structure Hidden (free : String → Prop) (text : String → Bytes → Bytes → Prop) : Prop where
  key : ∀ k, free k → isSensitiveKey k = true
  text : ∀ k s t, text k s t → redactString k s = redactString k t

mutual

theorem Same.redact_eq (hid : Hidden free text) {key : String} {v w : Value} :
    Same free text key v w → v.redact key = w.redact key
  | .null _ | .bool _ _ | .num _ _ => rfl
  | .str h => by simp [Value.redact, hid.text _ _ _ h]
  | .arr _ h => by simp [Value.redact, h.redact_eq hid]
  | .obj _ h => by simp [Value.redact, h.redact_eq hid]

theorem SameItems.redact_eq (hid : Hidden free text) {vs ws : List Value} :
    SameItems free text vs ws → redactItems vs = redactItems ws
  | .nil => rfl
  | .cons h hs => by rw [redactItems, redactItems, h.redact_eq hid, hs.redact_eq hid]

theorem SameFields.redact_eq (hid : Hidden free text) {fs gs : Fields} :
    SameFields free text fs gs → redactFields fs = redactFields gs
  | .nil => rfl
  | .free v w h hs => by
    have hk := hid.key _ h
    rw [redactFields, redactFields, v.redact_of_sensitive hk, w.redact_of_sensitive hk, hs.redact_eq hid]
  | .cons h hs => by rw [redactFields, redactFields, h.redact_eq hid, hs.redact_eq hid]

end

end Same

section Scripts

inductive Hop
  | key (k : String)
  | index (i : ℕ)

def Hop.name : Hop → String
  | .key k => k
  | .index _ => ""

def Value.step : Value → Hop → Option Value
  | .obj fields, .key k => AssocMap.get fields k
  | .arr items, .index i => items[i]?
  | _, _ => none

def Value.at : Value → List Hop → Option Value
  | v, [] => some v
  | v, hop :: path => (v.step hop).bind (·.at path)

variable {key k : String} {v : Value}

theorem get_redactFields (fields : Fields) :
    AssocMap.get (redactFields fields) k = (AssocMap.get fields k).map (Value.redact k) := by
  induction fields with
  | nil => rfl
  | cons f fields ih =>
    by_cases hf : f.1 = k
    · subst hf
      simp [AssocMap.get, redactFields]
    · simpa [AssocMap.get, redactFields, hf] using ih

theorem step_redact (hkey : isSensitiveKey key = false) (hop : Hop) :
    (v.redact key).step hop = (v.step hop).map (Value.redact hop.name) := by
  cases v with
  | obj fields =>
    cases hop with
    | key k => simpa [Value.redact, hkey, Value.step, Hop.name] using get_redactFields fields
    | index i => simp [Value.redact, hkey, Value.step]
  | arr items =>
    cases hop with
    | key k => simp [Value.redact, hkey, Value.step]
    | index i => simp [Value.redact, hkey, Value.step, redactItems_eq_map, Hop.name]
  | _ => simp [Value.redact, hkey, Value.step]

def Open : String → List Hop → Prop
  | _, [] => True
  | key, hop :: path => isSensitiveKey key = false ∧ Open hop.name path

def lastName : String → List Hop → String
  | key, [] => key
  | _, hop :: path => lastName hop.name path

theorem at_redact_iff {w : Value} (path : List Hop) : (v.redact key).at path = some w ↔
    Open key path ∧ ∃ u, v.at path = some u ∧ u.redact (lastName key path) = w := by
  induction path generalizing key v with
  | nil => simp [Value.at, Open, lastName]
  | cons hop path ih =>
    cases hkey : isSensitiveKey key with
    | true =>
      rw [v.redact_of_sensitive hkey]
      simp [Value.at, Value.step, Open, hkey]
    | false =>
      rw [Value.at, step_redact hkey]
      cases hstep : v.step hop with
      | none => simp [Value.at, hstep]
      | some u => simpa [Value.at, hstep, Open, hkey, lastName] using ih

theorem lastName_append (p q : List Hop) (hop : Hop) : lastName key (p ++ hop :: q) = lastName hop.name q := by
  induction p generalizing key with
  | nil => rfl
  | cons h p ih => exact ih

theorem lastName_index (i : ℕ) (is : List ℕ) : lastName key ((i :: is).map Hop.index) = "" := by
  induction is generalizing key i with
  | nil => rfl
  | cons j is ih => exact @ih "" j

theorem script_masked_iff {args : Fields} {p : List Hop} {is : List ℕ} {s : Bytes} (hk : isScriptKey k = true)
    (hs : (Value.obj args).at (p ++ .key k :: is.map .index) = some (.str s)) :
    (segments s).flatMap Segment.text = s ∧
    ((Value.obj (redactFields args)).at (p ++ .key k :: is.map .index) =
        some (.str (truncateString ((segments s).flatMap Segment.shown))) ↔
      Open "" (p ++ .key k :: is.map .index) ∧
        (is = [] → isSensitiveKey k = true → redactedSentinel = truncateString (redactScript s)) ∧
        (is ≠ [] → truncateString s = truncateString (redactScript s))) := by
  refine ⟨flatMap_text_segments s, ?_⟩
  have hempty : isSensitiveKey "" = false := by decide
  have hargs : Value.obj (redactFields args) = (Value.obj args).redact "" := by simp [Value.redact, hempty]
  rw [hargs, at_redact_iff, hs]
  refine and_congr_right fun _ => ?_
  simp only [Option.some.injEq, exists_eq_left', lastName_append, Hop.name]
  cases is with
  | nil =>
    show (Value.str s).redact k = .str (truncateString (redactScript s)) ↔ _
    cases hsens : isSensitiveKey k with
    | true => simp [Value.redact, hsens]
    | false => simp [Value.redact, hsens, redactString, hk]
  | cons i is =>
    rw [lastName_index]
    have hscript : isScriptKey "" = false := by decide
    show (Value.str s).redact "" = .str (truncateString (redactScript s)) ↔ _
    simp [Value.redact, hempty, redactString, hscript]

def pushScript : Bytes := utf8 "TOKEN=a"

theorem script_masked_direct : (Value.obj (redactFields [("script", .str pushScript)])).at [.key "script"] =
      some (.str (truncateString ((segments pushScript).flatMap Segment.shown))) :=
  (@script_masked_iff "script" [("script", .str pushScript)] [] [] pushScript (by decide) rfl).2.mpr
    ⟨⟨by decide, trivial⟩, fun _ h => absurd h (by decide), fun h => absurd rfl h⟩

theorem listed_script_shown :
    (Value.obj (redactFields [("commands", .arr [.str pushScript])])).at [.key "commands", .index 0] =
      some (.str pushScript) ∧
    truncateString (redactScript pushScript) = utf8 "TOKEN=[REDACTED]" := by
  constructor
  · rfl
  · decide +kernel

end Scripts

end NomadDev.Event
