import NomadDev.Redaction

/-!
`parseFloat` and `text` are what `encoding/json` makes of a number literal and the text of a value in the document.
-/

namespace NomadDev.GitHub

open Foundation Option

inductive Json
  | null
  | bool (b : Bool)
  | num (literal : String)
  | str (s : String)
  | arr (items : List Json)
  | obj (members : List (String × Json))

structure SchemaOf (E F : Type) where
  (type description : String)
  properties : List (String × SchemaOf E F)
  required : List String
  enum : List E
  items : Option (SchemaOf E F)
  (minimum maximum : Option F)

abbrev RawSchema (F : Type) : Type := SchemaOf Json F

abbrev Schema (F : Type) : Type := SchemaOf String F

def SchemaOf.ofType {E F : Type} (type description : String) : SchemaOf E F :=
  ⟨type, description, [], [], [], none, none, none⟩

inductive Keyword
  | type | description | properties | required | enum | items | minimum | maximum
  deriving DecidableEq

def keywords : List (String × Keyword) :=
  [("type", .type), ("description", .description), ("properties", .properties), ("required", .required),
    ("enum", .enum), ("items", .items), ("minimum", .minimum), ("maximum", .maximum)]

-- Names are matched without regard to case; beside the capitals only the long s folds to a letter of a keyword.
def foldChar (c : Char) : Char := if c = Char.ofNat 0x17F then 's' else c.toLower

def keyword (name : String) : Option Keyword :=
  (keywords.find? fun k => k.1.toList = name.toList.map foldChar).map Prod.snd

variable {F : Type}

-- A null leaves the element as it is.
def readStrings : List String → List Json → List String
  | _, [] => []
  | old, .str s :: rest => s :: readStrings old.tail rest
  | old, _ :: rest => old.headD "" :: readStrings old.tail rest

section Decode

variable (parseFloat : String → Option F)

def takes : Keyword → Json → Bool
  | _, .null | .type, .str _ | .description, .str _ | .enum, .arr _ => true
  | .required, .arr items => items.all fun v => (v matches .str _ | .null)
  | .minimum, .num literal | .maximum, .num literal => (parseFloat literal).isSome
  | _, _ => false

def store (r : RawSchema F) : Keyword → Json → RawSchema F
  | .type, .str s => { r with type := s }
  | .description, .str s => { r with description := s }
  | .required, .arr items => { r with required := readStrings r.required items }
  | .required, .null => { r with required := [] }
  | .enum, .arr items => { r with enum := items }
  | .enum, .null => { r with enum := [] }
  | .minimum, .num literal => { r with minimum := parseFloat literal }
  | .minimum, .null => { r with minimum := none }
  | .maximum, .num literal => { r with maximum := parseFloat literal }
  | .maximum, .null => { r with maximum := none }
  | _, _ => r

def emptySchema : RawSchema F := .ofType "" ""

mutual

def decodeInto (r : RawSchema F) : Json → Option (RawSchema F)
  | .null => some r
  | .obj members => decodeMembers r members
  | _ => none

def decodeMembers (r : RawSchema F) : List (String × Json) → Option (RawSchema F)
  | [] => some r
  | (name, v) :: rest => (decodeMember r (keyword name) v).bind fun r => decodeMembers r rest

def decodeMember (r : RawSchema F) : Option Keyword → Json → Option (RawSchema F)
  | none, _ => some r
  | some .properties, .null => some { r with properties := [] }
  | some .properties, .obj props => (decodeProperties r.properties props).map fun ps => { r with properties := ps }
  | some .items, .null => some { r with items := none }
  | some .items, .obj members =>
    (decodeMembers (r.items.getD emptySchema) members).map fun s => { r with items := some s }
  | some k, v => if takes parseFloat k v then some (store parseFloat r k v) else none

-- The entry of a property that is null is a nil pointer, which `convert` passes over: here it is no entry.
def decodeProperties (ps : List (String × RawSchema F)) : List (String × Json) → Option (List (String × RawSchema F))
  | [] => some ps
  | (k, .null) :: rest => decodeProperties (AssocMap.erase ps k) rest
  | (k, .obj members) :: rest =>
    (decodeMembers emptySchema members).bind fun s => decodeProperties (AssocMap.put ps k s) rest
  | _ :: _ => none

end

mutual

def wellTyped : Json → Bool
  | .null => true
  | .obj members => wellTypedMembers members
  | _ => false

def wellTypedMembers : List (String × Json) → Bool
  | [] => true
  | (name, v) :: rest => wellTypedMember (keyword name) v && wellTypedMembers rest

def wellTypedMember : Option Keyword → Json → Bool
  | none, _ => true
  | some .properties, .obj props => wellTypedProperties props
  | some .items, .obj members => wellTypedMembers members
  | some k, v => takes parseFloat k v

def wellTypedProperties : List (String × Json) → Bool
  | [] => true
  | (_, v) :: rest => wellTyped v && wellTypedProperties rest

end

end Decode

def normalizeType (t : String) : String :=
  match ["object", "string", "integer", "number", "boolean", "array"].find?
      fun name => name.toList = t.toList.map Event.lowerChar with
  | some name => name
  | none => if t = "" then "object" else "string"

section Convert

variable (text : Json → String)

def enumToString : Json → String
  | .str s => s
  | v => text v

mutual

def convert : RawSchema F → Schema F
  | ⟨type, description, properties, required, enum, items, minimum, maximum⟩ =>
    ⟨normalizeType type, description, convertProperties properties, required, enum.map (enumToString text),
      convertItems items, minimum, maximum⟩

def convertProperties : List (String × RawSchema F) → List (String × Schema F)
  | [] => []
  | (k, v) :: rest => (k, convert v) :: convertProperties rest

def convertItems : Option (RawSchema F) → Option (Schema F)
  | none => none
  | some v => some (convert v)

end

end Convert

inductive Source
  | empty
  | malformed
  | document (j : Json)

section ConvertSchema

variable (parseFloat : String → Option F) (text : Json → String)

def unavailable : Schema F := .ofType "object" "schema unavailable (parse failed); see upstream docs"

def convertSchema : Source → Schema F
  | .empty => .ofType "object" ""
  | .malformed => unavailable
  | .document j =>
    match decodeInto parseFloat emptySchema j with
    | some r => convert text r
    | none => unavailable

end ConvertSchema

section Properties

variable (k : String)

-- The last entry for `k` stands, and a null removes it.
def entryRead : Option Json → List (String × Json) → Option Json
  | old, [] => old
  | old, (name, v) :: rest => entryRead (if name = k then (match v with | .null => none | v => some v) else old) rest

def memberRead (old : Option Json) : Option Keyword → Json → Option Json
  | some .properties, .obj props => entryRead k old props
  | some .properties, .null => none
  | _, _ => old

/-- The schema that stands for `k` after the members of an object are read: every member whose name folds to
`properties` adds to the entries of those before it. -/
def propertyRead : Option Json → List (String × Json) → Option Json
  | old, [] => old
  | old, (name, v) :: rest => propertyRead (memberRead k old (keyword name) v) rest

end Properties

section Decoded

variable {parseFloat : String → Option F}

theorem isSome_guard {α : Type} (b : Bool) (x : α) : (if b then some x else none).isSome = b := by
  cases b <;> rfl

mutual

theorem isSome_decodeMembers (r : RawSchema F) : ∀ members : List (String × Json),
    (decodeMembers parseFloat r members).isSome = wellTypedMembers parseFloat members
  | [] => rfl
  | (name, v) :: rest => by
    rw [decodeMembers, wellTypedMembers, ← isSome_decodeMember r (keyword name) v]
    cases decodeMember parseFloat r (keyword name) v with
    | none => rfl
    | some r => exact isSome_decodeMembers r rest

theorem isSome_decodeMember (r : RawSchema F) (kw : Option Keyword) (v : Json) :
    (decodeMember parseFloat r kw v).isSome = wellTypedMember parseFloat kw v := by
  cases kw with
  | none => cases v <;> rfl
  | some kw =>
    cases v with
    | obj members =>
      cases kw with
      | properties => rw [decodeMember, isSome_map, wellTypedMember, isSome_decodeProperties]
      | items => rw [decodeMember, isSome_map, wellTypedMember, isSome_decodeMembers]
      | _ => rfl
    | num literal => cases kw <;> simp only [decodeMember, wellTypedMember, isSome_guard]
    | arr items => cases kw <;> simp only [decodeMember, wellTypedMember, isSome_guard]
    | _ => cases kw <;> rfl

theorem isSome_decodeProperties (ps : List (String × RawSchema F)) : ∀ props : List (String × Json),
    (decodeProperties parseFloat ps props).isSome = wellTypedProperties parseFloat props
  | [] => rfl
  | (k, .null) :: rest => isSome_decodeProperties (AssocMap.erase ps k) rest
  | (k, .obj members) :: rest => by
    rw [decodeProperties, wellTypedProperties, wellTyped, ← isSome_decodeMembers emptySchema members]
    cases decodeMembers parseFloat emptySchema members with
    | none => rfl
    | some s => exact isSome_decodeProperties (AssocMap.put ps k s) rest
  | (k, .bool _) :: rest | (k, .num _) :: rest | (k, .str _) :: rest | (k, .arr _) :: rest => rfl

end

variable {ps ps' : List (String × RawSchema F)} {k : String} {old : Option Json} {r r' : RawSchema F}
  {kw : Option Keyword} {v : Json}

variable (parseFloat) in
def Holds (ps : List (String × RawSchema F)) (k : String) (old : Option Json) : Prop :=
  old.map (decodeInto parseFloat emptySchema) = (AssocMap.get ps k).map some

theorem Holds.entryRead {props : List (String × Json)} (h : Holds parseFloat ps k old)
    (hdecode : decodeProperties parseFloat ps props = some ps') :
    Holds parseFloat ps' k (entryRead k old props) := by
  induction props generalizing ps old with
  | nil =>
    cases hdecode
    exact h
  | cons entry props ih =>
    obtain ⟨name, v⟩ := entry
    cases v with
    | null =>
      refine ih ?_ hdecode
      split
      next heq =>
        rw [heq, Holds, AssocMap.get_erase_self]
        rfl
      next hne =>
        rw [Holds, AssocMap.get_erase_of_ne _ (Ne.symm hne)]
        exact h
    | obj members =>
      obtain ⟨s, hs, hrest⟩ := bind_eq_some_iff.mp hdecode
      refine ih ?_ hrest
      split
      next heq =>
        rw [heq, Holds, AssocMap.get_put_self]
        exact congrArg some hs
      next hne =>
        rw [Holds, AssocMap.get_put_of_ne _ _ (Ne.symm hne)]
        exact h
    | _ => cases hdecode

theorem properties_store (r : RawSchema F) (kw : Keyword) (v : Json) :
    (store parseFloat r kw v).properties = r.properties := by
  unfold store
  split <;> rfl

theorem properties_decodeMember (hkw : kw ≠ some .properties) (hdecode : decodeMember parseFloat r kw v = some r') :
    r'.properties = r.properties := by
  unfold decodeMember at hdecode
  split at hdecode
  · cases hdecode
    rfl
  · exact absurd rfl hkw
  · exact absurd rfl hkw
  · cases hdecode
    rfl
  · obtain ⟨s, -, rfl⟩ := map_eq_some_iff.mp hdecode
    rfl
  · obtain ⟨-, hstore⟩ := ite_none_right_eq_some.mp hdecode
    cases hstore
    exact properties_store r _ v

theorem Holds.memberRead (h : Holds parseFloat r.properties k old) (hdecode : decodeMember parseFloat r kw v = some r') :
    Holds parseFloat r'.properties k (memberRead k old kw v) := by
  by_cases hkw : kw = some .properties
  · subst hkw
    cases v with
    | null =>
      cases hdecode
      rfl
    | obj props =>
      obtain ⟨ps, hps, rfl⟩ := map_eq_some_iff.mp hdecode
      exact h.entryRead hps
    | _ => cases hdecode
  · have hold : GitHub.memberRead k old kw v = old := by
      unfold GitHub.memberRead
      split
      · exact absurd rfl hkw
      · exact absurd rfl hkw
      · rfl
    rw [hold, properties_decodeMember hkw hdecode]
    exact h

theorem Holds.propertyRead {members : List (String × Json)} (h : Holds parseFloat r.properties k old)
    (hdecode : decodeMembers parseFloat r members = some r') :
    Holds parseFloat r'.properties k (propertyRead k old members) := by
  induction members generalizing r old with
  | nil =>
    cases hdecode
    exact h
  | cons entry members ih =>
    obtain ⟨name, v⟩ := entry
    obtain ⟨r₁, hmember, hrest⟩ := bind_eq_some_iff.mp hdecode
    exact ih (h.memberRead hmember) hrest

end Decoded

variable {parseFloat : String → Option F} {text : Json → String}

theorem get_convertProperties (ps : List (String × RawSchema F)) (k : String) :
    AssocMap.get (convertProperties text ps) k = (AssocMap.get ps k).map (convert text) := by
  induction ps with
  | nil => rfl
  | cons p ps ih =>
    simp only [AssocMap.get, convertProperties, List.find?_cons] at ih ⊢
    cases decide (p.1 = k) with
    | true => rfl
    | false => exact ih

theorem properties_convert (r : RawSchema F) : (convert text r).properties = convertProperties text r.properties := by
  cases r
  rfl

theorem Holds.convert_eq {ps : List (String × RawSchema F)} {k : String} {old : Option Json}
    (h : Holds parseFloat ps k old) : (AssocMap.get ps k).map (convert text) =
      old.map fun v => convertSchema parseFloat text (.document v) := by
  rw [Holds] at h
  cases old with
  | none => rw [map_eq_none_iff.mp h.symm, map_none, map_none]
  | some v =>
    obtain ⟨s, hget, hs⟩ := map_eq_some_iff.mp h.symm
    rw [hget, map_some, map_some, convertSchema, ← hs]

theorem get_convertSchema (members : List (String × Json)) (k : String) :
    AssocMap.get (convertSchema parseFloat text (.document (.obj members))).properties k =
      if wellTyped parseFloat (.obj members) then
        (propertyRead k none members).map fun v => convertSchema parseFloat text (.document v)
      else none := by
  have hsome : (decodeMembers parseFloat emptySchema members).isSome = wellTyped parseFloat (.obj members) :=
    isSome_decodeMembers emptySchema members
  rw [← hsome]
  cases hdecode : decodeMembers parseFloat emptySchema members with
  | none =>
    have hfallback : convertSchema parseFloat text (.document (.obj members)) = unavailable := by
      rw [convertSchema, decodeInto, hdecode]
    rw [hfallback]
    rfl
  | some r =>
    have hconvert : convertSchema parseFloat text (.document (.obj members)) = convert text r := by
      rw [convertSchema, decodeInto, hdecode]
    have hread : Holds parseFloat r.properties k (propertyRead k none members) :=
      Holds.propertyRead (r := emptySchema) rfl hdecode
    rw [hconvert, properties_convert, get_convertProperties, hread.convert_eq]
    rfl

theorem property_converted_iff (members : List (String × Json)) (k : String) :
    (∀ sub, propertyRead k none members = some sub →
      (AssocMap.get (convertSchema parseFloat text (.document (.obj members))).properties k =
          some (convertSchema parseFloat text (.document sub)) ↔
        wellTyped parseFloat (.obj members) = true)) ∧
    ((AssocMap.get (convertSchema parseFloat text (.document (.obj members))).properties k).isSome = true →
      wellTyped parseFloat (.obj members) = true ∧ (propertyRead k none members).isSome = true) := by
  rw [get_convertSchema]
  refine ⟨fun sub hread => ?_, fun hget => ?_⟩
  · rw [hread]
    split <;> simp_all
  · split at hget
    case isTrue htyped => exact ⟨htyped, by rwa [Option.isSome_map] at hget⟩
    case isFalse => cases hget

def readString (literal : String) : Option String := some literal

def looseProperty : List (String × Json) :=
  [("type", .str "object"),
    ("properties", .obj [("owner", .obj [("type", .str "string")]),
      ("page", .obj [("type", .arr [.str "integer", .str "null"])])])]

theorem sibling_drops_property :
    (convertSchema readString (fun _ => "") (.document (.obj looseProperty))).properties = [] ∧
      convertSchema readString (fun _ => "") (.document (.obj [("type", .str "string")])) = .ofType "string" "" :=
  ⟨rfl, rfl⟩

end NomadDev.GitHub
