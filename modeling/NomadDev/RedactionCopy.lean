import NomadDev.Redaction
import Mathlib.Data.List.Perm.Basic

namespace NomadDev.Event

open Fsops List

inductive Ref
  | null
  | bool (b : Bool)
  | num (q : ℚ)
  | str (s : Bytes)
  | slice (addr : ℕ)
  | map (addr : ℕ)

inductive Cell
  | slice (items : List Ref)
  | map (entries : List (String × Ref))

abbrev Heap : Type := List Cell

def setKey (k : String) (v : Ref) : List (String × Ref) → List (String × Ref)
  | [] => [(k, v)]
  | e :: es => if e.1 = k then (k, v) :: es else e :: setKey k v es

def Heap.setMap (h : Heap) (out : ℕ) (k : String) (v : Ref) : Heap :=
  match h[out]? with
  | some (.map entries) => h.set out (.map (setKey k v entries))
  | _ => h

def Heap.setSlice (h : Heap) (out i : ℕ) (v : Ref) : Heap :=
  match h[out]? with
  | some (.slice items) => h.set out (.slice (items.set i v))
  | _ => h

section Loops

variable (redact : Heap → String → Ref → Option (Heap × Ref))

def fillMap (out : ℕ) : List (String × Ref) → Heap → Option Heap
  | [], h => some h
  | (k, v) :: rest, h =>
    match redact h k v with
    | some (h', v') => fillMap out rest (h'.setMap out k v')
    | none => none

def fillSlice (out : ℕ) : ℕ → List Ref → Heap → Option Heap
  | _, [], h => some h
  | i, elem :: rest, h =>
    match redact h "" elem with
    | some (h', v') => fillSlice out (i + 1) rest (h'.setSlice out i v')
    | none => none

def copyMap (h : Heap) (addr : ℕ) : Option (Heap × ℕ) :=
  match h[addr]? with
  | some (.map entries) => (fillMap redact h.length entries (h ++ [.map []])).map fun h' => (h', h.length)
  | _ => none

def copySlice (h : Heap) (addr : ℕ) : Option (Heap × ℕ) :=
  match h[addr]? with
  | some (.slice items) =>
    (fillSlice redact h.length 0 items (h ++ [.slice (List.replicate items.length .null)])).map fun h' => (h', h.length)
  | _ => none

end Loops

-- `fuel` bounds the depth of the recursion: the walk of a cyclic value does not end.
def redactValue : ℕ → Heap → String → Ref → Option (Heap × Ref)
  | 0, _, _, _ => none
  | fuel + 1, h, key, v =>
    if isSensitiveKey key then some (h, .str redactedSentinel)
    else match v with
      | .str s => some (h, .str (redactString key s))
      | .map addr => (copyMap (redactValue fuel) h addr).map fun r => (r.1, .map r.2)
      | .slice addr => (copySlice (redactValue fuel) h addr).map fun r => (r.1, .slice r.2)
      | v => some (h, v)

def redactArgs (fuel : ℕ) (h : Heap) : Option ℕ → Option (Heap × Option ℕ)
  | none => some (h, none)
  | some addr => (copyMap (redactValue fuel) h addr).map fun r => (r.1, some r.2)

section Represents

variable (h : Heap) (P : ℕ → Prop)

mutual

inductive Represents : Ref → Value → Prop
  | null : Represents .null .null
  | bool (b : Bool) : Represents (.bool b) (.bool b)
  | num (q : ℚ) : Represents (.num q) (.num q)
  | str (s : Bytes) : Represents (.str s) (.str s)
  | slice {addr : ℕ} {items : List Ref} {vs : List Value} (hp : P addr) (hcell : h[addr]? = some (.slice items))
      (hitems : RepresentsItems items vs) : Represents (.slice addr) (.arr vs)
  | map {addr : ℕ} {entries : List (String × Ref)} {listed fields : Fields} (hp : P addr)
      (hcell : h[addr]? = some (.map entries)) (hkeys : (entries.map Prod.fst).Nodup)
      (hentries : RepresentsFields entries listed) (hperm : listed.Perm fields) :
      Represents (.map addr) (.obj fields)

inductive RepresentsItems : List Ref → List Value → Prop
  | nil : RepresentsItems [] []
  | cons {r : Ref} {v : Value} {rs : List Ref} {vs : List Value} (hv : Represents r v)
      (hvs : RepresentsItems rs vs) : RepresentsItems (r :: rs) (v :: vs)

inductive RepresentsFields : List (String × Ref) → Fields → Prop
  | nil : RepresentsFields [] []
  | cons {k : String} {r : Ref} {v : Value} {rs : List (String × Ref)} {fs : Fields} (hv : Represents r v)
      (hvs : RepresentsFields rs fs) : RepresentsFields ((k, r) :: rs) ((k, v) :: fs)

end

end Represents

section Frame

variable {h h' : Heap} {P Q : ℕ → Prop} {r : Ref} {v : Value} {k : String}

def Keeps (h : Heap) (P : ℕ → Prop) (h' : Heap) (Q : ℕ → Prop) : Prop :=
  ∀ a c, P a → h[a]? = some c → Q a ∧ h'[a]? = some c

mutual

theorem Represents.keep (hk : Keeps h P h' Q) {r : Ref} {v : Value} : Represents h P r v → Represents h' Q r v
  | .null => .null
  | .bool b => .bool b
  | .num q => .num q
  | .str s => .str s
  | .slice hp hcell hitems => .slice (hk _ _ hp hcell).1 (hk _ _ hp hcell).2 (hitems.keep hk)
  | .map hp hcell hkeys hentries hperm =>
    .map (hk _ _ hp hcell).1 (hk _ _ hp hcell).2 hkeys (hentries.keep hk) hperm

theorem RepresentsItems.keep (hk : Keeps h P h' Q) {rs : List Ref} {vs : List Value} :
    RepresentsItems h P rs vs → RepresentsItems h' Q rs vs
  | .nil => .nil
  | .cons hv hvs => .cons (hv.keep hk) (hvs.keep hk)

theorem RepresentsFields.keep (hk : Keeps h P h' Q) {es : List (String × Ref)} {fs : Fields} :
    RepresentsFields h P es fs → RepresentsFields h' Q es fs
  | .nil => .nil
  | .cons hv hvs => .cons (hv.keep hk) (hvs.keep hk)

end

theorem RepresentsItems.concat {rs : List Ref} {vs : List Value} (hv : Represents h P r v) :
    RepresentsItems h P rs vs → RepresentsItems h P (rs ++ [r]) (vs ++ [v])
  | .nil => .cons hv .nil
  | .cons hw hvs => .cons hw (hvs.concat hv)

theorem RepresentsFields.concat {es : List (String × Ref)} {fs : Fields} (hv : Represents h P r v) :
    RepresentsFields h P es fs → RepresentsFields h P (es ++ [(k, r)]) (fs ++ [(k, v)])
  | .nil => .cons hv .nil
  | .cons hw hvs => .cons hw (hvs.concat hv)

theorem getElem?_of_isPrefix (hp : h <+: h') {a : ℕ} {c : Cell} (ha : h[a]? = some c) : h'[a]? = some c := by
  obtain ⟨rest, rfl⟩ := hp
  rw [List.getElem?_append_left (List.getElem?_eq_some_iff.mp ha).1, ha]

theorem keeps_of_isPrefix (hp : h <+: h') : Keeps h P h' P :=
  fun _ _ ha hc => ⟨ha, getElem?_of_isPrefix hp hc⟩

theorem setKey_eq_append {v : Ref} {es : List (String × Ref)} (hk : k ∉ es.map Prod.fst) :
    setKey k v es = es ++ [(k, v)] := by
  induction es with
  | nil => rfl
  | cons e es ih =>
    simp only [map_cons, mem_cons, not_or] at hk
    simp [setKey, Ne.symm hk.1, ih hk.2]

end Frame

section Filling

variable {h₀ h h₁ : Heap} {c : Cell}

structure Filling (h₀ h : Heap) (c : Cell) : Prop where
  kept : h₀ <+: h
  out : h[h₀.length]? = some c

theorem Filling.start (h₀ : Heap) (c : Cell) : Filling h₀ (h₀ ++ [c]) c :=
  ⟨prefix_append .., by simp⟩

theorem Filling.write (hf : Filling h₀ h c) (hp : h <+: h₁) (c' : Cell) : Filling h₀ (h₁.set h₀.length c') c' := by
  have hlt : h₀.length < h₁.length := (List.getElem?_eq_some_iff.mp (getElem?_of_isPrefix hp hf.out)).1
  refine ⟨?_, by simp [hlt]⟩
  obtain ⟨rest, rfl⟩ := hf.kept.trans hp
  rw [set_append_right _ _ (Nat.le_refl _)]
  exact prefix_append ..

variable {P : ℕ → Prop} {addr : ℕ}

theorem keeps_set {out : ℕ} (c : Cell) (hp : ∀ a, P a → out < a) : Keeps h P (h.set out c) (out < ·) := by
  intro a c' ha hc
  have hne : out ≠ a := Nat.ne_of_lt (hp a ha)
  exact ⟨hp a ha, by rw [List.getElem?_set_ne hne, hc]⟩

def Copied (v : Value) : Prop :=
  ∀ (h : Heap) (P : ℕ → Prop) (key : String) (r : Ref), Represents h P r v →
    ∃ fuel h' r', (∀ n, fuel ≤ n → redactValue n h key r = some (h', r')) ∧ h <+: h' ∧
      Represents h' (h.length ≤ ·) r' (v.redact key)

theorem fillMap_spec {rest : List (String × Ref)} {fs : Fields} (hrest : RepresentsFields h₀ P rest fs)
    (hcopied : ∀ f ∈ fs, Copied f.2) {done : List (String × Ref)} {gs : Fields} (hf : Filling h₀ h (.map done))
    (hdone : RepresentsFields h (h₀.length < ·) done gs) (hkeys : ((done ++ rest).map Prod.fst).Nodup) :
    ∃ fuel h' done', (∀ n, fuel ≤ n → fillMap (redactValue n) h₀.length rest h = some h') ∧
      Filling h₀ h' (.map done') ∧ RepresentsFields h' (h₀.length < ·) done' (gs ++ redactFields fs) ∧
      done'.map Prod.fst = (done ++ rest).map Prod.fst := by
  induction rest generalizing fs h done gs with
  | nil =>
    cases hrest
    exact ⟨0, h, done, fun n _ => rfl, hf, by simpa [redactFields] using hdone, by simp⟩
  | cons e rest ih =>
    cases hrest with
    | @cons k r v _ fs hv hvs =>
      obtain ⟨fuel₁, h₁, r₁, hrun₁, hp₁, hr₁⟩ :=
        hcopied _ (mem_cons_self ..) h P k r (hv.keep (keeps_of_isPrefix hf.kept))
      have hlen : h₀.length < h.length := (List.getElem?_eq_some_iff.mp hf.out).1
      have hout : h₁[h₀.length]? = some (.map done) := getElem?_of_isPrefix hp₁ hf.out
      have hk : k ∉ done.map Prod.fst := by
        simp only [map_append, map_cons, nodup_append, mem_cons] at hkeys
        exact fun hmem => hkeys.2.2 k hmem k (.inl rfl) rfl
      have hset : h₁.setMap h₀.length k r₁ = h₁.set h₀.length (.map (done ++ [(k, r₁)])) := by
        rw [Heap.setMap, hout]
        simp only [setKey_eq_append hk]
      have hdone₁ : RepresentsFields (h₁.set h₀.length (.map (done ++ [(k, r₁)]))) (h₀.length < ·)
          (done ++ [(k, r₁)]) (gs ++ [(k, v.redact k)]) :=
        .concat (hr₁.keep (keeps_set _ fun a ha => Nat.lt_of_lt_of_le hlen ha))
          ((hdone.keep (keeps_of_isPrefix hp₁)).keep (keeps_set _ fun a ha => ha))
      obtain ⟨fuel₂, h₂, done₂, hrun₂, hf₂, hdone₂, hkeys₂⟩ :=
        ih hvs (fun f hmem => hcopied f (mem_cons_of_mem _ hmem)) (hf.write hp₁ _) hdone₁
          (by simpa using hkeys)
      refine ⟨max fuel₁ fuel₂, h₂, done₂, fun n hn => ?_, hf₂, by simpa [redactFields] using hdone₂,
        by simpa using hkeys₂⟩
      rw [fillMap, hrun₁ n (by omega)]
      simp only [hset]
      exact hrun₂ n (by omega)

theorem fillSlice_spec {rest : List Ref} {vs : List Value} (hrest : RepresentsItems h₀ P rest vs)
    (hcopied : ∀ v ∈ vs, Copied v) {done : List Ref} {ws : List Value}
    (hf : Filling h₀ h (.slice (done ++ List.replicate rest.length .null)))
    (hdone : RepresentsItems h (h₀.length < ·) done ws) :
    ∃ fuel h' done', (∀ n, fuel ≤ n → fillSlice (redactValue n) h₀.length done.length rest h = some h') ∧
      Filling h₀ h' (.slice done') ∧ RepresentsItems h' (h₀.length < ·) done' (ws ++ redactItems vs) := by
  induction rest generalizing vs h done ws with
  | nil =>
    cases hrest
    exact ⟨0, h, done, fun n _ => rfl, by simpa using hf, by simpa [redactItems] using hdone⟩
  | cons r rest ih =>
    cases hrest with
    | @cons _ v _ vs hv hvs =>
      obtain ⟨fuel₁, h₁, r₁, hrun₁, hp₁, hr₁⟩ :=
        hcopied _ (mem_cons_self ..) h P "" r (hv.keep (keeps_of_isPrefix hf.kept))
      have hlen : h₀.length < h.length := (List.getElem?_eq_some_iff.mp hf.out).1
      have hout := getElem?_of_isPrefix hp₁ hf.out
      have hitems : (done ++ List.replicate (r :: rest).length Ref.null).set done.length r₁ =
          (done ++ [r₁]) ++ List.replicate rest.length .null := by
        simp [replicate_succ]
      have hset : h₁.setSlice h₀.length done.length r₁ =
          h₁.set h₀.length (.slice ((done ++ [r₁]) ++ List.replicate rest.length .null)) := by
        rw [Heap.setSlice, hout]
        simp only [hitems]
      have hdone₁ : RepresentsItems (h₁.set h₀.length (.slice ((done ++ [r₁]) ++ List.replicate rest.length .null)))
          (h₀.length < ·) (done ++ [r₁]) (ws ++ [v.redact ""]) :=
        .concat (hr₁.keep (keeps_set _ fun a ha => Nat.lt_of_lt_of_le hlen ha))
          ((hdone.keep (keeps_of_isPrefix hp₁)).keep (keeps_set _ fun a ha => ha))
      obtain ⟨fuel₂, h₂, done₂, hrun₂, hf₂, hdone₂⟩ :=
        ih hvs (fun w hmem => hcopied w (mem_cons_of_mem _ hmem)) (hf.write hp₁ _) hdone₁
      refine ⟨max fuel₁ fuel₂, h₂, done₂, fun n hn => ?_, hf₂, by simpa [redactItems] using hdone₂⟩
      rw [fillSlice, hrun₁ n (by omega)]
      simp only [hset]
      simpa using hrun₂ n (by omega)

theorem copyMap_spec {fields : Fields} (hcopied : ∀ f ∈ fields, Copied f.2)
    (hr : Represents h P (.map addr) (.obj fields)) :
    ∃ fuel h' addr', (∀ n, fuel ≤ n → copyMap (redactValue n) h addr = some (h', addr')) ∧ h <+: h' ∧
      Represents h' (h.length ≤ ·) (.map addr') (.obj (redactFields fields)) := by
  cases hr with
  | @map _ entries listed _ _ hcell hkeys hentries hperm =>
    obtain ⟨fuel, h', done, hrun, hf, hdone, hkeys'⟩ := fillMap_spec hentries
      (fun f hf => hcopied f (hperm.mem_iff.mp hf)) (.start h (.map [])) .nil (by simpa using hkeys)
    have hnodup : (done.map Prod.fst).Nodup := by simpa [hkeys'] using hkeys
    have hperm' : (redactFields listed).Perm (redactFields fields) := by
      rw [redactFields_eq_map, redactFields_eq_map]
      exact hperm.map _
    refine ⟨fuel, h', h.length, fun n hn => ?_, hf.kept,
      .map (Nat.le_refl _) hf.out hnodup (hdone.keep fun a c ha hc => ⟨Nat.le_of_lt ha, hc⟩) hperm'⟩
    rw [copyMap, hcell]
    simp only [hrun n hn, Option.map_some]

theorem copySlice_spec {vs : List Value} (hcopied : ∀ v ∈ vs, Copied v) (hr : Represents h P (.slice addr) (.arr vs)) :
    ∃ fuel h' addr', (∀ n, fuel ≤ n → copySlice (redactValue n) h addr = some (h', addr')) ∧ h <+: h' ∧
      Represents h' (h.length ≤ ·) (.slice addr') (.arr (redactItems vs)) := by
  cases hr with
  | @slice _ items _ _ hcell hitems =>
    have hstart : Filling h (h ++ [.slice ([] ++ List.replicate items.length .null)]) _ := .start h _
    obtain ⟨fuel, h', done, hrun, hf, hdone⟩ := fillSlice_spec hitems hcopied hstart .nil
    refine ⟨fuel, h', h.length, fun n hn => ?_, hf.kept,
      .slice (Nat.le_refl _) hf.out (hdone.keep fun a c ha hc => ⟨Nat.le_of_lt ha, hc⟩)⟩
    rw [copySlice, hcell]
    simp only [length_nil, nil_append] at hrun
    simp only [hrun n hn, Option.map_some]

theorem copied_of_shown {v : Value} (hshown : ∀ (h : Heap) (P : ℕ → Prop) (key : String) (r : Ref),
    isSensitiveKey key = false → Represents h P r v →
      ∃ fuel h' r', (∀ n, fuel ≤ n → redactValue (n + 1) h key r = some (h', r')) ∧ h <+: h' ∧
        Represents h' (h.length ≤ ·) r' (v.redact key)) : Copied v := by
  intro h P key r hr
  cases hs : isSensitiveKey key with
  | true =>
    refine ⟨1, h, .str redactedSentinel, fun n hn => ?_, prefix_rfl, ?_⟩
    · obtain ⟨n, rfl⟩ : ∃ m, n = m + 1 := ⟨n - 1, by omega⟩
      simp [redactValue, hs]
    · rw [v.redact_of_sensitive hs]
      exact .str _
  | false =>
    obtain ⟨fuel, h', r', hrun, hp, hr'⟩ := hshown h P key r hs hr
    refine ⟨fuel + 1, h', r', fun n hn => ?_, hp, hr'⟩
    obtain ⟨n, rfl⟩ : ∃ m, n = m + 1 := ⟨n - 1, by omega⟩
    exact hrun n (by omega)

theorem copied (v : Value) : Copied v := by
  induction v using Value.induct with
  | null =>
    refine copied_of_shown fun h P key r hs hr => ?_
    cases hr
    exact ⟨0, h, .null, fun n _ => by simp [redactValue, hs], prefix_rfl, by simpa [Value.redact, hs] using .null⟩
  | bool b =>
    refine copied_of_shown fun h P key r hs hr => ?_
    cases hr
    exact ⟨0, h, .bool b, fun n _ => by simp [redactValue, hs], prefix_rfl, by simpa [Value.redact, hs] using .bool b⟩
  | num q =>
    refine copied_of_shown fun h P key r hs hr => ?_
    cases hr
    exact ⟨0, h, .num q, fun n _ => by simp [redactValue, hs], prefix_rfl, by simpa [Value.redact, hs] using .num q⟩
  | str s =>
    refine copied_of_shown fun h P key r hs hr => ?_
    cases hr
    exact ⟨0, h, .str (redactString key s), fun n _ => by simp [redactValue, hs], prefix_rfl,
      by simpa [Value.redact, hs] using .str _⟩
  | arr items ih =>
    refine copied_of_shown fun h P key r hs hr => ?_
    obtain ⟨addr, rfl⟩ : ∃ addr, r = .slice addr := by cases hr; exact ⟨_, rfl⟩
    obtain ⟨fuel, h', addr', hrun, hp, hr'⟩ := copySlice_spec ih hr
    exact ⟨fuel, h', .slice addr', fun n hn => by simp [redactValue, hs, hrun n hn], hp,
      by simpa [Value.redact, hs] using hr'⟩
  | obj fields ih =>
    refine copied_of_shown fun h P key r hs hr => ?_
    obtain ⟨addr, rfl⟩ : ∃ addr, r = .map addr := by cases hr; exact ⟨_, rfl⟩
    obtain ⟨fuel, h', addr', hrun, hp, hr'⟩ := copyMap_spec ih hr
    exact ⟨fuel, h', .map addr', fun n hn => by simp [redactValue, hs, hrun n hn], hp,
      by simpa [Value.redact, hs] using hr'⟩

end Filling

inductive RepresentsArgs (h : Heap) (P : ℕ → Prop) : Option ℕ → Option Fields → Prop
  | nil : RepresentsArgs h P none none
  | map {addr : ℕ} {fields : Fields} (hr : Represents h P (.map addr) (.obj fields)) :
      RepresentsArgs h P (some addr) (some fields)

theorem redactArgs_spec {h : Heap} {P : ℕ → Prop} {args : Option ℕ} {tree : Option Fields}
    (hr : RepresentsArgs h P args tree) :
    ∃ fuel h' out, (∀ n, fuel ≤ n → redactArgs n h args = some (h', out)) ∧ h <+: h' ∧
      RepresentsArgs h' (h.length ≤ ·) out (tree.map redactFields) := by
  cases hr with
  | nil => exact ⟨0, h, none, fun n _ => rfl, prefix_rfl, .nil⟩
  | map hr =>
    obtain ⟨fuel, h', addr', hrun, hp, hr'⟩ := copyMap_spec (fun f _ => copied f.2) hr
    exact ⟨fuel, h', some addr', fun n hn => by simp [redactArgs, hrun n hn], hp, .map hr'⟩

inductive SameButSensitive : Option Fields → Option Fields → Prop
  | nil : SameButSensitive none none
  | map {fs gs : Fields} (h : SameFields (isSensitiveKey · = true) (fun _ => (· = ·)) fs gs) :
      SameButSensitive (some fs) (some gs)

theorem SameButSensitive.redact_eq {fs gs : Option Fields} (h : SameButSensitive fs gs) :
    fs.map redactFields = gs.map redactFields := by
  have hid : Hidden (isSensitiveKey · = true) (fun _ => (· = ·)) := ⟨fun _ hk => hk, fun _ _ _ hst => hst ▸ rfl⟩
  cases h with
  | nil => rfl
  | map h => simp [h.redact_eq hid]

theorem redactArgs_hides_sensitive {h₁ h₂ : Heap} {P₁ P₂ : ℕ → Prop} {args₁ args₂ : Option ℕ}
    {tree₁ tree₂ : Option Fields} (hr₁ : RepresentsArgs h₁ P₁ args₁ tree₁) (hr₂ : RepresentsArgs h₂ P₂ args₂ tree₂)
    (hsame : SameButSensitive tree₁ tree₂) :
    ∃ fuel h₁' h₂' out₁ out₂ copy, (∀ n, fuel ≤ n → redactArgs n h₁ args₁ = some (h₁', out₁) ∧
        redactArgs n h₂ args₂ = some (h₂', out₂)) ∧
      RepresentsArgs h₁' (h₁.length ≤ ·) out₁ copy ∧ RepresentsArgs h₂' (h₂.length ≤ ·) out₂ copy ∧
      h₁ <+: h₁' ∧ h₂ <+: h₂' := by
  obtain ⟨fuel₁, h₁', out₁, hrun₁, hp₁, hr₁'⟩ := redactArgs_spec hr₁
  obtain ⟨fuel₂, h₂', out₂, hrun₂, hp₂, hr₂'⟩ := redactArgs_spec hr₂
  rw [← hsame.redact_eq] at hr₂'
  exact ⟨max fuel₁ fuel₂, h₁', h₂', out₁, out₂, _, fun n hn => ⟨hrun₁ n (by omega), hrun₂ n (by omega)⟩,
    hr₁', hr₂', hp₁, hp₂⟩

def nestedHeap (token : Ref) : Heap :=
  [.map [("token", token)], .slice [.map 0], .map [("retries", .num 3), ("config", .slice 1)]]

def nestedTree (token : Value) : Fields := [("config", .arr [.obj [("token", token)]]), ("retries", .num 3)]

theorem nestedHeap_represents {token : Ref} {v : Value} (hv : Represents (nestedHeap token) (· < 3) token v) :
    RepresentsArgs (nestedHeap token) (· < 3) (some 2) (some (nestedTree v)) := by
  have hobj : Represents (nestedHeap token) (· < 3) (.map 0) (.obj [("token", v)]) :=
    .map (by decide) rfl (by simp) (.cons hv .nil) (List.Perm.refl _)
  have harr : Represents (nestedHeap token) (· < 3) (.slice 1) (.arr [.obj [("token", v)]]) :=
    .slice (by decide) rfl (.cons hobj .nil)
  exact .map (.map (by decide) rfl (by simp) (.cons (.num 3) (.cons harr .nil)) (List.Perm.swap ..))

theorem redactArgs_hides_nested_token : ∃ fuel h₁' h₂' out₁ out₂ copy,
      (∀ n, fuel ≤ n → redactArgs n (nestedHeap (.str (utf8 "abc123"))) (some 2) = some (h₁', out₁) ∧
        redactArgs n (nestedHeap (.num 7)) (some 2) = some (h₂', out₂)) ∧
      RepresentsArgs h₁' (3 ≤ ·) out₁ copy ∧ RepresentsArgs h₂' (3 ≤ ·) out₂ copy ∧
      nestedHeap (.str (utf8 "abc123")) <+: h₁' ∧ nestedHeap (.num 7) <+: h₂' := by
  have htoken : isSensitiveKey "token" = true := by decide +kernel
  exact redactArgs_hides_sensitive (nestedHeap_represents (.str (utf8 "abc123"))) (nestedHeap_represents (.num 7))
    (.map (.cons (.arr _ (.cons (.obj _ (.free _ _ htoken .nil)) .nil)) (.cons (.num _ 3) .nil)))

end NomadDev.Event
