import NomadDev.Foundation.PointUpdate
import NomadDev.Foundation.Transition
import NomadDev.Foundation.Utf8

namespace NomadDev.Lsp.Docs

open Foundation.Transition Foundation.PointUpdate Function

abbrev Bytes := List UInt8

inductive Operation
  | definition | implementation | hover | references | documentSymbols | workspaceSymbols
  deriving DecidableEq

def Operation.onDocument (op : Operation) : Bool := op ≠ .workspaceSymbols

structure Query where
  operation : Operation
  absPath : String
  deriving DecidableEq

structure Snapshot where
  path : String
  content : Bytes
  revision : ℕ
  deriving DecidableEq

inductive Call
  | idle
  | checking (n : ℕ) (q : Query)
  | reading (n : ℕ) (q : Query)
  | notifying (n : ℕ) (q : Query) (read : Snapshot)
  | marking (n : ℕ) (q : Query)
  | ready (n : ℕ) (q : Query)
  deriving DecidableEq

structure Request where
  server : ℕ
  query : Query
  (text content read : Option Bytes)
  edited : Bool
  deriving DecidableEq

structure State where
  disk : String → Option Bytes
  revision : String → ℕ
  openDocs : ℕ → String → Bool
  sent : ℕ → String → Option (Bytes × Snapshot)
  calls : ℕ → Call
  requests : List Request

inductive Action
  | edit (path : String) (content : Option Bytes)
  | query (g n : ℕ) (q : Query)
  | check (g : ℕ)
  | read (g : ℕ)
  | notify (g : ℕ) (written : Bool)
  | mark (g : ℕ)
  | request (g : ℕ) (written : Bool)

def init : State := ⟨fun _ => none, fun _ => 0, fun _ _ => false, fun _ _ => none, fun _ => .idle, []⟩

section Model

variable (urlString : String → String → String)

def pathToURI (path : String) : String := urlString "file" path

namespace State

def goto (s : State) (g : ℕ) (call : Call) : State := { s with calls := update s.calls g call }

def edit (s : State) (path : String) (content : Option Bytes) : State :=
  { s with
    disk := update s.disk path content
    revision := update s.revision path (s.revision path + 1) }

def didOpen (s : State) (n : ℕ) (read : Snapshot) : State :=
  let docs := update (s.sent n) (pathToURI urlString read.path)
    (some (Foundation.Utf8.coerce read.content, read))
  { s with sent := update s.sent n docs }

def setOpen (s : State) (n : ℕ) (uri : String) : State :=
  { s with openDocs := update s.openDocs n (update (s.openDocs n) uri true) }

def requestOf (s : State) (n : ℕ) (q : Query) : Request :=
  let doc := s.sent n (pathToURI urlString q.absPath)
  ⟨n, q, doc.map (·.1), s.disk q.absPath, doc.map (·.2.content), doc.any fun d => d.2.revision ≠ s.revision q.absPath⟩

end State

def step (s : State) : Action → Option State
  | .edit path content => some (s.edit path content)
  | .query g n q =>
    match s.calls g with
    | .idle => some (s.goto g (if q.absPath = "" then .ready n q else .checking n q))
    | _ => none
  | .check g =>
    match s.calls g with
    | .checking n q =>
      some (s.goto g (if s.openDocs n (pathToURI urlString q.absPath) then .ready n q else .reading n q))
    | _ => none
  | .read g =>
    match s.calls g with
    | .reading n q =>
      some (s.goto g (match s.disk q.absPath with
        | some content => .notifying n q ⟨q.absPath, content, s.revision q.absPath⟩
        | none => .idle))
    | _ => none
  | .notify g written =>
    match s.calls g with
    | .notifying n q read =>
      some (if written then (s.didOpen urlString n read).goto g (.marking n q) else s.goto g .idle)
    | _ => none
  | .mark g =>
    match s.calls g with
    | .marking n q => some ((s.setOpen n (pathToURI urlString q.absPath)).goto g (.ready n q))
    | _ => none
  | .request g written =>
    match s.calls g with
    | .ready n q =>
      let s := if written then { s with requests := s.requests ++ [s.requestOf urlString n q] } else s
      some (s.goto g .idle)
    | _ => none

end Model

section Proofs

variable {urlString : String → String → String} {s t : State} {g n : ℕ} {read : Snapshot} {call : Call} {q : Query}

def Current (s : State) (read : Snapshot) : Prop :=
  read.revision ≤ s.revision read.path ∧
    (read.revision = s.revision read.path → s.disk read.path = some read.content)

def Opened (urlString : String → String → String) (s : State) (n : ℕ) (path : String) : Prop :=
  (s.sent n (pathToURI urlString path)).isSome = true

def CallOk (urlString : String → String → String) (s : State) : Call → Prop
  | .notifying _ q read => read.path = q.absPath ∧ Current s read
  | .marking n q => Opened urlString s n q.absPath
  | .ready n q => q.absPath ≠ "" → Opened urlString s n q.absPath
  | _ => True

def Faithful (x : Request) : Prop :=
  ∃ c, x.read = some c ∧ x.text = some (Foundation.Utf8.coerce c) ∧ (x.edited = false → x.content = some c)

structure Inv (urlString : String → String → String) (s : State) : Prop where
  sent : ∀ n uri text read, s.sent n uri = some (text, read) →
    uri = pathToURI urlString read.path ∧ text = Foundation.Utf8.coerce read.content ∧ Current s read
  openDocs : ∀ n uri, s.openDocs n uri = true → (s.sent n uri).isSome = true
  calls : ∀ g, CallOk urlString s (s.calls g)
  requests : ∀ x ∈ s.requests, x.query.operation.onDocument = true → x.query.absPath ≠ "" → Faithful x

theorem Inv.init : Inv urlString init := ⟨nofun, nofun, fun _ => trivial, nofun⟩

theorem current_edit (h : Current s read) (path : String) (content : Option Bytes) :
    Current (s.edit path content) read := by
  by_cases hp : read.path = path
  · subst hp
    have hrev : (s.edit read.path content).revision read.path = s.revision read.path + 1 := update_self ..
    constructor
    · rw [hrev]
      exact Nat.le_succ_of_le h.1
    · intro heq
      rw [hrev] at heq
      exact absurd (heq ▸ h.1) (Nat.not_succ_le_self _)
  · have hrev : (s.edit path content).revision read.path = s.revision read.path := update_of_ne hp _ _
    have hdisk : (s.edit path content).disk read.path = s.disk read.path := update_of_ne hp _ _
    rw [Current, hrev, hdisk]
    exact h

theorem CallOk.mono (h : CallOk urlString s call) (hcur : ∀ read, Current s read → Current t read)
    (hsent : ∀ n uri, (s.sent n uri).isSome = true → (t.sent n uri).isSome = true) : CallOk urlString t call := by
  cases call with
  | notifying n q read => exact ⟨h.1, hcur read h.2⟩
  | marking n q => exact hsent _ _ h
  | ready n q => exact fun hne => hsent _ _ (h hne)
  | idle | checking | reading => trivial

theorem Inv.goto (h : Inv urlString s) (hcall : CallOk urlString s call) : Inv urlString (s.goto g call) where
  sent := h.sent
  openDocs := h.openDocs
  calls := update_of_forall (P := fun _ call => CallOk urlString s call) hcall fun g' _ => h.calls g'
  requests := h.requests

theorem Inv.edit (h : Inv urlString s) (path : String) (content : Option Bytes) :
    Inv urlString (s.edit path content) where
  sent n uri text read hsent := by
    obtain ⟨huri, htext, hcur⟩ := h.sent n uri text read hsent
    exact ⟨huri, htext, current_edit hcur path content⟩
  openDocs := h.openDocs
  calls g := (h.calls g).mono (fun _ hcur => current_edit hcur path content) fun _ _ => id
  requests := h.requests

theorem sent_didOpen (n : ℕ) (read : Snapshot) (n' : ℕ) (uri : String) : (s.didOpen urlString n read).sent n' uri =
      if n' = n ∧ uri = pathToURI urlString read.path then some (Foundation.Utf8.coerce read.content, read)
      else s.sent n' uri := by
  by_cases hn : n' = n
  · subst hn
    by_cases huri : uri = pathToURI urlString read.path
    · simp [State.didOpen, huri]
    · simp [State.didOpen, huri]
  · simp [State.didOpen, hn]

theorem isSome_didOpen {n' : ℕ} {uri : String} (h : (s.sent n' uri).isSome = true) :
    ((s.didOpen urlString n read).sent n' uri).isSome = true := by
  rw [sent_didOpen]
  split
  · rfl
  · exact h

theorem Inv.didOpen (h : Inv urlString s) (hcur : Current s read) : Inv urlString (s.didOpen urlString n read) where
  sent n' uri text read' hsent := by
    rw [sent_didOpen] at hsent
    split at hsent
    next hat =>
      cases hsent
      exact ⟨hat.2, rfl, hcur⟩
    next => exact h.sent n' uri text read' hsent
  openDocs n' uri hopen := isSome_didOpen (h.openDocs n' uri hopen)
  calls g := (h.calls g).mono (fun _ => id) fun _ _ => isSome_didOpen
  requests := h.requests

theorem Inv.setOpen (h : Inv urlString s) {path : String} (hopened : Opened urlString s n path) :
    Inv urlString (s.setOpen n (pathToURI urlString path)) where
  sent := h.sent
  openDocs n' uri hopen := by
    rcases update_cases (fun f : String → Bool => f uri = true) hopen with ⟨rfl, hopen⟩ | ⟨-, hopen⟩
    · rcases update_cases (· = true) hopen with ⟨rfl, -⟩ | ⟨-, hopen⟩
      · exact hopened
      · exact h.openDocs n' uri hopen
    · exact h.openDocs n' uri hopen
  calls := h.calls
  requests := h.requests

theorem faithful_requestOf (hinj : Function.Injective (urlString "file")) (h : Inv urlString s)
    (hopened : Opened urlString s n q.absPath) : Faithful (s.requestOf urlString n q) := by
  obtain ⟨⟨text, read⟩, hsent⟩ := Option.isSome_iff_exists.mp hopened
  obtain ⟨huri, rfl, hcur⟩ := h.sent n _ text read hsent
  have hpath : q.absPath = read.path := hinj huri
  refine ⟨read.content, ?_, ?_, fun hedited => ?_⟩
  · simp only [State.requestOf, hsent, Option.map_some]
  · simp only [State.requestOf, hsent, Option.map_some]
  · simp only [State.requestOf, hsent, Option.any_some, decide_eq_false_iff_not, not_not] at hedited
    rw [hpath] at hedited
    have hdisk := hcur.2 hedited
    rw [← hpath] at hdisk
    exact hdisk

theorem Inv.request (hinj : Function.Injective (urlString "file")) (h : Inv urlString s)
    (hcall : s.calls g = .ready n q) :
    Inv urlString { s with requests := s.requests ++ [s.requestOf urlString n q] } where
  sent := h.sent
  openDocs := h.openDocs
  calls := h.calls
  requests x hx hop hpath := by
    rcases List.mem_append.mp hx with hx | hx
    · exact h.requests x hx hop hpath
    cases List.mem_singleton.mp hx
    have hok := h.calls g
    rw [hcall] at hok
    exact faithful_requestOf hinj h (hok hpath)

inductive Moved (urlString : String → String → String) (s : State) : Action → State → Prop
  | edit (path : String) (content : Option Bytes) : Moved urlString s (.edit path content) (s.edit path content)
  | query (g n : ℕ) (q : Query) : s.calls g = .idle →
      Moved urlString s (.query g n q) (s.goto g (if q.absPath = "" then .ready n q else .checking n q))
  | check (g n : ℕ) (q : Query) : s.calls g = .checking n q →
      Moved urlString s (.check g)
        (s.goto g (if s.openDocs n (pathToURI urlString q.absPath) then .ready n q else .reading n q))
  | gone (g n : ℕ) (q : Query) : s.calls g = .reading n q → s.disk q.absPath = none →
      Moved urlString s (.read g) (s.goto g .idle)
  | read (g n : ℕ) (q : Query) (content : Bytes) : s.calls g = .reading n q → s.disk q.absPath = some content →
      Moved urlString s (.read g) (s.goto g (.notifying n q ⟨q.absPath, content, s.revision q.absPath⟩))
  | notify (g n : ℕ) (q : Query) (read : Snapshot) : s.calls g = .notifying n q read →
      Moved urlString s (.notify g true) ((s.didOpen urlString n read).goto g (.marking n q))
  | unnotified (g n : ℕ) (q : Query) (read : Snapshot) : s.calls g = .notifying n q read →
      Moved urlString s (.notify g false) (s.goto g .idle)
  | mark (g n : ℕ) (q : Query) : s.calls g = .marking n q →
      Moved urlString s (.mark g) ((s.setOpen n (pathToURI urlString q.absPath)).goto g (.ready n q))
  | request (g n : ℕ) (q : Query) : s.calls g = .ready n q →
      Moved urlString s (.request g true)
        (State.goto { s with requests := s.requests ++ [s.requestOf urlString n q] } g .idle)
  | unsent (g n : ℕ) (q : Query) : s.calls g = .ready n q → Moved urlString s (.request g false) (s.goto g .idle)

theorem moved_step {a : Action} (h : step urlString s a = some t) : Moved urlString s a t := by
  cases a with simp only [step] at h
  | edit path content =>
    cases h
    exact .edit path content
  | query g n q =>
    split at h
    next hcall => cases h; exact .query g n q hcall
    next => cases h
  | check g =>
    split at h
    next n q hcall => cases h; exact .check g n q hcall
    next => cases h
  | read g =>
    split at h <;> cases h
    next n q hcall =>
      split
      next content hdisk => exact .read g n q content hcall hdisk
      next hdisk => exact .gone g n q hcall hdisk
  | notify g written =>
    split at h <;> cases h
    next n q read hcall =>
      cases written with
      | true => exact .notify g n q read hcall
      | false => exact .unnotified g n q read hcall
  | mark g =>
    split at h
    next n q hcall => cases h; exact .mark g n q hcall
    next => cases h
  | request g written =>
    split at h <;> cases h
    next n q hcall =>
      cases written with
      | true => exact .request g n q hcall
      | false => exact .unsent g n q hcall

theorem inv_step (hinj : Function.Injective (urlString "file")) (s : State) (a : Action) (t : State)
    (hstep : step urlString s a = some t) (h : Inv urlString s) : Inv urlString t := by
  cases moved_step hstep with
  | edit path content => exact h.edit path content
  | query g n q hcall =>
    refine h.goto ?_
    split
    next hempty => exact fun hne => absurd hempty hne
    next => trivial
  | check g n q hcall =>
    refine h.goto ?_
    split
    next hopen => exact fun _ => h.openDocs _ _ hopen
    next => trivial
  | gone | unnotified | unsent => exact h.goto trivial
  | read g n q content hcall hdisk => exact h.goto ⟨rfl, Nat.le_refl _, fun _ => hdisk⟩
  | notify g n q read hcall =>
    have hok := h.calls g
    rw [hcall] at hok
    refine (h.didOpen hok.2).goto ?_
    rw [CallOk, Opened, sent_didOpen, if_pos ⟨rfl, by rw [hok.1]⟩]
    rfl
  | mark g n q hcall =>
    have hok := h.calls g
    rw [hcall] at hok
    exact (h.setOpen hok).goto fun _ => hok
  | request g n q hcall => exact (h.request hinj hcall).goto trivial

theorem request_text_as_opened (hinj : Function.Injective (urlString "file")) {acts : List Action}
    (hrun : run (step urlString) init acts = some s) (x : Request) (hx : x ∈ s.requests)
    (hop : x.query.operation.onDocument = true) (hpath : x.query.absPath ≠ "") :
    ∃ c, x.read = some c ∧ x.text = some (Foundation.Utf8.coerce c) ∧
      (x.edited = false → (x.text = x.content ↔ Foundation.Utf8.valid c = true)) := by
  have hinv : Inv urlString s := run_preserves (inv_step hinj) hrun .init
  obtain ⟨c, hread, htext, hsame⟩ := hinv.requests x hx hop hpath
  refine ⟨c, hread, htext, fun hedited => ?_⟩
  rw [htext, hsame hedited, Option.some.injEq]
  exact Foundation.Utf8.coerce_eq_self_iff c

end Proofs

def fileURL (scheme path : String) : String := scheme ++ "://" ++ path

def firstQuery : List Action :=
  [.edit "/w/a.go" (some [97]), .query 0 0 ⟨.hover, "/w/a.go"⟩, .check 0, .read 0, .notify 0 true, .mark 0,
    .request 0 true]

def freshRequest : Request := ⟨0, ⟨.hover, "/w/a.go"⟩, some [97], some [97], some [97], false⟩

theorem request_text_first_query : ∃ s, run (step fileURL) init firstQuery = some s ∧ freshRequest ∈ s.requests ∧
      ∃ c, freshRequest.read = some c ∧ freshRequest.text = some (Foundation.Utf8.coerce c) ∧
        (freshRequest.edited = false →
          (freshRequest.text = freshRequest.content ↔ Foundation.Utf8.valid c = true)) := by
  obtain ⟨s, hrun, hx⟩ : ∃ s, run (step fileURL) init firstQuery = some s ∧ freshRequest ∈ s.requests :=
    exists_run_of_any (by decide +kernel)
  have hinj : Function.Injective (fileURL "file") := by
    intro p q hpq
    exact String.append_right_inj _ |>.mp hpq
  exact ⟨s, hrun, hx, request_text_as_opened hinj hrun freshRequest hx rfl nofun⟩

def editedBetween : List Action :=
  firstQuery ++ [.edit "/w/a.go" (some [98]), .query 0 0 ⟨.hover, "/w/a.go"⟩, .check 0, .request 0 true]

theorem edited_file_stale : ∃ s, run (step fileURL) init editedBetween = some s ∧
      ∃ x ∈ s.requests, x.query = ⟨.hover, "/w/a.go"⟩ ∧ x.text = some [97] ∧ x.content = some [98] :=
  exists_run_of_any (by decide +kernel)

end NomadDev.Lsp.Docs
