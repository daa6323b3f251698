import NomadDev.LspDocuments
import Mathlib.Data.List.Nodup

namespace NomadDev.Lsp.Docs

open Foundation.Transition Foundation.PointUpdate Function List

inductive Frame
  | didOpen (n : ℕ) (uri : String)
  | request (n : ℕ) (q : Query)
  deriving DecidableEq

section Wire

variable (urlString : String → String → String)

def wire (s : State) : Action → List Frame
  | .notify g true =>
    match s.calls g with
    | .notifying n q _ => [.didOpen n (pathToURI urlString q.absPath)]
    | _ => []
  | .request g true =>
    match s.calls g with
    | .ready n q => [.request n q]
    | _ => []
  | _ => []

def received (acts : List Action) : List Frame := outputs (step urlString) (wire urlString) init acts

def Frame.needs : Frame → Option Frame
  | .didOpen _ _ => none
  | .request n q =>
    if q.operation.onDocument = true ∧ q.absPath ≠ "" then some (.didOpen n (pathToURI urlString q.absPath)) else none

def Frame.opened : Frame → Option (ℕ × String)
  | .didOpen n uri => some (n, uri)
  | .request _ _ => none

def Call.Marks (doc : ℕ × String) : Call → Prop
  | .marking n q => (n, pathToURI urlString q.absPath) = doc
  | _ => False

def Told (s : State) (doc : ℕ × String) : Prop :=
  s.openDocs doc.1 doc.2 = true ∨ ∃ g, (s.calls g).Marks urlString doc

def Unannounced (s : State) (a : Action) : Prop :=
  ∀ n uri, Frame.didOpen n uri ∈ wire urlString s a → ¬Told urlString s (n, uri)

end Wire

section Proofs

variable {urlString : String → String → String} {s t : State} {g n : ℕ} {call : Call} {doc : ℕ × String} {q : Query}
  {a : Action}

theorem told_goto (hnot : ¬(s.calls g).Marks urlString doc) :
    Told urlString (s.goto g call) doc ↔ Told urlString s doc ∨ call.Marks urlString doc := by
  constructor
  · rintro (hopen | ⟨g', hmarks⟩)
    · exact .inl (.inl hopen)
    · rcases update_cases (Call.Marks urlString doc) hmarks with ⟨-, hnew⟩ | ⟨-, hold⟩
      · exact .inr hnew
      · exact .inl (.inr ⟨g', hold⟩)
  · rintro ((hopen | ⟨g', hmarks⟩) | hnew)
    · exact .inl hopen
    · have hne : g' ≠ g := by
        rintro rfl
        exact hnot hmarks
      have hsame : (s.goto g call).calls g' = s.calls g' := update_of_ne hne _ _
      exact .inr ⟨g', hsame ▸ hmarks⟩
    · have hself : (s.goto g call).calls g = call := update_self ..
      exact .inr ⟨g, hself.symm ▸ hnew⟩

theorem openDocs_setOpen (doc : ℕ × String) {uri : String} :
    (s.setOpen n uri).openDocs doc.1 doc.2 = true ↔ (n, uri) = doc ∨ s.openDocs doc.1 doc.2 = true := by
  obtain ⟨n', uri'⟩ := doc
  by_cases hn : n' = n
  · subst hn
    by_cases huri : uri' = uri
    · simp [State.setOpen, huri]
    · simp [State.setOpen, huri, Ne.symm huri]
  · simp [State.setOpen, hn, Ne.symm hn]

theorem told_mark (hcall : s.calls g = .marking n q) :
    Told urlString ((s.setOpen n (pathToURI urlString q.absPath)).goto g (.ready n q)) doc ↔ Told urlString s doc := by
  have hmarks : (s.calls g).Marks urlString doc ↔ (n, pathToURI urlString q.absPath) = doc := by
    rw [hcall]
    exact Iff.rfl
  constructor
  · rintro (hopen | ⟨g', hmark⟩)
    · rcases (openDocs_setOpen doc).mp hopen with hdoc | hopen
      · exact .inr ⟨g, hmarks.mpr hdoc⟩
      · exact .inl hopen
    · rcases update_cases (Call.Marks urlString doc) hmark with ⟨-, hnew⟩ | ⟨-, hold⟩
      · exact absurd hnew id
      · exact .inr ⟨g', hold⟩
  · rintro (hopen | ⟨g', hmark⟩)
    · exact .inl ((openDocs_setOpen doc).mpr (.inr hopen))
    · by_cases hg : g' = g
      · subst hg
        exact .inl ((openDocs_setOpen doc).mpr (.inl (hmarks.mp hmark)))
      · have hsame : (s.goto g (.ready n q)).calls g' = s.calls g' := update_of_ne hg _ _
        exact .inr ⟨g', hsame ▸ hmark⟩

theorem told_didOpen {read : Snapshot} (hcall : s.calls g = .notifying n q read) :
    Told urlString ((s.didOpen urlString n read).goto g (.marking n q)) doc ↔
      Told urlString s doc ∨ doc = (n, pathToURI urlString q.absPath) := by
  have hnot : ¬((s.didOpen urlString n read).calls g).Marks urlString doc := by
    rw [State.didOpen, hcall]
    exact id
  rw [told_goto hnot, eq_comm]
  exact Iff.rfl

theorem told_step (hstep : step urlString s a = some t) (doc : ℕ × String) :
    Told urlString t doc ↔ Told urlString s doc ∨ doc ∈ (wire urlString s a).filterMap Frame.opened := by
  have hsame : ∀ {g : ℕ} {call : Call}, ¬(s.calls g).Marks urlString doc → ¬call.Marks urlString doc →
      (Told urlString (s.goto g call) doc ↔ Told urlString s doc ∨ doc ∈ ([] : List (ℕ × String))) := by
    intro g call hnot hcall
    rw [told_goto hnot, or_iff_left hcall, or_iff_left not_mem_nil]
  cases moved_step hstep with
  | edit path content => exact (or_iff_left not_mem_nil).symm
  | query g n q hcall =>
    refine hsame (by rw [hcall]; exact id) ?_
    split <;> exact id
  | check g n q hcall =>
    refine hsame (by rw [hcall]; exact id) ?_
    split <;> exact id
  | gone g n q hcall | read g n q _ hcall | unnotified g n q _ hcall | unsent g n q hcall =>
    exact hsame (by rw [hcall]; exact id) id
  | notify g n q read hcall =>
    simp only [wire, hcall, filterMap_cons, Frame.opened, filterMap_nil, mem_singleton]
    exact told_didOpen hcall
  | mark g n q hcall => exact (told_mark hcall).trans (or_iff_left not_mem_nil).symm
  | request g n q hcall =>
    simp only [wire, hcall, filterMap_cons, Frame.opened, filterMap_nil]
    exact hsame (by rw [hcall]; exact id) id

def ReadyOpen (urlString : String → String → String) (s : State) : Prop :=
  ∀ g n q, s.calls g = .ready n q → q.absPath ≠ "" → s.openDocs n (pathToURI urlString q.absPath) = true

theorem ReadyOpen.goto (h : ReadyOpen urlString s)
    (hcall : ∀ n q, call = .ready n q → q.absPath ≠ "" → s.openDocs n (pathToURI urlString q.absPath) = true) :
    ReadyOpen urlString (s.goto g call) := by
  intro g' n q hready hpath
  rcases update_cases (· = Call.ready n q) hready with ⟨-, hnew⟩ | ⟨-, hold⟩
  · exact hcall n q hnew hpath
  · exact h g' n q hold hpath

theorem ReadyOpen.setOpen (h : ReadyOpen urlString s) (n : ℕ) (uri : String) : ReadyOpen urlString (s.setOpen n uri) :=
  fun g' n' q hready hpath =>
    (openDocs_setOpen (n', pathToURI urlString q.absPath)).mpr (.inr (h g' n' q hready hpath))

theorem readyOpen_step (s : State) (a : Action) (t : State) (hstep : step urlString s a = some t)
    (h : ReadyOpen urlString s) : ReadyOpen urlString t := by
  cases moved_step hstep with
  | edit path content => exact h
  | query g n q hcall =>
    refine h.goto fun n' q' hready hpath => ?_
    split at hready <;> cases hready
    next hempty => exact absurd hempty hpath
  | check g n q hcall =>
    refine h.goto fun n' q' hready hpath => ?_
    split at hready <;> cases hready
    next hopen => exact hopen
  | gone | read | unnotified | unsent => exact h.goto nofun
  | notify g n q read hcall =>
    exact ReadyOpen.goto (s := s.didOpen urlString n read) h nofun
  | mark g n q hcall =>
    refine (h.setOpen n _).goto fun n' q' hready _ => ?_
    cases hready
    exact (openDocs_setOpen (n, pathToURI urlString q.absPath)).mpr (.inl rfl)
  | request g n q hcall =>
    exact ReadyOpen.goto (s := { s with requests := s.requests ++ [s.requestOf urlString n q] }) h
      nofun

theorem told_of_needs (h : ReadyOpen urlString s) {x d : Frame} (hx : x ∈ wire urlString s a)
    (hneeds : x.needs urlString = some d) : ∃ doc, d.opened = some doc ∧ Told urlString s doc := by
  unfold wire at hx
  split at hx
  · split at hx
    · cases mem_singleton.mp hx
      cases hneeds
    · cases hx
  · split at hx
    next n q hcall =>
      cases mem_singleton.mp hx
      obtain ⟨⟨-, hpath⟩, ⟨⟩⟩ := Option.ite_none_right_eq_some.mp hneeds
      exact ⟨_, rfl, .inl (h _ n q hcall hpath)⟩
    · cases hx
  · cases hx

theorem count_opened (log : List Frame) (n : ℕ) (uri : String) :
    (log.filterMap Frame.opened).count (n, uri) = log.count (.didOpen n uri) := by
  induction log with
  | nil => rfl
  | cons x log ih =>
    cases x with
    | didOpen m u =>
      have hopened : Frame.opened (.didOpen m u) = some (m, u) := rfl
      rw [filterMap_cons_some hopened, count_cons, count_cons, ih]
      simp only [beq_iff_eq, Prod.mk.injEq, Frame.didOpen.injEq]
    | request m q =>
      have hopened : Frame.opened (.request m q) = none := rfl
      rw [filterMap_cons_none hopened, ih, count_cons_of_ne]
      exact nofun

theorem mem_opened {log : List Frame} : doc ∈ log.filterMap Frame.opened ↔ Frame.didOpen doc.1 doc.2 ∈ log := by
  rw [mem_filterMap]
  constructor
  · rintro ⟨x, hx, hopened⟩
    cases x with
    | didOpen n uri =>
      cases hopened
      exact hx
    | request n q => cases hopened
  · exact fun h => ⟨_, h, rfl⟩

theorem unannounced_iff :
    Unannounced urlString s a ↔ ∀ doc ∈ (wire urlString s a).filterMap Frame.opened, ¬Told urlString s doc := by
  simp only [Unannounced, Prod.forall, mem_opened]

variable (urlString) in
theorem wire_cases (s : State) (a : Action) : wire urlString s a = [] ∨ ∃ x, wire urlString s a = [x] := by
  unfold wire
  split
  · split
    · exact .inr ⟨_, rfl⟩
    · exact .inl rfl
  · split
    · exact .inr ⟨_, rfl⟩
    · exact .inl rfl
  · exact .inl rfl

variable (urlString) in
theorem nodup_opened_wire (s : State) (a : Action) : ((wire urlString s a).filterMap Frame.opened).Nodup := by
  rcases wire_cases urlString s a with hwire | ⟨x, hwire⟩
  · rw [hwire]
    exact nodup_nil
  · rw [hwire]
    cases x with
    | didOpen n uri => exact nodup_singleton (n, uri)
    | request n q => exact nodup_nil

theorem not_told_init (doc : ℕ × String) : ¬Told urlString init doc := by
  rintro (hopen | ⟨g, hmarks⟩)
  · cases hopen
  · exact hmarks

theorem opens_once_iff {acts : List Action} (hrun : run (step urlString) init acts = some s) :
    ((∀ n uri, (received urlString acts).count (.didOpen n uri) ≤ 1) ↔
        Steps (step urlString) (Unannounced urlString) init acts s) ∧
      ∀ before x after d, received urlString acts = before ++ x :: after → x.needs urlString = some d → d ∈ before := by
  constructor
  · have hiff := nodup_outputs_iff_steps (nodup_opened_wire urlString)
      (fun s a t doc hst => told_step hst doc) hrun
    have hcount : (∀ n uri, (received urlString acts).count (.didOpen n uri) ≤ 1) ↔
        ((received urlString acts).filterMap Frame.opened).Nodup := by
      rw [nodup_iff_count_le_one, Prod.forall]
      simp only [count_opened]
    have hok : Unannounced urlString =
        fun s a => ∀ doc ∈ (wire urlString s a).filterMap Frame.opened, ¬Told urlString s doc := by
      funext s a
      exact propext unannounced_iff
    rw [hcount, received, filterMap_outputs, hok]
    exact (and_iff_left fun doc _ => not_told_init doc).symm.trans hiff
  · intro before x after d hsplit hneeds
    have hready : ∀ s a t d, step urlString s a = some t →
        (∃ doc, Frame.opened d = some doc ∧ Told urlString t doc) →
        (∃ doc, Frame.opened d = some doc ∧ Told urlString s doc) ∨ d ∈ wire urlString s a := by
      rintro s a t d hst ⟨doc, hd, htold⟩
      rcases (told_step hst doc).mp htold with htold | hnow
      · exact .inl ⟨doc, hd, htold⟩
      cases d with
      | didOpen n uri =>
        cases hd
        exact .inr (mem_opened.mp hnow)
      | request n q => cases hd
    rcases mem_of_outputs_eq_append (I := ReadyOpen urlString) readyOpen_step hready
      (fun s a x d h hx hneeds => told_of_needs h hx hneeds) hrun nofun hsplit hneeds
      with hmem | ⟨doc, -, htold⟩
    · exact hmem
    · exact absurd htold (not_told_init doc)

end Proofs

def secondQuery : List Action := firstQuery ++ [.query 1 0 ⟨.hover, "/w/a.go"⟩, .check 1, .request 1 true]

theorem opens_once_second_query : ∃ s, run (step fileURL) init secondQuery = some s ∧
      (∀ n uri, (received fileURL secondQuery).count (.didOpen n uri) ≤ 1) ∧
      .didOpen 0 (pathToURI fileURL "/w/a.go") ∈ received fileURL secondQuery := by
  have hrun : run (step fileURL) init secondQuery = some _ := rfl
  refine ⟨_, hrun, (opens_once_iff hrun).1.mpr ?_, by decide +kernel⟩
  refine .cons nofun rfl (.cons nofun rfl (.cons nofun rfl (.cons nofun rfl (.cons ?_ rfl (.cons nofun rfl
    (.cons nofun rfl (.cons nofun rfl (.cons nofun rfl (.cons nofun rfl (.nil _))))))))))
  rintro n uri hmem (hopen | ⟨g, hmarks⟩)
  · cases hopen
  · rcases g with _ | g <;> cases hmarks

def twoFirstQueries : List Action :=
  [.edit "/w/a.go" (some [97]), .query 0 0 ⟨.hover, "/w/a.go"⟩, .query 1 0 ⟨.hover, "/w/a.go"⟩, .check 0, .check 1,
    .read 0, .read 1, .notify 0 true, .notify 1 true, .mark 0, .mark 1, .request 0 true, .request 1 true]

theorem document_opened_twice : (∃ s, run (step fileURL) init twoFirstQueries = some s ∧ s.calls 0 = .idle) ∧
      (received fileURL twoFirstQueries).count (.didOpen 0 (pathToURI fileURL "/w/a.go")) = 2 :=
  ⟨exists_run_of_any (by decide +kernel), by decide +kernel⟩

end NomadDev.Lsp.Docs
