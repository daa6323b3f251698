import NomadDev.ConfigBoot
import NomadDev.Foundation.Transition

namespace NomadDev.Settings.Writes

open Foundation.Transition Function List

inductive Phase
  | waiting
  | loaded (body : PutBody) (override : Overrides)
  | answered (reply : Except ConfigError ℕ)

structure State where
  files : Files
  phase : ℕ → Phase

def initial (files : Files) : State := ⟨files, fun _ => .waiting⟩

inductive Action
  | load (i : ℕ)
  | write (i : ℕ)

def afterLoad : Except ConfigError (PutBody × Overrides) → Phase
  | .error err => .answered (.error err)
  | .ok (body, override) => .loaded body override

variable (lib : Parsers) (srv : Running) (reqs : ℕ → PutRequest)

def step (s : State) : Action → Option State
  | .load i =>
    match s.phase i with
    | .waiting => some { s with phase := update s.phase i (afterLoad (loadPut srv s.files (reqs i))) }
    | _ => none
  | .write i =>
    match s.phase i with
    | .loaded body override =>
      let out := writePut lib srv s.files (reqs i) body override
      some ⟨out.2, update s.phase i (.answered out.1)⟩
    | _ => none

def Fresh (s : State) : Action → Prop
  | .load _ => True
  | .write i => ∀ body override, s.phase i = .loaded body override → s.files srv.path = .ok override

def Accepted (s : State) (i : ℕ) : Prop := ∃ n, s.phase i = .answered (.ok n)

inductive Applied : Files → List PutRequest → Files → Prop
  | nil (files : Files) : Applied files [] files
  | cons {files files' files'' : Files} {r : PutRequest} {rs : List PutRequest} {n : ℕ} :
      handleConfigPut lib srv files r = (.ok n, files') → Applied files' rs files'' → Applied files (r :: rs) files''

def Serialized (files₀ : Files) (s : State) : Prop :=
  ∃ order : List ℕ, order.Nodup ∧ (∀ i, i ∈ order ↔ Accepted s i) ∧ Applied lib srv files₀ (order.map reqs) s.files

variable {lib srv reqs} {files files' : Files} {r : PutRequest} {body : PutBody} {override : Overrides}

theorem afterLoad_eq_loaded_iff {out : Except ConfigError (PutBody × Overrides)} :
    afterLoad out = .loaded body override ↔ out = .ok (body, override) := by
  rcases out with err | ⟨body', override'⟩ <;> simp [afterLoad]

theorem loadPut_again (h : loadPut srv files r = .ok (body, override)) (hfile : files' srv.path = .ok override) :
    loadPut srv files' r = .ok (body, override) := by
  obtain ⟨hauth, hbody, hempty, -⟩ := loadPut_eq_ok_iff.mp h
  exact loadPut_eq_ok_iff.mpr ⟨hauth, hbody, hempty, hfile⟩

variable {i n : ℕ} {files₀ f f' : Files} {s : State} {p : Phase} {rs : List PutRequest}

theorem afterLoad_not_ok {out : Except ConfigError (PutBody × Overrides)} : afterLoad out ≠ .answered (.ok n) := by
  rcases out with err | loaded <;> nofun

theorem writePut_error {err : ConfigError} (h : (writePut lib srv files r body override).1 = .error err) :
    (writePut lib srv files r body override).2 = files := by
  unfold writePut at h ⊢
  split at h
  · rfl
  · split at h
    · rfl
    · cases h

theorem Applied.snoc (h : Applied lib srv files₀ rs files) (hr : handleConfigPut lib srv files r = (.ok n, files')) :
    Applied lib srv files₀ (rs ++ [r]) files' := by
  induction h with
  | nil => exact .cons hr (.nil _)
  | cons hput _ ih => exact .cons hput (ih hr)

theorem Applied.establishes {P : Files → Prop} (h : Applied lib srv files rs files') (hr : r ∈ rs)
    (hset : ∀ f f' n, handleConfigPut lib srv f r = (.ok n, f') → P f')
    (hkeep : ∀ r' ∈ rs, ∀ f f' n, P f → handleConfigPut lib srv f r' = (.ok n, f') → P f') : P files' := by
  have hframe : ∀ {rs : List PutRequest} {f f' : Files}, Applied lib srv f rs f' →
      (∀ r' ∈ rs, ∀ f f' n, P f → handleConfigPut lib srv f r' = (.ok n, f') → P f') → P f → P f' := by
    intro rs f f' h hkeep hf
    induction h with
    | nil => exact hf
    | cons hput _ ih =>
      exact ih (fun r' hr' => hkeep r' (mem_cons_of_mem _ hr')) (hkeep _ mem_cons_self _ _ _ hf hput)
  induction h with
  | nil => cases hr
  | cons hput htail ih =>
    have hkeep' := fun r' hr' => hkeep r' (mem_cons_of_mem _ hr')
    rcases mem_cons.mp hr with rfl | hr
    · exact hframe htail hkeep' (hset _ _ _ hput)
    · exact ih hr hkeep'

theorem accepted_update {j : ℕ} : Accepted ⟨files, update s.phase i p⟩ j ↔
      if j = i then ∃ n, p = .answered (.ok n) else Accepted s j := by
  change (∃ n, update s.phase i p j = .answered (.ok n)) ↔ _
  by_cases hij : j = i
  · subst hij
    rw [if_pos rfl, update_self]
  · rw [if_neg hij, update_of_ne hij]
    rfl

theorem Serialized.rejected (h : Serialized lib srv reqs files₀ s)
    (hold : ∀ n, s.phase i ≠ .answered (.ok n)) (hnew : ∀ n, p ≠ .answered (.ok n)) :
    Serialized lib srv reqs files₀ ⟨s.files, update s.phase i p⟩ := by
  obtain ⟨order, hnodup, hmem, happlied⟩ := h
  refine ⟨order, hnodup, fun j => ?_, happlied⟩
  rw [hmem, accepted_update]
  by_cases hji : j = i
  · subst hji
    rw [if_pos rfl]
    exact iff_of_false (fun ⟨n, hn⟩ => hold n hn) fun ⟨n, hn⟩ => hnew n hn
  · rw [if_neg hji]

theorem Serialized.accepted (h : Serialized lib srv reqs files₀ s) (hold : ∀ n, s.phase i ≠ .answered (.ok n))
    (hput : handleConfigPut lib srv s.files (reqs i) = (.ok n, files')) :
    Serialized lib srv reqs files₀ ⟨files', update s.phase i (.answered (.ok n))⟩ := by
  obtain ⟨order, hnodup, hmem, happlied⟩ := h
  have hi : i ∉ order := fun hi => ((hmem i).mp hi).elim hold
  refine ⟨order ++ [i], ?_, fun j => ?_, ?_⟩
  · refine nodup_append.mpr ⟨hnodup, pairwise_singleton _ i, fun a ha b hb => ?_⟩
    rw [mem_singleton.mp hb]
    rintro rfl
    exact hi ha
  · rw [mem_append, mem_singleton, hmem, accepted_update]
    by_cases hji : j = i
    · rw [if_pos hji]
      exact iff_of_true (.inr hji) ⟨n, rfl⟩
    · rw [if_neg hji, or_iff_left hji]
  · rw [map_append]
    exact happlied.snoc hput

def FromLoad (srv : Running) (reqs : ℕ → PutRequest) (phase : ℕ → Phase) : Prop :=
  ∀ i body override, phase i = .loaded body override → ∃ files, loadPut srv files (reqs i) = .ok (body, override)

theorem FromLoad.update {phase : ℕ → Phase} (h : FromLoad srv reqs phase)
    (hp : ∀ body override, p = .loaded body override → ∃ files, loadPut srv files (reqs i) = .ok (body, override)) :
    FromLoad srv reqs (update phase i p) := by
  intro j body override hj
  by_cases hji : j = i
  · subst hji
    rw [update_self] at hj
    exact hp body override hj
  · rw [update_of_ne hji] at hj
    exact h j body override hj

structure Inv (lib : Parsers) (srv : Running) (reqs : ℕ → PutRequest) (files₀ : Files) (s : State) : Prop where
  serialized : Serialized lib srv reqs files₀ s
  loaded : FromLoad srv reqs s.phase

theorem Inv.initial (files₀ : Files) : Inv lib srv reqs files₀ (initial files₀) where
  serialized := ⟨[], nodup_nil, fun _ => iff_of_false not_mem_nil nofun, .nil _⟩
  loaded := nofun

theorem Inv.step (s : State) (a : Action) (t : State) (hfresh : Fresh srv s a)
    (hstep : step lib srv reqs s a = some t) (h : Inv lib srv reqs files₀ s) : Inv lib srv reqs files₀ t := by
  cases a with simp only [Writes.step] at hstep
  | load i =>
    split at hstep
    · rename_i hphase
      cases hstep
      constructor
      · refine h.serialized.rejected (fun n => ?_) fun n => afterLoad_not_ok
        rw [hphase]
        nofun
      · exact h.loaded.update fun body override hload => ⟨_, afterLoad_eq_loaded_iff.mp hload⟩
    · cases hstep
  | write i =>
    split at hstep
    · rename_i body override hphase
      cases hstep
      have hold : ∀ n, s.phase i ≠ .answered (.ok n) := by
        intro n
        rw [hphase]
        nofun
      obtain ⟨files, hload⟩ := h.loaded i body override hphase
      have hput : handleConfigPut lib srv s.files (reqs i) = writePut lib srv s.files (reqs i) body override := by
        rw [handleConfigPut, loadPut_again hload (hfresh body override hphase)]
      constructor
      · cases hreply : (writePut lib srv s.files (reqs i) body override).1 with
        | error err =>
          rw [writePut_error hreply]
          exact h.serialized.rejected hold nofun
        | ok n =>
          exact h.serialized.accepted hold (hput.trans (Prod.ext hreply rfl))
      · exact h.loaded.update nofun
    · cases hstep

theorem puts_serialize {files₀ : Files} (as : List Action) {s : State}
    (h : Steps (step lib srv reqs) (Fresh srv) (initial files₀) as s) : Serialized lib srv reqs files₀ s :=
  (h.preserves Inv.step (Inv.initial files₀)).serialized

def pair (i : ℕ) : PutRequest := if i = 0 then putOne keyPingInterval "45s" else putOne keyRefreshTTL "1000h"

def pairServer : Running := running secretEnv noOverrides

theorem puts_serialize_in_turn :
    ∃ s, run (step plainParsers pairServer pair) (initial noOverrides) [.load 0, .write 0, .load 1, .write 1] =
      some s ∧ Accepted s 0 ∧ Accepted s 1 ∧ Serialized plainParsers pairServer pair noOverrides s := by
  refine ⟨_, rfl, ⟨1, rfl⟩, ⟨1, rfl⟩, puts_serialize [.load 0, .write 0, .load 1, .write 1] ?_⟩
  refine .cons trivial rfl (.cons ?_ rfl (.cons trivial rfl (.cons ?_ rfl (.nil _))))
  · rintro body override ⟨⟩
    rfl
  · rintro body override ⟨⟩
    rfl

def HasPing (f : Files) : Prop := ∃ ov, f pairServer.path = .ok ov ∧ ov keyPingInterval = some "45s"

theorem hasPing_of_put (h : handleConfigPut plainParsers pairServer f (putOne keyPingInterval "45s") = (.ok n, f')) :
    HasPing f' := by
  obtain ⟨body, ov, merged, hbody, -, hplan, rfl⟩ := handleConfigPut_ok h
  cases hbody
  refine ⟨merged, update_self .., (planPut_writes hplan ⟨mem_cons_self, ?_⟩).1⟩
  decide

theorem hasPing_of_other (hf : HasPing f)
    (h : handleConfigPut plainParsers pairServer f (putOne keyRefreshTTL "1000h") = (.ok n, f')) : HasPing f' := by
  obtain ⟨body, ov, merged, hbody, hov, hplan, rfl⟩ := handleConfigPut_ok h
  obtain ⟨ov', hov', hping⟩ := hf
  cases hbody
  cases hov.symm.trans hov'
  refine ⟨merged, update_self .., ?_⟩
  rw [planPut_frame hplan fun value hw => ?_, if_neg not_mem_nil]
  · exact hping
  · simp [PutBody.Writes, keyPingInterval, keyRefreshTTL] at hw

theorem overlapping_put_lost :
    ∃ s, run (step plainParsers pairServer pair) (initial noOverrides) [.load 0, .load 1, .write 0, .write 1] =
      some s ∧ Accepted s 0 ∧ Accepted s 1 ∧ ¬ Serialized plainParsers pairServer pair noOverrides s := by
  refine ⟨_, rfl, ⟨1, rfl⟩, ⟨1, rfl⟩, ?_⟩
  rintro ⟨order, -, hmem, happlied⟩
  have hping := happlied.establishes (P := HasPing) (r := putOne keyPingInterval "45s")
    (mem_map.mpr ⟨0, (hmem 0).mpr ⟨1, rfl⟩, rfl⟩) (fun _ _ _ => hasPing_of_put) ?_
  · obtain ⟨ov, hov, hping⟩ := hping
    cases hov
    cases hping
  · intro r' hr' f f' n hf hput
    obtain ⟨i, -, rfl⟩ := mem_map.mp hr'
    unfold pair at hput
    split at hput
    · exact hasPing_of_put hput
    · exact hasPing_of_other hf hput

end NomadDev.Settings.Writes
