import NomadDev.Foundation.AssocMap
import NomadDev.Foundation.PointUpdate
import NomadDev.Foundation.Transition

namespace NomadDev.Lsp

open Foundation.Transition Foundation.AssocMap Foundation.PointUpdate Function List Option

structure Entry where
  sessionID : String
  (server lockedBy : Option ℕ)

structure Server where
  (sessionID lang : String)
  (closed shutdown : Bool)

inductive Call
  | idle
  | found (sessionID lang : String) (e : ℕ)
  | starting (sessionID lang : String) (e : ℕ)
  | stopping (targets : List ℕ)
  | reaping (snapshot : List (String × ℕ))
  | reaped (key : String) (e : ℕ) (rest : List (String × ℕ))
  deriving DecidableEq

def Call.pending : Call → List ℕ
  | .stopping targets => targets
  | _ => []

structure Registry where
  entries : List (String × ℕ)
  heap : ℕ → Entry
  allocated : ℕ
  servers : ℕ → Server
  started : ℕ
  calls : ℕ → Call

inductive StartResult
  | failed | refused | ready

inductive Action
  | getOrStart (g : ℕ) (sessionID lang : String)
  | lock (g : ℕ)
  | start (g : ℕ) (result : StartResult)
  | stopAllForSession (g : ℕ) (sessionID : String)
  | close (g : ℕ)
  | visit (g e : ℕ)
  | reapIdle (g : ℕ)
  | inspect (g : ℕ) (key : String) (e : ℕ) (idle : Bool)
  | remove (g : ℕ)
  | finish (g : ℕ)
  | exited (n : ℕ)

def newLSPRegistry : Registry where
  entries := []
  heap := fun _ => ⟨"", none, none⟩
  allocated := 0
  servers := fun _ => ⟨"", "", true, true⟩
  started := 0
  calls := fun _ => .idle

def key (sessionID lang : String) : String := sessionID ++ "\x00" ++ lang

namespace Registry

variable (r : Registry)

def goto (g : ℕ) (call : Call) : Registry := { r with calls := update r.calls g call }

def setEntry (e : ℕ) (entry : Entry) : Registry := { r with heap := update r.heap e entry }

def setServer (n : ℕ) (server : Server) : Registry := { r with servers := update r.servers n server }

def shutdown (n : ℕ) : Registry := r.setServer n { r.servers n with closed := true, shutdown := true }

def release (e : ℕ) : Registry :=
  match (r.heap e).server with
  | some n => (r.shutdown n).setEntry e { r.heap e with server := none }
  | none => r

def insert (g : ℕ) (sessionID lang : String) : Registry :=
  { r with
    entries := (key sessionID lang, r.allocated) :: r.entries
    heap := update r.heap r.allocated ⟨sessionID, none, none⟩
    allocated := r.allocated + 1 }.goto g (.found sessionID lang r.allocated)

def spawn (server : Server) : Registry :=
  { r with servers := update r.servers r.started server, started := r.started + 1 }

def running (e : ℕ) : Bool := (r.heap e).server.any fun n => !(r.servers n).closed

end Registry

variable (r : Registry)

def lock (g : ℕ) : Option Registry :=
  match r.calls g with
  | .found sessionID lang e =>
    if (r.heap e).lockedBy ≠ none then none
    else if r.running e then some (r.goto g .idle)
    else some ((r.setEntry e { r.heap e with lockedBy := some g }).goto g (.starting sessionID lang e))
  | _ => none

def start (g : ℕ) (result : StartResult) : Option Registry :=
  match r.calls g with
  | .starting sessionID lang e =>
    let entry := { r.heap e with lockedBy := none }
    match result with
    | .failed => some ((r.setEntry e entry).goto g .idle)
    | .refused => some (((r.spawn ⟨sessionID, lang, true, true⟩).setEntry e entry).goto g .idle)
    | .ready =>
      some (((r.spawn ⟨sessionID, lang, false, false⟩).setEntry e { entry with server := some r.started }).goto g .idle)
  | _ => none

def visit (g e : ℕ) : Option Registry :=
  match r.calls g with
  | .stopping targets =>
    if e ∈ targets ∧ (r.heap e).lockedBy = none then some ((r.release e).goto g (.stopping (targets.erase e))) else none
  | _ => none

def inspect (g : ℕ) (key : String) (e : ℕ) (idle : Bool) : Option Registry :=
  match r.calls g with
  | .reaping snapshot =>
    if (key, e) ∈ snapshot ∧ (r.heap e).lockedBy = none then
      let rest := snapshot.erase (key, e)
      if (r.heap e).server.any fun n => (r.servers n).closed || idle then
        some ((r.release e).goto g (.reaped key e rest))
      else some (r.goto g (.reaping rest))
    else none
  | _ => none

/-- The entry's server is read here without the entry's mutex. -/
def remove (g : ℕ) : Option Registry :=
  match r.calls g with
  | .reaped key e rest =>
    let entries :=
      if get r.entries key = some e ∧ (r.heap e).server = none then r.entries.filter (·.1 ≠ key) else r.entries
    some ({ r with entries := entries }.goto g (.reaping rest))
  | _ => none

def step (configured : String → Bool) (r : Registry) : Action → Option Registry
  | .getOrStart g sessionID lang =>
    if r.calls g ≠ .idle then none
    else if configured lang then
      match get r.entries (key sessionID lang) with
      | some e => some (r.goto g (.found sessionID lang e))
      | none => some (r.insert g sessionID lang)
    else some r
  | .lock g => lock r g
  | .start g result => start r g result
  | .stopAllForSession g sessionID =>
    if r.calls g ≠ .idle then none
    else
      let targets := r.entries.filter fun p => (r.heap p.2).sessionID = sessionID
      let entries := r.entries.filter fun p => (r.heap p.2).sessionID ≠ sessionID
      some ({ r with entries := entries }.goto g (.stopping (targets.map Prod.snd)))
  | .close g =>
    if r.calls g ≠ .idle then none
    else some ({ r with entries := [] }.goto g (.stopping (r.entries.map Prod.snd)))
  | .visit g e => visit r g e
  | .reapIdle g => if r.calls g ≠ .idle then none else some (r.goto g (.reaping r.entries))
  | .inspect g key e idle => inspect r g key e idle
  | .remove g => remove r g
  | .finish g =>
    match r.calls g with
    | .stopping [] | .reaping [] => some (r.goto g .idle)
    | _ => none
  | .exited n => some (r.setServer n { r.servers n with closed := true })

def Quiescent : Prop := ∀ g, r.calls g = .idle

def Server.key (v : Server) : String := Lsp.key v.sessionID v.lang

def Referenced : Prop :=
  ∀ n < r.started, (r.servers n).shutdown = false →
    ∃ e, get r.entries (r.servers n).key = some e ∧ (r.heap e).server = some n

def Tracked (key : String) (e : ℕ) : Prop :=
  get r.entries key = some e ∨ ∃ g, e ∈ (r.calls g).pending

def Tidy : Action → Prop
  | .start g .ready => ∀ sessionID lang e, r.calls g = .starting sessionID lang e →
      (r.heap e).server = none ∧ Tracked r (key sessionID lang) e
  | _ => True

structure Inv (r : Registry) : Prop where
  keyed : Keyed r.entries
  entries : ∀ p ∈ r.entries, p.2 < r.allocated
  pending : ∀ g, ∀ e ∈ (r.calls g).pending, e < r.allocated
  held : ∀ n < r.started, (r.servers n).shutdown = false →
    ∃ e, (r.heap e).server = some n ∧ Tracked r (r.servers n).key e

theorem Inv.init : Inv newLSPRegistry := ⟨nodup_nil, nofun, nofun, nofun⟩

theorem Inv.referenced {r : Registry} (h : Inv r) (hq : Quiescent r) : Referenced r := by
  intro n hn hs
  obtain ⟨e, he, htracked⟩ := h.held n hn hs
  rcases htracked with hget | ⟨g, hmem⟩
  · exact ⟨e, hget, he⟩
  · rw [hq g] at hmem
    cases hmem

variable {e g : ℕ} {entry : Entry} {v : Server}

section Steps

variable {r t : Registry} {configured : String → Bool}

theorem pending_goto (g : ℕ) (call : Call) (h : call.pending = (r.calls g).pending) (g' : ℕ) :
    ((r.goto g call).calls g').pending = (r.calls g').pending :=
  update_of_forall (P := fun b (c : Call) => c.pending = (r.calls b).pending) h (fun _ _ => rfl) g'

theorem Inv.frame (h : Inv r) (hentries : t.entries = r.entries) (halloc : t.allocated = r.allocated)
    (hstarted : t.started = r.started) (hkey : ∀ n, (t.servers n).key = (r.servers n).key)
    (hshutdown : ∀ n, (t.servers n).shutdown = (r.servers n).shutdown)
    (hheap : ∀ e, (t.heap e).server = (r.heap e).server) (hcalls : ∀ g, (t.calls g).pending = (r.calls g).pending) :
    Inv t where
  keyed := hentries ▸ h.keyed
  entries p hp := halloc ▸ h.entries p (hentries ▸ hp)
  pending g e he := halloc ▸ h.pending g e (hcalls g ▸ he)
  held n hn hs := by
    rw [hstarted] at hn
    rw [hshutdown] at hs
    obtain ⟨e, he, htracked⟩ := h.held n hn hs
    refine ⟨e, (hheap e).trans he, ?_⟩
    rw [hkey, Tracked, hentries]
    exact htracked.imp_right fun ⟨g, hmem⟩ => ⟨g, (hcalls g).symm ▸ hmem⟩

theorem Inv.goto (h : Inv r) {call : Call} (hcall : call.pending = (r.calls g).pending) : Inv (r.goto g call) :=
  h.frame rfl rfl rfl (fun _ => rfl) (fun _ => rfl) (fun _ => rfl) (pending_goto g call hcall)

theorem server_setEntry (h : entry.server = (r.heap e).server) (e' : ℕ) :
    ((r.setEntry e entry).heap e').server = (r.heap e').server :=
  update_of_forall (P := fun b (x : Entry) => x.server = (r.heap b).server) h (fun _ _ => rfl) e'

theorem Inv.setEntry (h : Inv r) (hserver : entry.server = (r.heap e).server) : Inv (r.setEntry e entry) :=
  h.frame rfl rfl rfl (fun _ => rfl) (fun _ => rfl) (server_setEntry hserver) fun _ => rfl

theorem Inv.insert (h : Inv r) {g : ℕ} {sessionID lang : String} (hnone : get r.entries (key sessionID lang) = none)
    (hidle : (r.calls g).pending = []) : Inv (r.insert g sessionID lang) where
  keyed := keyed_cons h.keyed hnone
  entries p hp := by
    rcases mem_cons.mp hp with rfl | hp
    · exact Nat.lt_succ_self _
    · exact Nat.lt_succ_of_lt (h.entries p hp)
  pending g' e he := by
    refine Nat.lt_succ_of_lt (h.pending g' e ?_)
    exact pending_goto (r := r) g (.found sessionID lang r.allocated) hidle.symm g' ▸ he
  held n hn hs := by
    obtain ⟨e, he, htracked⟩ := h.held n hn hs
    have hlt : e < r.allocated := by
      rcases htracked with hget | ⟨g', hmem⟩
      · exact h.entries _ (mem_of_get hget)
      · exact h.pending g' e hmem
    refine ⟨e, ?_, ?_⟩
    · exact (congrArg Entry.server (update_of_ne (Nat.ne_of_lt hlt) _ _)).trans he
    · rcases htracked with hget | ⟨g', hmem⟩
      · refine .inl (get_of_mem (keyed_cons h.keyed hnone) (mem_cons_of_mem _ (mem_of_get hget)))
      · refine .inr ⟨g', ?_⟩
        exact (pending_goto (r := r) g (.found sessionID lang r.allocated) hidle.symm g').symm ▸ hmem

theorem servers_spawn {n : ℕ} (hn : n < r.started) : (r.spawn v).servers n = r.servers n :=
  update_of_ne (Nat.ne_of_lt hn) _ _

theorem Inv.spawn (h : Inv r) (hv : v.shutdown = true) : Inv (r.spawn v) where
  keyed := h.keyed
  entries := h.entries
  pending := h.pending
  held n hn hs := by
    rcases Nat.lt_succ_iff_lt_or_eq.mp hn with hlt | rfl
    · rw [servers_spawn hlt] at hs ⊢
      exact h.held n hlt hs
    · have hself : (r.spawn v).servers r.started = v := update_self ..
      rw [hself, hv] at hs
      cases hs

theorem Inv.ready (h : Inv r) (hnone : (r.heap e).server = none)
    (hentry : entry.server = some r.started) (htracked : Tracked r v.key e) : Inv ((r.spawn v).setEntry e entry) where
  keyed := h.keyed
  entries := h.entries
  pending := h.pending
  held n hn hs := by
    rcases Nat.lt_succ_iff_lt_or_eq.mp hn with hlt | rfl
    · have hsame : ((r.spawn v).setEntry e entry).servers n = r.servers n := servers_spawn hlt
      rw [hsame] at hs ⊢
      obtain ⟨e', he', htracked'⟩ := h.held n hlt hs
      have hne : e' ≠ e := by
        rintro rfl
        exact nomatch hnone.symm.trans he'
      exact ⟨e', (congrArg Entry.server (update_of_ne hne _ _)).trans he', htracked'⟩
    · have hself : ((r.spawn v).setEntry e entry).servers r.started = v := update_self ..
      rw [hself]
      exact ⟨e, (congrArg Entry.server (update_self ..)).trans hentry, htracked⟩

theorem release_frame (r : Registry) (e : ℕ) : (r.release e).entries = r.entries ∧
    (r.release e).allocated = r.allocated ∧ (r.release e).started = r.started ∧ (r.release e).calls = r.calls := by
  unfold Registry.release
  split <;> exact ⟨rfl, rfl, rfl, rfl⟩

section

variable (h : Inv r)
include h

theorem held_release (e : ℕ) {n : ℕ} (hn : n < r.started) (hs : ((r.release e).servers n).shutdown = false) :
    ∃ e', e' ≠ e ∧ ((r.release e).heap e').server = some n ∧ Tracked r ((r.release e).servers n).key e' := by
  cases he : (r.heap e).server with
  | none =>
    have hsame : r.release e = r := by simp only [Registry.release, he]
    rw [hsame] at hs ⊢
    obtain ⟨e', he', htracked⟩ := h.held n hn hs
    refine ⟨e', ?_, he', htracked⟩
    rintro rfl
    exact nomatch he.symm.trans he'
  | some m =>
    have hrelease : r.release e = (r.shutdown m).setEntry e { r.heap e with server := none } := by
      simp only [Registry.release, he]
    rw [hrelease] at hs ⊢
    have hne : n ≠ m := by
      rintro rfl
      have hdown : (((r.shutdown n).setEntry e { r.heap e with server := none }).servers n).shutdown = true := by
        simp [Registry.setEntry, Registry.shutdown, Registry.setServer]
      exact nomatch hdown.symm.trans hs
    have hsame : ((r.shutdown m).setEntry e { r.heap e with server := none }).servers n = r.servers n :=
      update_of_ne hne _ _
    rw [hsame] at hs ⊢
    obtain ⟨e', he', htracked⟩ := h.held n hn hs
    have hne' : e' ≠ e := by
      rintro rfl
      exact hne (Option.some.inj (he'.symm.trans he))
    exact ⟨e', hne', (congrArg Entry.server (update_of_ne hne' _ _)).trans he', htracked⟩

theorem Inv.release {call : Call} (hsub : call.pending ⊆ (r.calls g).pending)
    (hkeep : ∀ e' ∈ (r.calls g).pending, e' ≠ e → e' ∈ call.pending) : Inv ((r.release e).goto g call) := by
  obtain ⟨hentries, halloc, hstarted, hcalls⟩ := release_frame r e
  have hself : ((r.release e).goto g call).calls g = call := update_self ..
  have hother : ∀ g', g' ≠ g → ((r.release e).goto g call).calls g' = r.calls g' := by
    intro g' hg
    exact (update_of_ne hg _ _).trans (congrFun hcalls g')
  refine ⟨?_, fun p hp => ?_, fun g' e' he' => ?_, fun n hn hs => ?_⟩
  · exact hentries ▸ h.keyed
  · exact halloc ▸ h.entries p (hentries ▸ hp)
  · refine halloc ▸ h.pending g' e' ?_
    by_cases hg : g' = g
    · subst hg
      exact hsub (hself ▸ he')
    · exact hother g' hg ▸ he'
  · obtain ⟨e', hne, he', htracked⟩ := held_release h e (hstarted ▸ hn) hs
    refine ⟨e', he', ?_⟩
    rcases htracked with hget | ⟨g', hmem⟩
    · exact .inl (hentries ▸ hget)
    refine .inr ⟨g', ?_⟩
    by_cases hg : g' = g
    · subst hg
      rw [hself]
      exact hkeep e' hmem hne
    · rw [hother g' hg]
      exact hmem

theorem Inv.stop {entries targets : List (String × ℕ)} (hidle : (r.calls g).pending = []) (hkeyed : Keyed entries)
    (hsplit : ∀ p, p ∈ r.entries ↔ p ∈ entries ∨ p ∈ targets) :
    Inv ({ r with entries := entries }.goto g (.stopping (targets.map Prod.snd))) := by
  have hself : (({ r with entries := entries }.goto g (.stopping (targets.map Prod.snd))).calls g).pending =
      targets.map Prod.snd := by
    simp [Registry.goto, Call.pending]
  have hother : ∀ g', g' ≠ g →
      ({ r with entries := entries }.goto g (.stopping (targets.map Prod.snd))).calls g' = r.calls g' :=
    fun g' hg => update_of_ne hg _ _
  refine ⟨hkeyed, fun p hp => h.entries p ((hsplit p).mpr (.inl hp)), fun g' e he => ?_, fun n hn hs => ?_⟩
  · by_cases hg : g' = g
    · subst hg
      rw [hself] at he
      obtain ⟨p, hp, rfl⟩ := mem_map.mp he
      exact h.entries p ((hsplit p).mpr (.inr hp))
    · exact h.pending g' e (hother g' hg ▸ he)
  · obtain ⟨e, he, htracked⟩ := h.held n hn hs
    refine ⟨e, he, ?_⟩
    rcases htracked with hget | ⟨g', hmem⟩
    · rcases (hsplit _).mp (mem_of_get hget) with hp | hp
      · exact .inl (get_of_mem hkeyed hp)
      · refine .inr ⟨g, ?_⟩
        rw [hself]
        exact mem_map_of_mem hp
    · have hg : g' ≠ g := by
        rintro rfl
        rw [hidle] at hmem
        cases hmem
      refine .inr ⟨g', ?_⟩
      rw [hother g' hg]
      exact hmem

theorem Inv.delete {key : String} (hget : get r.entries key = some e) (hnone : (r.heap e).server = none) :
    Inv { r with entries := r.entries.filter (·.1 ≠ key) } where
  keyed := keyed_filter h.keyed _
  entries p hp := h.entries p (mem_of_mem_filter hp)
  pending := h.pending
  held n hn hs := by
    obtain ⟨e', he', htracked⟩ := h.held n hn hs
    refine ⟨e', he', ?_⟩
    rcases htracked with hget' | hmem
    · refine .inl (get_of_mem (keyed_filter h.keyed _) (mem_filter.mpr ⟨mem_of_get hget', ?_⟩))
      rw [decide_eq_true_iff]
      intro hkey
      rw [show (r.servers n).key = key from hkey] at hget'
      cases hget.symm.trans hget'
      exact nomatch hnone.symm.trans he'
    · exact .inr hmem

theorem inv_getOrStart {sessionID lang : String} (hstep : step configured r (.getOrStart g sessionID lang) = some t) :
    Inv t := by
  obtain ⟨hidle, heq⟩ := ite_none_left_eq_some.mp hstep
  have hpending : (r.calls g).pending = [] := by
    rw [not_not.mp hidle]
    rfl
  split at heq
  next =>
    split at heq <;> cases heq
    next => exact h.goto hpending.symm
    next hnone => exact h.insert hnone hpending
  next =>
    cases heq
    exact h

theorem inv_lock (hstep : lock r g = some t) : Inv t := by
  unfold lock at hstep
  split at hstep
  next sessionID lang e hcall =>
    obtain ⟨-, heq⟩ := ite_none_left_eq_some.mp hstep
    split at heq <;> cases heq
    next => exact h.goto (by rw [hcall]; rfl)
    next =>
      apply Inv.goto
      · exact h.setEntry rfl
      · exact (congrArg Call.pending hcall).symm
  next => cases hstep

theorem inv_start {result : StartResult} (htidy : Tidy r (.start g result)) (hstep : start r g result = some t) :
    Inv t := by
  unfold start at hstep
  split at hstep
  next sessionID lang e hcall =>
    have hpending : (r.calls g).pending = [] := by
      rw [hcall]
      rfl
    cases result with
    | failed =>
      cases hstep
      apply Inv.goto
      · exact h.setEntry rfl
      · exact hpending.symm
    | refused =>
      cases hstep
      apply Inv.goto
      · apply Inv.setEntry
        · exact h.spawn rfl
        · rfl
      · exact hpending.symm
    | ready =>
      cases hstep
      obtain ⟨hnone, htracked⟩ := htidy sessionID lang e hcall
      apply Inv.goto
      · exact h.ready hnone rfl htracked
      · exact hpending.symm
  next => cases hstep

theorem inv_visit (hstep : visit r g e = some t) : Inv t := by
  unfold visit at hstep
  split at hstep
  next targets hcall =>
    obtain ⟨-, heq⟩ := ite_none_right_eq_some.mp hstep
    cases heq
    refine h.release ?_ ?_
    · rw [hcall]
      exact erase_subset
    · intro e' he' hne
      rw [hcall] at he'
      exact (mem_erase_of_ne hne).mpr he'
  next => cases hstep

theorem inv_inspect {key : String} {idle : Bool} (hstep : inspect r g key e idle = some t) : Inv t := by
  unfold inspect at hstep
  split at hstep
  next snapshot hcall =>
    have hpending : (r.calls g).pending = [] := by
      rw [hcall]
      rfl
    obtain ⟨-, heq⟩ := ite_none_right_eq_some.mp hstep
    dsimp only at heq
    split at heq <;> cases heq
    next =>
      refine h.release (nil_subset _) fun e' he' _ => ?_
      rw [hpending] at he'
      cases he'
    next => exact h.goto hpending.symm
  next => cases hstep

theorem inv_remove (hstep : remove r g = some t) : Inv t := by
  unfold remove at hstep
  split at hstep <;> cases hstep
  next key e rest hcall =>
    have hpending : (r.calls g).pending = [] := by
      rw [hcall]
      rfl
    split
    next hcond => exact (h.delete hcond.1 hcond.2).goto hpending.symm
    next => exact h.goto hpending.symm

end

theorem inv_step {a : Action} (htidy : Tidy r a) (hstep : step configured r a = some t) (h : Inv r) : Inv t := by
  cases a with
  | getOrStart g sessionID lang => exact inv_getOrStart h hstep
  | lock g => exact inv_lock h hstep
  | start g result => exact inv_start h htidy hstep
  | stopAllForSession g sessionID =>
    obtain ⟨hidle, heq⟩ := ite_none_left_eq_some.mp hstep
    cases heq
    refine h.stop (by rw [not_not.mp hidle]; rfl) (keyed_filter h.keyed _) fun p => ?_
    simp only [mem_filter, decide_eq_true_iff]
    tauto
  | close g =>
    obtain ⟨hidle, heq⟩ := ite_none_left_eq_some.mp hstep
    cases heq
    refine h.stop (by rw [not_not.mp hidle]; rfl) nodup_nil fun p => ?_
    simp
  | visit g e => exact inv_visit h hstep
  | reapIdle g =>
    obtain ⟨hidle, heq⟩ := ite_none_left_eq_some.mp hstep
    cases heq
    exact h.goto (by rw [not_not.mp hidle]; rfl)
  | inspect g key e idle => exact inv_inspect h hstep
  | remove g => exact inv_remove h hstep
  | finish g =>
    simp only [step] at hstep
    split at hstep <;> cases hstep
    next hcall => exact h.goto (by rw [hcall]; rfl)
    next hcall => exact h.goto (by rw [hcall]; rfl)
  | exited n =>
    cases hstep
    have hsame : ∀ m, ((r.setServer n { r.servers n with closed := true }).servers m).key = (r.servers m).key ∧
        ((r.setServer n { r.servers n with closed := true }).servers m).shutdown = (r.servers m).shutdown :=
      update_of_forall (P := fun m (v : Server) => v.key = (r.servers m).key ∧ v.shutdown = (r.servers m).shutdown)
        ⟨rfl, rfl⟩ fun _ _ => ⟨rfl, rfl⟩
    exact h.frame rfl rfl rfl (fun m => (hsame m).1) (fun m => (hsame m).2) (fun _ => rfl) fun _ => rfl

theorem servers_referenced {acts : List Action}
    (h : Steps (step configured) Tidy newLSPRegistry acts r) (hq : Quiescent r) : Referenced r :=
  (h.preserves (fun _ _ _ => inv_step) Inv.init).referenced hq

end Steps

def startOnce : List Action := [.getOrStart 0 "s" "go", .lock 0, .start 0 .ready, .getOrStart 1 "s" "go", .lock 1]

theorem servers_referenced_once : ∃ r, Steps (step fun _ => true) Tidy newLSPRegistry startOnce r ∧ r.started = 1 ∧
      (r.servers 0).shutdown = false ∧ Quiescent r ∧ Referenced r := by
  have hends : ∃ r, Steps (step fun _ => true) Tidy newLSPRegistry startOnce r ∧ r.started = 1 ∧
      (r.servers 0).shutdown = false ∧ Quiescent r := by
    refine ⟨_, .cons trivial rfl (.cons trivial rfl (.cons ?_ rfl (.cons trivial rfl (.cons trivial rfl (.nil _))))),
      rfl, rfl, ?_⟩
    · intro sessionID lang e hcall
      cases (show Call.starting "s" "go" 0 = .starting sessionID lang e from hcall)
      exact ⟨rfl, .inl rfl⟩
    · rintro (_ | _ | g) <;> rfl
  obtain ⟨r, hsteps, hstarted, hshutdown, hquiet⟩ := hends
  exact ⟨r, hsteps, hstarted, hshutdown, hquiet, servers_referenced hsteps hquiet⟩

def stopBeforeStart : List Action :=
  [.getOrStart 0 "s" "go", .stopAllForSession 1 "s", .visit 1 0, .finish 1, .lock 0, .start 0 .ready]

theorem orphan_server :
    ∃ r, run (step fun _ => true) newLSPRegistry stopBeforeStart = some r ∧ Quiescent r ∧ r.started = 1 ∧
      (r.servers 0).shutdown = false ∧ r.entries = [] ∧ ¬ Referenced r := by
  refine ⟨_, rfl, ?_, rfl, rfl, rfl, fun href => ?_⟩
  · rintro (_ | _ | g) <;> rfl
  · obtain ⟨e, hget, -⟩ := href 0 Nat.zero_lt_one rfl
    cases hget

end NomadDev.Lsp
