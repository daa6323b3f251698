import NomadDev.ApprovalGate

namespace NomadDev.Approval

open Tools Foundation.Transition

variable {α : Type} {s s' : State α}

def FirstGrant (p : Approver) (id c : ℕ) : Prop :=
  (p.chans c).id = id ∧ ∃ sig, (p.chans c).slot.sent.head? = some sig ∧ sig.granted = true

variable {j id j' : ℕ} {o : Origin α} {out : Outcome α} {ph : Phase α} {job : Job α} {as : List (Action α)}

theorem Inv.firstGrant (h : Inv s) {ch : Option ℕ} (hj : s.jobs j = some ⟨o, .resolved id ch .granted out⟩) :
    ∃ c, ch = some c ∧ FirstGrant s.approver id c := by
  obtain ⟨_, hv⟩ := h.job j _ hj
  obtain ⟨c, sig, hc, ht, hsig⟩ := hv.taken (.inl rfl)
  refine ⟨c, hc, (hv.chan c hc).2, sig, (s.approver.chans c).slot.taken_first sig ht, ?_⟩
  by_contra hg
  simp [verdict, hg] at hsig

theorem Inv.chan_unique (h : Inv s) {id' c : ℕ} {job' : Job α} (hj : s.jobs j = some job) (hj' : s.jobs j' = some job')
    (hid : job.phase.id = some id) (hid' : job'.phase.id = some id') (hc : (s.approver.chans c).id = id)
    (hc' : (s.approver.chans c).id = id') : j = j' := by
  rw [← hc] at hid
  rw [← hc'] at hid'
  exact h.unique j j' job job' _ hj hj' hid hid'

theorem setJob_resolved {o' : Origin α} {ph' : Phase α} (hj : s.jobs j = some ⟨o, ph⟩) (hout : ph.outcome ≠ none)
    (hj' : s.jobs j' = some job) (hout' : job.phase.outcome = none) : (s.setJob j' o' ph').jobs j = some ⟨o, ph⟩ := by
  have hne : j ≠ j' := by
    rintro rfl
    rw [hj] at hj'
    cases hj'
    exact hout hout'
  rw [setJob_of_ne hne]
  exact hj

theorem step_resolved {a : Action α} (hj : s.jobs j = some ⟨o, ph⟩)
    (hout : ph.outcome ≠ none) (hs : step s a = some s') : s'.jobs j = some ⟨o, ph⟩ := by
  cases a with simp only [step] at hs
  | start j' o' =>
    simp only [start] at hs
    have hne : s.jobs j' = none → j ≠ j' := by
      rintro hn rfl
      rw [hj] at hn
      cases hn
    split at hs <;> cases hs
    next _ _ _ hn _ =>
      rw [setJob_of_ne (hne hn)]
      exact hj
    next _ _ _ _ hn _ => exact (setJob_of_ne (hne hn)).trans hj
  | register j' | request j' =>
    split at hs <;> cases hs
    next hj' => exact setJob_resolved hj hout hj' rfl
  | await j' =>
    split at hs <;> cases hs
    next hj' =>
      unfold awaitID
      split <;> exact setJob_resolved hj hout hj' rfl
  | receive j' =>
    split at hs
    · next hj' =>
      unfold receive at hs
      split at hs <;> cases hs
      exact setJob_resolved hj hout hj' rfl
    · cases hs
  | timeout j' | ctxDone j' deadline =>
    simp only [giveUp] at hs
    split at hs <;> cases hs
    next hj' => exact setJob_resolved hj hout hj' rfl
  | release j' =>
    split at hs <;> cases hs
    exact hj
  | signal t sid correlationID granted =>
    split at hs <;> cases hs
    unfold routeApproval
    split
    · exact hj
    · split <;> exact hj
  | send t =>
    split at hs <;> cases hs
    exact hj
  | registerID id | cancelID id =>
    cases hs
    exact hj

theorem Inv.gate (h : Inv s) (hj : s.jobs j = some ⟨o, ph⟩) (hout : ph.outcome = some out) :
    (∃ id ch a reason next, ph = .resolved id ch a out ∧ o.gate = some (.ask reason next) ∧ out = next a) ∨
      ph = .finished out ∧ o.gate = some (.done out) := by
  have hok := h.job j _ hj
  cases ph with
  | asking | waiting => cases hout
  | resolved id ch a out' =>
    cases hout
    obtain ⟨⟨next, ⟨reason, hg⟩, hnext⟩, _⟩ := hok
    exact .inl ⟨id, ch, a, reason, next, rfl, hg, hnext⟩
  | finished out' =>
    cases hout
    exact .inr ⟨rfl, hok⟩

def DispatchedAfterGrant (gated : Middleware α → Origin α → Prop) (s : State α) : Prop :=
  ∀ j o ph mw target tool args, s.jobs j = some ⟨o, ph⟩ → o.srv.mw = some mw → gated mw o →
    ph.outcome = some (.dispatched target tool args) → (requiresApproval mw.policy tool).isSome →
      ∃ id c out, ph = .resolved id (some c) .granted out ∧ FirstGrant s.approver id c

theorem Inv.dispatchedAfterGrant (h : Inv s) : DispatchedAfterGrant (fun mw o => o.Gated mw) s := by
  intro j o ph mw target tool args hj hm hgated hout hreq
  rcases h.gate hj hout with ⟨id, ch, a, reason, next, rfl, hg, hnext⟩ | ⟨_, hg⟩
  · obtain ⟨rfl, _⟩ := gate_consented (a := a) hm hgated hg hnext.symm hreq
    obtain ⟨c, rfl, hfirst⟩ := h.firstGrant hj
    exact ⟨id, c, _, rfl, hfirst⟩
  · obtain ⟨_, _, _, hask⟩ := gate_consented (a := .granted) hm hgated hg rfl hreq
    cases hask

structure Sound (gated : Middleware α → Origin α → Prop) (s : State α) : Prop where
  grant : ∀ j o id ch out, s.jobs j = some ⟨o, .resolved id ch .granted out⟩ →
    ∃ c, ch = some c ∧ FirstGrant s.approver id c
  once : ∀ j j' o o' id id' c a a' out out', s.jobs j = some ⟨o, .resolved id (some c) a out⟩ →
    s.jobs j' = some ⟨o', .resolved id' (some c) a' out'⟩ → j = j'
  final : ∀ j o id ch a out as t, s.jobs j = some ⟨o, .resolved id ch a out⟩ → run step s as = some t →
    t.jobs j = some ⟨o, .resolved id ch a out⟩
  unknown : ∀ t sid id granted, s.approver.pending id = none → s.sending t = none →
    step s (.signal t sid (some id) granted) = some s
  late : ∀ j o id c a out, s.jobs j = some ⟨o, .resolved id (some c) a out⟩ →
    ∀ j' o' id' next, s.jobs j' ≠ some ⟨o', .waiting id' c next⟩
  frame : ∀ t s', step s (.send t) = some s' → s'.jobs = s.jobs
  dispatch : DispatchedAfterGrant gated s

theorem run_resolved {t : State α} (hj : s.jobs j = some ⟨o, ph⟩) (hout : ph.outcome ≠ none)
    (h : run step s as = some t) : t.jobs j = some ⟨o, ph⟩ :=
  run_preserves (fun _ _ _ hs hjob => step_resolved hjob hout hs) h hj

theorem inv_run (h : run step init as = some s) : Inv s :=
  run_preserves (fun _ _ _ hs hi => hi.step hs) h inv_init

theorem run_sound {as : List (Action α)} {s : State α} (h : run step init as = some s) :
    Sound (fun mw o => o.Gated mw) s := by
  have hinv := inv_run h
  refine ⟨fun j o id ch out hj => hinv.firstGrant hj, ?_, ?_, ?_, ?_, ?_, hinv.dispatchedAfterGrant⟩
  · intro j j' o o' id id' c a a' out out' hj hj'
    have hv := (hinv.job j _ hj).2
    have hv' := (hinv.job j' _ hj').2
    exact hinv.chan_unique hj hj' rfl rfl (hv.chan c rfl).2 (hv'.chan c rfl).2
  · intro j o id ch a out as' t hj ht
    exact run_resolved hj (Option.some_ne_none _) ht
  · intro t sid id granted hp ht
    simp only [step, ht, routeApproval, hp]
  · intro j o id c a out hj j' o' id' next hj'
    have hv := (hinv.job j _ hj).2
    obtain ⟨_, _, hid', _⟩ := hinv.job j' _ hj'
    have he := hinv.chan_unique hj hj' rfl rfl (hv.chan c rfl).2 hid'
    subst he
    rw [hj] at hj'
    cases hj'
  · intro t s' hs
    simp only [step] at hs
    split at hs <;> cases hs
    rfl

theorem startRun_finishes (hg : o.gate = some (.done out)) :
    ∃ s, run step init [.start 0 o] = some s ∧ s.jobs 0 = some ⟨o, .finished out⟩ := by
  have hstart : step (init : State α) (.start 0 o) = some ((init : State α).setJob 0 o (.finished out)) := by
    simp only [step, start, hg]
    rfl
  rw [run, hstart]
  exact ⟨_, rfl, rfl⟩

def grantingRun (o : Origin α) : List (Action α) :=
  [.start 0 o, .register 0, .request 0, .signal 0 o.client.sid (some 0) true, .send 0, .await 0, .receive 0]

theorem grantingRun_resolves {reason : String} {next : Answer → Outcome α} (hg : o.gate = some (.ask reason next)) :
    ∃ s, run step init (grantingRun o) = some s ∧
      s.jobs 0 = some ⟨o, .resolved 0 (some 0) .granted (next .granted)⟩ := by
  have hstart : step (init : State α) (.start 0 o) =
      some { (init : State α).setJob 0 o (.asking .minted 0 next) with nextID := 1 } := by
    simp only [step, start, hg]
    rfl
  rw [grantingRun, run, hstart]
  exact ⟨_, rfl, rfl⟩

def scriptCommand (gateDirectCommands : Bool) : Origin String where
  srv := { mw := some ⟨⟨["execute_script"], false⟩, gateDirectCommands, fun _ => none, fun _ => false⟩
           runner := true, semFree := true, daemons := false, lsp := false
           validate := fun _ _ => none, scopeWorkerCall := fun _ args _ => .ok args, workerPool := fun _ => none }
  client := ⟨"s1", []⟩
  route := .command (.ok ⟨"execute_script", "id"⟩)

def grantedRun : List (Action String) :=
  [.start 0 (scriptCommand true), .register 0, .request 0, .signal 0 "s1" (some 0) true, .send 0, .await 0, .receive 0]

theorem run_sound_grantedRun : ∃ s, run step init grantedRun = some s ∧ Sound (fun mw o => o.Gated mw) s :=
  ⟨_, rfl, run_sound (show run step init grantedRun = some _ from rfl)⟩

theorem ungated_command_runs :
    ∃ s, run step init [.start 0 (scriptCommand false)] = some s ∧ ¬ DispatchedAfterGrant (fun _ _ => True) s := by
  refine ⟨_, rfl, ?_⟩
  intro h
  obtain ⟨_, _, _, hph, _⟩ := h 0 _ _ _ .runner "execute_script" "id" rfl rfl trivial rfl (by decide)
  cases hph

def SessionBound (s : State α) : Prop :=
  ∀ j o id c a out sig, s.jobs j = some ⟨o, .resolved id (some c) a out⟩ →
    (s.approver.chans c).slot.taken = some sig → sig.sid = o.client.sid

structure KeyedByID (s : State α) : Prop where
  decided : ∀ j o id c a out sig, s.jobs j = some ⟨o, .resolved id (some c) a out⟩ →
    (s.approver.chans c).slot.taken = some sig → sig.correlationID = id
  foreign : ∀ t c' sig s', s.sending t = some (c', sig) → step s (.send t) = some s' →
    ∀ c, (s.approver.chans c).id ≠ sig.correlationID → s'.approver.chans c = s.approver.chans c
  disclosed : ∀ j job id sid, s.jobs j = some job → job.phase.id = some id → (sid, id) ∈ s.requests →
    sid = job.origin.client.sid

theorem Inv.taken_addressed (h : Inv s) {c : ℕ} {sig : Signal} (hc : c < s.approver.nextChan)
    (ht : (s.approver.chans c).slot.taken = some sig) : sig.correlationID = (s.approver.chans c).id := by
  apply h.addressed c hc
  exact List.mem_of_mem_head? ((s.approver.chans c).slot.taken_first sig ht)

theorem Inv.send_foreign (h : Inv s) {t c c' : ℕ} {sig : Signal} (ht : s.sending t = some (c', sig))
    (hs : Approval.step s (.send t) = some s') (hne : (s.approver.chans c).id ≠ sig.correlationID) :
    s'.approver.chans c = s.approver.chans c := by
  have hid := (h.sending t c' sig ht).2
  have hc : c ≠ c' := by
    rintro rfl
    exact hne hid.symm
  simp only [Approval.step, ht, Option.some.injEq] at hs
  subst hs
  exact setSlot_of_ne s.approver _ hc

theorem Inv.request_session (h : Inv s) {j id : ℕ} {job : Job α} {sid : String} (hj : s.jobs j = some job)
    (hid : job.phase.id = some id) (hm : (sid, id) ∈ s.requests) : sid = job.origin.client.sid := by
  obtain ⟨j', job', hj', hid', hsid⟩ := h.requests sid id hm
  have he := h.unique j' j job' job id hj' hj hid' hid
  subst he
  rw [hj] at hj'
  cases hj'
  exact hsid.symm

theorem run_keyedByID {as : List (Action α)} {s : State α} (h : run step init as = some s) : KeyedByID s := by
  have hinv := inv_run h
  refine ⟨?_, ?_, ?_⟩
  · intro j o id c a out sig hj ht
    obtain ⟨hc, hid⟩ := (hinv.job j _ hj).2.chan c rfl
    rw [← hid]
    exact hinv.taken_addressed hc ht
  · intro t c' sig s' ht hs c hne
    exact hinv.send_foreign ht hs hne
  · intro j job id sid hj hid hm
    exact hinv.request_session hj hid hm

def crossRun : List (Action String) :=
  [.start 0 (scriptCommand true), .register 0, .request 0, .await 0, .signal 7 "s2" (some 0) true, .send 7, .receive 0]

theorem run_keyedByID_crossRun : ∃ s, run step init crossRun = some s ∧ KeyedByID s :=
  ⟨_, rfl, run_keyedByID (show run step init crossRun = some _ from rfl)⟩

theorem crossRun_other_session : ∃ s, run step init crossRun = some s ∧ ¬ SessionBound s := by
  refine ⟨_, rfl, ?_⟩
  intro h
  have hsid := h 0 _ 0 0 .granted _ ⟨"s2", 0, true⟩ rfl rfl
  revert hsid
  decide

end NomadDev.Approval
