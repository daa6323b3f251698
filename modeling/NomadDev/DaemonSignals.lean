import NomadDev.DaemonRegistry

/-!
Once `cmd.Wait` has returned for a daemon, the id of its process group may belong to other processes.
-/

namespace NomadDev.Daemons

open Foundation.PointUpdate Foundation.Transition Function List

def NoLateSignal (s : State) : Prop := ∀ x ∈ s.sent, x.late = false

def OutlivesGrace (s : State) : Action → Prop
  | .wait d => s.stopOnce d = true ∧ s.killing d = none
  | _ => True

structure Settled (s : State) : Prop where
  idle : ∀ c, s.calls c = none
  streamed : ∀ d, s.waited d = true → s.stream d = .ended
  killed : ∀ d, s.killing d = none

variable {d e : Daemon} {a : Action} {targets : List (String × Daemon)} {s : State}

section

variable {s t : State} {c : ℕ} {sid caller : String}

structure SameSignals (u t : State) : Prop where
  waited : t.waited = u.waited
  stopOnce : t.stopOnce = u.stopOnce
  killing : t.killing = u.killing
  sent : t.sent = u.sent
  outlived : t.outlived = u.outlived

theorem sameSignals_begin (targets : List (String × Daemon)) : SameSignals s (s.begin c sid targets) := by
  rw [begin_eq]
  exact ⟨rfl, rfl, rfl, rfl, rfl⟩

theorem sendKill_killing_of_ne (h : e ≠ d) : (s.sendKill d caller).killing e = s.killing e := by
  simp [State.sendKill, h]

theorem reap_waited_self (d : Daemon) : (s.reap d).waited d = true := by simp [State.reap]

theorem reap_waited_of_ne (h : e ≠ d) : (s.reap d).waited e = s.waited e := by
  simp [State.reap, h]

theorem reap_outlived_self (d : Daemon) : (s.reap d).outlived d = (s.stopOnce d && (s.killing d).isNone) := by
  simp [State.reap]

theorem reap_outlived_of_ne (h : e ≠ d) : (s.reap d).outlived e = s.outlived e := by
  simp [State.reap, h]

inductive Effect (s : State) : Action → State → Prop
  | quiet {a : Action} {t : State} : (∀ d, a ≠ .wait d) → SameSignals s t → Effect s a t
  | term {c : ℕ} {t : State} (d : Daemon) (caller : String) :
      SameSignals (s.stopDaemon d caller) t → Effect s (.stopDaemon c) t
  | kill {d : Daemon} {caller : String} : s.killing d = some caller → Effect s (.kill d) (s.sendKill d caller)
  | wait {d : Daemon} : s.waited d = false → Effect s (.wait d) (s.reap d)

theorem step_effect (h : step s a = some t) : Effect s a t := by
  cases moved_of_step h with
  | start | register | get | list => exact .quiet (by simp) ⟨rfl, rfl, rfl, rfl, rfl⟩
  | stop | stopAllForSession => exact .quiet (by simp) (sameSignals_begin _)
  | @stopDaemon c sid id d rest hc => exact .term d sid ⟨rfl, rfl, rfl, rfl, rfl⟩
  | unregister | linesClosed => exact .quiet (by simp) { sameSignals_begin _ with }
  | kill hk => exact .kill hk
  | wait hw => exact .wait hw

structure Account (s : State) : Prop where
  kept : ∀ d, s.outlived d = true → s.waited d = true ∧ s.stopOnce d = true ∧ s.killing d = none
  late : ∀ x ∈ s.sent, x.late = true → s.waited x.target = true ∧ s.outlived x.target = false
  due : ∀ d, s.waited d = true → s.outlived d = false →
    s.stopOnce d = false ∨ s.killing d ≠ none ∨ ∃ x ∈ s.sent, x.target = d ∧ x.late = true

theorem account_init : Account init where
  kept := by simp [init]
  late := by simp [init]
  due := by simp [init]

section

variable (ha : Account s)
include ha

theorem Account.same (h : SameSignals s t) : Account t where
  kept := by
    rw [h.waited, h.stopOnce, h.killing, h.outlived]
    exact ha.kept
  late := by
    rw [h.waited, h.outlived, h.sent]
    exact ha.late
  due := by
    rw [h.waited, h.stopOnce, h.killing, h.outlived, h.sent]
    exact ha.due

theorem Account.late_concat (hd : s.outlived d = false) (signal : Signal) (caller : String) :
    ∀ x ∈ s.sent ++ [⟨d, signal, caller, s.waited d⟩], x.late = true →
      s.waited x.target = true ∧ s.outlived x.target = false := by
  intro x hx hl
  rcases mem_append.mp hx with hx | hx
  · exact ha.late x hx hl
  · rw [mem_singleton.mp hx] at hl ⊢
    exact ⟨hl, hd⟩

theorem Account.term (d : Daemon) (caller : String) : Account (s.stopDaemon d caller) := by
  rw [State.stopDaemon]
  split
  · exact ha
  next honce =>
  have hne : ∀ e, s.outlived e = true → e ≠ d := by
    rintro e he rfl
    exact honce (ha.kept e he).2.1
  constructor
  · intro e he
    obtain ⟨hw, hs, hk⟩ := ha.kept e he
    refine ⟨hw, ?_, ?_⟩
    · exact (update_of_ne (hne e he) true s.stopOnce).trans hs
    · exact (update_of_ne (hne e he) (some caller) s.killing).trans hk
  · exact ha.late_concat (eq_false_of_ne_true fun ho => hne d ho rfl) .term caller
  · intro e hw ho
    by_cases hed : e = d
    · subst hed
      exact .inr (.inl (by simp))
    rcases ha.due e hw ho with h | h | ⟨x, hx, hxe, hl⟩
    · exact .inl ((update_of_ne hed true s.stopOnce).trans h)
    · refine .inr (.inl ?_)
      change update s.killing d (some caller) e ≠ none
      rw [update_of_ne hed]
      exact h
    · exact .inr (.inr ⟨x, mem_append_left _ hx, hxe, hl⟩)

theorem Account.kill (hk : s.killing d = some caller) : Account (s.sendKill d caller) := by
  have hne : ∀ e, s.outlived e = true → e ≠ d := by
    rintro e he rfl
    rw [(ha.kept e he).2.2] at hk
    cases hk
  constructor
  · intro e he
    obtain ⟨hw, hs, hn⟩ := ha.kept e he
    exact ⟨hw, hs, (sendKill_killing_of_ne (hne e he)).trans hn⟩
  · exact ha.late_concat (eq_false_of_ne_true fun ho => hne d ho rfl) .kill caller
  · intro e hw ho
    by_cases hed : e = d
    · subst hed
      have hlast : (⟨e, .kill, caller, s.waited e⟩ : Sent) ∈ (s.sendKill e caller).sent :=
        mem_append_right _ mem_cons_self
      exact .inr (.inr ⟨_, hlast, rfl, hw⟩)
    · rcases ha.due e hw ho with h | h | ⟨x, hx, hxe, hl⟩
      · exact .inl h
      · refine .inr (.inl ?_)
        rw [sendKill_killing_of_ne hed]
        exact h
      · exact .inr (.inr ⟨x, mem_append_left _ hx, hxe, hl⟩)

theorem Account.wait {d : Daemon} (hw : s.waited d = false) : Account (s.reap d) := by
  constructor
  · intro e he
    rcases update_cases (· = true) he with ⟨rfl, hb⟩ | ⟨hne, he⟩
    · obtain ⟨hs, hk⟩ := Bool.and_eq_true_iff.mp hb
      exact ⟨reap_waited_self e, hs, Option.isNone_iff_eq_none.mp hk⟩
    · obtain ⟨hwe, hs, hk⟩ := ha.kept e he
      exact ⟨(reap_waited_of_ne hne).trans hwe, hs, hk⟩
  · intro x hx hl
    obtain ⟨hwx, hox⟩ := ha.late x hx hl
    have hne : x.target ≠ d := by
      rintro rfl
      cases hw.symm.trans hwx
    exact ⟨(reap_waited_of_ne hne).trans hwx, (reap_outlived_of_ne hne).trans hox⟩
  · intro e hwe ho
    rcases update_cases (· = false) ho with ⟨rfl, hb⟩ | ⟨hne, ho⟩
    · cases hs : s.stopOnce e with
      | false => exact .inl hs
      | true =>
        rw [hs, Bool.true_and] at hb
        refine .inr (.inl fun hn => ?_)
        change s.killing e = none at hn
        rw [hn] at hb
        cases hb
    · exact ha.due e ((reap_waited_of_ne hne).symm.trans hwe) ho

end

theorem account_step (h : step s a = some t) (ha : Account s) : Account t := by
  cases step_effect h with
  | quiet _ hsame => exact ha.same hsame
  | term d caller hsame => exact (ha.term d caller).same hsame
  | kill hk => exact ha.kill hk
  | wait hw => exact ha.wait hw

theorem outlived_step (h : step s a = some t) : (∀ d, t.waited d = true → t.outlived d = true) ↔
      (∀ d, s.waited d = true → s.outlived d = true) ∧ OutlivesGrace s a := by
  cases step_effect h with
  | quiet hne hsame =>
    have hok : OutlivesGrace s a := by
      cases a with
      | wait d => exact absurd rfl (hne d)
      | _ => trivial
    rw [hsame.waited, hsame.outlived]
    exact (and_iff_left hok).symm
  | term d caller hsame =>
    have hw : (s.stopDaemon d caller).waited = s.waited ∧ (s.stopDaemon d caller).outlived = s.outlived := by
      rw [State.stopDaemon]
      split
      · exact ⟨rfl, rfl⟩
      · exact ⟨rfl, rfl⟩
    rw [hsame.waited, hsame.outlived, hw.1, hw.2]
    exact (and_iff_left trivial).symm
  | kill hk => exact (and_iff_left trivial).symm
  | @wait d hw =>
    constructor
    · intro hall
      refine ⟨fun e he => ?_, ?_⟩
      · have hne : e ≠ d := by
          rintro rfl
          cases hw.symm.trans he
        have ho := hall e ((reap_waited_of_ne hne).trans he)
        exact (reap_outlived_of_ne hne).symm.trans ho
      · have hb := (reap_outlived_self d).symm.trans (hall d (reap_waited_self d))
        obtain ⟨hs, hk⟩ := Bool.and_eq_true_iff.mp hb
        exact ⟨hs, Option.isNone_iff_eq_none.mp hk⟩
    · rintro ⟨hall, hs, hk⟩ e he
      by_cases hed : e = d
      · subst hed
        rw [reap_outlived_self, hs, hk]
        rfl
      · rw [reap_outlived_of_ne hed]
        exact hall e ((reap_waited_of_ne hed).symm.trans he)

def Serves (s : State) (c : ℕ) (d : Daemon) : Prop := ∃ call, s.calls c = some call ∧ d ∈ call.targets.map Prod.snd

structure Tracked (s : State) : Prop where
  stopped : ∀ c call x, s.calls c = some call → call.stopped = true → call.targets.head? = some x →
    s.stopOnce x.2 = true
  gone : ∀ d, s.stream d ≠ .absent → d ∈ s.registered ∨ s.stopOnce d = true
  ended : ∀ d, s.stream d = .ended → s.stopOnce d = true ∨ ∃ c, Serves s c d

theorem tracked_init : Tracked init where
  stopped := by simp [init]
  gone := by simp [init]
  ended := by simp [init]

theorem tracked_begin
    (hs : ∀ c call x, s.calls c = some call → call.stopped = true → call.targets.head? = some x → s.stopOnce x.2 = true)
    (hg : ∀ d, s.stream d ≠ .absent → d ∈ s.registered ∨ s.stopOnce d = true)
    (he : ∀ d, s.stream d = .ended → s.stopOnce d = true ∨ d ∈ targets.map Prod.snd ∨ ∃ c', c' ≠ c ∧ Serves s c' d) :
    Tracked (s.begin c sid targets) := by
  rw [begin_eq]
  refine ⟨fun c' call x hcall hst hx => ?_, hg, fun d hd => ?_⟩
  · rcases update_cases (· = some call) hcall with ⟨-, hcall⟩ | ⟨-, hcall⟩
    · cases opened_eq_some hcall
      cases hst
    · exact hs c' call x hcall hst hx
  · rcases he d hd with h | h | ⟨c', hne, call, hcall, hmem⟩
    · exact .inl h
    · cases targets with
      | nil => cases h
      | cons => exact .inr ⟨c, _, update_self _ _ _, h⟩
    · exact .inr ⟨c', call, (update_of_ne hne _ _).trans hcall, hmem⟩

namespace Tracked

theorem beginIdle (h : Tracked s) (hc : s.calls c = none) (targets : List (String × Daemon)) :
    Tracked (s.begin c sid targets) := by
  apply tracked_begin h.stopped h.gone
  intro d hd
  rcases h.ended d hd with hs | ⟨c', call, hcall, hmem⟩
  · exact .inl hs
  · refine .inr (.inr ⟨c', ?_, call, hcall, hmem⟩)
    rintro rfl
    cases hc.symm.trans hcall

theorem linesClosed (h : Tracked s) (hr : s.registry.Represents s.registered) (hc : s.calls c = none)
    (hd : s.stream d = .reading) :
    Tracked ({ s with stream := update s.stream d .ended }.stop c d.sessionID d.id) := by
  have hfound : s.stopOnce d = true ∨ s.registry.get d.sessionID d.id = some d := by
    rcases h.gone d (by rw [hd]; decide) with hlive | hs
    · right
      rw [Registry.get, (hr.daemons d.id d).mpr ⟨hlive, rfl⟩]
      simp
    · exact .inl hs
  apply tracked_begin
  · exact h.stopped
  · intro e he
    rcases update_cases (· ≠ Stream.absent) he with ⟨rfl, -⟩ | ⟨-, he⟩
    · exact h.gone e (by rw [hd]; decide)
    · exact h.gone e he
  · intro e he
    rcases update_cases (· = Stream.ended) he with ⟨rfl, -⟩ | ⟨-, he⟩
    · rcases hfound with hs | hget
      · exact .inl hs
      · exact .inr (.inl (by simp [hget]))
    · rcases h.ended e he with hs | ⟨c', call, hcall, hmem⟩
      · exact .inl hs
      · refine .inr (.inr ⟨c', ?_, call, hcall, hmem⟩)
        rintro rfl
        cases hc.symm.trans hcall

theorem unregister (h : Tracked s) {id : String} {rest : List (String × Daemon)}
    (hc : s.calls c = some ⟨sid, (id, d) :: rest, true⟩) :
    Tracked ({ s with registry := s.registry.unregister id, registered := s.registered.erase d }.begin c sid rest) := by
  have hstop : s.stopOnce d = true := h.stopped c _ _ hc rfl rfl
  apply tracked_begin
  · exact h.stopped
  · intro e he
    by_cases hed : e = d
    · exact .inr (hed ▸ hstop)
    · rcases h.gone e he with hlive | hs
      · exact .inl (Finset.mem_erase.mpr ⟨hed, hlive⟩)
      · exact .inr hs
  · intro e he
    rcases h.ended e he with hs | ⟨c', call, hcall, hmem⟩
    · exact .inl hs
    by_cases hcc : c' = c
    · subst hcc
      cases hc.symm.trans hcall
      rcases mem_cons.mp hmem with rfl | hmem
      · exact .inl hstop
      · exact .inr (.inl hmem)
    · exact .inr (.inr ⟨c', hcc, call, hcall, hmem⟩)

theorem stopOnce_stopDaemon (h : e = d ∨ s.stopOnce e = true) : (s.stopDaemon d sid).stopOnce e = true := by
  rw [State.stopDaemon]
  split
  · next hd =>
    rcases h with rfl | h
    · exact hd
    · exact h
  · by_cases hed : e = d
    · simp [hed]
    · simpa [hed] using h

theorem stopDaemon_frame (s : State) (d : Daemon) (sid : String) :
    (s.stopDaemon d sid).registered = s.registered ∧ (s.stopDaemon d sid).stream = s.stream := by
  rw [State.stopDaemon]
  split
  · exact ⟨rfl, rfl⟩
  · exact ⟨rfl, rfl⟩

theorem stopDaemon (h : Tracked s) {id : String} {rest : List (String × Daemon)}
    (hc : s.calls c = some ⟨sid, (id, d) :: rest, false⟩) :
    Tracked { s.stopDaemon d sid with calls := update s.calls c (some ⟨sid, (id, d) :: rest, true⟩) } where
  stopped := by
    intro c' call x hcall hst hx
    rcases update_cases (· = some call) hcall with ⟨-, heq⟩ | ⟨-, hcall⟩
    · cases heq
      cases hx
      exact stopOnce_stopDaemon (.inl rfl)
    · exact stopOnce_stopDaemon (.inr (h.stopped c' call x hcall hst hx))
  gone := by
    intro e he
    simp only [stopDaemon_frame] at he ⊢
    exact (h.gone e he).imp_right fun hs => stopOnce_stopDaemon (.inr hs)
  ended := by
    intro e he
    simp only [stopDaemon_frame] at he
    rcases h.ended e he with hs | ⟨c', call, hcall, hmem⟩
    · exact .inl (stopOnce_stopDaemon (.inr hs))
    refine .inr ⟨c', ?_⟩
    by_cases hcc : c' = c
    · subst hcc
      cases hc.symm.trans hcall
      exact ⟨_, update_self c' _ s.calls, hmem⟩
    · exact ⟨call, (update_of_ne hcc _ s.calls).trans hcall, hmem⟩

theorem register (h : Tracked s) (d : Daemon) {registry : Registry} : Tracked { s with
      registry := registry
      stream := update s.stream d .reading
      registered := insert d s.registered } where
  stopped := h.stopped
  gone := by
    intro e he
    rcases update_cases (· ≠ Stream.absent) he with ⟨rfl, -⟩ | ⟨-, he⟩
    · exact .inl (Finset.mem_insert_self e _)
    · exact (h.gone e he).imp_left Finset.mem_insert_of_mem
  ended := by
    intro e he
    rcases update_cases (· = Stream.ended) he with ⟨-, heq⟩ | ⟨-, he⟩
    · cases heq
    · exact h.ended e he

end Tracked

theorem tracked_step {D : Set Daemon} (h : step s a = some t) (hi : Inv D s) (ht : Tracked s) : Tracked t := by
  cases moved_of_step h with
  | start | get | list | kill | wait => exact { ht with }
  | register d => exact ht.register d
  | stop _ _ hc | stopAllForSession hc => exact ht.beginIdle hc _
  | stopDaemon hc => exact ht.stopDaemon hc
  | unregister hc => exact ht.unregister hc
  | linesClosed hc hd => exact ht.linesClosed hi.represents hc hd

end

theorem tracked_of_run {acts : List Action} (h : run step init acts = some s) (hd : DistinctIDs acts) : Tracked s := by
  have hboth := (registering_steps h).preserves (I := fun s => Inv {d | Action.register d ∈ acts} s ∧ Tracked s)
    (fun s a t ha hst hi => ⟨inv_step hd ha hst hi.1, tracked_step hst hi.1 hi.2⟩) ⟨inv_init _, tracked_init⟩
  exact hboth.2

theorem late_of_settled (hs : Settled s) (ha : Account s) (ht : Tracked s) (hw : s.waited d = true)
    (ho : s.outlived d = false) : ∃ x ∈ s.sent, x.target = d ∧ x.late = true := by
  have hstop : s.stopOnce d = true := by
    rcases ht.ended d (hs.streamed d hw) with h | ⟨c, call, hcall, -⟩
    · exact h
    · cases (hs.idle c).symm.trans hcall
  rcases ha.due d hw ho with h | h | h
  · cases hstop.symm.trans h
  · exact absurd (hs.killed d) h
  · exact h

theorem no_signal_after_wait {acts : List Action} {s : State} (h : run step init acts = some s) :
    (Steps step OutlivesGrace init acts s → NoLateSignal s) ∧
      (DistinctIDs acts → Settled s → NoLateSignal s → Steps step OutlivesGrace init acts s) := by
  have ha : Account s := run_preserves (fun _ _ _ hst => account_step hst) h account_init
  have hall : (∀ d, s.waited d = true → s.outlived d = true) ↔ Steps step OutlivesGrace init acts s :=
    iff_steps_of_run (fun _ _ _ hst => outlived_step hst) h (by simp [init])
  constructor
  · intro hsteps x hx
    rw [← Bool.not_eq_true]
    intro hl
    obtain ⟨hw, ho⟩ := ha.late x hx hl
    cases ho.symm.trans (hall.mpr hsteps x.target hw)
  · intro hd hs hno
    apply hall.mp
    intro d hw
    rw [← Bool.not_eq_false]
    intro ho
    obtain ⟨x, hx, -, hl⟩ := late_of_settled hs ha (tracked_of_run h hd) hw ho
    cases (hno x hx).symm.trans hl

def stubbornRun : List Action :=
  [.start devServer, .register devServer, .stop 0 "s1" "d1", .stopDaemon 0, .unregister 0, .kill devServer,
    .wait devServer, .linesClosed 0 devServer]

theorem stubborn_daemon_no_late_signal :
    ∃ s, run step init stubbornRun = some s ∧ s.waited devServer = true ∧ s.sent.length = 2 ∧ NoLateSignal s := by
  have hrun : run step init stubbornRun = some _ := rfl
  refine ⟨_, hrun, rfl, rfl, (no_signal_after_wait hrun).1 ?_⟩
  exact .cons trivial rfl (.cons trivial rfl (.cons trivial rfl (.cons trivial rfl (.cons trivial rfl
    (.cons trivial rfl (.cons ⟨rfl, rfl⟩ rfl (.cons trivial rfl (.nil _))))))))

theorem exited_daemon_signalled :
    (∃ s, run step init [.start devServer, .register devServer, .wait devServer, .linesClosed 0 devServer,
        .stopDaemon 0, .unregister 0] = some s ∧
      s.sent = [⟨devServer, .term, "s1", true⟩] ∧ ¬ NoLateSignal s) ∧
    ∃ s, run step init [.start devServer, .register devServer, .stop 0 "s1" "d1", .stopDaemon 0, .unregister 0,
        .wait devServer, .kill devServer] = some s ∧
      s.sent = [⟨devServer, .term, "s1", false⟩, ⟨devServer, .kill, "s1", true⟩] ∧ ¬ NoLateSignal s := by
  refine ⟨⟨_, rfl, rfl, fun h => ?_⟩, ⟨_, rfl, rfl, fun h => ?_⟩⟩
  · cases h ⟨devServer, .term, "s1", true⟩ mem_cons_self
  · cases h ⟨devServer, .kill, "s1", true⟩ (mem_cons_of_mem _ mem_cons_self)

end NomadDev.Daemons
