import NomadDev.WireSession
import NomadDev.Foundation.PointUpdate

namespace NomadDev.Wire

open Foundation.Transition Function Option

def Phase.holds : Phase → Option ℕ
  | .dialed c | .greeting c | .observed c _ | .ready c | .opened c | .draining c _ _ | .requeue c _ | .reading c
  | .failing c | .ended c | .unhooked c => some c
  | _ => none

def Phase.heard : Phase → Option ℕ
  | .observed c _ | .ready c | .opened c | .draining c _ _ | .requeue c _ | .reading c | .ended c | .unhooked c =>
    some c
  | _ => none

variable {c : ℕ} {env : Envelope} {a : Action}

namespace Closing

variable {cfg : SessionConfig} {s t : Session}

structure Owned (s : Session) : Prop where
  holds_lt : ∀ c, s.phase.holds = some c → c < s.dials
  released : ∀ c, c < s.dials → s.phase.holds = some c ∨ (s.conns c).closed = true
  conn : ∀ c, s.conn = some c → s.phase.holds = some c ∨ s.phase = .shut
  unhooked : ∀ c, s.phase = .unhooked c → s.conn = none
  draining : ∀ c conn pending, s.phase = .draining c conn pending → conn = c

theorem Owned.init : Owned (newSession cfg) := ⟨nofun, nofun, nofun, nofun, nofun⟩

theorem Owned.conn_of_holds (h : Owned s) {conn : ℕ} (hc : s.phase.holds = some c) (hconn : s.conn = some conn) :
    conn = c := by
  rcases h.conn conn hconn with hheld | hshut
  · exact Option.some.inj (hheld.symm.trans hc)
  · rw [hshut] at hc
    cases hc

theorem Owned.keep (h : Owned s) (hd : t.dials = s.dials) (hheld : t.phase.holds = s.phase.holds)
    (hclosed : ∀ c, (s.conns c).closed = true → (t.conns c).closed = true)
    (hconn : ∀ c, t.conn = some c → t.phase.holds = some c ∨ t.phase = .shut)
    (hunhooked : ∀ c, t.phase = .unhooked c → t.conn = none)
    (hdrain : ∀ c conn pending, t.phase = .draining c conn pending → conn = c) : Owned t where
  holds_lt c hc := hd ▸ h.holds_lt c (hheld ▸ hc)
  released c hc := by
    rw [hd] at hc
    rw [hheld]
    exact (h.released c hc).imp_right (hclosed c)
  conn := hconn
  unhooked := hunhooked
  draining := hdrain

theorem Owned.goto (h : Owned s) (hd : t.dials = s.dials) (hconn : t.conn = s.conn)
    (hclosed : ∀ c, (s.conns c).closed = true → (t.conns c).closed = true)
    (hheld : t.phase.holds = s.phase.holds) (hshut : s.phase ≠ .shut)
    (hplain : ∀ c, t.phase ≠ .unhooked c ∧ ∀ conn pending, t.phase ≠ .draining c conn pending) : Owned t := by
  refine h.keep hd hheld hclosed (fun c hc => .inl ?_) (fun c hc => absurd hc (hplain c).1)
    fun c conn pending hc => absurd hc ((hplain c).2 conn pending)
  rcases h.conn c (hconn ▸ hc) with hc | hc
  · exact hheld.trans hc
  · exact absurd hc hshut

theorem Owned.stay (h : Owned s) (hd : t.dials = s.dials) (hp : t.phase = s.phase)
    (hconn : t.conn = s.conn ∨ t.conn = none)
    (hclosed : ∀ c, (s.conns c).closed = true → (t.conns c).closed = true) : Owned t := by
  refine h.keep hd (by rw [hp]) hclosed (fun c hc => ?_) (fun c hc => ?_)
    fun c conn pending hc => h.draining c conn pending (hp ▸ hc)
  · rw [hp]
    rcases hconn with heq | hnone
    · exact h.conn c (heq ▸ hc)
    · exact nomatch hnone.symm.trans hc
  · rcases hconn with heq | hnone
    · exact heq.trans (h.unhooked c (hp ▸ hc))
    · exact hnone

theorem closed_modifyConn (s : Session) (c : ℕ) (f : Conn → Conn) (hf : ∀ w, w.closed = true → (f w).closed = true)
    (c' : ℕ) (h : (s.conns c').closed = true) : ((s.modifyConn c f).conns c').closed = true :=
  Foundation.PointUpdate.update_of_forall (P := fun b (w : Conn) => (s.conns b).closed = true → w.closed = true)
    (hf _) (fun _ _ => id) c' h

theorem closed_closeConn (s : Session) (c c' : ℕ) :
    (s.conns c').closed = true → ((s.closeConn c).conns c').closed = true :=
  closed_modifyConn s c (fun w => { w with closed := true }) (fun _ _ => rfl) c'

theorem closed_greet (s : Session) (c c' : ℕ) : (s.conns c').closed = true → ((s.greet c).conns c').closed = true :=
  closed_modifyConn s c (fun w => { w with greeted := some w.written }) (fun _ => id) c'

theorem Owned.release (h : Owned s) {phase : Phase} (hheld : s.phase.holds = some c)
    (hnone : phase.holds = none) (hconn : s.conn = none ∨ phase = .shut) : Owned ((s.closeConn c).goto phase) where
  holds_lt c' hc := nomatch hnone.symm.trans hc
  released c' hc := by
    refine .inr ?_
    by_cases heq : c' = c
    · subst heq
      simp [Session.goto, Session.closeConn, Session.modifyConn]
    · rcases h.released c' hc with hother | hclosed
      · exact absurd (Option.some.inj (hother.symm.trans hheld)) heq
      · exact closed_closeConn s c c' hclosed
  conn c' hc := by
    rcases hconn with hn | hs
    · exact nomatch hn.symm.trans hc
    · exact .inr hs
  unhooked c' hc := by
    rw [show phase = .unhooked c' from hc] at hnone
    cases hnone
  draining c' conn pending hc := by
    rw [show phase = .draining c' conn pending from hc] at hnone
    cases hnone

theorem owned_write (h : Owned s) (hw : s.writeEnvelope c env = some t) : Owned t := by
  rw [writeEnvelope_eq hw]
  exact h.stay rfl rfl (.inl rfl) (closed_modifyConn s c _ fun _ => id)

theorem owned_greet (h : Owned s) {hello : Envelope} (hp : s.phase = .observed c hello) :
    Owned ((s.greet c).goto (.ready c)) :=
  h.goto rfl rfl (closed_greet s c) (by rw [hp]; rfl) (hp ▸ nofun) fun _ => ⟨nofun, nofun⟩

theorem owned_dial (h : Owned s) (hp : s.phase = .dialing) (conn : Conn) :
    Owned { s with phase := .dialed s.dials, dials := s.dials + 1, conns := update s.conns s.dials conn } where
  holds_lt c hc := by
    cases hc
    exact Nat.lt_succ_self _
  released c hc := by
    rcases Nat.lt_succ_iff_lt_or_eq.mp hc with hlt | rfl
    · refine .inr ?_
      dsimp only
      rw [update_of_ne (Nat.ne_of_lt hlt)]
      rcases h.released c hlt with hheld | hclosed
      · rw [hp] at hheld
        cases hheld
      · exact hclosed
    · exact .inl rfl
  conn c hc := by
    rcases h.conn c hc with hc | hc
    · rw [hp] at hc
      cases hc
    · rw [hp] at hc
      cases hc
  unhooked := nofun
  draining := nofun

theorem owned_step (h : Owned s) (hstep : step cfg s a = some t) : Owned t := by
  cases moved_of_step hstep with
  | stop hp | check hp | connect hp | opens hp | drained hp | requeue hp | finish hp | again hp | giveUp hp | refuse hp
  | dialFails hp | hello hp | noHello hp | resumeFails hp | noWrite hp | readFails hp =>
    exact h.goto rfl rfl (fun _ => id) (by rw [hp]; rfl) (hp ▸ nofun) fun _ => ⟨nofun, nofun⟩
  | publish hp =>
    refine h.keep rfl (by rw [hp]; rfl) (fun _ => id) (fun c' hc => .inl ?_) nofun nofun
    cases hc
    rfl
  | abandon hp hconn =>
    exact h.keep rfl (by rw [hp]; rfl) (fun _ => id) (fun c' hc => nomatch hconn.symm.trans hc) nofun nofun
  | take hp hconn =>
    obtain rfl := h.conn_of_holds (by rw [hp]; rfl) hconn
    refine h.keep rfl (by rw [hp]; rfl) (fun _ => id) (fun c' hc => .inl ?_) nofun fun c' conn' pending hc => ?_
    · cases hconn.symm.trans hc
      rfl
    · cases hc
      rfl
  | fail hp => exact h.release (by rw [hp]; rfl) rfl (.inr rfl)
  | hangUp hp => exact h.release (by rw [hp]; rfl) rfl (.inl (h.unhooked _ hp))
  | detach hp => exact h.keep rfl (by rw [hp]; rfl) (fun _ => id) nofun nofun nofun
  | unhook hp => exact h.keep rfl (by rw [hp]; rfl) (fun _ => id) nofun (fun _ _ => rfl) nofun
  | dial hp => exact owned_dial h hp _
  | greet hp => exact owned_greet h hp
  | @resume c hello _ _ _ _ u hp _ hw =>
    have hpu : u.phase = .observed c hello := by
      rw [writeEnvelope_eq hw]
      exact hp
    exact owned_greet (owned_write h hw) hpu
  | @write c conn env rest u hp hw =>
    have hu := owned_write h hw
    have hpu : u.phase = .draining c conn (env :: rest) := by
      rw [writeEnvelope_eq hw]
      exact hp
    refine hu.keep rfl (by rw [hpu]; rfl) (fun _ => id) (fun c' hc => .inl ?_) nofun fun c' conn' pending hc => ?_
    · rw [hu.conn_of_holds (by rw [hpu]; rfl) hc]
      rfl
    · cases hc
      exact h.draining _ _ _ hp
  | receive | cancel | queue => exact h.stay rfl rfl (.inl rfl) fun _ => id
  | direct _ _ _ hw => exact owned_write h hw
  | close => exact h.stay rfl rfl (.inr rfl) fun _ => id
  | closeConn => exact h.stay rfl rfl (.inl rfl) (closed_closeConn _ _)

def reads (s : Session) : Action → Option (ℕ × Envelope)
  | .hello (some env) => match s.phase with
    | .greeting c => some (c, env)
    | _ => none
  | .receive (some env) => match s.phase with
    | .reading c => some (c, env)
    | _ => none
  | _ => none

theorem heard_step (h : step cfg s a = some t) (hc : t.phase.heard = some c) :
    s.phase.heard = some c ∨ ∃ env, reads s a = some (c, env) := by
  cases moved_of_step h with
  | stop | check | connect | publish | abandon | requeue | fail | detach | hangUp | again | giveUp | dial | refuse
  | dialFails | noHello | resumeFails => cases hc
  | opens hp | take hp | drained hp | finish hp | unhook hp | greet hp | resume hp | write hp | noWrite hp
  | readFails hp =>
    rw [hp]
    exact .inl hc
  | @hello _ env hp =>
    cases hc
    exact .inr ⟨env, by simp only [reads, hp]⟩
  | receive | cancel | queue | close | closeConn => exact .inl hc
  | direct _ _ _ hw =>
    rw [writeEnvelope_eq hw] at hc
    exact .inl hc

structure Passes (s t : Session) (w : ℕ → Prop) : Prop where
  dials : t.dials = s.dials
  flag : t.closed = s.closed
  closing : t.closing ⊆ s.closing
  written : ∀ c, (t.conns c).written = (s.conns c).written ∨ w c

variable {w w' : ℕ → Prop}

theorem Passes.trans {u : Session} (h : Passes s t w) (h' : Passes t u w) : Passes s u w where
  dials := h'.dials.trans h.dials
  flag := h'.flag.trans h.flag
  closing := fun _ hc => h.closing (h'.closing hc)
  written c := by
    rcases h'.written c with heq | hw
    · rw [heq]
      exact h.written c
    · exact .inr hw

theorem Passes.mono (h : Passes s t w) (hw : ∀ c, w c → w' c) : Passes s t w' :=
  { h with written := fun c => (h.written c).imp_right (hw c) }

theorem Passes.goto (h : Passes s t w) (phase : Phase) : Passes s (t.goto phase) w := { h with }

theorem passes_modifyConn (s : Session) (c : ℕ) (f : Conn → Conn) (hf : ∀ v, (f v).written = v.written) :
    Passes s (s.modifyConn c f) w where
  dials := rfl
  flag := rfl
  closing := fun _ => id
  written c' := by
    left
    exact Foundation.PointUpdate.update_of_forall (P := fun b (v : Conn) => v.written = (s.conns b).written) (hf _)
      (fun _ _ => rfl) c'

theorem passes_closeConn (s : Session) (c : ℕ) : Passes s (s.closeConn c) w :=
  passes_modifyConn s c (fun v => { v with closed := true }) fun _ => rfl

theorem passes_greet (s : Session) (c : ℕ) : Passes s (s.greet c) w :=
  passes_modifyConn s c (fun v => { v with greeted := some v.written }) fun _ => rfl

theorem passes_write (h : s.writeEnvelope c env = some t) : Passes s t (· = c) := by
  rw [writeEnvelope_eq h]
  refine ⟨rfl, rfl, fun _ => id, fun c' => or_iff_not_imp_right.mpr fun hne => ?_⟩
  simp [Session.modifyConn, update_of_ne hne]

inductive Effect (s : Session) : Session → Prop
  | passes {t : Session} : Passes s t (fun c => s.phase.heard = some c ∨ s.closed = false) → Effect s t
  | dial (phase : Phase) (bookmark : String) : Effect s { s with
      phase := phase, dials := s.dials + 1, conns := update s.conns s.dials (.dialed bookmark) }
  | close : Effect s { s with closed := true, conn := none, closing := s.conn.toList ++ s.closing }

theorem effect_step (ho : Owned s) (h : step cfg s a = some t) : Effect s t := by
  cases moved_of_step h with
  | dial => exact .dial ..
  | close => exact .close
  | fail | hangUp => exact .passes ((passes_closeConn s _).goto _)
  | greet => exact .passes ((passes_greet s _).goto _)
  | resume hp _ hw =>
    refine .passes ((((passes_write hw).mono ?_).trans (passes_greet _ _)).goto _)
    rintro c rfl
    rw [hp]
    exact .inl rfl
  | write hp hw =>
    refine .passes (((passes_write hw).mono ?_).goto _)
    rintro c' rfl
    rw [ho.draining _ c' _ hp, hp]
    exact .inl rfl
  | direct hopen _ _ hw => exact .passes ((passes_write hw).mono fun _ _ => .inr hopen)
  | @closeConn c =>
    exact .passes { passes_closeConn { s with closing := s.closing.erase c } c with closing := List.erase_subset }
  | stop | check | connect | publish | opens | abandon | take | drained | requeue | finish | detach | unhook | again
  | giveUp | refuse | dialFails | hello | noHello | resumeFails | noWrite | receive | readFails | cancel | queue =>
    exact .passes ⟨rfl, rfl, fun _ => id, fun _ => .inl rfl⟩

section

variable (h : Effect s t)
include h

theorem Effect.dials_le : s.dials ≤ t.dials := by
  cases h with
  | passes hp => exact Nat.le_of_eq hp.dials.symm
  | dial => exact Nat.le_succ _
  | close => exact Nat.le_refl _

theorem Effect.closed (hs : s.closed = true) : t.closed = true := by
  cases h with
  | passes hp => exact hp.flag.trans hs
  | dial => exact hs
  | close => rfl

theorem Effect.closing (hs : ∀ c ∈ s.closing, s.closed = true) : ∀ c ∈ t.closing, t.closed = true := by
  cases h with
  | passes hp => exact fun c hc => hp.flag.trans (hs c (hp.closing hc))
  | dial => exact hs
  | close => exact fun _ _ => rfl

theorem Effect.written (hlt : c < s.dials) :
    (t.conns c).written = (s.conns c).written ∨ s.phase.heard = some c ∨ s.closed = false := by
  cases h with
  | passes hp => exact hp.written c
  | dial =>
    left
    simp [update_of_ne (Nat.ne_of_lt hlt)]
  | close => exact .inl rfl

theorem Effect.written_dialed (hlt : s.dials < t.dials) : (t.conns s.dials).written = [] := by
  cases h with
  | passes hp => exact absurd hp.dials (Nat.ne_of_gt hlt)
  | dial => simp [Conn.dialed]
  | close => exact absurd hlt (Nat.lt_irrefl _)

end

structure Traced where
  session : Session
  closeReturned : Bool
  late : List ℕ
  dispatched : List (ℕ × Envelope)

def closeReturns (s : Session) : Action → Bool
  | .close => s.conn.isNone
  | .closeConn _ => true
  | _ => false

def start (cfg : SessionConfig) : Traced := ⟨newSession cfg, false, [], []⟩

def track (x : Traced) (a : Action) (t : Session) : Traced where
  session := t
  closeReturned := x.closeReturned || closeReturns x.session a
  late := if x.closeReturned && decide (x.session.dials < t.dials) then x.session.dials :: x.late else x.late
  dispatched := x.dispatched ++ (reads x.session a).toList

def tracedStep (cfg : SessionConfig) (x : Traced) (a : Action) : Option Traced :=
  (step cfg x.session a).map (track x a)

def Awaits (p : Phase) (c : ℕ) : Prop := p = .dialed c ∨ p = .greeting c ∨ p = .failing c

theorem heard_or_awaits {p : Phase} (h : p.holds = some c) : p.heard = some c ∨ Awaits p c := by
  cases p with
  | dialed c' =>
    cases h
    exact .inr (.inl rfl)
  | greeting c' =>
    cases h
    exact .inr (.inr (.inl rfl))
  | failing c' =>
    cases h
    exact .inr (.inr (.inr rfl))
  | top | checked | dialing | shut | detached | refused | returned => cases h
  | observed | ready | opened | draining | requeue | reading | ended | unhooked => exact .inl h

def Unused (x : Traced) : Prop :=
  ∀ c ∈ x.late, (∀ env, (c, env) ∉ x.dispatched) ∧ (x.session.conns c).written = [] ∧
    ((x.session.conns c).closed = true ∨ Awaits x.session.phase c)

def Unanswered (x : Traced) (a : Action) : Prop :=
  ∀ env c, a = .hello (some env) → x.session.phase = .greeting c → c ∉ x.late

structure Inv (x : Traced) : Prop where
  owned : Owned x.session
  closing : ∀ c ∈ x.session.closing, x.session.closed = true
  returned : x.closeReturned = true → x.session.closed = true
  late : ∀ c ∈ x.late, c < x.session.dials ∧ x.session.closed = true
  written : ∀ c ∈ x.late, (x.session.conns c).written = [] ∨ ∃ env, (c, env) ∈ x.dispatched
  heard : ∀ c, x.session.phase.heard = some c → ∃ env, (c, env) ∈ x.dispatched
  named : ∀ c env, (c, env) ∈ x.dispatched → c < x.session.dials

theorem Inv.init : Inv (start cfg) := ⟨.init, nofun, nofun, nofun, nofun, nofun, nofun⟩

theorem reads_spec (h : reads s a = some (c, env)) :
    s.phase.holds = some c ∧ (s.phase.heard = some c ∨ a = .hello (some env) ∧ s.phase = .greeting c) := by
  unfold reads at h
  split at h
  next =>
    split at h <;> cases h
    next hp =>
      rw [hp]
      exact ⟨rfl, .inr ⟨rfl, rfl⟩⟩
  next =>
    split at h <;> cases h
    next hp =>
      rw [hp]
      exact ⟨rfl, .inl rfl⟩
  next => cases h

theorem closed_of_closeReturns (hc : ∀ c ∈ s.closing, s.closed = true) (h : step cfg s a = some t)
    (hr : closeReturns s a = true) (he : Effect s t) : t.closed = true := by
  unfold closeReturns at hr
  split at hr
  next =>
    cases h
    rfl
  next c => exact he.closed (hc c (ite_none_right_eq_some.mp h).1)
  next => cases hr

variable {x y : Traced}

theorem mem_dispatched_track {p : ℕ × Envelope} :
    p ∈ (track x a t).dispatched ↔ p ∈ x.dispatched ∨ reads x.session a = some p := by
  simp [track, mem_toList]

theorem mem_late_track : c ∈ (track x a t).late ↔
      c ∈ x.late ∨ c = x.session.dials ∧ x.closeReturned = true ∧ x.session.dials < t.dials := by
  simp only [track]
  split
  next h =>
    rw [Bool.and_eq_true, decide_eq_true_iff] at h
    simp [h, or_comm]
  next h =>
    rw [Bool.and_eq_true, decide_eq_true_iff] at h
    simp [h]

theorem inv_track (h : Inv x) (hstep : step cfg x.session a = some t) : Inv (track x a t) := by
  have he := effect_step h.owned hstep
  refine ⟨owned_step h.owned hstep, he.closing h.closing, ?_, ?_, ?_, ?_, ?_⟩
  · intro hr
    rcases Bool.or_eq_true_iff.mp hr with hr | hr
    · exact he.closed (h.returned hr)
    · exact closed_of_closeReturns h.closing hstep hr he
  · intro c hc
    rcases mem_late_track.mp hc with hc | ⟨rfl, hr, hlt⟩
    · exact ⟨Nat.lt_of_lt_of_le (h.late c hc).1 he.dials_le, he.closed (h.late c hc).2⟩
    · exact ⟨hlt, he.closed (h.returned hr)⟩
  · intro c hc
    have hold : c ∈ x.late → (t.conns c).written = [] ∨ ∃ env, (c, env) ∈ x.dispatched := by
      intro hc
      rcases h.written c hc with hw | hd
      · -- `Close` was called, so only `Run` past the hello can write.
        refine (he.written (h.late c hc).1).imp (·.trans hw) fun hwrites => ?_
        rcases hwrites with hheard | hopen
        · exact h.heard c hheard
        · rw [(h.late c hc).2] at hopen
          cases hopen
      · exact .inr hd
    have hnew : ∀ p, p ∈ x.dispatched → p ∈ (track x a t).dispatched :=
      fun p hp => mem_dispatched_track.mpr (.inl hp)
    rcases mem_late_track.mp hc with hc | ⟨rfl, -, hlt⟩
    · exact (hold hc).imp_right fun ⟨env, hd⟩ => ⟨env, hnew _ hd⟩
    · exact .inl (he.written_dialed hlt)
  · intro c hc
    rcases heard_step hstep hc with hc | ⟨env, hr⟩
    · obtain ⟨env, hmem⟩ := h.heard c hc
      exact ⟨env, mem_dispatched_track.mpr (.inl hmem)⟩
    · exact ⟨env, mem_dispatched_track.mpr (.inr hr)⟩
  · intro c env hmem
    rcases mem_dispatched_track.mp hmem with hmem | hr
    · exact Nat.lt_of_lt_of_le (h.named c env hmem) he.dials_le
    · exact Nat.lt_of_lt_of_le (h.owned.holds_lt c (reads_spec hr).1) he.dials_le

theorem Inv.step (hstep : tracedStep cfg x a = some y) (h : Inv x) : Inv y := by
  obtain ⟨t, ht, rfl⟩ := map_eq_some_iff.mp hstep
  exact inv_track h ht

def Silent (x : Traced) : Prop := ∀ c ∈ x.late, ∀ env, (c, env) ∉ x.dispatched

theorem unused_iff (h : Inv x) : Unused x ↔ Silent x := by
  constructor
  · exact fun hu c hc => (hu c hc).1
  · intro hs c hc
    have hnone : ¬ ∃ env, (c, env) ∈ x.dispatched := fun ⟨env, hd⟩ => hs c hc env hd
    refine ⟨hs c hc, (h.written c hc).resolve_right hnone, ?_⟩
    rcases h.owned.released c (h.late c hc).1 with hheld | hclosed
    · rcases heard_or_awaits hheld with hheard | hawaits
      · exact absurd (h.heard c hheard) hnone
      · exact .inr hawaits
    · exact .inl hclosed

theorem silent_step (x : Traced) (a : Action) (y : Traced) (h : Inv x) (hstep : tracedStep cfg x a = some y) :
    Silent y ↔ Silent x ∧ Unanswered x a := by
  obtain ⟨t, ht, rfl⟩ := map_eq_some_iff.mp hstep
  constructor
  · intro hs
    refine ⟨fun c hc env hd => ?_, ?_⟩
    · exact hs c (mem_late_track.mpr (.inl hc)) env (mem_dispatched_track.mpr (.inl hd))
    · rintro env c rfl hp hc
      refine hs c (mem_late_track.mpr (.inl hc)) env (mem_dispatched_track.mpr (.inr ?_))
      simp only [reads, hp]
  · rintro ⟨hs, hok⟩ c hc env hd
    rcases mem_late_track.mp hc with hc | ⟨rfl, -, -⟩
    · rcases mem_dispatched_track.mp hd with hd | hr
      · exact hs c hc env hd
      rcases (reads_spec hr).2 with hheard | ⟨ha, hp⟩
      · obtain ⟨env', hd⟩ := h.heard c hheard
        exact hs c hc env' hd
      · exact hok env c ha hp hc
    · -- Nothing was read from a connection before it was dialled.
      have hlt : x.session.dials < x.session.dials := by
        rcases mem_dispatched_track.mp hd with hd | hr
        · exact h.named _ env hd
        · exact h.owned.holds_lt _ (reads_spec hr).1
      exact Nat.lt_irrefl _ hlt

def Closes (cfg : SessionConfig) (x : Traced) (c : ℕ) : Prop :=
  ∃ rest y, rest ⊆ [Action.proceed, .hello none] ∧ run (tracedStep cfg) x rest = some y ∧
    (y.session.conns c).closed = true

theorem Closes.cons {a : Action} {c : ℕ} (ha : a ∈ [Action.proceed, .hello none])
    (hstep : tracedStep cfg x a = some y) (h : Closes cfg y c) : Closes cfg x c := by
  obtain ⟨rest, z, hsub, hrun, hclosed⟩ := h
  exact ⟨a :: rest, z, List.cons_subset.mpr ⟨ha, hsub⟩, run_cons hstep hrun, hclosed⟩

theorem closes_of_closed (h : (x.session.conns c).closed = true) : Closes cfg x c :=
  ⟨[], x, List.nil_subset _, rfl, h⟩

theorem closes_of_awaits (h : Awaits x.session.phase c) : Closes cfg x c := by
  have hfailing : ∀ x : Traced, x.session.phase = .failing c → Closes cfg x c := by
    intro x hp
    refine .cons (a := .proceed) (y := track x .proceed ((x.session.closeConn c).goto .shut)) List.mem_cons_self ?_
      (closes_of_closed ?_)
    · simp only [tracedStep, step, proceed, hp, map_some]
    · simp [track, Session.goto, Session.closeConn, Session.modifyConn]
  have hgreeting : ∀ x : Traced, x.session.phase = .greeting c → Closes cfg x c := by
    intro x hp
    refine .cons (a := .hello none) (y := track x (.hello none) (x.session.goto (.failing c))) (by simp) ?_
      (hfailing _ rfl)
    simp only [tracedStep, step, hp, map_some]
  rcases h with hp | hp | hp
  · refine .cons (a := .proceed) (y := track x .proceed ({ x.session with conn := some c }.goto (.greeting c)))
      List.mem_cons_self ?_ (hgreeting _ rfl)
    simp only [tracedStep, step, proceed, hp, map_some]
  · exact hgreeting x hp
  · exact hfailing x hp

theorem late_unused_iff {acts : List Action} (hrun : run (tracedStep cfg) (start cfg) acts = some x) :
    (Unused x ↔ Steps (tracedStep cfg) Unanswered (start cfg) acts x) ∧
      (Unused x → ∀ c ∈ x.late, Closes cfg x c) := by
  have hinv : Inv x := run_preserves (fun _ _ _ => Inv.step) hrun .init
  constructor
  · rw [unused_iff hinv]
    exact iff_steps_of_run_of_inv (fun _ _ _ => Inv.step) silent_step hrun .init nofun
  · intro hu c hc
    rcases (hu c hc).2.2 with hclosed | hawaits
    · exact closes_of_closed hclosed
    · exact closes_of_awaits hawaits

def closeWhileDialing : List Action :=
  [.proceed, .proceed, .close, .dial .ok, .proceed, .hello none, .proceed, .proceed, .proceed, .proceed]

theorem late_unused_unanswered :
    ∃ x, run (tracedStep ⟨0, ""⟩) (start ⟨0, ""⟩) closeWhileDialing = some x ∧ x.late = [0] ∧
      x.session.phase = .returned ∧ Steps (tracedStep ⟨0, ""⟩) Unanswered (start ⟨0, ""⟩) closeWhileDialing x := by
  obtain ⟨x, hrun, hlate, hphase, hdisp, hwritten, hclosed⟩ :
      ∃ x, run (tracedStep ⟨0, ""⟩) (start ⟨0, ""⟩) closeWhileDialing = some x ∧ x.late = [0] ∧
        x.session.phase = .returned ∧ x.dispatched = [] ∧ (x.session.conns 0).written = [] ∧
        (x.session.conns 0).closed = true := exists_run_of_any (by decide +kernel)
  refine ⟨x, hrun, hlate, hphase, (late_unused_iff hrun).1.mp fun c hc => ?_⟩
  obtain rfl : c = 0 := by simpa [hlate] using hc
  exact ⟨fun env => by simp [hdisp], hwritten, .inl hclosed⟩

def greetedAfterClose : List Action :=
  [.send ⟨"i", .userIntent "text"⟩ false, .proceed, .proceed, .close, .dial .ok, .proceed,
    .hello (some ⟨"h", .other "hello"⟩), .resume none false, .proceed, .proceed, .drain true, .proceed,
    .receive (some ⟨"e", .other "assistant.chunk"⟩)]

theorem late_connection_used : ∃ x, run (tracedStep ⟨0, ""⟩) (start ⟨0, ""⟩) greetedAfterClose = some x ∧
      x.late = [0] ∧ (x.session.conns 0).written = [⟨"i", .userIntent "text"⟩] ∧
      x.dispatched = [(0, ⟨"h", .other "hello"⟩), (0, ⟨"e", .other "assistant.chunk"⟩)] ∧
      (x.session.conns 0).closed = false ∧ ¬ Unused x := by
  obtain ⟨x, hrun, hlate, hwritten, hdisp, hclosed⟩ :
      ∃ x, run (tracedStep ⟨0, ""⟩) (start ⟨0, ""⟩) greetedAfterClose = some x ∧
        x.late = [0] ∧ (x.session.conns 0).written = [⟨"i", .userIntent "text"⟩] ∧
        x.dispatched = [(0, ⟨"h", .other "hello"⟩), (0, ⟨"e", .other "assistant.chunk"⟩)] ∧
        (x.session.conns 0).closed = false := exists_run_of_any (by decide +kernel)
  refine ⟨x, hrun, hlate, hwritten, hdisp, hclosed, fun hu => ?_⟩
  refine (hu 0 (by simp [hlate])).1 ⟨"h", .other "hello"⟩ ?_
  simp [hdisp]

end Closing

end NomadDev.Wire
