import NomadDev.WireSession

namespace NomadDev.Wire

open Foundation.Transition Function List

def Envelope.isIntent (env : Envelope) : Bool :=
  match env.body with
  | .userIntent _ => true
  | _ => false

def Phase.held : Phase → List Envelope
  | .draining _ _ pending => pending
  | .requeue _ leftover => leftover
  | _ => []

def Phase.drains : Phase → Bool
  | .draining .. | .requeue .. => true
  | _ => false

def Phase.plain : Phase → Bool
  | .dialed _ | .opened _ | .draining .. | .requeue .. => false
  | _ => true

def Session.intents (s : Session) (c : ℕ) : List Envelope := (s.conns c).written.filter Envelope.isIntent

/-- The numbers of the accepted intents: `wire` has them with their connection in the order of the writes, `held` and
`queued` wait in a drain and in the outbox, `dropped` went at the cap, `abandoned` in a drain without a connection. -/
structure Ledger where
  accepted : List Envelope
  wire : List (ℕ × ℕ)
  (held queued dropped abandoned : List ℕ)

inductive Move
  | keep
  | direct (c : ℕ) (env : Envelope)
  | queue (env : Envelope) (full : Bool)
  | take | abandon
  | write (conn : ℕ)
  | requeue

def Ledger.apply (l : Ledger) : Move → Ledger
  | .keep => l
  | .direct c env => { l with accepted := l.accepted ++ [env], wire := l.wire ++ [(c, l.accepted.length)] }
  | .queue env full => { l with
      accepted := l.accepted ++ [env]
      queued := (if full then l.queued.tail else l.queued) ++ [l.accepted.length]
      dropped := if full then l.dropped ++ l.queued.take 1 else l.dropped }
  | .take => { l with held := l.queued, queued := [] }
  | .abandon => { l with queued := [], abandoned := l.abandoned ++ l.queued }
  | .write conn => { l with wire := l.wire ++ (l.held.take 1).map fun n => (conn, n), held := l.held.tail }
  | .requeue => { l with queued := l.held ++ l.queued, held := [] }

variable {env : Envelope} {c : ℕ} {a : Action}

section Ledger

def Ledger.line (l : Ledger) : List ℕ := l.wire.map Prod.snd ++ (l.held ++ l.queued)

structure Ledger.InOrder (l : Ledger) : Prop where
  order : l.line.Pairwise (· < ·)
  named : ∀ n ∈ l.line ++ l.dropped, n < l.accepted.length
  kept : ∀ n, n < l.accepted.length → n ∈ l.line ∨ n ∈ l.dropped
  oldest : ∀ n ∈ l.dropped, ∀ m ∈ l.held ++ l.queued, n < m

def Ledger.Accounted (l : Ledger) : Prop := (l.line ++ (l.dropped ++ l.abandoned)).Perm (range l.accepted.length)

def Ledger.Legal (l : Ledger) : Move → Prop
  | .queue .. | .take | .abandon => l.held = []
  | _ => True

def Ledger.Keeps (l : Ledger) : Move → Prop
  | .direct .. => l.held ++ l.queued = []
  | .abandon => l.queued = []
  | _ => True

variable {l l' : Ledger}

section

variable (h : l.InOrder)
include h

theorem Ledger.InOrder.of_line_eq (hline : l'.line = l.line) (hacc : l'.accepted = l.accepted)
    (hdrop : l'.dropped = l.dropped) (hwait : l'.held ++ l'.queued ⊆ l.held ++ l.queued) : l'.InOrder where
  order := hline ▸ h.order
  named := by
    rw [hline, hacc, hdrop]
    exact h.named
  kept := by
    rw [hline, hacc, hdrop]
    exact h.kept
  oldest n hn m hm := h.oldest n (hdrop ▸ hn) m (hwait hm)

theorem Ledger.InOrder.of_line_append (hline : l'.line = l.line ++ [l.accepted.length])
    (hacc : l'.accepted = l.accepted ++ [env]) (hdrop : l'.dropped = l.dropped)
    (hwait : l'.held ++ l'.queued ⊆ l.held ++ l.queued ++ [l.accepted.length]) : l'.InOrder where
  order := by
    rw [hline, pairwise_append]
    refine ⟨h.order, pairwise_singleton .., fun n hn m hm => ?_⟩
    rw [mem_singleton.mp hm]
    exact h.named n (mem_append_left _ hn)
  named n hn := by
    rw [hacc, length_append, length_singleton]
    rw [hline, hdrop, append_assoc, mem_append, mem_append, mem_singleton] at hn
    rcases hn with hn | rfl | hn
    · exact Nat.lt_succ_of_lt (h.named n (mem_append_left _ hn))
    · exact Nat.lt_succ_self _
    · exact Nat.lt_succ_of_lt (h.named n (mem_append_right _ hn))
  kept n hn := by
    rw [hacc, length_append, length_singleton] at hn
    rw [hline, hdrop, mem_append, mem_singleton]
    rcases Nat.lt_succ_iff_lt_or_eq.mp hn with hlt | heq
    · exact (h.kept n hlt).imp_left .inl
    · exact .inl (.inr heq)
  oldest n hn m hm := by
    rw [hdrop] at hn
    rcases mem_append.mp (hwait hm) with hm | hm
    · exact h.oldest n hn m hm
    · rw [mem_singleton.mp hm]
      exact h.named n (mem_append_right _ hn)

theorem inOrder_direct_iff (c : ℕ) (env : Envelope) : (l.apply (.direct c env)).InOrder ↔ l.held ++ l.queued = [] := by
  constructor
  · intro h'
    by_contra hne
    obtain ⟨m, hm⟩ := exists_mem_of_ne_nil _ hne
    have hlt : m < l.accepted.length := h.named m (mem_append_left _ (mem_append_right _ hm))
    have horder := h'.order
    simp only [Ledger.line, Ledger.apply, map_append, map_cons, map_nil, append_assoc] at horder
    have hgt := rel_of_pairwise_cons (pairwise_append.mp horder).2.1 hm
    omega
  · intro hnil
    refine h.of_line_append ?_ rfl rfl ?_
    · simp [Ledger.line, Ledger.apply, hnil]
    · simp [Ledger.apply, hnil]

theorem inOrder_drop (hheld : l.held = []) :
    Ledger.InOrder { l with queued := l.queued.tail, dropped := l.dropped ++ l.queued.take 1 } := by
  cases hq : l.queued with
  | nil => exact h.of_line_eq (by simp [Ledger.line, hq]) rfl (by simp) (by simp [hq])
  | cons q qs =>
    have hline : l.line = l.wire.map Prod.snd ++ q :: qs := by simp [Ledger.line, hheld, hq]
    have horder := h.order
    rw [hline] at horder
    refine ⟨?_, ?_, ?_, ?_⟩
    · exact horder.sublist (by simp [Ledger.line, hheld])
    · intro n hn
      refine h.named n ?_
      simp only [Ledger.line, hheld, hq, mem_append, mem_cons, nil_append, tail_cons,
        take_succ_cons, take_zero, not_mem_nil, or_false] at hn ⊢
      tauto
    · intro n hn
      have hk := h.kept n hn
      simp only [Ledger.line, hheld, hq, mem_append, mem_cons, nil_append, tail_cons,
        take_succ_cons, take_zero, not_mem_nil, or_false] at hk ⊢
      tauto
    · intro n hn m hm
      simp only [hheld, nil_append, tail_cons] at hm
      rcases mem_append.mp hn with hn | hn
      · exact h.oldest n hn m (by simp [hheld, hq, hm])
      · obtain rfl : n = q := by simpa using hn
        exact rel_of_pairwise_cons (pairwise_append.mp horder).2.1 hm

theorem inOrder_queue (hheld : l.held = []) (env : Envelope) (full : Bool) : (l.apply (.queue env full)).InOrder := by
  cases full with
  | false => exact h.of_line_append (by simp [Ledger.line, Ledger.apply]) rfl rfl (by simp [Ledger.apply])
  | true =>
    exact (inOrder_drop h hheld).of_line_append (by simp [Ledger.line, Ledger.apply]) rfl rfl (by simp [Ledger.apply])

theorem inOrder_abandon_iff (hheld : l.held = []) : (l.apply .abandon).InOrder ↔ l.queued = [] := by
  constructor
  · intro h'
    by_contra hne
    obtain ⟨m, hm⟩ := exists_mem_of_ne_nil _ hne
    have hline : m ∈ l.line := by simp [Ledger.line, hm]
    have hlt : m < l.accepted.length := h.named m (mem_append_left _ hline)
    rcases h'.kept m hlt with hw | hd
    · have horder := h.order
      simp only [Ledger.line, Ledger.apply, hheld, append_nil, nil_append] at hw horder
      exact Nat.lt_irrefl m ((pairwise_append.mp horder).2.2 m hw m hm)
    · exact Nat.lt_irrefl m (h.oldest m hd m (by simp [hm]))
  · intro hq
    exact h.of_line_eq (by simp [Ledger.line, Ledger.apply, hq]) rfl rfl (by simp [Ledger.apply])

theorem inOrder_apply_iff {m : Move} (hlegal : l.Legal m) : (l.apply m).InOrder ↔ l.Keeps m := by
  cases m with
  | keep => exact iff_of_true h trivial
  | direct c env => exact inOrder_direct_iff h c env
  | queue env full => exact iff_of_true (inOrder_queue h hlegal env full) trivial
  | take =>
    refine iff_of_true (h.of_line_eq ?_ rfl rfl ?_) trivial
    · simp [Ledger.line, Ledger.apply, show l.held = [] from hlegal]
    · simp [Ledger.apply]
  | abandon => exact inOrder_abandon_iff h hlegal
  | write conn =>
    refine iff_of_true (h.of_line_eq ?_ rfl rfl ?_) trivial
    · cases hh : l.held <;> simp [Ledger.line, Ledger.apply, hh]
    · refine append_subset.mpr ⟨fun n hn => ?_, subset_append_right ..⟩
      exact mem_append_left _ (mem_of_mem_tail hn)
  | requeue =>
    refine iff_of_true (h.of_line_eq ?_ rfl rfl ?_) trivial
    · simp [Ledger.line, Ledger.apply]
    · simp [Ledger.apply]

end

theorem accounted_apply {m : Move} (hlegal : l.Legal m) (h : l.Accounted) : (l.apply m).Accounted := by
  rw [Ledger.Accounted, perm_iff_count] at h ⊢
  intro n
  have hn := h n
  have hfirst : ∀ xs : List ℕ, (xs.take 1).count n + xs.tail.count n = xs.count n := by
    intro xs
    rw [← drop_one, ← count_append, take_append_drop]
  have hheld := hfirst l.held
  have hqueued := hfirst l.queued
  cases m with
  | keep => exact hn
  | direct | write | requeue =>
    simp [Ledger.apply, Ledger.line, range_succ, count_cons, comp_def] at hn ⊢
    omega
  | queue env full =>
    cases full <;> simp [Ledger.apply, Ledger.line, range_succ, count_cons] at hn ⊢ <;> omega
  | take | abandon =>
    have hnil : l.held = [] := hlegal
    simp [Ledger.apply, Ledger.line, hnil] at hn ⊢
    omega

end Ledger

namespace Outbox

variable {cfg : SessionConfig} {s t : Session}

def directConn (s : Session) : Option ℕ :=
  match s.conn, s.status with
  | some c, .opened => some c
  | _, _ => none

def move (cfg : SessionConfig) (s : Session) : Action → Move
  | .send env written =>
    if s.closed || !env.isIntent then .keep
    else match directConn s with
      | some c => if written then .direct c env else .keep
      | none => .queue env (decide (cfg.cap ≤ s.outbox.length))
  | .drain true =>
    match s.phase with
    | .draining _ conn (_ :: _) => .write conn
    | _ => .keep
  | .proceed =>
    match s.phase with
    | .opened _ => if s.conn.isSome then .take else .abandon
    | .requeue _ _ => .requeue
    | _ => .keep
  | _ => .keep

structure Traced where
  session : Session
  ledger : Ledger

def start (cfg : SessionConfig) : Traced := ⟨newSession cfg, ⟨[], [], [], [], [], []⟩⟩

def step (cfg : SessionConfig) (x : Traced) (a : Action) : Option Traced :=
  (Wire.step cfg x.session a).map fun t => ⟨t, x.ledger.apply (move cfg x.session a)⟩

structure Inv (s : Session) : Prop where
  opened : ∀ c, s.phase = .opened c → s.status = .opened
  drains : s.phase.drains = true → s.status = .opened ∧ (s.conn.isSome = true ∨ s.closed = true)
  conn : ∀ c, s.conn = some c → c < s.dials
  dialed : ∀ c, s.phase = .dialed c → c < s.dials
  draining : ∀ c conn pending, s.phase = .draining c conn pending → conn < s.dials
  unused : ∀ c, s.dials ≤ c → s.intents c = []

theorem Inv.init : Inv (newSession cfg) := ⟨nofun, nofun, nofun, nofun, nofun, fun _ _ => rfl⟩

theorem Phase.held_of_plain {p : Phase} (h : p.plain = true) : p.held = [] := by
  cases p <;> first | rfl | cases h

theorem Phase.drains_of_plain {p : Phase} (h : p.plain = true) : p.drains = false := by
  cases p <;> first | rfl | cases h

theorem Inv.of_plain (hp : t.phase.plain = true) (hconn : ∀ c, t.conn = some c → c < t.dials)
    (hw : ∀ c, t.dials ≤ c → t.intents c = []) : Inv t where
  opened c hc := by
    rw [hc] at hp
    cases hp
  drains hdr := by
    rw [Phase.drains_of_plain hp] at hdr
    cases hdr
  conn := hconn
  dialed c hc := by
    rw [hc] at hp
    cases hp
  draining c conn pending hc := by
    rw [hc] at hp
    cases hp
  unused := hw

theorem Inv.stay (h : Inv s) (hp : t.phase = s.phase) (hs : t.status = s.status) (hd : t.dials = s.dials)
    (hconn : t.conn = s.conn) (hclosed : s.closed = true → t.closed = true)
    (hw : ∀ c, s.dials ≤ c → t.intents c = s.intents c) : Inv t where
  opened c hc := hs.trans (h.opened c (hp ▸ hc))
  drains hdr := by
    obtain ⟨ho, hc⟩ := h.drains (hp ▸ hdr)
    exact ⟨hs.trans ho, hc.imp (hconn ▸ ·) hclosed⟩
  conn c hc := hd ▸ h.conn c (hconn ▸ hc)
  dialed c hc := hd ▸ h.dialed c (hp ▸ hc)
  draining c conn pending hc := hd ▸ h.draining c conn pending (hp ▸ hc)
  unused c hc := by
    rw [hd] at hc
    exact (hw c hc).trans (h.unused c hc)

theorem intents_modifyConn (s : Session) (c : ℕ) {f : Conn → Conn} (hf : ∀ w, (f w).written = w.written) (c' : ℕ) :
    (s.modifyConn c f).intents c' = s.intents c' := by
  by_cases hc : c' = c
  · subst hc
    simp [Session.intents, Session.modifyConn, hf]
  · simp [Session.intents, Session.modifyConn, update_of_ne hc]

theorem intents_closeConn (s : Session) (c c' : ℕ) : (s.closeConn c).intents c' = s.intents c' :=
  intents_modifyConn s c (f := fun w => { w with closed := true }) (fun _ => rfl) c'

theorem intents_greet (s : Session) (c c' : ℕ) : (s.greet c).intents c' = s.intents c' :=
  intents_modifyConn s c (f := fun w => { w with greeted := some w.written }) (fun _ => rfl) c'

theorem writeEnvelope_spec (h : s.writeEnvelope c env = some t) :
    t = s.modifyConn c (fun w => { w with written := w.written ++ [env] }) ∧
      ∀ c', t.intents c' = if c' = c then s.intents c' ++ [env].filter Envelope.isIntent else s.intents c' := by
  rw [writeEnvelope_eq h]
  refine ⟨rfl, fun c' => ?_⟩
  split
  next hc =>
    subst hc
    simp [Session.intents, Session.modifyConn]
  next hc => simp [Session.intents, Session.modifyConn, update_of_ne hc]

structure Quiet (s t : Session) : Prop where
  outbox : t.outbox = s.outbox
  held : t.phase.held = s.phase.held
  intents : ∀ c, t.intents c = s.intents c

inductive Effect (s : Session) : Move → Session → Prop
  | keep {t : Session} (hq : Quiet s t) : Effect s .keep t
  | direct {t : Session} {c : ℕ} {env : Envelope} (hconn : s.conn = some c) (hintent : env.isIntent = true)
      (ho : t.outbox = s.outbox) (hh : t.phase.held = s.phase.held)
      (hw : ∀ c', t.intents c' = if c' = c then s.intents c' ++ [env] else s.intents c') : Effect s (.direct c env) t
  | queue {t : Session} {env : Envelope} {full : Bool} (hintent : env.isIntent = true) (hheld : s.phase.held = [])
      (ho : t.outbox = (if full then s.outbox.tail else s.outbox) ++ [env]) (hh : t.phase.held = [])
      (hw : ∀ c, t.intents c = s.intents c) : Effect s (.queue env full) t
  | take {t : Session} (hheld : s.phase.held = []) (ho : t.outbox = []) (hh : t.phase.held = s.outbox)
      (hw : ∀ c, t.intents c = s.intents c) : Effect s .take t
  | abandon {t : Session} (hheld : s.phase.held = []) (ho : t.outbox = []) (hh : t.phase.held = [])
      (hw : ∀ c, t.intents c = s.intents c) : Effect s .abandon t
  | write {t : Session} {conn : ℕ} {env : Envelope} (hlt : conn < s.dials) (ho : t.outbox = s.outbox)
      (hheld : s.phase.held = env :: t.phase.held)
      (hw : ∀ c, t.intents c = if c = conn then s.intents c ++ [env].filter Envelope.isIntent else s.intents c) :
      Effect s (.write conn) t
  | requeue {t : Session} (ho : t.outbox = s.phase.held ++ s.outbox) (hh : t.phase.held = [])
      (hw : ∀ c, t.intents c = s.intents c) : Effect s .requeue t

theorem keep_goto (h : Inv s) (hheld : s.phase.held = []) (hp : t.phase.plain = true)
    (hconn : ∀ c, t.conn = some c → s.conn = some c) (hd : t.dials = s.dials) (ho : t.outbox = s.outbox)
    (hw : ∀ c, t.intents c = s.intents c) : Inv t ∧ Effect s .keep t := by
  refine ⟨.of_plain hp (fun c hc => hd ▸ h.conn c (hconn c hc)) fun c hc => ?_, .keep ⟨ho, ?_, hw⟩⟩
  · rw [hd] at hc
    exact (hw c).trans (h.unused c hc)
  · rw [hheld, Phase.held_of_plain hp]

theorem keep_stay (h : Inv s) (hp : t.phase = s.phase) (hs : t.status = s.status) (hd : t.dials = s.dials)
    (hconn : t.conn = s.conn) (hclosed : s.closed = true → t.closed = true) (ho : t.outbox = s.outbox)
    (hw : ∀ c, t.intents c = s.intents c) : Inv t ∧ Effect s .keep t :=
  ⟨h.stay hp hs hd hconn hclosed fun c _ => hw c, .keep ⟨ho, by rw [hp], hw⟩⟩

theorem directConn_eq_some_iff : directConn s = some c ↔ s.conn = some c ∧ s.status = .opened := by
  unfold directConn
  split
  next c' hc ho => simp [hc, ho]
  next hnot =>
    refine ⟨nofun, ?_⟩
    rintro ⟨hc, ho⟩
    exact (hnot c hc ho).elim

theorem send_of_direct (env : Envelope) (written : Bool) (hclosed : s.closed = false) (hd : directConn s = some c) :
    send cfg s env written = if written then s.writeEnvelope c env else some s := by
  obtain ⟨hc, ho⟩ := directConn_eq_some_iff.mp hd
  simp [send, hclosed, hc, ho]

theorem send_of_queued (env : Envelope) (written : Bool) (hclosed : s.closed = false) (hd : directConn s = none) :
    send cfg s env written = if env.isIntent then
      some { s with outbox := (if cfg.cap ≤ s.outbox.length then s.outbox.tail else s.outbox) ++ [env] } else some s := by
  unfold send Envelope.isIntent
  rw [if_neg (by simp [hclosed])]
  split
  next c hc ho => cases hd.symm.trans (directConn_eq_some_iff.mpr ⟨hc, ho⟩)
  next => cases env.body <;> rfl

theorem held_of_queues (h : Inv s) (hclosed : s.closed = false) (hd : directConn s = none) : s.phase.held = [] := by
  cases hdr : s.phase.drains with
  | true =>
    obtain ⟨ho, hc⟩ := h.drains hdr
    obtain ⟨c, hc⟩ := Option.isSome_iff_exists.mp (hc.resolve_right (by simp [hclosed]))
    cases hd.symm.trans (directConn_eq_some_iff.mpr ⟨hc, ho⟩)
  | false => cases hp : s.phase <;> first | rfl | (rw [hp] at hdr; cases hdr)

theorem Inv.write (h : Inv s) {c : ℕ} {env : Envelope} (hc : c < s.dials) (hw : s.writeEnvelope c env = some t) :
    Inv t := by
  obtain ⟨hs, hi⟩ := writeEnvelope_spec hw
  have hunused : ∀ c', s.dials ≤ c' → t.intents c' = s.intents c' :=
    fun c' hc' => (hi c').trans (if_neg (Nat.ne_of_gt (Nat.lt_of_lt_of_le hc hc')))
  rw [hs] at hunused ⊢
  exact h.stay rfl rfl rfl rfl id hunused

theorem send_spec {written : Bool} (h : Inv s) (hstep : send cfg s env written = some t) :
    Inv t ∧ Effect s (move cfg s (.send env written)) t := by
  have hsame : Inv s ∧ Effect s .keep s := ⟨h, .keep ⟨rfl, rfl, fun _ => rfl⟩⟩
  cases hclosed : s.closed with
  | true =>
    have hkeep : move cfg s (.send env written) = .keep := by simp [move, hclosed]
    simp only [send, hclosed, if_true] at hstep
    cases hstep
    rwa [hkeep]
  | false =>
    cases hd : directConn s with
    | some c =>
      have hconn := (directConn_eq_some_iff.mp hd).1
      rw [send_of_direct env written hclosed hd] at hstep
      cases written with
      | true =>
        obtain ⟨hs, hw⟩ := writeEnvelope_spec hstep
        cases hi : env.isIntent with
        | true =>
          have hm : move cfg s (.send env true) = .direct c env := by simp [move, hclosed, hi, hd]
          rw [hm]
          refine ⟨h.write (h.conn c hconn) hstep, .direct hconn hi (by rw [hs]; rfl) (by rw [hs]; rfl) ?_⟩
          simpa [hi] using hw
        | false =>
          have hm : move cfg s (.send env true) = .keep := by simp [move, hi]
          rw [hm]
          refine ⟨h.write (h.conn c hconn) hstep, .keep ⟨by rw [hs]; rfl, by rw [hs]; rfl, ?_⟩⟩
          simpa [hi] using hw
      | false =>
        have hm : move cfg s (.send env false) = .keep := by simp [move, hd]
        cases hstep
        rwa [hm]
    | none =>
      rw [send_of_queued env written hclosed hd] at hstep
      cases hi : env.isIntent with
      | true =>
        have hm : move cfg s (.send env written) = .queue env (decide (cfg.cap ≤ s.outbox.length)) := by
          simp [move, hclosed, hi, hd]
        have hheld := held_of_queues h hclosed hd
        rw [if_pos hi] at hstep
        cases hstep
        rw [hm]
        refine ⟨h.stay rfl rfl rfl rfl id fun _ _ => rfl, .queue hi hheld ?_ hheld fun _ => rfl⟩
        simp
      | false =>
        have hm : move cfg s (.send env written) = .keep := by simp [move, hi]
        rw [if_neg (by simp [hi])] at hstep
        cases hstep
        rwa [hm]

theorem intents_dial (h : Inv s) (phase : Phase) (bookmark : String) (c : ℕ) : Session.intents { s with
      phase := phase, dials := s.dials + 1, conns := update s.conns s.dials (.dialed bookmark) } c = s.intents c := by
  by_cases hc : c = s.dials
  · subst hc
    rw [h.unused _ (Nat.le_refl _)]
    simp [Session.intents, Conn.dialed]
  · simp [Session.intents, update_of_ne hc]

theorem step_spec (h : Inv s) (hstep : Wire.step cfg s a = some t) : Inv t ∧ Effect s (move cfg s a) t := by
  cases moved_of_step hstep with
  | stop hp | check hp | connect hp | drained hp | finish hp | again hp | giveUp hp =>
    simp only [move, hp]
    exact keep_goto h (by rw [hp]; rfl) rfl (fun _ => id) rfl rfl fun _ => rfl
  | refuse hp | dialFails hp | hello hp | noHello hp | resumeFails hp | readFails hp =>
    exact keep_goto h (by rw [hp]; rfl) rfl (fun _ => id) rfl rfl fun _ => rfl
  | detach hp | unhook hp =>
    simp only [move, hp]
    exact keep_goto h (by rw [hp]; rfl) rfl nofun rfl rfl fun _ => rfl
  | fail hp | hangUp hp =>
    simp only [move, hp]
    exact keep_goto h (by rw [hp]; rfl) rfl (fun _ => id) rfl rfl (intents_closeConn s _)
  | publish hp =>
    simp only [move, hp]
    refine ⟨.of_plain rfl (fun c' hc => ?_) h.unused, .keep ⟨rfl, by rw [hp]; rfl, fun _ => rfl⟩⟩
    cases hc
    exact h.dialed _ hp
  | opens hp =>
    simp only [move, hp]
    exact ⟨⟨fun _ _ => rfl, nofun, h.conn, nofun, nofun, h.unused⟩, .keep ⟨rfl, by rw [hp]; rfl, fun _ => rfl⟩⟩
  | abandon hp hconn =>
    have hm : move cfg s .proceed = .abandon := by simp [move, hp, hconn]
    rw [hm]
    exact ⟨.of_plain rfl h.conn h.unused, .abandon (by rw [hp]; rfl) rfl rfl fun _ => rfl⟩
  | take hp hconn =>
    have hm : move cfg s .proceed = .take := by simp [move, hp, hconn]
    rw [hm]
    refine ⟨⟨nofun, fun _ => ?_, h.conn, nofun, ?_, h.unused⟩, .take (by rw [hp]; rfl) rfl rfl fun _ => rfl⟩
    · exact ⟨h.opened _ hp, .inl (Option.isSome_of_mem hconn)⟩
    · rintro c' conn' pending hc
      cases hc
      exact h.conn _ hconn
  | requeue hp =>
    simp only [move, hp]
    exact ⟨.of_plain rfl h.conn h.unused, .requeue (by rw [hp]; rfl) rfl fun _ => rfl⟩
  | dial hp =>
    have hsame := intents_dial h (.dialed s.dials) (lastSeen cfg s.seen)
    refine ⟨⟨nofun, nofun, fun c hc => Nat.lt_succ_of_lt (h.conn c hc), fun c hc => ?_, nofun, fun c hc => ?_⟩,
      .keep ⟨rfl, by rw [hp]; rfl, hsame⟩⟩
    · cases hc
      exact Nat.lt_succ_self _
    · exact (hsame c).trans (h.unused c (Nat.le_of_succ_le hc))
  | greet hp => exact keep_goto h (by rw [hp]; rfl) rfl (fun _ => id) rfl rfl (intents_greet s _)
  | @resume c _ _ _ _ _ u hp _ hu =>
    obtain ⟨hs, hw⟩ := writeEnvelope_spec hu
    have hsame : ∀ c', u.intents c' = s.intents c' := fun c' => (hw c').trans (by simp [Envelope.isIntent])
    refine keep_goto h (by rw [hp]; rfl) rfl ?_ ?_ ?_ fun c' => (intents_greet u c c').trans (hsame c')
    · rw [hs]
      exact fun _ => id
    · rw [hs]
      rfl
    · rw [hs]
      rfl
  | write hp hu =>
    obtain ⟨hs, hw⟩ := writeEnvelope_spec hu
    have hdr := h.drains (by rw [hp]; rfl)
    have hlt := h.draining _ _ _ hp
    have hu' := h.write hlt hu
    simp only [move, hp]
    refine ⟨⟨nofun, fun _ => ?_, hu'.conn, nofun, ?_, hu'.unused⟩, .write hlt ?_ (by rw [hp]; rfl) hw⟩
    · rw [hs]
      exact hdr
    · rintro c' conn' pending hc
      cases hc
      rw [hs]
      exact hlt
    · rw [hs]
      rfl
  | noWrite hp =>
    have hdr := h.drains (by rw [hp]; rfl)
    exact ⟨⟨nofun, fun _ => hdr, h.conn, nofun, nofun, h.unused⟩, .keep ⟨rfl, by rw [hp]; rfl, fun _ => rfl⟩⟩
  | receive | cancel => exact keep_stay h rfl rfl rfl rfl id rfl fun _ => rfl
  | queue | direct => exact send_spec h hstep
  | close =>
    exact ⟨⟨h.opened, fun hdr => ⟨(h.drains hdr).1, .inr rfl⟩, nofun, h.dialed, h.draining, h.unused⟩,
      .keep ⟨rfl, rfl, fun _ => rfl⟩⟩
  | closeConn => exact keep_stay h rfl rfl rfl rfl id rfl (intents_closeConn s _)

section Names

def Names (accepted : List Envelope) (ns : List ℕ) (es : List Envelope) : Prop :=
  ns.map (fun n => accepted[n]?) = es.map some

variable {accepted : List Envelope} {ns ms : List ℕ} {es fs : List Envelope} {env : Envelope}

section

variable (h : Names accepted ns es)
include h

theorem Names.nil_iff : ns = [] ↔ es = [] := by
  have hlen := congrArg List.length h
  simp only [length_map] at hlen
  rw [← length_eq_zero_iff, ← length_eq_zero_iff, hlen]

theorem Names.append (h' : Names accepted ms fs) : Names accepted (ns ++ ms) (es ++ fs) := by
  simp only [Names, map_append] at h h' ⊢
  rw [h, h']

theorem Names.tail : Names accepted ns.tail es.tail := by
  simp only [Names, map_tail] at h ⊢
  rw [h]

theorem Names.grow (env : Envelope) : Names (accepted ++ [env]) ns es := by
  rw [Names, ← h]
  refine map_congr_left fun n hn => ?_
  have hsome : accepted[n]? ∈ es.map some := h ▸ mem_map_of_mem hn
  obtain ⟨e, -, he⟩ := mem_map.mp hsome
  rw [List.getElem?_append_left (List.getElem?_eq_some_iff.mp he.symm).1]

end

theorem Names.last (accepted : List Envelope) (env : Envelope) : Names (accepted ++ [env]) [accepted.length] [env] := by
  simp [Names]

theorem Names.cons_inv (h : Names accepted ns (env :: es)) :
    ∃ n ms, ns = n :: ms ∧ accepted[n]? = some env ∧ Names accepted ms es := by
  cases ns with
  | nil => cases h
  | cons n ms =>
    obtain ⟨hn, hms⟩ := List.cons.inj h
    exact ⟨n, ms, rfl, hn, hms⟩

end Names

structure Tracks (x : Traced) : Prop where
  held : Names x.ledger.accepted x.ledger.held x.session.phase.held
  queued : Names x.ledger.accepted x.ledger.queued x.session.outbox
  wire : ∀ c, Names x.ledger.accepted ((x.ledger.wire.filter fun w => w.1 == c).map Prod.snd) (x.session.intents c)
  intents : ∀ env ∈ x.ledger.accepted, env.isIntent = true

section Tracks

variable {l : Ledger} {m : Move}

theorem names_wire_append {accepted : List Envelope} {wire : List (ℕ × ℕ)} {conn n : ℕ}
    {before after : ℕ → List Envelope}
    (h : ∀ c, Names accepted ((wire.filter fun w => w.1 == c).map Prod.snd) (before c))
    (hn : Names accepted [n] [env]) (hafter : ∀ c, after c = if c = conn then before c ++ [env] else before c) (c : ℕ) :
    Names accepted (((wire ++ [(conn, n)]).filter fun w => w.1 == c).map Prod.snd) (after c) := by
  rw [hafter, filter_append, map_append]
  by_cases hc : c = conn
  · subst hc
    simpa using (h c).append hn
  · simpa [hc, Ne.symm hc] using h c

theorem tracks_apply (h : Tracks ⟨s, l⟩) (he : Effect s m t) : Tracks ⟨t, l.apply m⟩ := by
  obtain ⟨hheld, hqueued, hwire, hintents⟩ := h
  have hgrown : ∀ {env : Envelope}, env.isIntent = true → ∀ e ∈ l.accepted ++ [env], e.isIntent = true := by
    intro env hi e hmem
    rcases mem_append.mp hmem with hmem | hmem
    · exact hintents e hmem
    · rwa [mem_singleton.mp hmem]
  cases he with
  | keep hq =>
    refine ⟨?_, ?_, fun c => ?_, hintents⟩
    · rw [hq.held]
      exact hheld
    · rw [hq.outbox]
      exact hqueued
    · rw [hq.intents]
      exact hwire c
  | @direct _ c env _ hi ho hh hw =>
    refine ⟨?_, ?_, ?_, hgrown hi⟩
    · rw [hh]
      exact hheld.grow env
    · rw [ho]
      exact hqueued.grow env
    · exact names_wire_append (fun c => (hwire c).grow env) (.last _ env) hw
  | @queue _ env full hi hnone ho hh hw =>
    refine ⟨?_, ?_, fun c => ?_, hgrown hi⟩
    · rw [hh, ← hnone]
      exact hheld.grow env
    · rw [ho]
      cases full with
      | false => exact (hqueued.grow env).append (.last _ env)
      | true => exact (hqueued.grow env).tail.append (.last _ env)
    · rw [hw]
      exact (hwire c).grow env
  | take _ ho hh hw =>
    refine ⟨?_, ?_, fun c => ?_, hintents⟩
    · rw [hh]
      exact hqueued
    · rw [ho]
      exact rfl
    · rw [hw]
      exact hwire c
  | abandon hnone ho hh hw =>
    refine ⟨?_, ?_, fun c => ?_, hintents⟩
    · rw [hh, ← hnone]
      exact hheld
    · rw [ho]
      exact rfl
    · rw [hw]
      exact hwire c
  | @write _ conn env _ ho hcons hw =>
    have hfirst : Names l.accepted l.held (env :: t.phase.held) := hcons ▸ hheld
    obtain ⟨n, ms, hl, hn, hms⟩ := hfirst.cons_inv
    have hone : Names l.accepted [n] [env] := by simp [Names, hn]
    have hi : env.isIntent = true := hintents env (mem_of_getElem? hn)
    refine ⟨?_, ?_, ?_, hintents⟩
    · simpa only [Ledger.apply, hl, tail_cons] using hms
    · rw [ho]
      exact hqueued
    · simp only [Ledger.apply, hl, take_succ_cons, take_zero, map_cons, map_nil]
      refine names_wire_append hwire hone ?_
      simpa [hi] using hw
  | requeue ho hh hw =>
    refine ⟨?_, ?_, fun c => ?_, hintents⟩
    · rw [hh]
      exact rfl
    · rw [ho]
      exact hheld.append hqueued
    · rw [hw]
      exact hwire c

theorem legal_of_effect (h : Tracks ⟨s, l⟩) (he : Effect s m t) : l.Legal m := by
  cases he with
  | queue _ hnone | take hnone | abandon hnone => exact h.held.nil_iff.mpr hnone
  | keep | direct | write | requeue => trivial

end Tracks

structure InTurn (s : Session) (a : Action) : Prop where
  direct : ∀ env c, a = .send env true → env.isIntent = true → s.closed = false → directConn s = some c →
    s.phase.held = [] ∧ s.outbox = []
  drain : ∀ c, a = .proceed → s.phase = .opened c → s.conn = none → s.outbox = []

theorem keeps_iff_inTurn (cfg : SessionConfig) {l : Ledger} (h : Tracks ⟨s, l⟩) (a : Action) :
    l.Keeps (move cfg s a) ↔ InTurn s a := by
  cases a with
  | send env written =>
    constructor
    · intro hk
      refine ⟨fun env' c ha hi hclosed hd => ?_, nofun⟩
      cases ha
      have hm : move cfg s (.send env true) = .direct c env := by simp [move, hclosed, hi, hd]
      rw [hm] at hk
      obtain ⟨hh, hq⟩ := append_eq_nil_iff.mp hk
      exact ⟨h.held.nil_iff.mp hh, h.queued.nil_iff.mp hq⟩
    · intro ht
      simp only [move]
      split
      next => trivial
      next hopen =>
        simp only [Bool.or_eq_true, Bool.not_eq_true', not_or, Bool.not_eq_true, Bool.not_eq_false] at hopen
        split
        next c hd =>
          split
          next hw =>
            obtain ⟨hh, hq⟩ := ht.direct env c (by rw [hw]) hopen.2 hopen.1 hd
            exact append_eq_nil_iff.mpr ⟨h.held.nil_iff.mpr hh, h.queued.nil_iff.mpr hq⟩
          next => trivial
        next => trivial
  | proceed =>
    constructor
    · intro hk
      refine ⟨nofun, fun c _ hp hconn => ?_⟩
      have hm : move cfg s .proceed = .abandon := by simp [move, hp, hconn]
      rw [hm] at hk
      exact h.queued.nil_iff.mp hk
    · intro ht
      simp only [move]
      split
      next c hp =>
        split
        next => trivial
        next hconn => exact h.queued.nil_iff.mpr (ht.drain c rfl hp (by simpa using hconn))
      next => trivial
      next => trivial
  | drain written =>
    refine iff_of_true ?_ ⟨nofun, nofun⟩
    cases written with
    | false => trivial
    | true =>
      simp only [move]
      split <;> trivial
  | dial | hello | resume | receive | cancel | close | closeConn => exact iff_of_true trivial ⟨nofun, nofun⟩

structure Fifo (x : Traced) : Prop where
  tracks : Tracks x
  inOrder : x.ledger.InOrder

theorem start_tracks (cfg : SessionConfig) : Tracks (start cfg) := ⟨rfl, rfl, fun _ => rfl, nofun⟩

theorem start_inOrder (cfg : SessionConfig) : (start cfg).ledger.InOrder := ⟨.nil, nofun, nofun, nofun⟩

theorem inv_step {x y : Traced} (h : step cfg x a = some y) (hI : Inv x.session ∧ Tracks x) :
    Inv y.session ∧ Tracks y := by
  obtain ⟨t, ht, rfl⟩ := Option.map_eq_some_iff.mp h
  obtain ⟨hinv, heff⟩ := step_spec hI.1 ht
  exact ⟨hinv, tracks_apply hI.2 heff⟩

theorem fifo_step {x y : Traced} (hI : Inv x.session ∧ Tracks x) (hx : Fifo x)
    (h : step cfg x a = some y) : Fifo y ↔ InTurn x.session a := by
  obtain ⟨t, ht, rfl⟩ := Option.map_eq_some_iff.mp h
  obtain ⟨_, heff⟩ := step_spec hI.1 ht
  rw [← keeps_iff_inTurn cfg hI.2, ← inOrder_apply_iff hx.inOrder (legal_of_effect hI.2 heff)]
  exact ⟨fun hy => hy.inOrder, fun ho => ⟨tracks_apply hI.2 heff, ho⟩⟩

theorem intents_fifo_iff (cfg : SessionConfig) {as : List Action} {x : Traced}
    (h : run (step cfg) (start cfg) as = some x) :
    Throughout (step cfg) Fifo (start cfg) as ↔ Steps (step cfg) (fun y a => InTurn y.session a) (start cfg) as x :=
  throughout_iff_steps (fun _ _ _ => inv_step) (fun _ _ _ => fifo_step) h ⟨.init, start_tracks cfg⟩
    ⟨start_tracks cfg, start_inOrder cfg⟩

theorem intents_conserved (cfg : SessionConfig) (as : List Action) :
    Throughout (step cfg) (fun x => Tracks x ∧ x.ledger.Accounted) (start cfg) as := by
  refine throughout_of_preserves (I := fun x => (Inv x.session ∧ Tracks x) ∧ x.ledger.Accounted) ?_
    (fun x hx => ⟨hx.1.2, hx.2⟩) ⟨⟨.init, start_tracks cfg⟩, .refl _⟩ as
  rintro x a y hstep ⟨hI, hacc⟩
  refine ⟨inv_step hstep hI, ?_⟩
  obtain ⟨t, ht, rfl⟩ := Option.map_eq_some_iff.mp hstep
  exact accounted_apply (legal_of_effect hI.2 (step_spec hI.1 ht).2) hacc

def demoConfig : SessionConfig := ⟨2, ""⟩

def intent (id : String) : Envelope := ⟨id, .userIntent "go"⟩

def reconnect : List Action :=
  [.send (intent "i1") false, .proceed, .proceed, .dial .ok, .proceed, .hello (some ⟨"h", .other "server.hello"⟩),
    .resume none false, .proceed]

theorem drained_then_sent_fifo : Throughout (step demoConfig) Fifo (start demoConfig)
      (reconnect ++ [.proceed, .drain true, .proceed, .send (intent "i2") true]) := by
  have hrun : run (step demoConfig) (start demoConfig)
      (reconnect ++ [.proceed, .drain true, .proceed, .send (intent "i2") true]) = some _ := rfl
  refine (intents_fifo_iff demoConfig hrun).mpr ?_
  refine .cons ⟨?_, nofun⟩ rfl (.cons ⟨nofun, ?_⟩ rfl (.cons ⟨nofun, ?_⟩ rfl (.cons ⟨nofun, nofun⟩ rfl
    (.cons ⟨nofun, ?_⟩ rfl (.cons ⟨nofun, nofun⟩ rfl (.cons ⟨nofun, nofun⟩ rfl (.cons ⟨nofun, ?_⟩ rfl
    (.cons ⟨nofun, ?_⟩ rfl (.cons ⟨nofun, nofun⟩ rfl (.cons ⟨nofun, ?_⟩ rfl (.cons ⟨?_, nofun⟩ rfl
    (.nil _))))))))))))
  · nofun
  · nofun
  · nofun
  · nofun
  · nofun
  · nofun
  · nofun
  · intro env c _ _ _ _
    exact ⟨rfl, rfl⟩

theorem overtaking_send_not_fifo : ∃ x, run (step demoConfig) (start demoConfig)
        (reconnect ++ [.send (intent "i2") true, .proceed, .drain true]) = some x ∧
      x.ledger.accepted = [intent "i1", intent "i2"] ∧ x.ledger.wire = [(0, 1), (0, 0)] ∧
      x.session.intents 0 = [intent "i2", intent "i1"] ∧ ¬ Fifo x := by
  have hrun : run (step demoConfig) (start demoConfig)
      (reconnect ++ [.send (intent "i2") true, .proceed, .drain true]) = some _ := rfl
  refine ⟨_, hrun, rfl, rfl, by decide, fun h => ?_⟩
  have horder := h.inOrder.order
  exact absurd horder (by decide)

end Outbox

end NomadDev.Wire
