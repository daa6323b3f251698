import NomadDev.WireSession

namespace NomadDev.Wire

open Foundation.Transition Function

variable {cfg : SessionConfig} {s t : Session} {c : ℕ} {env : Envelope} {a : Action}

def Conn.Resumed (w : Conn) : Prop :=
  ∀ written, w.greeted = some written → w.bookmark ≠ "" → ∃ id, written.head? = some ⟨id, .clientHello w.bookmark⟩

def Resumed (s : Session) : Prop := ∀ c, (s.conns c).Resumed

def FirstContact (s : Session) (a : Action) : Prop :=
  ∀ built written c hello, a = .resume built written → s.phase = .observed c hello → (s.conns c).bookmark = ""

def Phase.fresh : Phase → Option ℕ
  | .dialed c | .greeting c | .observed c _ => some c
  | _ => none

def Phase.offline : Phase → Bool
  | .top | .checked | .dialing | .dialed _ | .greeting _ | .observed _ _ | .ready _ => true
  | _ => false

theorem Phase.offline_of_fresh {p : Phase} (h : p.fresh = some c) : p.offline = true := by
  cases p <;> first | rfl | cases h

structure Inv (s : Session) : Prop where
  offline : s.phase.offline = true → s.status ≠ .opened
  fresh : ∀ c, s.phase.fresh = some c → c < s.dials ∧ (s.conns c).written = [] ∧ (s.conns c).greeted = none
  unused : ∀ c, s.dials ≤ c → (s.conns c).greeted = none
  heard : ∀ c hello, s.phase = .observed c hello → s.lastEvent = hello.id

theorem Inv.init : Inv (newSession cfg) := ⟨nofun, nofun, fun _ _ => rfl, nofun⟩

def SameGreetings (s t : Session) : Prop :=
  ∀ c, (t.conns c).bookmark = (s.conns c).bookmark ∧ (t.conns c).greeted = (s.conns c).greeted

theorem SameGreetings.refl (s : Session) : SameGreetings s s := fun _ => ⟨rfl, rfl⟩

theorem sameGreetings_modifyConn {f : Conn → Conn} (hb : ∀ w, (f w).bookmark = w.bookmark)
    (hg : ∀ w, (f w).greeted = w.greeted) : SameGreetings s (s.modifyConn c f) := by
  intro c'
  by_cases hc : c' = c
  · subst hc
    simp [Session.modifyConn, hb, hg]
  · simp [Session.modifyConn, update_of_ne hc]

theorem sameGreetings_closeConn : SameGreetings s (s.closeConn c) :=
  sameGreetings_modifyConn (fun _ => rfl) fun _ => rfl

theorem sameGreetings_writeEnvelope (h : s.writeEnvelope c env = some t) : SameGreetings s t := by
  rw [writeEnvelope_eq h]
  exact sameGreetings_modifyConn (fun _ => rfl) fun _ => rfl

theorem SameGreetings.resumed_iff (h : SameGreetings s t) : Resumed t ↔ Resumed s := by
  refine forall_congr' fun c => ?_
  unfold Conn.Resumed
  rw [(h c).1, (h c).2]

structure Moves (s t : Session) : Prop where
  greetings : SameGreetings s t
  dials : t.dials = s.dials
  offline : t.phase.offline = true → t.status ≠ .opened
  fresh : ∀ c, t.phase.fresh = some c → s.phase.fresh = some c ∧ (t.conns c).written = (s.conns c).written
  heard : ∀ c hello, t.phase = .observed c hello → t.lastEvent = hello.id

theorem Moves.of_online (hg : SameGreetings s t) (hd : t.dials = s.dials) (ho : t.phase.offline = false) :
    Moves s t where
  greetings := hg
  dials := hd
  offline h := by
    rw [ho] at h
    cases h
  fresh c h := by
    rw [Phase.offline_of_fresh h] at ho
    cases ho
  heard c hello h := by
    rw [h] at ho
    cases ho

theorem Moves.of_stay (h : Inv s) (hg : SameGreetings s t) (hd : t.dials = s.dials) (hp : t.phase = s.phase)
    (hs : t.status = s.status) (hl : t.lastEvent = s.lastEvent)
    (hw : ∀ c, s.phase.fresh = some c → (t.conns c).written = (s.conns c).written) : Moves s t where
  greetings := hg
  dials := hd
  offline := by
    rw [hp, hs]
    exact h.offline
  fresh c hc := by
    rw [hp] at hc
    exact ⟨hc, hw c hc⟩
  heard := by
    rw [hp, hl]
    exact h.heard

theorem Moves.inv (h : Inv s) (hm : Moves s t) : Inv t where
  offline := hm.offline
  fresh c hc := by
    obtain ⟨hfresh, hwritten⟩ := hm.fresh c hc
    rw [hm.dials, hwritten, (hm.greetings c).2]
    exact h.fresh c hfresh
  unused c hc := by
    rw [(hm.greetings c).2]
    exact h.unused c (hm.dials ▸ hc)
  heard := hm.heard

def dialled (cfg : SessionConfig) (s : Session) : Session :=
  { s with
    phase := .dialed s.dials
    dials := s.dials + 1
    conns := update s.conns s.dials (.dialed (lastSeen cfg s.seen)) }

inductive Effect (cfg : SessionConfig) (s : Session) : Action → Session → Prop
  | move {a : Action} {t : Session} : (∀ built written, a ≠ .resume built written) → Moves s t → Effect cfg s a t
  | dial : s.phase = .dialing → Effect cfg s (.dial .ok) (dialled cfg s)
  | greet {c : ℕ} {hello : Envelope} {built : Option String} {written : Bool} : s.phase = .observed c hello →
      Effect cfg s (.resume built written) ((s.greet c).goto (.ready c))

theorem direct_moves (h : Inv s) (hopened : s.status = .opened) (hw : s.writeEnvelope c env = some t) : Moves s t := by
  have hfresh : ∀ c, s.phase.fresh ≠ some c := fun c hc => h.offline (Phase.offline_of_fresh hc) hopened
  have hsame := sameGreetings_writeEnvelope hw
  rw [writeEnvelope_eq hw] at hsame ⊢
  exact .of_stay h hsame rfl rfl rfl rfl fun c hc => absurd hc (hfresh c)

theorem closeConn_moves (h : Inv s) (closing : List ℕ) : Moves s ({ s with closing := closing }.closeConn c) := by
  refine .of_stay h ?_ rfl rfl rfl rfl fun c' _ => ?_
  · exact sameGreetings_closeConn (c := c)
  · by_cases hc : c' = c
    · subst hc
      simp [Session.closeConn, Session.modifyConn]
    · simp [Session.closeConn, Session.modifyConn, update_of_ne hc]

theorem step_effect (h : Inv s) (hstep : step cfg s a = some t) : Effect cfg s a t := by
  have hsame := SameGreetings.refl s
  cases moved_of_step hstep with
  | dial hp => exact .dial hp
  | greet hp => exact .greet hp
  | check hp => exact .move nofun ⟨hsame, rfl, fun _ => h.offline (hp ▸ rfl), nofun, nofun⟩
  | connect | again => exact .move nofun ⟨hsame, rfl, nofun, nofun, nofun⟩
  | publish hp => exact .move nofun ⟨hsame, rfl, fun _ => h.offline (hp ▸ rfl), fun c' hc => ⟨hp ▸ hc, rfl⟩, nofun⟩
  | hello hp =>
    refine .move nofun ⟨hsame, rfl, fun _ => h.offline (hp ▸ rfl), fun c' hc => ⟨hp ▸ hc, rfl⟩, ?_⟩
    rintro c' hello ⟨⟩
    rfl
  | resume hp hne | resumeFails hp hne => exact absurd (h.heard _ _ hp) hne
  | write hp hw =>
    have hwrite := sameGreetings_writeEnvelope hw
    rw [writeEnvelope_eq hw] at hwrite ⊢
    exact .move nofun (.of_online hwrite rfl rfl)
  | receive hp => exact .move nofun (.of_online hsame rfl (congrArg Phase.offline hp))
  | fail hp | hangUp hp => exact .move nofun (.of_online sameGreetings_closeConn rfl rfl)
  | cancel | queue | close => exact .move nofun (.of_stay h hsame rfl rfl rfl rfl fun _ _ => rfl)
  | direct _ _ hopened hw => exact .move nofun (direct_moves h hopened hw)
  | closeConn => exact .move nofun (closeConn_moves h _)
  | stop | opens | abandon | take | drained | requeue | finish | detach | unhook | giveUp | refuse | dialFails
  | noHello | noWrite | readFails => exact .move nofun (.of_online hsame rfl rfl)

theorem Inv.step (s : Session) (a : Action) (t : Session) (hstep : step cfg s a = some t) (h : Inv s) : Inv t := by
  cases step_effect h hstep with
  | move _ hm => exact hm.inv h
  | dial hp =>
    constructor
    · intro _
      exact h.offline (hp ▸ rfl)
    · rintro c ⟨⟩
      simp [dialled, Conn.dialed]
    · intro c hc
      have hne : c ≠ s.dials := Nat.ne_of_gt hc
      have hold := h.unused c (Nat.le_of_succ_le hc)
      simpa [dialled, update_of_ne hne] using hold
    · nofun
  | @greet c hello _ _ hp =>
    have hlt := (h.fresh c (hp ▸ rfl)).1
    constructor
    · intro _
      exact h.offline (hp ▸ rfl)
    · nofun
    · intro c' hc'
      have hne : c' ≠ c := Nat.ne_of_gt (Nat.lt_of_lt_of_le hlt hc')
      have hold := h.unused c' hc'
      simpa [Session.goto, Session.greet, Session.modifyConn, update_of_ne hne] using hold
    · nofun

theorem firstContact_of_ne (ha : ∀ built written, a ≠ .resume built written) : FirstContact s a :=
  fun built written _ _ h => absurd h (ha built written)

theorem resumed_greet {hello : Envelope} (h : Inv s) (hp : s.phase = .observed c hello) :
    Resumed ((s.greet c).goto (.ready c)) ↔ Resumed s ∧ (s.conns c).bookmark = "" := by
  obtain ⟨-, hwritten, hgreeted⟩ := h.fresh c (hp ▸ rfl)
  have hself : ((s.greet c).goto (.ready c)).conns c = { s.conns c with greeted := some [] } := by
    simp [Session.goto, Session.greet, Session.modifyConn, hwritten]
  have hother : ∀ c', c' ≠ c → ((s.greet c).goto (.ready c)).conns c' = s.conns c' := by
    intro c' hc
    exact update_of_ne hc _ _
  constructor
  · intro hr
    constructor
    · intro c'
      by_cases hc : c' = c
      · subst hc
        intro written hw
        rw [hgreeted] at hw
        cases hw
      · rw [← hother c' hc]
        exact hr c'
    · by_contra hb
      have hc := hr c
      rw [hself] at hc
      obtain ⟨id, hid⟩ := hc [] rfl hb
      cases hid
  · rintro ⟨hr, hb⟩ c'
    by_cases hc : c' = c
    · subst hc
      rw [hself]
      exact fun _ _ hne => absurd hb hne
    · rw [hother c' hc]
      exact hr c'

theorem resumed_step (s : Session) (a : Action) (t : Session) (h : Inv s) (hstep : step cfg s a = some t) :
    Resumed t ↔ Resumed s ∧ FirstContact s a := by
  cases step_effect h hstep with
  | move ha hm =>
    rw [hm.greetings.resumed_iff, and_iff_left (firstContact_of_ne ha)]
  | dial hp =>
    have hfirst : FirstContact s (.dial .ok) := firstContact_of_ne nofun
    rw [and_iff_left hfirst]
    refine forall_congr' fun c => ?_
    by_cases hc : c = s.dials
    · subst hc
      have hold := h.unused s.dials (Nat.le_refl _)
      simp [dialled, Conn.Resumed, Conn.dialed, hold]
    · simp [dialled, update_of_ne hc]
  | greet hp =>
    rw [resumed_greet h hp]
    apply and_congr_right
    intro _
    constructor
    · rintro hb built written c' hello' - hp'
      cases hp.symm.trans hp'
      exact hb
    · intro hfirst
      exact hfirst _ _ _ _ rfl hp

theorem resume_hello_iff {as : List Action} (hrun : run (step cfg) (newSession cfg) as = some s) :
    Resumed s ↔ Steps (step cfg) FirstContact (newSession cfg) as s :=
  iff_steps_of_run_of_inv Inv.step resumed_step hrun Inv.init nofun

def connectRun : List Action :=
  [.proceed, .proceed, .dial .ok, .proceed, .hello (some ⟨"h", .other "hello"⟩), .resume (some "c") true]

theorem resume_hello_first_start : ∃ s, run (step ⟨0, ""⟩) (newSession ⟨0, ""⟩) connectRun = some s ∧
      (s.conns 0).written = [] ∧ Resumed s := by
  refine ⟨_, rfl, rfl, (resume_hello_iff (show run _ _ connectRun = some _ from rfl)).mpr ?_⟩
  refine .cons nofun rfl (.cons nofun rfl (.cons nofun rfl (.cons nofun rfl (.cons nofun rfl (.cons ?_ rfl (.nil _))))))
  intro built written c hello _ hphase
  cases hphase
  rfl

theorem stored_bookmark_not_sent : ∃ s, run (step ⟨0, "evt-1"⟩) (newSession ⟨0, "evt-1"⟩)
        (connectRun ++ [.proceed, .proceed, .proceed, .send ⟨"i", .userIntent "hi"⟩ true]) = some s ∧
      (s.conns 0).bookmark = "evt-1" ∧ (s.conns 0).written = [⟨"i", .userIntent "hi"⟩] ∧ ¬ Resumed s := by
  refine ⟨_, rfl, rfl, rfl, fun h => ?_⟩
  obtain ⟨id, hid⟩ := h 0 [] rfl (by decide)
  cases hid

end NomadDev.Wire
