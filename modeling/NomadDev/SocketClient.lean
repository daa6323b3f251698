import Mathlib.Algebra.Ring.Nat
import NomadDev.Foundation.PointUpdate
import NomadDev.Foundation.Transition

namespace NomadDev.Mobile

open Foundation.Transition Function Option

inductive ConnectionStatus
  | idle | connecting | open | closed | unauthorized

inductive ReadyState
  | connecting | open | closing | closed
  deriving DecidableEq

inductive Body
  | clientHello (lastEventID : Option String)
  | userIntent (text : String)
  | ping (nonce : Option String)
  | pong (nonce : Option String)
  | sessionReplaced
  | other (type : String)
  deriving DecidableEq

structure Envelope where
  id : String
  correlationID : Option String
  body : Body
  deriving DecidableEq

def outboxCap : ℕ := 64

structure ClientOptions where
  (baseBackoffMs capBackoffMs : ℕ)

structure Timer where
  (id delay : ℕ)
  deriving DecidableEq

structure Socket where
  readyState : ReadyState
  sent : List Envelope

def Socket.live (k : Socket) : Bool := k.readyState = .connecting || k.readyState = .open

structure Client where
  ws : Option ℕ
  status : ConnectionStatus
  attempts : ℕ
  retryTimer : Option ℕ
  stopped : Bool
  lastEventId : Option String
  outbox : List Envelope
  created : ℕ
  sockets : ℕ → Socket
  timers : List Timer
  nextTimer : ℕ

inductive Action
  | connect | close
  | send (env : Envelope) (throws : Bool)
  | clearOutbox
  | setLastEventId (id : Option String)
  | timer (id : ℕ)
  -- the hello's id, whether its send throws, and how many queued envelopes are sent before one throws
  | opened (i : ℕ) (id : String) (throws : Bool) (flushed : Option ℕ)
  -- what `decodeEnvelope` made of the data, and the id of a reply and whether its send throws
  | message (i : ℕ) (data : Option Envelope) (id : String) (throws : Bool)
  | error (i : ℕ)
  -- the other side or the network ends the connection; the callback comes later
  | closing (i : ℕ)
  | closed (i : ℕ) (code : ℕ)

def newClient (lastEventId : Option String) : Client where
  ws := none
  status := .idle
  attempts := 0
  retryTimer := none
  stopped := false
  lastEventId := lastEventId
  outbox := []
  created := 0
  sockets := fun _ => ⟨.closed, []⟩
  timers := []
  nextTimer := 0

namespace Client

variable (opts : ClientOptions) (c : Client)

def ready (i : ℕ) : ReadyState := (c.sockets i).readyState

def live (i : ℕ) : Bool := (c.sockets i).live

def setReady (i : ℕ) (state : ReadyState) : Client :=
  { c with sockets := update c.sockets i { c.sockets i with readyState := state } }

def transmit (i : ℕ) (env : Envelope) : Client :=
  { c with sockets := update c.sockets i { c.sockets i with sent := (c.sockets i).sent ++ [env] } }

def setStatus (status : ConnectionStatus) : Client := { c with status := status }

def clearRetry : Client :=
  match c.retryTimer with
  | some t => { c with timers := c.timers.filter (·.id ≠ t), retryTimer := none }
  | none => c

def scheduleRetry : Client :=
  let c := c.clearRetry
  let delay := min (opts.baseBackoffMs * 2 ^ c.attempts) opts.capBackoffMs
  { c with
    attempts := c.attempts + 1
    timers := c.timers ++ [⟨c.nextTimer, delay⟩]
    retryTimer := some c.nextTimer
    nextTimer := c.nextTimer + 1 }

def openSocket : Client :=
  if c.stopped then c
  else { c.setStatus .connecting with
    ws := some c.created
    created := c.created + 1
    sockets := update c.sockets c.created ⟨.connecting, []⟩ }

def connect : Client := { c with stopped := false }.openSocket

def hangUp (i : ℕ) : Client := if c.live i then c.setReady i .closing else c

def close : Client :=
  let c := { c with stopped := true }.clearRetry
  let c := match c.ws with
    | some i => { c.hangUp i with ws := none }
    | none => c
  c.setStatus .idle

def openWs : Option ℕ := c.ws.filter fun i => c.ready i = .open

def send (env : Envelope) (throws : Bool) : Client × Bool :=
  match c.openWs with
  | some i => if throws then (c, false) else (c.transmit i env, true)
  | none =>
    match env.body with
    | .userIntent _ =>
      if c.outbox.length < outboxCap then ({ c with outbox := c.outbox ++ [env] }, true) else (c, false)
    | _ => (c, false)

def flushOutbox (flushed : Option ℕ) : Client :=
  match c.openWs with
  | none => c
  | some i =>
    let sent := flushed.getD c.outbox.length
    let left := match c.outbox[sent]? with
      | some env => c.outbox.drop (c.outbox.idxOf env)
      | none => []
    (c.outbox.take sent).foldl (fun c env => c.transmit i env) { c with outbox := left }

def onopen (i : ℕ) (id : String) (throws : Bool) (flushed : Option ℕ) : Client :=
  let c := { c with attempts := 0 }.setStatus .open
  let hello : Envelope := ⟨id, none, .clientHello c.lastEventId⟩
  let c := if throws then c else c.transmit i hello
  c.flushOutbox flushed

def reply (env : Envelope) (id : String) : Option Envelope :=
  match env.body with
  | .ping nonce => some ⟨id, some env.id, .pong nonce⟩
  | _ => none

def onmessage (data : Option Envelope) (id : String) (throws : Bool) : Client :=
  match data with
  | none => c
  | some env =>
    let c := match reply env id with
      | some out => (c.send out throws).1
      | none => c
    { c with lastEventId := some env.id }

def rejects (code : ℕ) : Bool := code = 1008 || code = 4401

def onclose (code : ℕ) : Client :=
  let c := { c with ws := none }
  if rejects code then c.setStatus .unauthorized
  else if c.stopped then c.setStatus .idle
  else (c.setStatus .closed).scheduleRetry opts

end Client

def step (opts : ClientOptions) (c : Client) : Action → Option Client
  | .connect => some c.connect
  | .close => some c.close
  | .send env throws => some (c.send env throws).1
  | .clearOutbox => some { c with outbox := [] }
  | .setLastEventId id => some { c with lastEventId := id }
  | .timer id =>
    if id ∈ c.timers.map Timer.id then some { c with timers := c.timers.filter (·.id ≠ id) }.openSocket else none
  | .opened i id throws flushed =>
    if c.ready i = .connecting then some ((c.setReady i .open).onopen i id throws flushed) else none
  | .message i data id throws =>
    if c.ready i = .open ∨ c.ready i = .closing then some (c.onmessage data id throws) else none
  | .error i => if c.ready i = .closed then none else some c
  | .closing i => if c.live i then some (c.setReady i .closing) else none
  | .closed i code => if c.ready i = .closed then none else some ((c.setReady i .closed).onclose opts code)

variable {i : ℕ} {a : Action}

section Frames

variable {c d e : Client}

structure Quiet (c d : Client) : Prop where
  ws : d.ws = c.ws
  attempts : d.attempts = c.attempts
  retryTimer : d.retryTimer = c.retryTimer
  stopped : d.stopped = c.stopped
  created : d.created = c.created
  timers : d.timers = c.timers
  ready : ∀ i, d.ready i = c.ready i

theorem Quiet.refl (c : Client) : Quiet c c := ⟨rfl, rfl, rfl, rfl, rfl, rfl, fun _ => rfl⟩

theorem Quiet.trans (h : Quiet c d) (h' : Quiet d e) : Quiet c e where
  ws := h'.ws.trans h.ws
  attempts := h'.attempts.trans h.attempts
  retryTimer := h'.retryTimer.trans h.retryTimer
  stopped := h'.stopped.trans h.stopped
  created := h'.created.trans h.created
  timers := h'.timers.trans h.timers
  ready i := (h'.ready i).trans (h.ready i)

theorem quiet_transmit (c : Client) (i : ℕ) (env : Envelope) : Quiet c (c.transmit i env) := by
  refine ⟨rfl, rfl, rfl, rfl, rfl, rfl, ?_⟩
  exact Foundation.PointUpdate.update_of_forall (P := fun j (k : Socket) => k.readyState = c.ready j) rfl fun _ _ => rfl

theorem quiet_foldl (i : ℕ) (envs : List Envelope) (c : Client) :
    Quiet c (envs.foldl (fun c env => c.transmit i env) c) := by
  induction envs generalizing c with
  | nil => exact .refl c
  | cons env envs ih => exact (quiet_transmit c i env).trans (ih _)

theorem quiet_send (c : Client) (env : Envelope) (throws : Bool) : Quiet c (c.send env throws).1 := by
  unfold Client.send
  split
  next i _ =>
    split
    · exact .refl c
    · exact quiet_transmit c i env
  next =>
    split
    next =>
      split
      · exact ⟨rfl, rfl, rfl, rfl, rfl, rfl, fun _ => rfl⟩
      · exact .refl c
    next => exact .refl c

theorem quiet_flushOutbox (c : Client) (flushed : Option ℕ) : Quiet c (c.flushOutbox flushed) := by
  unfold Client.flushOutbox
  split
  next => exact .refl c
  next i _ =>
    dsimp only
    refine Quiet.trans ?_ (quiet_foldl i _ _)
    exact ⟨rfl, rfl, rfl, rfl, rfl, rfl, fun _ => rfl⟩

theorem quiet_onopen (c : Client) (i : ℕ) (id : String) (throws : Bool) (flushed : Option ℕ) :
    Quiet { c with attempts := 0 } (c.onopen i id throws flushed) := by
  unfold Client.onopen
  refine Quiet.trans ?_ (quiet_flushOutbox _ flushed)
  split
  · exact ⟨rfl, rfl, rfl, rfl, rfl, rfl, fun _ => rfl⟩
  · exact Quiet.trans (d := { c with attempts := 0 }.setStatus .open)
      ⟨rfl, rfl, rfl, rfl, rfl, rfl, fun _ => rfl⟩ (quiet_transmit _ i _)

theorem quiet_onmessage (c : Client) (data : Option Envelope) (id : String) (throws : Bool) :
    Quiet c (c.onmessage data id throws) := by
  unfold Client.onmessage
  split
  next => exact .refl c
  next env =>
    refine Quiet.trans (d := match Client.reply env id with
      | some out => (c.send out throws).1
      | none => c) ?_ ⟨rfl, rfl, rfl, rfl, rfl, rfl, fun _ => rfl⟩
    split
    · exact quiet_send c _ throws
    · exact .refl c

theorem ready_setReady (c : Client) (i j : ℕ) (state : ReadyState) :
    (c.setReady i state).ready j = if j = i then state else c.ready j := by
  split
  next h =>
    subst h
    simp [Client.setReady, Client.ready]
  next h => simp [Client.setReady, Client.ready, update_of_ne h]

theorem live_iff : c.live i = true ↔ c.ready i = .connecting ∨ c.ready i = .open := by
  simp [Client.live, Socket.live, Client.ready]

theorem Quiet.live (h : Quiet c d) (i : ℕ) : d.live i = c.live i := by
  rw [Bool.eq_iff_iff, live_iff, live_iff, h.ready]

theorem live_setReady {j : ℕ} {state : ReadyState} (hstate : state = .closing ∨ state = .closed) :
    (c.setReady i state).live j = true ↔ j ≠ i ∧ c.live j = true := by
  rw [live_iff, live_iff, ready_setReady]
  split
  next h => rcases hstate with rfl | rfl <;> simp [h]
  next h => simp [h]

structure Inv (c : Client) : Prop where
  newest : ∀ i, c.ws = some i → i + 1 = c.created
  fresh : ∀ i, c.created ≤ i → c.ready i = .closed
  timers : ∀ t ∈ c.timers, c.retryTimer = some t.id
  stopped : c.stopped = true → c.timers = []

theorem Inv.init (lastEventId : Option String) : Inv (newClient lastEventId) :=
  ⟨nofun, fun _ _ => rfl, nofun, fun _ => rfl⟩

theorem Inv.of_quiet (h : Inv c) (hq : Quiet c d) : Inv d where
  newest i hi := by
    rw [hq.created]
    exact h.newest i (hq.ws ▸ hi)
  fresh i hi := by
    rw [hq.ready]
    exact h.fresh i (hq.created ▸ hi)
  timers t ht := by
    rw [hq.retryTimer]
    exact h.timers t (hq.timers ▸ ht)
  stopped hs := by
    rw [hq.timers]
    exact h.stopped (hq.stopped ▸ hs)

theorem Inv.setReady (h : Inv c) (hi : i < c.created) (state : ReadyState) : Inv (c.setReady i state) where
  newest := h.newest
  fresh j hj := by
    rw [ready_setReady, if_neg (Nat.ne_of_gt (Nat.lt_of_lt_of_le hi hj))]
    exact h.fresh j hj
  timers := h.timers
  stopped := h.stopped

theorem Inv.lt_created (h : Inv c) (hi : c.ready i ≠ .closed) : i < c.created := by
  by_contra hge
  exact hi (h.fresh i (Nat.not_lt.mp hge))

theorem Inv.lt_of_live (h : Inv c) (hi : c.live i = true) : i < c.created := by
  refine h.lt_created fun hclosed => ?_
  rcases live_iff.mp hi with hc | hc <;> exact nomatch hc.symm.trans hclosed

theorem clearRetry_timers (h : ∀ t ∈ c.timers, c.retryTimer = some t.id) : c.clearRetry.timers = [] := by
  unfold Client.clearRetry
  split
  next t ht =>
    refine List.filter_eq_nil_iff.mpr fun u hu => ?_
    have hid : t = u.id := Option.some.inj (ht.symm.trans (h u hu))
    simp [hid]
  next hnone =>
    refine List.eq_nil_iff_forall_not_mem.mpr fun u hu => ?_
    exact nomatch hnone.symm.trans (h u hu)

theorem clearRetry_frame (c : Client) : c.clearRetry.ws = c.ws ∧ c.clearRetry.created = c.created ∧
    c.clearRetry.sockets = c.sockets ∧ c.clearRetry.stopped = c.stopped ∧ c.clearRetry.attempts = c.attempts := by
  unfold Client.clearRetry
  split <;> exact ⟨rfl, rfl, rfl, rfl, rfl⟩

theorem ready_openSocket (hs : c.stopped = false) (j : ℕ) :
    c.openSocket.ready j = if j = c.created then .connecting else c.ready j := by
  unfold Client.openSocket
  rw [if_neg (by simp [hs])]
  split
  next h =>
    subst h
    simp [Client.ready]
  next h => simp [Client.ready, update_of_ne h]

theorem Inv.openSocket (h : Inv c) : Inv c.openSocket := by
  cases hs : c.stopped with
  | true =>
    rw [Client.openSocket, if_pos hs]
    exact h
  | false =>
    have hready := ready_openSocket hs
    unfold Client.openSocket at hready ⊢
    rw [if_neg (by simp [hs])] at hready ⊢
    refine ⟨fun i hi => ?_, fun i hi => ?_, h.timers, h.stopped⟩
    · cases hi
      rfl
    · rw [hready, if_neg (Nat.ne_of_gt hi)]
      exact h.fresh i (Nat.le_of_succ_le hi)

theorem Inv.connect (h : Inv c) : Inv c.connect :=
  Inv.openSocket (c := { c with stopped := false }) ⟨h.newest, h.fresh, h.timers, nofun⟩

theorem ready_hangUp (c : Client) (i j : ℕ) :
    (c.hangUp i).ready j = if j = i ∧ c.live i = true then .closing else c.ready j := by
  unfold Client.hangUp
  split
  next h => simp [ready_setReady, h]
  next h => simp [h]

theorem hangUp_frame (c : Client) (i : ℕ) : (c.hangUp i).created = c.created ∧ (c.hangUp i).stopped = c.stopped ∧
    (c.hangUp i).timers = c.timers := by
  unfold Client.hangUp
  split <;> exact ⟨rfl, rfl, rfl⟩

structure Torn (c d : Client) : Prop where
  ws : d.ws = none
  stopped : d.stopped = true
  timers : d.timers = []
  created : d.created = c.created
  ready : ∀ j, d.ready j = if c.ws = some j ∧ c.live j = true then .closing else c.ready j

theorem torn_close (h : Inv c) : Torn c c.close := by
  have htimers : ({ c with stopped := true } : Client).clearRetry.timers = [] := clearRetry_timers h.timers
  obtain ⟨hws, hcreated, hsockets, hstopped, -⟩ := clearRetry_frame { c with stopped := true }
  have hready : ∀ j, ({ c with stopped := true } : Client).clearRetry.ready j = c.ready j := by
    intro j
    rw [Client.ready, hsockets, Client.ready]
  have hlive : ∀ j, ({ c with stopped := true } : Client).clearRetry.live j = c.live j := by
    intro j
    rw [Client.live, hsockets, Client.live]
  unfold Client.close
  dsimp only
  split
  next i hi =>
    rw [hws] at hi
    obtain ⟨hc, hs, ht⟩ := hangUp_frame ({ c with stopped := true } : Client).clearRetry i
    refine ⟨rfl, hs.trans hstopped, ht.trans htimers, hc.trans hcreated, fun j => ?_⟩
    refine (ready_hangUp _ i j).trans ?_
    rw [hlive, hready]
    by_cases hj : j = i
    · subst hj
      simp [show c.ws = some j from hi]
    · simp [show c.ws = some i from hi, hj, Ne.symm hj]
  next hi =>
    rw [hws] at hi
    refine ⟨hws.trans hi, hstopped, htimers, hcreated, fun j => (hready j).trans ?_⟩
    simp [show c.ws = none from hi]

theorem Torn.live (h : Torn c d) {j : ℕ} : d.live j = true ↔ c.live j = true ∧ c.ws ≠ some j := by
  rw [live_iff, h.ready]
  split
  next hc => simp [hc]
  next hc =>
    rw [← live_iff]
    exact ⟨fun hl => ⟨hl, fun hw => hc ⟨hw, hl⟩⟩, And.left⟩

theorem Inv.of_torn (h : Inv c) (ht : Torn c d) : Inv d where
  newest i hi := nomatch ht.ws.symm.trans hi
  fresh i hi := by
    rw [ht.created] at hi
    rw [ht.ready, if_neg fun hc => Nat.not_lt.mpr hi (h.lt_of_live hc.2)]
    exact h.fresh i hi
  timers t hm := by
    rw [ht.timers] at hm
    cases hm
  stopped _ := ht.timers

structure Scheduled (c d : Client) : Prop where
  ws : d.ws = c.ws
  stopped : d.stopped = c.stopped
  created : d.created = c.created
  ready : ∀ j, d.ready j = c.ready j
  attempts : d.attempts = c.attempts + 1
  timers : ∃ t, d.timers = [t] ∧ d.retryTimer = some t.id

theorem scheduled_scheduleRetry (opts : ClientOptions) (h : Inv c) : Scheduled c (c.scheduleRetry opts) := by
  obtain ⟨hws, hcreated, hsockets, hstopped, hattempts⟩ := clearRetry_frame c
  refine ⟨hws, hstopped, hcreated, fun j => ?_, congrArg (· + 1) hattempts, ?_⟩
  · rw [Client.ready, Client.ready, ← hsockets]
    rfl
  · refine ⟨⟨c.clearRetry.nextTimer, min (opts.baseBackoffMs * 2 ^ c.clearRetry.attempts) opts.capBackoffMs⟩, ?_, rfl⟩
    simp only [Client.scheduleRetry, clearRetry_timers h.timers, List.nil_append]

theorem Inv.of_scheduled (h : Inv c) (hs : c.stopped = false) (hd : Scheduled c d) : Inv d where
  newest i hi := by
    rw [hd.created]
    exact h.newest i (hd.ws ▸ hi)
  fresh i hi := by
    rw [hd.ready]
    exact h.fresh i (hd.created ▸ hi)
  timers t ht := by
    obtain ⟨u, hu, hr⟩ := hd.timers
    rw [hu, List.mem_singleton] at ht
    rw [ht]
    exact hr
  stopped hst := by
    rw [hd.stopped, hs] at hst
    cases hst

theorem onclose_cases (opts : ClientOptions) (h : Inv c) (code : ℕ) :
    Quiet { c with ws := none } (c.onclose opts code) ∧ (Client.rejects code = true ∨ c.stopped = true) ∨
      Scheduled { c with ws := none } (c.onclose opts code) ∧ Client.rejects code = false ∧ c.stopped = false := by
  unfold Client.onclose
  dsimp only
  split
  next hr => exact .inl ⟨⟨rfl, rfl, rfl, rfl, rfl, rfl, fun _ => rfl⟩, .inl hr⟩
  next hr =>
    split
    next hs => exact .inl ⟨⟨rfl, rfl, rfl, rfl, rfl, rfl, fun _ => rfl⟩, .inr hs⟩
    next hs =>
      refine .inr ⟨?_, Bool.eq_false_iff.mpr hr, Bool.eq_false_iff.mpr hs⟩
      have hd := scheduled_scheduleRetry (c := ({ c with ws := none } : Client).setStatus .closed) opts
        ⟨nofun, h.fresh, h.timers, h.stopped⟩
      exact ⟨hd.ws, hd.stopped, hd.created, hd.ready, hd.attempts, hd.timers⟩

theorem Inv.onclose (opts : ClientOptions) (h : Inv c) (code : ℕ) : Inv (c.onclose opts code) := by
  have hnone : Inv { c with ws := none } := ⟨nofun, h.fresh, h.timers, h.stopped⟩
  rcases onclose_cases opts h code with ⟨hq, -⟩ | ⟨hd, -, hs⟩
  · exact hnone.of_quiet hq
  · exact hnone.of_scheduled hs hd

theorem Inv.step {opts : ClientOptions} (hstep : step opts c a = some d) (h : Inv c) : Inv d := by
  cases a with
  | connect =>
    cases hstep
    exact h.connect
  | close =>
    cases hstep
    exact h.of_torn (torn_close h)
  | send env throws =>
    cases hstep
    exact h.of_quiet (quiet_send c env throws)
  | clearOutbox | setLastEventId id =>
    cases hstep
    exact ⟨h.newest, h.fresh, h.timers, h.stopped⟩
  | timer id =>
    obtain ⟨-, heq⟩ := ite_none_right_eq_some.mp hstep
    cases heq
    refine Inv.openSocket ⟨h.newest, h.fresh, fun t ht => ?_, fun hs => ?_⟩
    · exact h.timers t (List.mem_of_mem_filter ht)
    · dsimp only
      rw [h.stopped hs, List.filter_nil]
  | opened i id throws flushed =>
    obtain ⟨hready, heq⟩ := ite_none_right_eq_some.mp hstep
    cases heq
    have hset : Inv (c.setReady i .open) := h.setReady (h.lt_created (by rw [hready]; exact nofun)) .open
    exact Inv.of_quiet (c := { c.setReady i .open with attempts := 0 })
      ⟨hset.newest, hset.fresh, hset.timers, hset.stopped⟩ (quiet_onopen _ i id throws flushed)
  | message i data id throws =>
    obtain ⟨-, heq⟩ := ite_none_right_eq_some.mp hstep
    cases heq
    exact h.of_quiet (quiet_onmessage c data id throws)
  | error i =>
    obtain ⟨-, heq⟩ := ite_none_left_eq_some.mp hstep
    cases heq
    exact h
  | closing i =>
    obtain ⟨hlive, heq⟩ := ite_none_right_eq_some.mp hstep
    cases heq
    exact h.setReady (h.lt_of_live hlive) .closing
  | closed i code =>
    obtain ⟨hready, heq⟩ := ite_none_left_eq_some.mp hstep
    cases heq
    exact (h.setReady (h.lt_created hready) .closed).onclose opts code

end Frames

namespace Sockets

def callback : Action → Option ℕ
  | .opened i _ _ _ | .message i _ _ _ | .error i | .closed i _ => some i
  | _ => none

variable (c : Client)

def schedule : Option ℕ × List Timer × ℕ := (c.retryTimer, c.timers, c.attempts)

def disturbs (a : Action) (d : Client) : Bool :=
  match callback a with
  | some i => decide (i + 1 < c.created) && (decide (d.ws ≠ c.ws) || decide (schedule d ≠ schedule c))
  | none => false

structure Traced where
  client : Client
  disturbed : Bool

def start (lastEventId : Option String) : Traced := ⟨newClient lastEventId, false⟩

def tracedStep (opts : ClientOptions) (x : Traced) (a : Action) : Option Traced :=
  (step opts x.client a).map fun d => ⟨d, x.disturbed || disturbs x.client a d⟩

structure Sound (x : Traced) : Prop where
  one : ∀ i j, x.client.live i = true → x.client.live j = true → i = j
  ws : ∀ i, x.client.live i = true → x.client.ws = some i
  calm : x.disturbed = false

def Orderly : Action → Prop
  | .connect | .timer _ => ∀ i < c.created, c.live i = false
  | .closed i code => i + 1 = c.created ∨ c.ws = none ∧ (Client.rejects code = true ∨ c.stopped = true)
  | _ => True

instance (c : Client) : (a : Action) → Decidable (Orderly c a)
  | .connect => inferInstanceAs (Decidable (∀ i < c.created, c.live i = false))
  | .timer _ => inferInstanceAs (Decidable (∀ i < c.created, c.live i = false))
  | .closed i code =>
    inferInstanceAs (Decidable (i + 1 = c.created ∨ c.ws = none ∧ (Client.rejects code = true ∨ c.stopped = true)))
  | .close | .send .. | .clearOutbox | .setLastEventId _ | .opened .. | .message .. | .error _ | .closing _ =>
    inferInstanceAs (Decidable True)

def Exclusive : Prop := ∀ i, c.live i = true → c.ws = some i

theorem sound_iff {x : Traced} : Sound x ↔ Exclusive x.client ∧ x.disturbed = false := by
  constructor
  · exact fun h => ⟨h.ws, h.calm⟩
  · rintro ⟨hx, hcalm⟩
    exact ⟨fun i j hi hj => Option.some.inj ((hx i hi).symm.trans (hx j hj)), hx, hcalm⟩

variable {c d : Client} {opts : ClientOptions}

theorem exclusive_openSocket_iff (h : Inv c) (hs : c.stopped = false) :
    Exclusive c.openSocket ↔ ∀ i < c.created, c.live i = false := by
  have hws : c.openSocket.ws = some c.created := by
    rw [Client.openSocket, if_neg (by simp [hs])]
  have hlive : ∀ j, c.openSocket.live j = true ↔ j = c.created ∨ c.live j = true := by
    intro j
    rw [live_iff, live_iff, ready_openSocket hs]
    split
    next hj => simp [hj]
    next hj => simp [hj]
  constructor
  · intro hx i hi
    rw [← Bool.not_eq_true]
    intro hl
    have heq := hws.symm.trans (hx i ((hlive i).mpr (.inr hl)))
    exact Nat.ne_of_lt hi (Option.some.inj heq).symm
  · intro hidle i hi
    rcases (hlive i).mp hi with rfl | hl
    · exact hws
    · rw [hidle i (h.lt_of_live hl)] at hl
      cases hl

theorem Exclusive.of_quiet (h : Exclusive c) (hq : Quiet c d) : Exclusive d := by
  intro i hi
  rw [hq.ws]
  exact h i (hq.live i ▸ hi)

theorem schedule_eq_of_quiet (hq : Quiet c d) : schedule d = schedule c := by
  rw [schedule, schedule, hq.retryTimer, hq.timers, hq.attempts]

theorem not_disturbs_of_eq (hws : d.ws = c.ws) (hsched : schedule d = schedule c) : disturbs c a d = false := by
  unfold disturbs
  split <;> simp [hws, hsched]

theorem not_disturbs_newest (ha : callback a = some i) (hi : i + 1 = c.created) : disturbs c a d = false := by
  simp [disturbs, ha, hi]

theorem orderly_closed {code : ℕ} (h : Inv c) (hx : Exclusive c) (hready : c.ready i ≠ .closed) :
    Exclusive ((c.setReady i .closed).onclose opts code) ∧
        disturbs c (.closed i code) ((c.setReady i .closed).onclose opts code) = false ↔
      i + 1 = c.created ∨ c.ws = none ∧ (Client.rejects code = true ∨ c.stopped = true) := by
  have hlt : i < c.created := h.lt_created hready
  have hend := onclose_cases opts (h.setReady hlt .closed) code
  have hws : ((c.setReady i .closed).onclose opts code).ws = none := by
    rcases hend with ⟨hq, -⟩ | ⟨hd, -⟩
    · exact hq.ws
    · exact hd.ws
  have hlive : ∀ j, ((c.setReady i .closed).onclose opts code).live j = true → j ≠ i ∧ c.live j = true := by
    intro j hj
    refine (live_setReady (.inr rfl)).mp ?_
    rw [live_iff] at hj ⊢
    rcases hend with ⟨hq, -⟩ | ⟨hd, -⟩
    · exact hq.ready j ▸ hj
    · exact hd.ready j ▸ hj
  by_cases hi : i + 1 = c.created
  · refine iff_of_true ⟨fun j hj => ?_, not_disturbs_newest rfl hi⟩ (.inl hi)
    have hj' := hlive j hj
    have hnew := h.newest j (hx j hj'.2)
    omega
  · have hold : i + 1 < c.created := Nat.lt_of_le_of_ne hlt hi
    constructor
    · rintro ⟨-, hcalm⟩
      simp only [disturbs, callback, hold, decide_true, Bool.true_and, Bool.or_eq_false_iff,
        decide_eq_false_iff_not, not_not] at hcalm
      refine .inr ⟨hcalm.1.symm.trans hws, ?_⟩
      rcases hend with ⟨-, hr⟩ | ⟨hd, -⟩
      · exact hr
      · -- A retry that was scheduled shows in the number of attempts.
        have hattempts := congrArg (fun p => p.2.2) hcalm.2
        exact absurd (hd.attempts.symm.trans hattempts) (Nat.succ_ne_self _)
    · rintro (hnew | ⟨hnone, hr⟩)
      · exact absurd hnew hi
      · refine ⟨fun j hj => ?_, ?_⟩
        · exact nomatch hnone.symm.trans (hx j (hlive j hj).2)
        · rcases hend with ⟨hq, -⟩ | ⟨-, hr', hs⟩
          · have hsched := schedule_eq_of_quiet hq
            exact not_disturbs_of_eq (hws.trans hnone.symm) hsched
          · rcases hr with hr | hr
            · exact nomatch hr'.symm.trans hr
            · exact nomatch hs.symm.trans hr

theorem orderly_opened {id : String} {throws : Bool} {flushed : Option ℕ} (h : Inv c) (hx : Exclusive c)
    (hready : c.ready i = .connecting) :
    Exclusive ((c.setReady i .open).onopen i id throws flushed) ∧
      disturbs c (.opened i id throws flushed) ((c.setReady i .open).onopen i id throws flushed) = false := by
  have hq := quiet_onopen (c.setReady i .open) i id throws flushed
  have hws : c.ws = some i := hx i (live_iff.mpr (.inl hready))
  refine ⟨fun j hj => ?_, not_disturbs_newest rfl (h.newest i hws)⟩
  rw [hq.ws]
  by_cases hj' : j = i
  · rw [hj']
    exact hws
  · refine hx j (live_iff.mpr ?_)
    have hready' : (c.setReady i .open).ready j = c.ready j := by rw [ready_setReady, if_neg hj']
    rw [← hready']
    exact live_iff.mp (hq.live j ▸ hj)

theorem orderly_step (h : Inv c) (hx : Exclusive c) (hstep : step opts c a = some d) :
    Exclusive d ∧ disturbs c a d = false ↔ Orderly c a := by
  cases a with
  | connect =>
    cases hstep
    refine (and_iff_left rfl).trans ?_
    exact exclusive_openSocket_iff (c := { c with stopped := false }) ⟨h.newest, h.fresh, h.timers, nofun⟩ rfl
  | close =>
    cases hstep
    have ht := torn_close h
    refine iff_of_true ⟨fun i hi => ?_, rfl⟩ trivial
    obtain ⟨hl, hne⟩ := ht.live.mp hi
    exact absurd (hx i hl) hne
  | send env throws =>
    cases hstep
    exact iff_of_true ⟨hx.of_quiet (quiet_send c env throws), rfl⟩ trivial
  | clearOutbox | setLastEventId id =>
    cases hstep
    exact iff_of_true ⟨hx, rfl⟩ trivial
  | timer id =>
    obtain ⟨hmem, heq⟩ := ite_none_right_eq_some.mp hstep
    cases heq
    have hs : c.stopped = false := by
      rw [← Bool.not_eq_true]
      intro hs
      rw [h.stopped hs] at hmem
      cases hmem
    refine (and_iff_left rfl).trans ?_
    refine exclusive_openSocket_iff (c := { c with timers := c.timers.filter (·.id ≠ id) })
      ⟨h.newest, h.fresh, fun t ht => h.timers t (List.mem_of_mem_filter ht), fun hst => ?_⟩ hs
    exact nomatch hs.symm.trans hst
  | opened i id throws flushed =>
    obtain ⟨hready, heq⟩ := ite_none_right_eq_some.mp hstep
    cases heq
    exact iff_of_true (orderly_opened h hx hready) trivial
  | message i data id throws =>
    obtain ⟨-, heq⟩ := ite_none_right_eq_some.mp hstep
    cases heq
    have hq := quiet_onmessage c data id throws
    exact iff_of_true ⟨hx.of_quiet hq, not_disturbs_of_eq hq.ws (schedule_eq_of_quiet hq)⟩ trivial
  | error i =>
    obtain ⟨-, heq⟩ := ite_none_left_eq_some.mp hstep
    cases heq
    exact iff_of_true ⟨hx, not_disturbs_of_eq rfl rfl⟩ trivial
  | closing i =>
    obtain ⟨-, heq⟩ := ite_none_right_eq_some.mp hstep
    cases heq
    exact iff_of_true ⟨fun j hj => hx j ((live_setReady (.inl rfl)).mp hj).2, rfl⟩ trivial
  | closed i code =>
    obtain ⟨hready, heq⟩ := ite_none_left_eq_some.mp hstep
    cases heq
    exact orderly_closed h hx hready

theorem sound_step (x : Traced) (a : Action) (y : Traced) (h : Inv x.client) (hx : Sound x)
    (hstep : tracedStep opts x a = some y) : Sound y ↔ Orderly x.client a := by
  obtain ⟨d, hd, rfl⟩ := map_eq_some_iff.mp hstep
  rw [sound_iff] at hx ⊢
  rw [hx.2, Bool.false_or]
  exact orderly_step h hx.1 hd

theorem inv_tracedStep (x : Traced) (a : Action) (y : Traced) (hstep : tracedStep opts x a = some y)
    (h : Inv x.client) : Inv y.client := by
  obtain ⟨d, hd, rfl⟩ := map_eq_some_iff.mp hstep
  exact h.step hd

theorem one_socket_iff {lastEventId : Option String} {acts : List Action} {x : Traced}
    (hrun : run (tracedStep opts) (start lastEventId) acts = some x) :
    Throughout (tracedStep opts) Sound (start lastEventId) acts ↔
      Steps (tracedStep opts) (fun x a => Orderly x.client a) (start lastEventId) acts x := by
  refine throughout_iff_steps inv_tracedStep sound_step hrun (.init lastEventId) ⟨?_, ?_, rfl⟩
  · exact fun _ _ => nofun
  · exact fun _ => nofun

def production : ClientOptions := ⟨1000, 30000⟩

def brokenOnce : List Action :=
  [.connect, .opened 0 "h0" false none, .closing 0, .closed 0 1006, .timer 0, .opened 1 "h1" false none]

theorem one_socket_retried : Throughout (tracedStep production) Sound (start none) brokenOnce ∧
      ∃ x, run (tracedStep production) (start none) brokenOnce = some x ∧ x.client.ws = some 1 := by
  obtain ⟨x, hchecked, hws⟩ : ∃ x, run (checked (tracedStep production) fun x a => Orderly x.client a) (start none)
      brokenOnce = some x ∧ x.client.ws = some 1 := exists_run_of_any (by decide +kernel)
  have hsteps := steps_of_checked hchecked
  have hrun := hsteps.run_eq
  exact ⟨(one_socket_iff hrun).mpr hsteps, x, hrun, hws⟩

def forceReconnect : List Action :=
  [.connect, .opened 0 "h0" false none, .close, .connect, .opened 1 "h1" false none, .closed 0 1000]

theorem replaced_socket_disturbs :
    (∃ x, run (tracedStep production) (start none) forceReconnect = some x ∧ x.client.live 1 = true ∧
      x.client.ws = none ∧ x.client.timers = [⟨0, 1000⟩] ∧ x.disturbed = true) ∧
    ∃ x, run (tracedStep production) (start none) (forceReconnect ++ [.timer 0]) = some x ∧
      x.client.live 1 = true ∧ x.client.live 2 = true ∧ ¬ Sound x := by
  constructor
  · exact exists_run_of_any (by decide +kernel)
  · obtain ⟨x, hrun, h1, h2⟩ : ∃ x, run (tracedStep production) (start none) (forceReconnect ++ [.timer 0]) = some x ∧
        x.client.live 1 = true ∧ x.client.live 2 = true := exists_run_of_any (by decide +kernel)
    exact ⟨x, hrun, h1, h2, fun hs => nomatch hs.one 1 2 h1 h2⟩

end Sockets

end NomadDev.Mobile
