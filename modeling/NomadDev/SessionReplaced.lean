import NomadDev.Hub
import NomadDev.SocketClient

namespace NomadDev.Mobile

open Foundation.Transition Function Option

variable {a : Action} {i : ℕ}

namespace Replaced

variable {opts : ClientOptions} {c d : Client}

def receives (c : Client) : Action → Bool
  | .message i (some env) _ _ => decide (env.body = .sessionReplaced) && decide (c.ws = some i)
  | _ => false

def isConnect : Action → Bool
  | .connect => true
  | _ => false

/-- `told` holds from a session.replaced to the next `connect()`; `reopened` tells of a socket created in between. -/
structure Traced where
  client : Client
  (told reopened : Bool)

def start (lastEventId : Option String) : Traced := ⟨newClient lastEventId, false, false⟩

def track (x : Traced) (a : Action) (d : Client) : Traced where
  client := d
  told := !isConnect a && (x.told || receives x.client a)
  reopened := x.reopened || x.told && !isConnect a && decide (x.client.created < d.created)

def tracedStep (opts : ClientOptions) (x : Traced) (a : Action) : Option Traced :=
  (step opts x.client a).map (track x a)

def Resigns (x : Traced) : Action → Prop
  | .message i data id throws => receives x.client (.message i data id throws) = true → x.client.timers = []
  | .closed _ code => x.told = true → Client.rejects code = true ∨ x.client.stopped = true
  | _ => True

instance (x : Traced) : (a : Action) → Decidable (Resigns x a)
  | .message i data id throws =>
    inferInstanceAs (Decidable (receives x.client (.message i data id throws) = true → x.client.timers = []))
  | .closed _ code =>
    inferInstanceAs (Decidable (x.told = true → Client.rejects code = true ∨ x.client.stopped = true))
  | .connect | .close | .send .. | .clearOutbox | .setLastEventId _ | .timer _ | .opened .. | .error _ | .closing _ =>
    inferInstanceAs (Decidable True)

structure Settled (x : Traced) : Prop where
  inv : Inv x.client
  idle : x.told = true → x.client.timers = []
  kept : x.reopened = false

theorem message_of_receives (h : receives c a = true) : ∃ i data id throws, a = .message i data id throws := by
  unfold receives at h
  split at h
  next => exact ⟨_, _, _, _, rfl⟩
  next => cases h

theorem timers_openSocket (c : Client) : c.openSocket.timers = c.timers := by
  unfold Client.openSocket
  split <;> rfl

inductive Effect (c : Client) : Action → Client → Prop
  | keep {a : Action} {d : Client} : d.timers = c.timers → d.created = c.created →
      (∀ i code, a = .closed i code → Client.rejects code = true ∨ c.stopped = true) → Effect c a d
  | clear {d : Client} : d.timers = [] → d.created = c.created → Effect c .close d
  | connect {d : Client} : d.timers = c.timers → Effect c .connect d
  | fire {id : ℕ} {d : Client} : c.timers ≠ [] → Effect c (.timer id) d
  | schedule {i code : ℕ} {d : Client} : Client.rejects code = false → c.stopped = false → d.timers ≠ [] →
      d.created = c.created → Effect c (.closed i code) d

theorem effect_step (h : Inv c) (hstep : step opts c a = some d) : Effect c a d := by
  cases a with
  | connect =>
    cases hstep
    exact .connect (timers_openSocket _)
  | close =>
    cases hstep
    exact .clear (torn_close h).timers (torn_close h).created
  | send env throws =>
    cases hstep
    have hq := quiet_send c env throws
    exact .keep hq.timers hq.created nofun
  | clearOutbox | setLastEventId id =>
    cases hstep
    exact .keep rfl rfl nofun
  | timer id =>
    obtain ⟨hmem, -⟩ := ite_none_right_eq_some.mp hstep
    refine .fire fun hnil => ?_
    rw [hnil] at hmem
    cases hmem
  | opened i id throws flushed =>
    obtain ⟨-, heq⟩ := ite_none_right_eq_some.mp hstep
    cases heq
    have hq := quiet_onopen (c.setReady i .open) i id throws flushed
    exact .keep hq.timers hq.created nofun
  | message i data id throws =>
    obtain ⟨-, heq⟩ := ite_none_right_eq_some.mp hstep
    cases heq
    have hq := quiet_onmessage c data id throws
    exact .keep hq.timers hq.created nofun
  | error i =>
    obtain ⟨-, heq⟩ := ite_none_left_eq_some.mp hstep
    cases heq
    exact .keep rfl rfl nofun
  | closing i =>
    obtain ⟨-, heq⟩ := ite_none_right_eq_some.mp hstep
    cases heq
    exact .keep rfl rfl nofun
  | closed i code =>
    obtain ⟨hready, heq⟩ := ite_none_left_eq_some.mp hstep
    cases heq
    rcases onclose_cases opts (h.setReady (h.lt_created hready) .closed) code with ⟨hq, hend⟩ | ⟨hd, hr, hs⟩
    · refine .keep hq.timers hq.created fun i' code' ha => ?_
      cases ha
      exact hend
    · obtain ⟨t, ht, -⟩ := hd.timers
      exact .schedule hr hs (by rw [ht]; exact List.cons_ne_nil _ _) hd.created

theorem Effect.timers_nil (h : Effect c a d) (hidle : c.timers = [])
    (hclosed : ∀ i code, a = .closed i code → Client.rejects code = true ∨ c.stopped = true) : d.timers = [] := by
  cases h with
  | keep ht _ _ | connect ht => exact ht.trans hidle
  | clear ht _ => exact ht
  | fire hne => exact absurd hidle hne
  | schedule hr hs =>
    rcases hclosed _ _ rfl with hr' | hs'
    · exact nomatch hr.symm.trans hr'
    · exact nomatch hs.symm.trans hs'

theorem Effect.created_eq (h : Effect c a d) (hidle : c.timers = []) (hconnect : isConnect a = false) :
    d.created = c.created := by
  cases h with
  | keep _ hc _ | clear _ hc | schedule _ _ _ hc => exact hc
  | connect => cases hconnect
  | fire hne => exact absurd hidle hne

theorem closed_stays_idle (opts : ClientOptions) (lastEventId : Option String) (acts : List Action) :
    Throughout (step opts) (fun c => c.stopped = true → c.timers = [] ∧
      ∀ a d, step opts c a = some d → isConnect a = false → d.timers = [] ∧ d.created = c.created)
        (newClient lastEventId) acts := by
  refine throughout_of_preserves (fun _ _ _ => Inv.step) (fun c h hs => ?_) (.init lastEventId) acts
  refine ⟨h.stopped hs, fun a d hstep ha => ⟨?_, ?_⟩⟩
  · exact (effect_step h hstep).timers_nil (h.stopped hs) fun _ _ _ => .inr hs
  · exact (effect_step h hstep).created_eq (h.stopped hs) ha

theorem settled_step (x : Traced) (a : Action) (y : Traced) (hok : Resigns x a)
    (hstep : tracedStep opts x a = some y) (h : Settled x) : Settled y := by
  obtain ⟨d, hd, rfl⟩ := map_eq_some_iff.mp hstep
  have he := effect_step h.inv hd
  refine ⟨h.inv.step hd, fun htold => ?_, ?_⟩
  · simp only [track, Bool.and_eq_true, Bool.or_eq_true] at htold
    rcases htold.2 with ht | hr
    · refine he.timers_nil (h.idle ht) fun i code ha => ?_
      subst ha
      exact hok ht
    · obtain ⟨i, env, id, throws, rfl⟩ := message_of_receives hr
      exact he.timers_nil (hok hr) nofun
  · simp only [track, h.kept, Bool.false_or]
    rw [← Bool.not_eq_true]
    intro hre
    simp only [Bool.and_eq_true, decide_eq_true_iff, Bool.not_eq_true'] at hre
    obtain ⟨⟨htold, hconnect⟩, hlt⟩ := hre
    exact Nat.ne_of_gt hlt (he.created_eq (h.idle htold) hconnect)

theorem fire_reopens {x : Traced} (h : Inv x.client) (htold : x.told = true) (hne : x.client.timers ≠ []) :
    ∃ id y, tracedStep opts x (.timer id) = some y ∧ y.reopened = true := by
  obtain ⟨t, ht⟩ := List.exists_mem_of_ne_nil _ hne
  have hs : x.client.stopped = false := by
    rw [← Bool.not_eq_true]
    exact fun hs => hne (h.stopped hs)
  refine ⟨t.id, track x (.timer t.id) { x.client with timers := x.client.timers.filter (·.id ≠ t.id) }.openSocket,
    ?_, ?_⟩
  · have hmem : t.id ∈ x.client.timers.map Timer.id := List.mem_map_of_mem ht
    simp only [tracedStep, step, if_pos hmem, map_some]
  · simp [track, htold, isConnect, Client.openSocket, hs]

theorem reopens_of_not_resigns {x y : Traced} (h : Inv x.client) (hstep : tracedStep opts x a = some y)
    (hok : ¬ Resigns x a) : ∃ id z, tracedStep opts y (.timer id) = some z ∧ z.reopened = true := by
  obtain ⟨d, hd, rfl⟩ := map_eq_some_iff.mp hstep
  have he := effect_step h hd
  cases a with
  | message i data id throws =>
    obtain ⟨hreceives, hne⟩ := Classical.not_imp.mp hok
    refine fire_reopens (h.step hd) (by simp [track, isConnect, hreceives]) ?_
    cases he with
    | keep ht => exact ht ▸ hne
  | closed i code =>
    obtain ⟨htold, hend⟩ := Classical.not_imp.mp hok
    refine fire_reopens (h.step hd) (by simp [track, isConnect, htold]) ?_
    cases he with
    | keep _ _ hend' => exact absurd (hend' i code rfl) hend
    | schedule _ _ hne => exact hne
  | connect | close | send | clearOutbox | setLastEventId | timer | opened | error | closing => exact absurd trivial hok

theorem inv_tracedStep (x : Traced) (a : Action) (y : Traced) (hstep : tracedStep opts x a = some y)
    (h : Inv x.client) : Inv y.client := by
  obtain ⟨d, hd, rfl⟩ := map_eq_some_iff.mp hstep
  exact h.step hd

theorem no_reopen_after_replaced {lastEventId : Option String} {acts : List Action} {x : Traced} :
    (Steps (tracedStep opts) Resigns (start lastEventId) acts x → x.reopened = false) ∧
      (run (tracedStep opts) (start lastEventId) acts = some x → ∀ a y, tracedStep opts x a = some y →
        ¬ Resigns x a → ∃ id z, tracedStep opts y (.timer id) = some z ∧ z.reopened = true) := by
  constructor
  · intro hsteps
    exact (hsteps.preserves settled_step ⟨.init lastEventId, nofun, rfl⟩).kept
  · intro hrun a y hstep hok
    exact reopens_of_not_resigns (run_preserves inv_tracedStep hrun (.init lastEventId)) hstep hok

def replacedEnv (id : String) : Envelope := ⟨id, none, .sessionReplaced⟩

def resigning : List Action :=
  [.connect, .opened 0 "h0" false none, .message 0 (some (replacedEnv "r")) "" false, .close, .closed 0 1000]

theorem no_reopen_resigning : ∃ x, Steps (tracedStep Sockets.production) Resigns (start none) resigning x ∧
      x.told = true ∧ x.reopened = false := by
  obtain ⟨x, hchecked, htold⟩ : ∃ x, run (checked (tracedStep Sockets.production) Resigns) (start none) resigning =
      some x ∧ x.told = true := exists_run_of_any (by decide +kernel)
  have hsteps := steps_of_checked hchecked
  exact ⟨x, hsteps, htold, no_reopen_after_replaced.1 hsteps⟩

/-- Two devices and the hub: `conn` is the server's side of an accepted socket, and `displaced` counts the clients the
hub has replaced. -/
structure Devices where
  hub : Hub.Registry Envelope
  device : Bool → Client
  conn : Bool → ℕ → Option Hub.Client
  displaced : ℕ

inductive Event
  | call (b : Bool) (a : Action)
  | accept (b : Bool) (i : ℕ) (c : Hub.Client) (hello : String)
  | frame (b : Bool) (i : ℕ) (id : String)
  | finish (b : Bool) (i : ℕ)

def toEnvelope (id : String) : Hub.Frame Envelope → Envelope
  | .replaced => replacedEnv id
  | .envelope env => env

def closeNormalClosure : ℕ := 1000

def replaces (h : Hub.Registry Envelope) (c : Hub.Client) : Bool := (h.bySID c.sid).any fun prev => prev.id ≠ c.id

variable (s : Devices)

def Devices.setDevice (b : Bool) (d : Client) : Devices :=
  { s with device := update s.device b d }

def Devices.setConn (b : Bool) (i : ℕ) (c : Option Hub.Client) : Devices :=
  { s with conn := update s.conn b (update (s.conn b) i c) }

def Devices.accept (b : Bool) (i : ℕ) (c : Hub.Client) (d : Client) : Devices :=
  { (s.setDevice b d).setConn b i (some c) with
    hub := s.hub.register c
    displaced := if replaces s.hub c then s.displaced + 1 else s.displaced }

def Devices.deliver (b : Bool) (c : Hub.Client) (rest : List (Hub.Frame Envelope)) (d : Client) : Devices :=
  { s.setDevice b d with hub := { s.hub with queue := update s.hub.queue c rest } }

def Devices.finish (b : Bool) (i : ℕ) (c : Hub.Client) (d : Client) : Devices :=
  { (s.setDevice b d).setConn b i none with hub := s.hub.unregister c }

def Devices.step (opts : ClientOptions) (s : Devices) : Event → Option Devices
  | .call b a => if Sockets.callback a = none then (Mobile.step opts (s.device b) a).map (s.setDevice b) else none
  | .accept b i c hello => (Mobile.step opts (s.device b) (.opened i hello false none)).map (s.accept b i c)
  | .frame b i id =>
    (s.conn b i).bind fun c =>
      match s.hub.queue c with
      | [] => none
      | f :: rest =>
        (Mobile.step opts (s.device b) (.message i (some (toEnvelope id f)) id false)).map (s.deliver b c rest)
  | .finish b i =>
    (s.conn b i).bind fun c =>
      if s.hub.closed c then
        (Mobile.step opts (s.device b) (.closed i closeNormalClosure)).map (s.finish b i c)
      else none

def Devices.start : Devices := ⟨Hub.empty, fun _ => newClient none, fun _ _ => none, 0⟩

def Event.isConnect : Event → Bool
  | .call _ a => Replaced.isConnect a
  | _ => false

section

variable (opts : ClientOptions)

theorem step_retry {t : Timer} (h : Inv c) (ht : c.timers = [t]) :
    ∃ d, Mobile.step opts c (.timer t.id) = some d ∧ d.stopped = false ∧ d.ready c.created = .connecting := by
  have hs : c.stopped = false := by
    rw [← Bool.not_eq_true]
    intro hs
    exact List.cons_ne_nil _ _ (ht.symm.trans (h.stopped hs))
  refine ⟨{ c with timers := c.timers.filter (·.id ≠ t.id) }.openSocket, ?_, ?_, ?_⟩
  · simp [Mobile.step, ht]
  · simp [Client.openSocket, hs, Client.setStatus]
  · have hready := ready_openSocket (c := { c with timers := c.timers.filter (·.id ≠ t.id) }) hs c.created
    exact hready.trans (if_pos rfl)

theorem step_connect (c : Client) :
    ∃ d, Mobile.step opts c .connect = some d ∧ d.stopped = false ∧ d.ready c.created = .connecting := by
  refine ⟨c.connect, rfl, ?_, ?_⟩
  · simp [Client.connect, Client.openSocket, Client.setStatus]
  · exact (ready_openSocket (c := { c with stopped := false }) rfl c.created).trans (if_pos rfl)

theorem step_open (id : String) (hi : c.ready i = .connecting) :
    ∃ d, Mobile.step opts c (.opened i id false none) = some d ∧ d.stopped = c.stopped ∧ d.ready i = .open := by
  have hq := quiet_onopen (c.setReady i .open) i id false none
  refine ⟨_, if_pos hi, hq.stopped, (hq.ready i).trans ?_⟩
  exact (ready_setReady c i i .open).trans (if_pos rfl)

theorem step_message (env : Envelope) (id : String) (hi : c.ready i = .open) :
    ∃ d, Mobile.step opts c (.message i (some env) id false) = some d ∧ Quiet c d :=
  ⟨_, if_pos (.inl hi), quiet_onmessage c (some env) id false⟩

theorem step_finish (h : Inv c) (hi : c.ready i = .open) (hs : c.stopped = false) :
    ∃ d t, Mobile.step opts c (.closed i closeNormalClosure) = some d ∧ d.timers = [t] := by
  have hready : c.ready i ≠ .closed := by rw [hi]; exact nofun
  rcases onclose_cases opts (h.setReady (h.lt_created hready) .closed) closeNormalClosure with ⟨-, hr⟩ | ⟨hd, -⟩
  · rcases hr with hr | hr
    · cases hr
    · exact nomatch hs.symm.trans hr
  · obtain ⟨t, ht, -⟩ := hd.timers
    exact ⟨_, t, if_neg hready, ht⟩

end

section Displacement

variable {h : Hub.Registry Envelope} {prev : Hub.Client}

theorem register_displaces (next : Hub.Client) (hprev : h.bySID next.sid = some prev) (hid : prev.id ≠ next.id)
    (hbuf : (h.queue prev).length < prev.sendBuf) :
    (h.register next).bySID next.sid = some next ∧ (h.register next).closed prev = true ∧
      (h.register next).queue = update h.queue prev (h.queue prev ++ [.replaced]) ∧
      (h.register next).clients prev.id = none ∧ replaces h next = true := by
  have hrep : h.replacePrev next = ((h.offer prev .replaced).close prev).removeClient prev.id := by
    simp [Hub.Registry.replacePrev, hprev, hid]
  refine ⟨?_, ?_, ?_, ?_, ?_⟩
  · simp [Hub.Registry.register]
  · simp [Hub.Registry.register, hrep, Hub.Registry.close]
  · simp [Hub.Registry.register, hrep, Hub.Registry.close, Hub.Registry.removeClient, Hub.Registry.offer, hbuf]
  · simp [Hub.Registry.register, hrep, Hub.Registry.removeClient, update_of_ne hid]
  · simp [replaces, hprev, hid]

theorem unregister_of_none {k : Hub.Client} (hk : h.clients k.id = none) : h.unregister k = h := by
  simp only [Hub.Registry.unregister, hk]

variable {s u : Devices} {b : Bool} {n : ℕ}

@[simp] theorem setDevice_device (s : Devices) (b : Bool) (d : Client) : (s.setDevice b d).device b = d := by
  simp [Devices.setDevice]

@[simp] theorem setDevice_device_not (s : Devices) (b : Bool) (d : Client) :
    (s.setDevice (!b) d).device b = s.device b := by
  simp [Devices.setDevice]

@[simp] theorem setDevice_not_device (s : Devices) (b : Bool) (d : Client) :
    (s.setDevice b d).device (!b) = s.device (!b) := by
  simp [Devices.setDevice]

def sessionClient (n : ℕ) : Hub.Client := ⟨String.ofList (List.replicate n 'x'), "s", 64⟩

theorem sessionClient_length (n : ℕ) : (sessionClient n).id.length = n := by
  simp [sessionClient]

theorem setConn_conn (s : Devices) (b : Bool) (i : ℕ) (c : Option Hub.Client) : (s.setConn b i c).conn b i = c := by
  simp [Devices.setConn]

theorem setConn_conn_not (s : Devices) (b : Bool) (i j : ℕ) (c : Option Hub.Client) :
    (s.setConn (!b) j c).conn b i = s.conn b i := by
  simp [Devices.setConn]

theorem setConn_not_conn (s : Devices) (b : Bool) (i j : ℕ) (c : Option Hub.Client) :
    (s.setConn b j c).conn (!b) i = s.conn (!b) i := by
  simp [Devices.setConn]

theorem inv_setDevice (hinv : ∀ b, Inv (s.device b)) (hd : Inv d) (b' : Bool) : Inv ((s.setDevice b d).device b') :=
  Foundation.PointUpdate.update_of_forall (P := fun _ d => Inv d) hd (fun b' _ => hinv b') b'

theorem inv_devices_step {e : Event} (hinv : ∀ b, Inv (s.device b)) (hstep : Devices.step opts s e = some u)
    (b' : Bool) :
    Inv (u.device b') := by
  cases e with
  | call b a =>
    obtain ⟨-, heq⟩ := ite_none_right_eq_some.mp hstep
    obtain ⟨d, hd, rfl⟩ := map_eq_some_iff.mp heq
    exact inv_setDevice hinv ((hinv b).step hd) b'
  | accept b i c hello =>
    obtain ⟨d, hd, rfl⟩ := map_eq_some_iff.mp hstep
    exact inv_setDevice hinv ((hinv b).step hd) b'
  | frame b i id =>
    obtain ⟨c, -, heq⟩ := bind_eq_some_iff.mp hstep
    split at heq
    next => cases heq
    next =>
      obtain ⟨d, hd, rfl⟩ := map_eq_some_iff.mp heq
      exact inv_setDevice hinv ((hinv b).step hd) b'
  | finish b i =>
    obtain ⟨c, -, heq⟩ := bind_eq_some_iff.mp hstep
    obtain ⟨-, heq⟩ := ite_none_right_eq_some.mp heq
    obtain ⟨d, hd, rfl⟩ := map_eq_some_iff.mp heq
    exact inv_setDevice hinv ((hinv b).step hd) b'

structure Serves (s : Devices) (b : Bool) (i n : ℕ) : Prop where
  running : (s.device b).stopped = false
  conn : s.conn b i = some (sessionClient n)
  ready : (s.device b).ready i = .open

structure Holds (s : Devices) (b : Bool) (n : ℕ) : Prop where
  serves : ∃ i, Serves s b i n
  holder : s.hub.bySID "s" = some (sessionClient n)
  queues : ∀ m, n ≤ m → s.hub.queue (sessionClient m) = []

structure Lost (s : Devices) (b : Bool) (n : ℕ) : Prop where
  serves : ∃ i, Serves s b i n
  taken : Holds s (!b) (n + 1)
  removed : s.hub.clients (sessionClient n).id = none
  closed : s.hub.closed (sessionClient n) = true
  queue : s.hub.queue (sessionClient n) = [.replaced]

theorem sessionClient_id_ne {m : ℕ} (h : m ≠ n) : (sessionClient m).id ≠ (sessionClient n).id := by
  intro heq
  have hlen := congrArg String.length heq
  rw [sessionClient_length, sessionClient_length] at hlen
  exact h hlen

theorem sessionClient_ne {m : ℕ} (h : m ≠ n) : sessionClient m ≠ sessionClient n :=
  fun heq => sessionClient_id_ne h (congrArg Hub.Client.id heq)

theorem serves_accept (hd : d.stopped = false) (hready : d.ready i = .open) :
    Serves (s.accept b i (sessionClient n) d) b i n := by
  have hdevice : (s.accept b i (sessionClient n) d).device b = d := setDevice_device s b d
  refine ⟨?_, setConn_conn .., ?_⟩
  · rw [hdevice]
    exact hd
  · rw [hdevice]
    exact hready

theorem Holds.setDevice_not (h : Holds s b n) (d : Client) : Holds (s.setDevice (!b) d) b n := by
  obtain ⟨i, hserves⟩ := h.serves
  have hdevice := setDevice_device_not s b d
  exact ⟨⟨i, hdevice ▸ hserves.running, hserves.conn, hdevice ▸ hserves.ready⟩, h.holder, h.queues⟩

theorem holds_accept (opts : ClientOptions) {k : ℕ} (hholds : Holds s b n) (hs : (s.device !b).stopped = false)
    (hk : (s.device !b).ready k = .connecting) :
    ∃ u, Devices.step opts s (.accept (!b) k (sessionClient (n + 1)) "h") = some u ∧
      u.displaced = s.displaced + 1 ∧ Lost u b n := by
  obtain ⟨i, hserves⟩ := hholds.serves
  obtain ⟨d, hstep, hstop, hready⟩ := step_open opts "h" hk
  have hempty : s.hub.queue (sessionClient n) = [] := hholds.queues n (Nat.le_refl n)
  have hbuf : (s.hub.queue (sessionClient n)).length < (sessionClient n).sendBuf := by
    rw [hempty]
    exact Nat.zero_lt_succ 63
  obtain ⟨hsid, hclosed, hqueue, hclients, hreplaces⟩ := register_displaces (sessionClient (n + 1))
    hholds.holder (sessionClient_id_ne (Nat.ne_of_lt (Nat.lt_succ_self n))) hbuf
  rw [hempty, List.nil_append] at hqueue
  have hother : (s.accept (!b) k (sessionClient (n + 1)) d).device b = s.device b := setDevice_device_not s b d
  refine ⟨s.accept (!b) k (sessionClient (n + 1)) d, ?_, if_pos hreplaces, ⟨i, ?_⟩, ⟨⟨k, ?_⟩, hsid, fun m hm => ?_⟩,
    hclients, hclosed, ?_⟩
  · simp only [Devices.step, hstep, map_some]
  · exact ⟨hother ▸ hserves.running, (setConn_conn_not _ b i _ _).trans hserves.conn, hother ▸ hserves.ready⟩
  · exact serves_accept (hstop.trans hs) hready
  · refine (congrFun hqueue _).trans ((update_of_ne (sessionClient_ne ?_) _ _).trans ?_)
    · exact Nat.ne_of_gt hm
    · exact hholds.queues m (Nat.le_of_succ_le hm)
  · exact (congrFun hqueue _).trans (update_self ..)

theorem lost_finish (opts : ClientOptions) (hinv : ∀ b, Inv (s.device b)) (hlost : Lost s b n) :
    ∃ i u, run (Devices.step opts) s [.frame b i "r", .finish b i] = some u ∧ u.displaced = s.displaced ∧
      Holds u (!b) (n + 1) ∧ ∃ t, (u.device b).timers = [t] := by
  obtain ⟨i, hserves⟩ := hlost.serves
  obtain ⟨j, hother⟩ := hlost.taken.serves
  obtain ⟨d₁, hstep₁, hquiet⟩ := step_message opts (replacedEnv "r") "r" hserves.ready
  obtain ⟨d₂, t, hstep₂, htimers⟩ := step_finish opts ((hinv b).step hstep₁) ((hquiet.ready i).trans hserves.ready)
    (hquiet.stopped.trans hserves.running)
  have h₁ : Devices.step opts s (.frame b i "r") = some (s.deliver b (sessionClient n) [] d₁) := by
    simp [Devices.step, hserves.conn, hlost.queue, toEnvelope, hstep₁]
  have h₂ : Devices.step opts (s.deliver b (sessionClient n) [] d₁) (.finish b i) =
      some ((s.deliver b (sessionClient n) [] d₁).finish b i (sessionClient n) d₂) := by
    have hconn : (s.deliver b (sessionClient n) [] d₁).conn b i = some (sessionClient n) := hserves.conn
    have hclosed : (s.deliver b (sessionClient n) [] d₁).hub.closed (sessionClient n) = true := hlost.closed
    have hdevice : (s.deliver b (sessionClient n) [] d₁).device b = d₁ := setDevice_device s b d₁
    simp [Devices.step, hconn, hclosed, hdevice, hstep₂]
  have hhub : ((s.deliver b (sessionClient n) [] d₁).finish b i (sessionClient n) d₂).hub =
      (s.deliver b (sessionClient n) [] d₁).hub := unregister_of_none hlost.removed
  have hdevice : ((s.deliver b (sessionClient n) [] d₁).finish b i (sessionClient n) d₂).device (!b) = s.device !b := by
    simp [Devices.finish, Devices.setConn, Devices.deliver]
  have hself : ((s.deliver b (sessionClient n) [] d₁).finish b i (sessionClient n) d₂).device b = d₂ := by
    simp [Devices.finish, Devices.setConn]
  refine ⟨i, _, run_cons h₁ (run_cons h₂ rfl), rfl, ⟨⟨j, ?_⟩, ?_, fun m hm => ?_⟩, t, ?_⟩
  · exact ⟨hdevice ▸ hother.running, (setConn_not_conn _ b j i _).trans hother.conn, hdevice ▸ hother.ready⟩
  · rw [hhub]
    exact hlost.taken.holder
  · rw [hhub]
    refine (update_of_ne (sessionClient_ne ?_) _ _).trans (hlost.taken.queues m hm)
    exact Nat.ne_of_gt hm
  · rw [hself]
    exact htimers

def Duel (s : Devices) (b : Bool) (n : ℕ) : Prop :=
  (∀ b, Inv (s.device b)) ∧ Holds s b n ∧ ∃ t, (s.device !b).timers = [t]

theorem inv_devices_run {events : List Event} (hrun : run (Devices.step opts) s events = some u)
    (hinv : ∀ b, Inv (s.device b)) : ∀ b, Inv (u.device b) :=
  run_preserves (I := fun s : Devices => ∀ b, Inv (s.device b))
    (fun _ _ _ hstep h => inv_devices_step h hstep) hrun hinv

section

variable (opts : ClientOptions)

theorem duel_of_opening {k : ℕ} (hinv : ∀ b, Inv (s.device b)) (hholds : Holds s b n) (ha : Sockets.callback a = none)
    (hstep : Mobile.step opts (s.device !b) a = some d) (hs : d.stopped = false) (hk : d.ready k = .connecting) :
    ∃ i u, run (Devices.step opts) s [.call (!b) a, .accept (!b) k (sessionClient (n + 1)) "h", .frame b i "r",
        .finish b i] = some u ∧ u.displaced = s.displaced + 1 ∧ Duel u (!b) (n + 1) := by
  have h₁ : Devices.step opts s (.call (!b) a) = some (s.setDevice (!b) d) := by
    simp only [Devices.step, ha, if_true, hstep, map_some]
  have hself : (s.setDevice (!b) d).device (!b) = d := setDevice_device s (!b) d
  obtain ⟨v, h₂, hdisplaced, hlost⟩ := holds_accept opts (hholds.setDevice_not d) (by rwa [hself])
    (by rwa [hself])
  have hinv' := inv_devices_step (inv_devices_step hinv h₁) h₂
  obtain ⟨i, u, hrest, hsame, htaken, hwaits⟩ := lost_finish opts hinv' hlost
  refine ⟨i, u, run_cons h₁ (run_cons h₂ hrest), hsame.trans hdisplaced, inv_devices_run hrest hinv', htaken, ?_⟩
  rw [Bool.not_not]
  exact hwaits

theorem duel_round (hduel : Duel s b n) :
    ∃ events u, (∀ e ∈ events, e.isConnect = false) ∧ run (Devices.step opts) s events = some u ∧
      u.displaced = s.displaced + 1 ∧ Duel u (!b) (n + 1) := by
  obtain ⟨hinv, hholds, t, ht⟩ := hduel
  obtain ⟨d, hstep, hs, hk⟩ := step_retry opts (hinv !b) ht
  obtain ⟨i, u, hrun, hdisplaced, hduel⟩ := duel_of_opening opts hinv hholds rfl hstep hs hk
  exact ⟨_, u, by simp [Event.isConnect, isConnect], hrun, hdisplaced, hduel⟩

theorem duel_rounds (rounds : ℕ) (hduel : Duel s b n) :
    ∃ events u, (∀ e ∈ events, e.isConnect = false) ∧ run (Devices.step opts) s events = some u ∧
      u.displaced = s.displaced + rounds := by
  induction rounds generalizing s b n with
  | zero => exact ⟨[], s, nofun, rfl, rfl⟩
  | succ rounds ih =>
    obtain ⟨first, v, hfirst, hrun, hdisplaced, hduel'⟩ := duel_round opts hduel
    obtain ⟨rest, u, hrest, hrun', hdisplaced'⟩ := ih hduel'
    refine ⟨first ++ rest, u, fun e he => ?_, run_append hrun hrun', ?_⟩
    · exact (List.mem_append.mp he).elim (hfirst e) (hrest e)
    · rw [hdisplaced', hdisplaced]
      omega

theorem holds_start :
    ∃ s, run (Devices.step opts) .start [.call true .connect, .accept true 0 (sessionClient 0) "h"] = some s ∧
      s.displaced = 0 ∧ Holds s true 0 := by
  obtain ⟨d₁, hstep₁, hs, hk⟩ := step_connect opts (newClient none)
  obtain ⟨d₂, hstep₂, hstop, hready⟩ := step_open opts "h" hk
  have h₁ : Devices.step opts .start (.call true .connect) = some (Devices.start.setDevice true d₁) := by
    simp only [Devices.step, Sockets.callback, if_true, Devices.start, hstep₁, map_some]
  have h₂ : Devices.step opts (Devices.start.setDevice true d₁) (.accept true 0 (sessionClient 0) "h") =
      some ((Devices.start.setDevice true d₁).accept true 0 (sessionClient 0) d₂) := by
    have hdevice : (Devices.start.setDevice true d₁).device true = d₁ := setDevice_device ..
    simp only [Devices.step, hdevice, show Mobile.step opts d₁ (.opened 0 "h" false none) = some d₂ from hstep₂,
      map_some]
  refine ⟨_, run_cons h₁ (run_cons h₂ rfl), rfl, ⟨⟨0, serves_accept (hstop.trans hs) hready⟩, ?_, fun _ _ => rfl⟩⟩
  simp [Devices.accept, Hub.Registry.register, sessionClient]

end

theorem devices_displace_each_other :
    (∃ x, run (tracedStep Sockets.production) (start none) [.connect, .opened 0 "h0" false none,
        .message 0 (some (replacedEnv "r")) "" false, .closed 0 closeNormalClosure, .timer 0] = some x ∧
      x.reopened = true ∧ x.client.ws = some 1) ∧
    ∀ rounds, ∃ events u, events.countP Event.isConnect = 2 ∧
      run (Devices.step Sockets.production) .start events = some u ∧ u.displaced = rounds + 1 := by
  constructor
  · exact exists_run_of_any (by decide +kernel)
  · intro rounds
    obtain ⟨s, hstart, hzero, hholds⟩ := holds_start Sockets.production
    have hinv : ∀ b, Inv (s.device b) := inv_devices_run hstart fun _ => .init none
    obtain ⟨d, hstep, hs, hk⟩ := step_connect Sockets.production (s.device !true)
    obtain ⟨i, v, hfirst, hone, hduel⟩ := duel_of_opening Sockets.production hinv hholds rfl hstep hs hk
    obtain ⟨rest, u, hrest, hrun, hdisplaced⟩ := duel_rounds Sockets.production rounds hduel
    refine ⟨_, u, ?_, run_append hstart (run_append hfirst hrun), ?_⟩
    · have hnone : rest.countP Event.isConnect = 0 := by
        refine List.countP_eq_zero.mpr fun e he => ?_
        rw [hrest e he]
        exact Bool.false_ne_true
      rw [List.countP_append, List.countP_append, hnone]
      rfl
    · rw [hdisplaced, hone, hzero]
      omega

end Displacement

end Replaced

end NomadDev.Mobile
