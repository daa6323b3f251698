import NomadDev.RingBuffer
import NomadDev.Foundation.Transition
import NomadDev.Foundation.Delivery

/-!
`order` are the envelopes in the order they were appended; a session.replaced, which is never appended, stands where
it was minted.
-/

namespace NomadDev.Resume

open Session Function Option

def sendBuf : ℕ := 64

inductive Phase
  | connected
  | greeting (task : ℕ)
  | running
  | left
  deriving DecidableEq

def Phase.started : Phase → Bool
  | .running | .left => true
  | _ => false

structure Conn where
  device : ℕ
  phase : Phase
  (send wire : List Envelope)
  inbox : List (Option ℕ)
  replay : List Envelope
  (pumpDone closed dead : Bool)

def newConn (device : ℕ) : Conn := ⟨device, .connected, [], [], [], [], false, false, false⟩

structure Task where
  conn : ℕ
  env : Envelope
  appended : Bool

structure State where
  nextID : ℕ
  buffer : RingBuffer
  conns : ℕ → Option Conn
  tasks : ℕ → Option Task
  (register unregister clients : List ℕ)
  bySID : Option ℕ
  order : List Envelope
  received : ℕ → List Envelope
  staled : ℕ → Bool

def init (cap maxBytes : ℕ) : State where
  nextID := 0
  buffer := newRingBuffer cap maxBytes
  conns := fun _ => none
  tasks := fun _ => none
  register := []
  unregister := []
  clients := []
  bySID := none
  order := []
  received := fun _ => []
  staled := fun _ => false

inductive Action
  | connect (c device : ℕ)
  | greet (c t : ℕ)
  | start (c : ℕ)
  | emit (c t : ℕ) (type : EventType)
  | append (t size : ℕ)
  | send (t : ℕ)
  | done (t : ℕ)
  | drop (t : ℕ)
  | drain (c : ℕ)
  | writeFail (c : ℕ)
  | pumpExit (c : ℕ)
  | close (c : ℕ)
  | leave (c : ℕ)
  | cut (c : ℕ)
  | deliver (c : ℕ)
  | hubRegister
  | hubUnregister
  | resume (c : ℕ) (lastID : Option ℕ)
  | clientHello (c t : ℕ)
  | replay (c : ℕ)
  deriving DecidableEq

variable (s : State)

def State.setConn (c : ℕ) (k : Conn) : State := { s with conns := update s.conns c (some k) }

def State.setTask (t : ℕ) (k : Option Task) : State := { s with tasks := update s.tasks t k }

def State.mint (c t : ℕ) (type : EventType) : State :=
  { s with nextID := s.nextID + 1,
           tasks := update s.tasks t (some ⟨c, ⟨s.nextID, type⟩, false⟩) }

def Conn.enqueue (k : Conn) (x : Envelope) : Conn := { k with send := k.send ++ [x] }

def Conn.close (k : Conn) : Conn := { k with closed := true }

def closeConn (c : ℕ) : State :=
  match s.conns c with
  | some k => s.setConn c k.close
  | none => s

def State.replaced : Envelope := ⟨s.nextID, .sessionReplaced⟩

def State.mintReplaced : State :=
  { s with nextID := s.nextID + 1, order := s.order ++ [s.replaced] }

-- The client that held the session is told so if its channel has room, and closed in any case.
def replacePrev (prev : ℕ) : State :=
  match s.conns prev with
  | none => s
  | some k =>
    let k' := if k.send.length < sendBuf then k.enqueue s.replaced else k
    { s.mintReplaced.setConn prev k'.close with clients := s.clients.erase prev }

def hubRegister : Option State :=
  match s.register with
  | [] => none
  | c :: rest =>
    let s := { s with register := rest }
    let s := match s.bySID with
      | some prev => if prev ≠ c then replacePrev s prev else s
      | none => s
    some { s with clients := c :: s.clients, bySID := some c }

def hubUnregister : Option State :=
  match s.unregister with
  | [] => none
  | c :: rest =>
    let s := { s with unregister := rest }
    if c ∈ s.clients then
      some (closeConn { s with clients := s.clients.erase c,
                               bySID := if s.bySID = some c then none else s.bySID } c)
    else some s

def selectSend (t : ℕ) (exit : Envelope → Conn → Option Conn) : Option State :=
  match s.tasks t with
  | none => none
  | some task =>
    match task.appended, s.conns task.conn with
    | true, some k => (exit task.env k).map fun k' => (s.setConn task.conn k').setTask t none
    | _, _ => none

def sendBranch (x : Envelope) (k : Conn) : Option Conn :=
  if k.send.length < sendBuf then some (k.enqueue x) else none

def doneBranch (_ : Envelope) (k : Conn) : Option Conn := if k.closed then some k else none

def defaultBranch (_ : Envelope) (k : Conn) : Option Conn :=
  if sendBuf ≤ k.send.length ∧ k.closed = false then some k else none

def onConn (c : ℕ) (f : Conn → Option Conn) : Option State :=
  (s.conns c).bind fun k => (f k).map (s.setConn c)

def drain (k : Conn) : Option Conn :=
  match k.send with
  | [] => none
  | x :: rest =>
    if k.phase.started ∧ k.pumpDone = false then some { k with send := rest, wire := k.wire ++ [x] } else none

def writeFail (k : Conn) : Option Conn :=
  match k.send with
  | [] => none
  | _ :: rest => if k.phase.started ∧ k.pumpDone = false then some { k with send := rest, pumpDone := true } else none

def pumpExit (k : Conn) : Option Conn :=
  if k.phase.started ∧ k.pumpDone = false then some { k with pumpDone := true } else none

def replayStep (k : Conn) : Option Conn :=
  match k.replay with
  | [] => none
  | e :: rest =>
    if k.send.length < sendBuf then some { k.enqueue e with replay := rest } else some { k with replay := [] }

def deliver (c : ℕ) : Option State :=
  match s.conns c with
  | none => none
  | some k =>
    match k.dead, k.wire with
    | false, x :: rest =>
      some { s.setConn c { k with wire := rest } with
        received := update s.received k.device (s.received k.device ++ [x])
        staled := update s.staled k.device (s.staled k.device || x.type == .sessionStale) }
    | _, _ => none

def resume (c : ℕ) (lastID : Option ℕ) : Option State :=
  match s.conns c with
  | none => none
  | some k =>
    if k.dead then none
    else some { s.setConn c { k with inbox := k.inbox ++ [lastID] } with
      staled := update s.staled k.device (s.staled k.device && lastID.isNone) }

def clientHello (c t : ℕ) : Option State :=
  match s.conns c with
  | none => none
  | some k =>
    match k.inbox, k.replay, s.tasks t with
    | none :: rest, [], none => some (s.setConn c { k with inbox := rest })
    | some lastID :: rest, [], none =>
      match s.buffer.since (some lastID) with
      | none => some ((s.setConn c { k with inbox := rest }).mint c t .sessionStale)
      | some events => some (s.setConn c { k with inbox := rest, replay := events })
    | _, _, _ => none

def append (t size : ℕ) : Option State :=
  match s.tasks t with
  | none => none
  | some task =>
    if task.appended then none
    else some { s.setTask t (some { task with appended := true }) with
      buffer := s.buffer.push task.env size
      order := s.order ++ [task.env] }

def emittable (type : EventType) : Bool :=
  type != .hello && type != .sessionStale && type != .sessionReplaced

def startPumps (k : Conn) : Option Conn :=
  match k.phase with
  | .greeting t => if (s.tasks t).isNone then some { k with phase := .running } else none
  | _ => none

def step : Action → Option State
  | .connect c device =>
    if (s.conns c).isNone then some { s.setConn c (newConn device) with register := s.register ++ [c] } else none
  | .greet c t =>
    match s.tasks t with
    | some _ => none
    | none =>
      (onConn s c fun k => if k.phase = .connected then some { k with phase := .greeting t } else none).map
        fun s' => s'.mint c t .hello
  | .start c => onConn s c (startPumps s)
  | .emit c t type =>
    match s.tasks t, s.conns c with
    | none, some k => if k.phase.started ∧ emittable type then some (s.mint c t type) else none
    | _, _ => none
  | .append t size => append s t size
  | .send t => selectSend s t sendBranch
  | .done t => selectSend s t doneBranch
  | .drop t => selectSend s t defaultBranch
  | .drain c => onConn s c drain
  | .writeFail c => onConn s c writeFail
  | .pumpExit c => onConn s c pumpExit
  | .close c => onConn s c fun k => if k.phase.started then some k.close else none
  | .leave c =>
    (onConn s c fun k => if k.phase = .running ∧ k.pumpDone ∧ k.closed then some { k with phase := .left } else none).map
      fun s' => { s' with unregister := s'.unregister ++ [c] }
  | .cut c => onConn s c fun k => some { k with dead := true }
  | .deliver c => deliver s c
  | .hubRegister => hubRegister s
  | .hubUnregister => hubUnregister s
  | .resume c lastID => resume s c lastID
  | .clientHello c t => clientHello s c t
  | .replay c => onConn s c replayStep

variable {s s' : State}

inductive Moved (s : State) : Action → State → Prop
  | connect {c device} (hc : s.conns c = none) :
      Moved s (.connect c device) { s.setConn c (newConn device) with register := s.register ++ [c] }
  | greet {c t k} (hk : s.conns c = some k) :
      Moved s (.greet c t) ((s.setConn c { k with phase := .greeting t }).mint c t .hello)
  | start {c k} (hk : s.conns c = some k) : Moved s (.start c) (s.setConn c { k with phase := .running })
  | emit {c t type} (htype : emittable type = true) : Moved s (.emit c t type) (s.mint c t type)
  | append {t size task} (ht : s.tasks t = some task) (ha : task.appended = false) :
      Moved s (.append t size) { s.setTask t (some { task with appended := true }) with
        buffer := s.buffer.push task.env size
        order := s.order ++ [task.env] }
  | send {t task k} (ht : s.tasks t = some task) (ha : task.appended = true) (hk : s.conns task.conn = some k) :
      Moved s (.send t) ((s.setConn task.conn (k.enqueue task.env)).setTask t none)
  | done {t task} (ht : s.tasks t = some task) : Moved s (.done t) (s.setTask t none)
  | drop {t task} (ht : s.tasks t = some task) : Moved s (.drop t) (s.setTask t none)
  | drain {c k x rest} (hk : s.conns c = some k) (hsend : k.send = x :: rest) (hpump : k.pumpDone = false) :
      Moved s (.drain c) (s.setConn c { k with send := rest, wire := k.wire ++ [x] })
  | writeFail {c k x rest} (hk : s.conns c = some k) (hsend : k.send = x :: rest) (hpump : k.pumpDone = false) :
      Moved s (.writeFail c) (s.setConn c { k with send := rest, pumpDone := true })
  | pumpExit {c k} (hk : s.conns c = some k) (hpump : k.pumpDone = false) :
      Moved s (.pumpExit c) (s.setConn c { k with pumpDone := true })
  | close {c k} (hk : s.conns c = some k) : Moved s (.close c) (s.setConn c k.close)
  | leave {c k} (hk : s.conns c = some k) :
      Moved s (.leave c) { s.setConn c { k with phase := .left } with unregister := s.unregister ++ [c] }
  | cut {c k} (hk : s.conns c = some k) : Moved s (.cut c) (s.setConn c { k with dead := true })
  | deliver {c k x rest} (hk : s.conns c = some k) (hdead : k.dead = false) (hwire : k.wire = x :: rest) :
      Moved s (.deliver c) { s.setConn c { k with wire := rest } with
        received := update s.received k.device (s.received k.device ++ [x])
        staled := update s.staled k.device (s.staled k.device || x.type == .sessionStale) }
  | hubRegister (register clients : List ℕ) (bySID : Option ℕ) :
      Moved s .hubRegister { s with register := register, clients := clients, bySID := bySID }
  | hubReplace {prev k} (register clients : List ℕ) (bySID : Option ℕ) (hprev : s.bySID = some prev)
      (hne : s.register.head? ≠ some prev) (hk : s.conns prev = some k) :
      Moved s .hubRegister
        { s.mintReplaced.setConn prev (if k.send.length < sendBuf then k.enqueue s.replaced else k).close with
          register := register, clients := clients, bySID := bySID }
  | hubUnregister (unregister clients : List ℕ) (bySID : Option ℕ) :
      Moved s .hubUnregister { s with unregister := unregister, clients := clients, bySID := bySID }
  | hubClose {c k} (unregister clients : List ℕ) (bySID : Option ℕ) (hk : s.conns c = some k) :
      Moved s .hubUnregister { s.setConn c k.close with unregister := unregister, clients := clients, bySID := bySID }
  | resume {c lastID k} (hk : s.conns c = some k) :
      Moved s (.resume c lastID) { s.setConn c { k with inbox := k.inbox ++ [lastID] } with
        staled := update s.staled k.device (s.staled k.device && lastID.isNone) }
  | clientHello {c t k rest} (hk : s.conns c = some k) :
      Moved s (.clientHello c t) (s.setConn c { k with inbox := rest })
  | helloStale {c t k rest} (hk : s.conns c = some k) :
      Moved s (.clientHello c t) ((s.setConn c { k with inbox := rest }).mint c t .sessionStale)
  | helloReplay {c t k rest lastID events} (hk : s.conns c = some k)
      (hsince : s.buffer.since (some lastID) = some events) :
      Moved s (.clientHello c t) (s.setConn c { k with inbox := rest, replay := events })
  | replay {c k e rest} (hk : s.conns c = some k) (hr : k.replay = e :: rest) :
      Moved s (.replay c) (s.setConn c { k.enqueue e with replay := rest })
  | replayEnds {c k} (hk : s.conns c = some k) : Moved s (.replay c) (s.setConn c { k with replay := [] })

section Inversion

variable {c t : ℕ} {exit : Envelope → Conn → Option Conn}

theorem onConn_eq_some {f : Conn → Option Conn} (h : onConn s c f = some s') :
    ∃ k k', s.conns c = some k ∧ f k = some k' ∧ s' = s.setConn c k' := by
  obtain ⟨k, hk, hf⟩ := bind_eq_some_iff.mp h
  obtain ⟨k', hk', rfl⟩ := map_eq_some_iff.mp hf
  exact ⟨k, k', hk, hk', rfl⟩

theorem onConn_guard {p : Conn → Prop} [DecidablePred p] {f : Conn → Conn}
    (h : onConn s c (fun k => if p k then some (f k) else none) = some s') :
    ∃ k, s.conns c = some k ∧ p k ∧ s' = s.setConn c (f k) := by
  obtain ⟨k, k', hk, hf, rfl⟩ := onConn_eq_some h
  obtain ⟨hp, hf⟩ := ite_none_right_eq_some.mp hf
  cases hf
  exact ⟨k, hk, hp, rfl⟩

theorem selectSend_eq_some (h : selectSend s t exit = some s') :
    ∃ task k k', s.tasks t = some task ∧ task.appended = true ∧ s.conns task.conn = some k ∧
      exit task.env k = some k' ∧ s' = (s.setConn task.conn k').setTask t none := by
  unfold selectSend at h
  split at h
  · cases h
  next task ht =>
  split at h
  · next k ha hk =>
    obtain ⟨k', hk', rfl⟩ := map_eq_some_iff.mp h
    exact ⟨task, k, k', ht, ha, hk, hk', rfl⟩
  · cases h

theorem selectSend_same (h : selectSend s t exit = some s') (hexit : ∀ x k k', exit x k = some k' → k' = k) :
    ∃ task, s.tasks t = some task ∧ s' = s.setTask t none := by
  obtain ⟨task, k, k', ht, -, hk, hk', rfl⟩ := selectSend_eq_some h
  refine ⟨task, ht, ?_⟩
  rw [hexit _ _ _ hk', State.setConn, ← hk, update_eq_self]

theorem moved_of_hubRegister (h : hubRegister s = some s') : Moved s .hubRegister s' := by
  unfold hubRegister at h
  split at h <;> cases h
  next c rest hreg =>
    dsimp only
    split
    next prev hprev =>
      split
      next hne =>
        unfold replacePrev
        split
        next => exact .hubRegister ..
        next hk => exact .hubReplace _ _ _ hprev (by simpa [hreg] using Ne.symm hne) hk
      next => exact .hubRegister ..
    next => exact .hubRegister ..

theorem moved_of_hubUnregister (h : hubUnregister s = some s') : Moved s .hubUnregister s' := by
  unfold hubUnregister at h
  split at h
  next => cases h
  next =>
    dsimp only at h
    split at h <;> cases h
    next =>
      unfold closeConn
      split
      next hk => exact .hubClose _ _ _ hk
      next => exact .hubUnregister ..
    next => exact .hubUnregister ..

theorem moved_of_clientHello (h : clientHello s c t = some s') : Moved s (.clientHello c t) s' := by
  unfold clientHello at h
  split at h
  next => cases h
  next hk =>
    split at h
    next =>
      cases h
      exact .clientHello hk
    next =>
      split at h <;> cases h
      next => exact .helloStale hk
      next hsince => exact .helloReplay hk hsince
    next => cases h

end Inversion

theorem moved_of_step {a : Action} (h : step s a = some s') : Moved s a s' := by
  cases a with
  | connect c device =>
    obtain ⟨hc, h⟩ := ite_none_right_eq_some.mp h
    cases h
    exact .connect (isNone_iff_eq_none.mp hc)
  | greet c t =>
    simp only [step] at h
    split at h
    next => cases h
    next =>
      obtain ⟨u, hu, rfl⟩ := map_eq_some_iff.mp h
      obtain ⟨k, hk, -, rfl⟩ := onConn_guard hu
      exact .greet hk
  | start c =>
    obtain ⟨k, k', hk, hf, rfl⟩ := onConn_eq_some h
    unfold startPumps at hf
    split at hf
    next =>
      obtain ⟨-, hf⟩ := ite_none_right_eq_some.mp hf
      cases hf
      exact .start hk
    next => cases hf
  | emit c t type =>
    simp only [step] at h
    split at h
    next =>
      obtain ⟨hemit, h⟩ := ite_none_right_eq_some.mp h
      cases h
      exact .emit hemit.2
    next => cases h
  | append t size =>
    simp only [step, append] at h
    split at h
    next => cases h
    next ht =>
      obtain ⟨ha, h⟩ := ite_none_left_eq_some.mp h
      cases h
      exact .append ht (Bool.not_eq_true _ ▸ ha)
  | send t =>
    obtain ⟨task, k, k', ht, ha, hk, hf, rfl⟩ := selectSend_eq_some h
    obtain ⟨-, hf⟩ := ite_none_right_eq_some.mp hf
    cases hf
    exact .send ht ha hk
  | done t =>
    obtain ⟨task, ht, rfl⟩ := selectSend_same h fun _ _ _ hf => by
      cases (ite_none_right_eq_some.mp hf).2
      rfl
    exact .done ht
  | drop t =>
    obtain ⟨task, ht, rfl⟩ := selectSend_same h fun _ _ _ hf => by
      cases (ite_none_right_eq_some.mp hf).2
      rfl
    exact .drop ht
  | drain c =>
    obtain ⟨k, k', hk, hf, rfl⟩ := onConn_eq_some h
    unfold drain at hf
    split at hf
    next => cases hf
    next hsend =>
      obtain ⟨hp, hf⟩ := ite_none_right_eq_some.mp hf
      cases hf
      exact .drain hk hsend hp.2
  | writeFail c =>
    obtain ⟨k, k', hk, hf, rfl⟩ := onConn_eq_some h
    unfold writeFail at hf
    split at hf
    next => cases hf
    next hsend =>
      obtain ⟨hp, hf⟩ := ite_none_right_eq_some.mp hf
      cases hf
      exact .writeFail hk hsend hp.2
  | pumpExit c =>
    obtain ⟨k, hk, hp, rfl⟩ := onConn_guard h
    exact .pumpExit hk hp.2
  | close c =>
    obtain ⟨k, hk, -, rfl⟩ := onConn_guard h
    exact .close hk
  | leave c =>
    obtain ⟨u, hu, rfl⟩ := map_eq_some_iff.mp h
    obtain ⟨k, hk, -, rfl⟩ := onConn_guard hu
    exact .leave hk
  | cut c =>
    obtain ⟨k, k', hk, hf, rfl⟩ := onConn_eq_some h
    cases hf
    exact .cut hk
  | deliver c =>
    simp only [step, deliver] at h
    split at h
    next => cases h
    next hk =>
      split at h <;> cases h
      next hdead hwire => exact .deliver hk hdead hwire
  | hubRegister => exact moved_of_hubRegister h
  | hubUnregister => exact moved_of_hubUnregister h
  | resume c lastID =>
    simp only [step, resume] at h
    split at h
    next => cases h
    next hk =>
      obtain ⟨-, h⟩ := ite_none_left_eq_some.mp h
      cases h
      exact .resume hk
  | clientHello c t => exact moved_of_clientHello h
  | replay c =>
    obtain ⟨k, k', hk, hf, rfl⟩ := onConn_eq_some h
    unfold replayStep at hf
    split at hf
    next => cases hf
    next hr =>
      split at hf <;> cases hf
      next => exact .replay hk hr
      next => exact .replayEnds hk

end NomadDev.Resume
