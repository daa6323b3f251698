import NomadDev.Foundation.Transition

/-!
A step is one region under the session's mutex, one call on the connection, or one result of the network.
-/

namespace NomadDev.Wire

open Function

inductive Status
  | idle | connecting | opened | closed | unauthorized

inductive Body
  | clientHello (lastEventID : String)
  | userIntent (text : String)
  | other (type : String)
  deriving DecidableEq

structure Envelope where
  id : String
  body : Body
  deriving DecidableEq

structure SessionConfig where
  outboxCap : ℕ
  lastEventID : String

def SessionConfig.cap (cfg : SessionConfig) : ℕ := if cfg.outboxCap = 0 then 64 else cfg.outboxCap

/-- A connection: the last id observed before it was dialled, what was written to it, and what had been written
when `readHelloAndResume` returned without an error. -/
structure Conn where
  bookmark : String
  written : List Envelope
  greeted : Option (List Envelope)
  closed : Bool

def Conn.dialed (bookmark : String) : Conn := ⟨bookmark, [], none, false⟩

inductive Phase
  | top | checked | dialing
  | dialed (c : ℕ)
  | greeting (c : ℕ)
  | observed (c : ℕ) (hello : Envelope)
  | ready (c : ℕ)
  | opened (c : ℕ)
  | draining (c conn : ℕ) (pending : List Envelope)
  | requeue (c : ℕ) (leftover : List Envelope)
  | reading (c : ℕ)
  | failing (c : ℕ) | shut
  | ended (c : ℕ) | unhooked (c : ℕ)
  | detached | refused | returned
  deriving DecidableEq

structure Session where
  conn : Option ℕ
  closed : Bool
  outbox : List Envelope
  lastEvent : String
  status : Status
  phase : Phase
  cancelled : Bool
  dials : ℕ
  conns : ℕ → Conn
  closing : List ℕ
  seen : List Envelope

inductive DialResult
  | ok | unauthorized | failed

inductive Action
  | proceed
  | dial (result : DialResult)
  | hello (read : Option Envelope)
  | resume (built : Option String) (written : Bool)
  | drain (written : Bool)
  | receive (read : Option Envelope)
  | cancel
  | send (env : Envelope) (written : Bool)
  | close
  | closeConn (c : ℕ)

variable (cfg : SessionConfig)

def newSession : Session where
  conn := none
  closed := false
  outbox := []
  lastEvent := cfg.lastEventID
  status := .idle
  phase := .top
  cancelled := false
  dials := 0
  conns := fun _ => .dialed ""
  closing := []
  seen := []

def lastSeen (seen : List Envelope) : String := (seen.getLast?.map Envelope.id).getD cfg.lastEventID

namespace Session

variable (s : Session)

def goto (phase : Phase) : Session := { s with phase := phase }

def setStatus (status : Status) : Session := { s with status := status }

def observe (env : Envelope) : Session := { s with lastEvent := env.id, seen := s.seen ++ [env] }

def modifyConn (c : ℕ) (f : Conn → Conn) : Session :=
  { s with conns := update s.conns c (f (s.conns c)) }

def writeEnvelope (c : ℕ) (env : Envelope) : Option Session :=
  if (s.conns c).closed then none
  else some (s.modifyConn c fun w => { w with written := w.written ++ [env] })

def closeConn (c : ℕ) : Session := s.modifyConn c fun w => { w with closed := true }

def greet (c : ℕ) : Session := s.modifyConn c fun w => { w with greeted := some w.written }

end Session

def proceed (s : Session) : Option Session :=
  match s.phase with
  | .top => some (s.goto (if s.cancelled || s.closed then .returned else .checked))
  | .checked => some ((s.setStatus .connecting).goto .dialing)
  | .dialed c => some ({ s with conn := some c }.goto (.greeting c))
  | .ready c => some ((s.setStatus .opened).goto (.opened c))
  | .opened c =>
    some ({ s with outbox := [] }.goto (match s.conn with
      | none => .failing c
      | some conn => .draining c conn s.outbox))
  | .draining c _ [] => some (s.goto (.reading c))
  | .requeue c leftover => some ({ s with outbox := leftover ++ s.outbox }.goto (.failing c))
  | .reading c => if s.cancelled then some (s.goto (.ended c)) else none
  | .failing c => some ((s.closeConn c).goto .shut)
  | .shut => some ({ s with conn := none }.goto .detached)
  | .ended c => some ({ s with conn := none }.goto (.unhooked c))
  | .unhooked c => some ((s.closeConn c).goto .detached)
  | .detached => some ((s.setStatus .closed).goto .top)
  | .refused => some ((s.setStatus .unauthorized).goto .returned)
  | _ => none

def resume (s : Session) (c : ℕ) (hello : Envelope) (built : Option String) (written : Bool) : Option Session :=
  let lastID := s.lastEvent
  if lastID ≠ "" ∧ lastID ≠ hello.id then
    match built, written with
    | none, _ => some (s.goto (.failing c))
    | some _, false => some (s.goto (.failing c))
    | some id, true => (s.writeEnvelope c ⟨id, .clientHello lastID⟩).map fun s => (s.greet c).goto (.ready c)
  else some ((s.greet c).goto (.ready c))

def send (s : Session) (env : Envelope) (written : Bool) : Option Session :=
  if s.closed then some s
  else match s.conn, s.status with
    | some c, .opened => if written then s.writeEnvelope c env else some s
    | _, _ =>
      match env.body with
      | .userIntent _ =>
        some { s with outbox := (if cfg.cap ≤ s.outbox.length then s.outbox.tail else s.outbox) ++ [env] }
      | _ => some s

def step (s : Session) : Action → Option Session
  | .proceed => proceed s
  | .dial result =>
    match s.phase, result with
    | .dialing, .ok =>
      some { s with
        phase := .dialed s.dials
        dials := s.dials + 1
        conns := update s.conns s.dials (.dialed (lastSeen cfg s.seen)) }
    | .dialing, .unauthorized => some (s.goto .refused)
    | .dialing, .failed => some (s.goto .detached)
    | _, _ => none
  | .hello read =>
    match s.phase, read with
    | .greeting c, some env => some ((s.observe env).goto (.observed c env))
    | .greeting c, none => some (s.goto (.failing c))
    | _, _ => none
  | .resume built written =>
    match s.phase with
    | .observed c hello => resume s c hello built written
    | _ => none
  | .drain written =>
    match s.phase, written with
    | .draining c conn (env :: rest), true => (s.writeEnvelope conn env).map (·.goto (.draining c conn rest))
    | .draining c _ (env :: rest), false => some (s.goto (.requeue c (env :: rest)))
    | _, _ => none
  | .receive read =>
    match s.phase, read with
    | .reading _, some env => some (s.observe env)
    | .reading c, none => some (s.goto (.ended c))
    | _, _ => none
  | .cancel => some { s with cancelled := true }
  | .send env written => send cfg s env written
  | .close => some { s with closed := true, conn := none, closing := s.conn.toList ++ s.closing }
  | .closeConn c => if c ∈ s.closing then some ({ s with closing := s.closing.erase c }.closeConn c) else none

variable (s : Session)

inductive Moved : Action → Session → Prop
  | stop (hp : s.phase = .top) : Moved .proceed (s.goto .returned)
  | check (hp : s.phase = .top) : Moved .proceed (s.goto .checked)
  | connect (hp : s.phase = .checked) : Moved .proceed ((s.setStatus .connecting).goto .dialing)
  | publish {c} (hp : s.phase = .dialed c) : Moved .proceed ({ s with conn := some c }.goto (.greeting c))
  | opens {c} (hp : s.phase = .ready c) : Moved .proceed ((s.setStatus .opened).goto (.opened c))
  | abandon {c} (hp : s.phase = .opened c) (hconn : s.conn = none) :
      Moved .proceed ({ s with outbox := [] }.goto (.failing c))
  | take {c conn} (hp : s.phase = .opened c) (hconn : s.conn = some conn) :
      Moved .proceed ({ s with outbox := [] }.goto (.draining c conn s.outbox))
  | drained {c conn} (hp : s.phase = .draining c conn []) : Moved .proceed (s.goto (.reading c))
  | requeue {c leftover} (hp : s.phase = .requeue c leftover) :
      Moved .proceed ({ s with outbox := leftover ++ s.outbox }.goto (.failing c))
  | finish {c} (hp : s.phase = .reading c) : Moved .proceed (s.goto (.ended c))
  | fail {c} (hp : s.phase = .failing c) : Moved .proceed ((s.closeConn c).goto .shut)
  | detach (hp : s.phase = .shut) : Moved .proceed ({ s with conn := none }.goto .detached)
  | unhook {c} (hp : s.phase = .ended c) : Moved .proceed ({ s with conn := none }.goto (.unhooked c))
  | hangUp {c} (hp : s.phase = .unhooked c) : Moved .proceed ((s.closeConn c).goto .detached)
  | again (hp : s.phase = .detached) : Moved .proceed ((s.setStatus .closed).goto .top)
  | giveUp (hp : s.phase = .refused) : Moved .proceed ((s.setStatus .unauthorized).goto .returned)
  | dial (hp : s.phase = .dialing) : Moved (.dial .ok) { s with
      phase := .dialed s.dials
      dials := s.dials + 1
      conns := update s.conns s.dials (.dialed (lastSeen cfg s.seen)) }
  | refuse (hp : s.phase = .dialing) : Moved (.dial .unauthorized) (s.goto .refused)
  | dialFails (hp : s.phase = .dialing) : Moved (.dial .failed) (s.goto .detached)
  | hello {c env} (hp : s.phase = .greeting c) :
      Moved (.hello (some env)) ((s.observe env).goto (.observed c env))
  | noHello {c} (hp : s.phase = .greeting c) : Moved (.hello none) (s.goto (.failing c))
  | resumeFails {c hello built written} (hp : s.phase = .observed c hello) (hne : s.lastEvent ≠ hello.id) :
      Moved (.resume built written) (s.goto (.failing c))
  | greet {c hello built written} (hp : s.phase = .observed c hello) :
      Moved (.resume built written) ((s.greet c).goto (.ready c))
  | resume {c hello built written id lastID u} (hp : s.phase = .observed c hello) (hne : s.lastEvent ≠ hello.id)
      (hw : s.writeEnvelope c ⟨id, .clientHello lastID⟩ = some u) :
      Moved (.resume built written) ((u.greet c).goto (.ready c))
  | write {c conn env rest u} (hp : s.phase = .draining c conn (env :: rest)) (hw : s.writeEnvelope conn env = some u) :
      Moved (.drain true) (u.goto (.draining c conn rest))
  | noWrite {c conn env rest} (hp : s.phase = .draining c conn (env :: rest)) :
      Moved (.drain false) (s.goto (.requeue c (env :: rest)))
  | receive {c env} (hp : s.phase = .reading c) : Moved (.receive (some env)) (s.observe env)
  | readFails {c} (hp : s.phase = .reading c) : Moved (.receive none) (s.goto (.ended c))
  | cancel : Moved .cancel { s with cancelled := true }
  | queue {env written} (outbox : List Envelope) : Moved (.send env written) { s with outbox := outbox }
  | direct {c env written t} (hopen : s.closed = false) (hconn : s.conn = some c) (hs : s.status = .opened)
      (hw : s.writeEnvelope c env = some t) : Moved (.send env written) t
  | close : Moved .close { s with closed := true, conn := none, closing := s.conn.toList ++ s.closing }
  | closeConn {c} : Moved (.closeConn c) ({ s with closing := s.closing.erase c }.closeConn c)

variable {cfg s} {t : Session}

theorem writeEnvelope_eq {c : ℕ} {env : Envelope} (h : s.writeEnvelope c env = some t) :
    t = s.modifyConn c fun w => { w with written := w.written ++ [env] } :=
  (Option.some.inj (Option.ite_none_left_eq_some.mp h).2).symm

theorem moved_of_proceed (h : proceed s = some t) : Moved cfg s .proceed t := by
  unfold proceed at h
  repeat' split at h
  all_goals cases h
  exacts [.stop ‹_›, .check ‹_›, .connect ‹_›, .publish ‹_›, .opens ‹_›, .abandon ‹_› ‹_›, .take ‹_› ‹_›, .drained ‹_›,
    .requeue ‹_›, .finish ‹_›, .fail ‹_›, .detach ‹_›, .unhook ‹_›, .hangUp ‹_›, .again ‹_›, .giveUp ‹_›]

theorem moved_of_resume {c : ℕ} {hello : Envelope} {built : Option String} {written : Bool}
    (hp : s.phase = .observed c hello) (h : resume s c hello built written = some t) :
    Moved cfg s (.resume built written) t := by
  simp only [resume] at h
  split at h
  next hne =>
    split at h
    next =>
      cases h
      exact .resumeFails hp hne.2
    next =>
      cases h
      exact .resumeFails hp hne.2
    next =>
      obtain ⟨u, hu, rfl⟩ := Option.map_eq_some_iff.mp h
      exact .resume hp hne.2 hu
  next =>
    cases h
    exact .greet hp

theorem moved_of_send {env : Envelope} {written : Bool} (h : send cfg s env written = some t) :
    Moved cfg s (.send env written) t := by
  unfold send at h
  split at h
  next =>
    cases h
    exact .queue s.outbox
  next hopen =>
    split at h
    next hconn hs =>
      split at h
      next => exact .direct (Bool.not_eq_true _ ▸ hopen) hconn hs h
      next =>
        cases h
        exact .queue s.outbox
    next =>
      split at h <;> cases h <;> exact .queue _

theorem moved_of_step {a : Action} (h : step cfg s a = some t) : Moved cfg s a t := by
  cases a with simp only [step] at h
  | proceed => exact moved_of_proceed h
  | dial result =>
    split at h <;> cases h
    exacts [.dial ‹_›, .refuse ‹_›, .dialFails ‹_›]
  | hello read =>
    split at h <;> cases h
    exacts [.hello ‹_›, .noHello ‹_›]
  | resume built written =>
    split at h
    next hp => exact moved_of_resume hp h
    next => cases h
  | drain written =>
    split at h
    next hp =>
      obtain ⟨u, hw, rfl⟩ := Option.map_eq_some_iff.mp h
      exact .write hp hw
    next hp =>
      cases h
      exact .noWrite hp
    next => cases h
  | receive read =>
    split at h <;> cases h
    exacts [.receive ‹_›, .readFails ‹_›]
  | cancel =>
    cases h
    exact .cancel
  | send env written => exact moved_of_send h
  | close =>
    cases h
    exact .close
  | closeConn c =>
    obtain ⟨-, heq⟩ := Option.ite_none_right_eq_some.mp h
    cases heq
    exact .closeConn

end NomadDev.Wire
