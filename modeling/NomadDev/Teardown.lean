import NomadDev.Foundation.Transition

namespace NomadDev.Teardown

open Function

inductive Phase
  | absent
  | serving
  | stoppingDaemons (targets : List ℕ)
  | daemonsStopped
  | stoppingServers (targets : List ℕ)
  | finished

inductive Work
  | running
  | spawned (p : ℕ)
  | holding (e : ℕ)

/-- Connections, processes and LSP entries are numbered as they come. `startedBy` is the connection of the handler that
started a process; `stoppedBy` the connection whose teardown stopped it, if one did. A language server is `closed` once
its `done` channel is: after `Shutdown`, or when its reader has met the end of its output or a frame it cannot read. -/
structure State where
  conns : ℕ
  sid : ℕ → String
  phase : ℕ → Phase
  handlers : ℕ → Option (ℕ × Work)
  procs : ℕ
  startedBy : ℕ → ℕ
  (stopped closed : ℕ → Bool)
  stoppedBy : ℕ → Option ℕ
  daemons : List ℕ
  slots : ℕ
  (slotSid slotLang : ℕ → String)
  server : ℕ → Option ℕ
  entries : List ℕ

def init : State :=
  { conns := 0, sid := fun _ => "", phase := fun _ => .absent, handlers := fun _ => none, procs := 0,
    startedBy := fun _ => 0, stopped := fun _ => false, closed := fun _ => false, stoppedBy := fun _ => none,
    daemons := [], slots := 0, slotSid := fun _ => "", slotLang := fun _ => "", server := fun _ => none,
    entries := [] }

inductive Action
  | connect (sid : String)
  | dispatch (h c : ℕ)
  | startDaemon (h : ℕ)
  | register (h : ℕ)
  | fetchEntry (h : ℕ) (lang : String)
  | getOrStart (h : ℕ) (initialized : Bool)
  | returns (h : ℕ)
  | exit (p : ℕ)
  | endRead (p : ℕ)
  | stopDaemon (sid : String) (p : ℕ)
  | scanDaemons (c : ℕ)
  | stopNextDaemon (c : ℕ)
  | scanServers (c : ℕ)
  | stopNextServer (c : ℕ)
  | reapServer (e : ℕ)
  | reapEntry (e : ℕ)

namespace State

variable (s : State)

def work (h c : ℕ) (w : Work) : State := { s with handlers := update s.handlers h (some (c, w)) }

def setPhase (c : ℕ) (ph : Phase) : State := { s with phase := update s.phase c ph }

def start (c : ℕ) : State :=
  { s with
    procs := s.procs + 1
    startedBy := update s.startedBy s.procs c
    stopped := update s.stopped s.procs false
    closed := update s.closed s.procs false
    stoppedBy := update s.stoppedBy s.procs none }

def kill (p : ℕ) : State := { s with stopped := update s.stopped p true }

def close (p : ℕ) : State := { s with closed := update s.closed p true }

def killBy (p c : ℕ) : State :=
  if s.stopped p then s else { s.kill p with stoppedBy := update s.stoppedBy p (some c) }

def unregister (p : ℕ) : State := { s with daemons := s.daemons.filter (· ≠ p) }

def setServer (e : ℕ) (p : Option ℕ) : State := { s with server := update s.server e p }

def daemonsOf (sid : String) : List ℕ := s.daemons.filter fun p => s.sid (s.startedBy p) = sid

def entriesOf (sid : String) : List ℕ := s.entries.filter fun e => s.slotSid e = sid

end State

def fetchEntry (s : State) (h c : ℕ) (lang : String) : State :=
  match s.entries.find? fun e => s.slotSid e = s.sid c ∧ s.slotLang e = lang with
  | some e => s.work h c (.holding e)
  | none =>
    { s.work h c (.holding s.slots) with
      slots := s.slots + 1
      slotSid := update s.slotSid s.slots (s.sid c)
      slotLang := update s.slotLang s.slots lang
      server := update s.server s.slots none
      entries := s.slots :: s.entries }

def getOrStart (s : State) (c e : ℕ) (initialized : Bool) : State :=
  if (s.server e).any fun p => !s.closed p then s
  else if initialized then (s.start c).setServer e (some s.procs)
  else ((s.start c).kill s.procs).close s.procs

def step (s : State) : Action → Option State
  | .connect sid =>
    some { s with
      conns := s.conns + 1
      sid := update s.sid s.conns sid
      phase := update s.phase s.conns .serving }
  | .dispatch h c =>
    match s.handlers h, s.phase c with
    | none, .serving => some (s.work h c .running)
    | _, _ => none
  | .startDaemon h =>
    match s.handlers h with
    | some (c, .running) => some ((s.start c).work h c (.spawned s.procs))
    | _ => none
  | .register h =>
    match s.handlers h with
    | some (c, .spawned p) => some ({ s with daemons := p :: s.daemons }.work h c .running)
    | _ => none
  | .fetchEntry h lang =>
    match s.handlers h with
    | some (c, .running) => some (fetchEntry s h c lang)
    | _ => none
  | .getOrStart h initialized =>
    match s.handlers h with
    | some (c, .holding e) => some ((getOrStart s c e initialized).work h c .running)
    | _ => none
  | .returns h =>
    match s.handlers h with
    | some (_, .running) => some { s with handlers := update s.handlers h none }
    | _ => none
  | .exit p => if p < s.procs then some (s.kill p) else none
  | .endRead p => if p < s.procs then some (s.close p) else none
  | .stopDaemon sid p => if p ∈ s.daemonsOf sid then some ((s.kill p).unregister p) else none
  | .scanDaemons c =>
    match s.phase c with
    | .serving => some (s.setPhase c (.stoppingDaemons (s.daemonsOf (s.sid c))))
    | _ => none
  | .stopNextDaemon c =>
    match s.phase c with
    | .stoppingDaemons (p :: rest) => some (((s.killBy p c).unregister p).setPhase c (.stoppingDaemons rest))
    | .stoppingDaemons [] => some (s.setPhase c .daemonsStopped)
    | _ => none
  | .scanServers c =>
    match s.phase c with
    | .daemonsStopped =>
      some ({ s with entries := s.entries.filter fun e => s.slotSid e ≠ s.sid c }.setPhase c
        (.stoppingServers (s.entriesOf (s.sid c))))
    | _ => none
  | .stopNextServer c =>
    match s.phase c with
    | .stoppingServers (e :: rest) =>
      match s.server e with
      | some p => some ((((s.killBy p c).close p).setServer e none).setPhase c (.stoppingServers rest))
      | none => some (s.setPhase c (.stoppingServers rest))
    | .stoppingServers [] => some (s.setPhase c .finished)
    | _ => none
  | .reapServer e =>
    match s.server e with
    | some p => some (((s.kill p).close p).setServer e none)
    | none => none
  | .reapEntry e =>
    match s.server e with
    | none => some { s with entries := s.entries.filter (· ≠ e) }
    | some _ => none

end NomadDev.Teardown
