import NomadDev.ToolPaths
import NomadDev.Foundation.OneShot
import NomadDev.Foundation.PointUpdate
import NomadDev.Foundation.Transition

namespace NomadDev.Approval

open Tools Foundation.OneShot Foundation.PointUpdate Function

structure Signal where
  sid : String
  correlationID : ℕ
  granted : Bool

structure Channel where
  id : ℕ
  slot : Slot Signal

def PendingChan (nextChan : ℕ) (pending : ℕ → Option ℕ) (chans : ℕ → Channel) : Prop :=
  ∀ id c, pending id = some c → c < nextChan ∧ (chans c).id = id

structure Approver where
  nextChan : ℕ
  pending : ℕ → Option ℕ
  chans : ℕ → Channel
  pending_chan : PendingChan nextChan pending chans

def Approver.empty : Approver := ⟨0, fun _ => none, fun _ => ⟨0, .empty⟩, nofun⟩

theorem pendingChan_register (p : Approver) (id : ℕ) : PendingChan (p.nextChan + 1)
    (update p.pending id (some p.nextChan)) (update p.chans p.nextChan ⟨id, .empty⟩) := by
  intro i c h
  rcases of_update_some h with ⟨rfl, rfl⟩ | ⟨-, h⟩
  · simp
  · have hc := p.pending_chan i c h
    rw [update_of_ne (by omega)]
    exact ⟨by omega, hc.2⟩

theorem pendingChan_setSlot (p : Approver) (c : ℕ) (slot : Slot Signal) :
    PendingChan p.nextChan p.pending (update p.chans c ⟨(p.chans c).id, slot⟩) := by
  intro i d h
  have hd := p.pending_chan i d h
  by_cases hc : d = c
  · subst hc
    simpa using hd
  · simpa [update_of_ne hc] using hd

theorem pendingChan_cancel (p : Approver) (id : ℕ) : PendingChan p.nextChan (update p.pending id none) p.chans :=
  fun i c h => p.pending_chan i c (of_update_none h).2

variable (p : Approver)

def Approver.register (id : ℕ) : Approver :=
  match p.pending id with
  | some _ => p
  | none =>
    { nextChan := p.nextChan + 1
      pending := update p.pending id (some p.nextChan)
      chans := update p.chans p.nextChan ⟨id, .empty⟩
      pending_chan := pendingChan_register p id }

def Approver.setSlot (c : ℕ) (slot : Slot Signal) : Approver :=
  { p with
    chans := update p.chans c ⟨(p.chans c).id, slot⟩
    pending_chan := pendingChan_setSlot p c slot }

def Approver.send (c : ℕ) (sig : Signal) : Approver :=
  p.setSlot c ((p.chans c).slot.offer sig)

def Approver.cancel (id : ℕ) : Approver :=
  { p with
    pending := update p.pending id none
    pending_chan := pendingChan_cancel p id }

variable {α : Type}

inductive Route (α : Type)
  | command (p : Except String (CommandRequest α))
  | turn (mode : Mode) (call : ToolCall α)
  | worker (task : SubTask) (call : ToolCall α)

structure Origin (α : Type) where
  srv : Server α
  client : Client
  route : Route α

def Origin.gate (o : Origin α) : Option (Gate α) :=
  match o.route with
  | .command p => some (handleCommandRequest o.srv o.client p)
  | .turn mode call => o.srv.mw.map fun mw => runToolCall o.srv mw o.client mode call
  | .worker task call => o.srv.mw.map fun mw => runWorkerToolCall o.srv mw task call

inductive Stage
  | minted | registered | requested

inductive Phase (α : Type)
  | asking (stage : Stage) (id : ℕ) (next : Answer → Outcome α)
  | waiting (id c : ℕ) (next : Answer → Outcome α)
  | resolved (id : ℕ) (c : Option ℕ) (answer : Answer) (outcome : Outcome α)
  | finished (outcome : Outcome α)

def Phase.id : Phase α → Option ℕ
  | .asking _ id _ | .waiting id _ _ | .resolved id _ _ _ => some id
  | .finished _ => none

def Phase.outcome : Phase α → Option (Outcome α)
  | .resolved _ _ _ o | .finished o => some o
  | _ => none

structure Job (α : Type) where
  origin : Origin α
  phase : Phase α

structure State (α : Type) where
  approver : Approver
  nextID : ℕ
  jobs : ℕ → Option (Job α)
  sending : ℕ → Option (ℕ × Signal)
  requests : List (String × ℕ)

def init : State α := ⟨.empty, 0, fun _ => none, fun _ => none, []⟩

inductive Action (α : Type)
  | start (j : ℕ) (o : Origin α)
  | register (j : ℕ)
  | request (j : ℕ)
  | await (j : ℕ)
  | receive (j : ℕ)
  | timeout (j : ℕ)
  | ctxDone (j : ℕ) (deadline : Bool)
  | release (j : ℕ)
  | signal (t : ℕ) (sid : String) (correlationID : Option ℕ) (granted : Bool)
  | send (t : ℕ)
  | registerID (id : ℕ)
  | cancelID (id : ℕ)

variable (s : State α)

def State.setJob (j : ℕ) (o : Origin α) (ph : Phase α) : State α :=
  { s with jobs := update s.jobs j (some ⟨o, ph⟩) }

def start (j : ℕ) (o : Origin α) : Option (State α) :=
  match s.jobs j, o.gate with
  | none, some (.done out) => some (s.setJob j o (.finished out))
  | none, some (.ask _ next) =>
    some { s.setJob j o (.asking .minted s.nextID next) with nextID := s.nextID + 1 }
  | _, _ => none

def awaitID (j : ℕ) (o : Origin α) (id : ℕ) (next : Answer → Outcome α) : State α :=
  match s.approver.pending id with
  | none => s.setJob j o (.resolved id none .unknownID (next .unknownID))
  | some c => s.setJob j o (.waiting id c next)

def verdict (sig : Signal) : Answer := if sig.granted then .granted else .denied

def receive (j : ℕ) (o : Origin α) (id c : ℕ) (next : Answer → Outcome α) : Option (State α) :=
  match h : (s.approver.chans c).slot.buffer with
  | none => none
  | some sig =>
    some { s.setJob j o (.resolved id (some c) (verdict sig) (next (verdict sig))) with
      approver := s.approver.setSlot c ((s.approver.chans c).slot.take sig h) }

def giveUp (j : ℕ) (a : Answer) : Option (State α) :=
  match s.jobs j with
  | some ⟨o, .waiting id c next⟩ => some (s.setJob j o (.resolved id (some c) a (next a)))
  | _ => none

def routeApproval (t : ℕ) (sid : String) (correlationID : Option ℕ) (granted : Bool) : State α :=
  match correlationID with
  | none => s
  | some id =>
    match s.approver.pending id with
    | none => s
    | some c => { s with sending := update s.sending t (some (c, ⟨sid, id, granted⟩)) }

def step : Action α → Option (State α)
  | .start j o => start s j o
  | .register j =>
    match s.jobs j with
    | some ⟨o, .asking .minted id next⟩ =>
      some { s.setJob j o (.asking .registered id next) with approver := s.approver.register id }
    | _ => none
  | .request j =>
    match s.jobs j with
    | some ⟨o, .asking .registered id next⟩ =>
      some { s.setJob j o (.asking .requested id next) with requests := s.requests ++ [(o.client.sid, id)] }
    | _ => none
  | .await j =>
    match s.jobs j with
    | some ⟨o, .asking .requested id next⟩ => some (awaitID s j o id next)
    | _ => none
  | .receive j =>
    match s.jobs j with
    | some ⟨o, .waiting id c next⟩ => receive s j o id c next
    | _ => none
  | .timeout j => giveUp s j .timeout
  | .ctxDone j deadline => giveUp s j (if deadline then .deadline else .canceled)
  | .release j =>
    match s.jobs j with
    | some ⟨_, .resolved id _ _ _⟩ => some { s with approver := s.approver.cancel id }
    | _ => none
  | .signal t sid correlationID granted =>
    match s.sending t with
    | none => some (routeApproval s t sid correlationID granted)
    | some _ => none
  | .send t =>
    match s.sending t with
    | none => none
    | some (c, sig) =>
      some { s with approver := s.approver.send c sig, sending := update s.sending t none }
  | .registerID id => some { s with approver := s.approver.register id }
  | .cancelID id => some { s with approver := s.approver.cancel id }

end NomadDev.Approval
