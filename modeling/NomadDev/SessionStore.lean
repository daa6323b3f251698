import NomadDev.Foundation.Transition
import NomadDev.Foundation.Window
import NomadDev.RingBuffer

/-!
Each step of a call is what it does under one lock or in one SQL statement.
-/

namespace NomadDev.SessionDB

open Function
open NomadDev.Session (Envelope Entry RingBuffer newRingBuffer)

structure Codec (B : Type) where
  marshal : Envelope → B
  unmarshal : B → Option Envelope
  unmarshal_marshal : ∀ env, unmarshal (marshal env) = some env

structure Row (B : Type) where
  idx : ℕ
  body : B
  size : ℕ

structure Session where
  sid : String
  lastSeen : ℤ
  buffer : RingBuffer

inductive Call
  | idle
  | created (sid : String) (ref : ℕ) (now : ℤ)
  | loaded (sid : String) (ref : ℕ) (now : ℤ) (batch : Option (List Entry))
  | rehydrated (sid : String) (ref : ℕ) (now : ℤ)
  | pushed (sid : String) (entry : Entry)
  | inserted (sid : String) (next : ℕ)
  | touched (sid : String) (next : ℕ)
  | sweeping (stale : List String)
  | unmapped (sid : String) (stale : List String)
  | emptied (sid : String) (stale : List String)

/-- `events sid` are the rows of `session_events` in the order of their idx, `rows sid` the `last_seen` of the row in
`sessions`; `conns` are the open connections with the session each holds, `handed` the sessions some call returned. -/
structure State (B : Type) where
  events : String → List (Row B)
  rows : String → Option ℤ
  sessions : String → Option ℕ
  heap : ℕ → Option Session
  fresh : ℕ
  sidLock : String → Bool
  calls : ℕ → Call
  conns : ℕ → Option ℕ
  handed : ℕ → Bool

variable {B : Type}

def init : State B :=
  { events := fun _ => [], rows := fun _ => none, sessions := fun _ => none, heap := fun _ => none, fresh := 0,
    sidLock := fun _ => false, calls := fun _ => .idle, conns := fun _ => none, handed := fun _ => false }

inductive Action
  | getOrCreate (g : ℕ) (sid : String) (now : ℤ)
  | query (g : ℕ)
  | load (g : ℕ)
  | upsert (g : ℕ)
  | append (g : ℕ) (ref : ℕ) (entry : Entry) (now : ℤ)
  | insert (g : ℕ)
  | touchRow (g : ℕ) (now : ℤ)
  | prune (g : ℕ)
  | sweep (g : ℕ) (now ttl : ℤ) (sids : List String)
  | unmap (g : ℕ)
  | deleteEvents (g : ℕ)
  | deleteSession (g : ℕ)
  | touch (ref : ℕ) (now : ℤ)
  | disconnect (g : ℕ)
  | stop

namespace State

variable (s : State B)

def call (g : ℕ) (c : Call) : State B := { s with calls := update s.calls g c }

def setSession (ref : ℕ) (sess : Session) : State B :=
  { s with heap := update s.heap ref (some sess) }

def setEvents (sid : String) (rows : List (Row B)) : State B :=
  { s with events := update s.events sid rows }

def setRow (sid : String) (lastSeen : Option ℤ) : State B :=
  { s with rows := update s.rows sid lastSeen }

def setLock (sid : String) (held : Bool) : State B :=
  { s with sidLock := update s.sidLock sid held }

def stopped : State B := { (init : State B) with events := s.events, rows := s.rows, fresh := s.fresh }

def ret (g ref : ℕ) : State B :=
  { s.call g .idle with
    conns := update s.conns g (some ref)
    handed := update s.handed ref true }

end State

def nextIdx : List (Row B) → ℕ
  | [] => 0
  | r :: rows => max (r.idx + 1) (nextIdx rows)

def pushAll (b : RingBuffer) : List Entry → RingBuffer
  | [] => b
  | e :: entries => pushAll (b.push e.env e.size) entries

section

variable (codec : Codec B) (bufferSize maxBytes : ℕ)

def decodeRow (r : Row B) : Option Entry := (codec.unmarshal r.body).map (⟨·, r.size⟩)

def loadRows (rows : List (Row B)) : Option (List Entry) :=
  ((rows.reverse.take bufferSize).mapM (decodeRow codec)).map List.reverse

def pruned (rows : List (Row B)) (next : ℕ) : List (Row B) :=
  if 2 * bufferSize < next then rows.filter fun r => next - 2 * bufferSize ≤ r.idx else rows

def getOrCreate (s : State B) (g : ℕ) (sid : String) (now : ℤ) : State B :=
  match s.sessions sid with
  | some ref =>
    match s.heap ref with
    | some sess => (s.setSession ref { sess with lastSeen := now }).ret g ref
    | none => s.ret g ref
  | none =>
    { (s.setSession s.fresh ⟨sid, now, newRingBuffer bufferSize maxBytes⟩).call g (.created sid s.fresh now) with
      sessions := update s.sessions sid (some s.fresh)
      fresh := s.fresh + 1 }

def step (s : State B) : Action → Option (State B)
  | .getOrCreate g sid now =>
    match s.calls g, s.conns g with
    | .idle, none => some (getOrCreate bufferSize maxBytes s g sid now)
    | _, _ => none
  | .query g =>
    match s.calls g with
    | .created sid ref now => some (s.call g (.loaded sid ref now (loadRows codec bufferSize (s.events sid))))
    | _ => none
  | .load g =>
    match s.calls g with
    | .loaded sid ref now batch =>
      match s.heap ref with
      | some sess =>
        some ((s.setSession ref { sess with buffer := pushAll sess.buffer (batch.getD []) }).call g
          (.rehydrated sid ref now))
      | none => none
    | _ => none
  | .upsert g =>
    match s.calls g with
    | .rehydrated sid ref now => some ((s.setRow sid (some now)).ret g ref)
    | _ => none
  | .append g ref entry now =>
    match s.calls g, s.handed ref, s.heap ref with
    | .idle, true, some sess =>
      some ((s.setSession ref
        { sess with buffer := sess.buffer.push entry.env entry.size, lastSeen := now }).call g (.pushed sess.sid entry))
    | _, _, _ => none
  | .insert g =>
    match s.calls g with
    | .pushed sid entry =>
      if s.sidLock sid then none
      else some (((s.setEvents sid
        (s.events sid ++ [⟨nextIdx (s.events sid), codec.marshal entry.env, entry.size⟩])).setLock sid true).call g
          (.inserted sid (nextIdx (s.events sid))))
    | _ => none
  | .touchRow g now =>
    match s.calls g with
    | .inserted sid next => some ((s.setRow sid ((s.rows sid).map fun _ => now)).call g (.touched sid next))
    | _ => none
  | .prune g =>
    match s.calls g with
    | .touched sid next =>
      some (((s.setEvents sid (pruned bufferSize (s.events sid) next)).setLock sid false).call g .idle)
    | _ => none
  | .sweep g now ttl sids =>
    match s.calls g with
    | .idle =>
      if sids.all fun sid => (s.rows sid).any (· < now - ttl) then some (s.call g (.sweeping sids)) else none
    | _ => none
  | .unmap g =>
    match s.calls g with
    | .sweeping (sid :: stale) =>
      some ({ s with sessions := update s.sessions sid none }.call g (.unmapped sid stale))
    | .sweeping [] => some (s.call g .idle)
    | _ => none
  | .deleteEvents g =>
    match s.calls g with
    | .unmapped sid stale =>
      if s.sidLock sid then none
      else some (((s.setEvents sid []).setLock sid true).call g (.emptied sid stale))
    | _ => none
  | .deleteSession g =>
    match s.calls g with
    | .emptied sid stale => some (((s.setRow sid none).setLock sid false).call g (.sweeping stale))
    | _ => none
  | .touch ref now =>
    match s.heap ref with
    | some sess => some (s.setSession ref { sess with lastSeen := now })
    | none => none
  | .disconnect g => some { s with conns := update s.conns g none }
  | .stop => some s.stopped

inductive Effect (s : State B) : Action → State B → Prop
  | getOrCreate {g : ℕ} (sid : String) (now : ℤ) (hg : s.calls g = .idle) (hfree : s.conns g = none) :
      Effect s (.getOrCreate g sid now) (getOrCreate bufferSize maxBytes s g sid now)
  | query {g ref : ℕ} {sid : String} {now : ℤ} (hg : s.calls g = .created sid ref now) :
      Effect s (.query g) (s.call g (.loaded sid ref now (loadRows codec bufferSize (s.events sid))))
  | load {g ref : ℕ} {sid : String} {now : ℤ} {batch : Option (List Entry)} {sess : Session}
      (hg : s.calls g = .loaded sid ref now batch) (hsess : s.heap ref = some sess) :
      Effect s (.load g) ((s.setSession ref { sess with buffer := pushAll sess.buffer (batch.getD []) }).call g
        (.rehydrated sid ref now))
  | upsert {g ref : ℕ} {sid : String} {now : ℤ} (hg : s.calls g = .rehydrated sid ref now) :
      Effect s (.upsert g) ((s.setRow sid (some now)).ret g ref)
  | append {g ref : ℕ} {sess : Session} (entry : Entry) (now : ℤ) (hg : s.calls g = .idle)
      (hheld : s.handed ref = true) (hsess : s.heap ref = some sess) :
      Effect s (.append g ref entry now) ((s.setSession ref
        { sess with buffer := sess.buffer.push entry.env entry.size, lastSeen := now }).call g (.pushed sess.sid entry))
  | insert {g : ℕ} {sid : String} {entry : Entry} (hg : s.calls g = .pushed sid entry)
      (hfree : s.sidLock sid = false) :
      Effect s (.insert g) (((s.setEvents sid
        (s.events sid ++ [⟨nextIdx (s.events sid), codec.marshal entry.env, entry.size⟩])).setLock sid true).call g
          (.inserted sid (nextIdx (s.events sid))))
  | touchRow {g next : ℕ} {sid : String} (now : ℤ) (hg : s.calls g = .inserted sid next) :
      Effect s (.touchRow g now) ((s.setRow sid ((s.rows sid).map fun _ => now)).call g (.touched sid next))
  | prune {g next : ℕ} {sid : String} (hg : s.calls g = .touched sid next) :
      Effect s (.prune g)
        (((s.setEvents sid (pruned bufferSize (s.events sid) next)).setLock sid false).call g .idle)
  | sweep {g : ℕ} {now ttl : ℤ} {sids : List String} (hg : s.calls g = .idle)
      (hstale : (sids.all fun sid => (s.rows sid).any (· < now - ttl)) = true) :
      Effect s (.sweep g now ttl sids) (s.call g (.sweeping sids))
  | unmap {g : ℕ} {sid : String} {stale : List String} (hg : s.calls g = .sweeping (sid :: stale)) :
      Effect s (.unmap g) ({ s with sessions := update s.sessions sid none }.call g (.unmapped sid stale))
  | swept {g : ℕ} (hg : s.calls g = .sweeping []) : Effect s (.unmap g) (s.call g .idle)
  | deleteEvents {g : ℕ} {sid : String} {stale : List String} (hg : s.calls g = .unmapped sid stale)
      (hfree : s.sidLock sid = false) :
      Effect s (.deleteEvents g) (((s.setEvents sid []).setLock sid true).call g (.emptied sid stale))
  | deleteSession {g : ℕ} {sid : String} {stale : List String} (hg : s.calls g = .emptied sid stale) :
      Effect s (.deleteSession g) (((s.setRow sid none).setLock sid false).call g (.sweeping stale))
  | touch {ref : ℕ} {sess : Session} (now : ℤ) (hsess : s.heap ref = some sess) :
      Effect s (.touch ref now) (s.setSession ref { sess with lastSeen := now })
  | disconnect (g : ℕ) : Effect s (.disconnect g) { s with conns := update s.conns g none }
  | stop : Effect s .stop s.stopped

end

section

variable {codec : Codec B} {bufferSize maxBytes : ℕ} {s t : State B}

theorem effect_of_step {a : Action} (h : step codec bufferSize maxBytes s a = some t) :
    Effect codec bufferSize maxBytes s a t := by
  cases a with simp only [step] at h
  | getOrCreate g sid now =>
    split at h <;> cases h
    next hg hfree => exact .getOrCreate sid now hg hfree
  | append g ref entry now =>
    split at h <;> cases h
    next sess hg hheld hsess => exact .append entry now hg hheld hsess
  | query g =>
    split at h <;> cases h
    next hg => exact .query hg
  | load g =>
    split at h
    next hg =>
      split at h <;> cases h
      next hsess => exact .load hg hsess
    next => cases h
  | upsert g =>
    split at h <;> cases h
    next hg => exact .upsert hg
  | insert g =>
    split at h
    next hg =>
      split at h <;> cases h
      next hfree => exact .insert hg (Bool.eq_false_of_not_eq_true hfree)
    next => cases h
  | touchRow g now =>
    split at h <;> cases h
    next hg => exact .touchRow now hg
  | prune g =>
    split at h <;> cases h
    next hg => exact .prune hg
  | sweep g now ttl sids =>
    split at h
    next hg =>
      split at h <;> cases h
      next hstale => exact .sweep hg hstale
    next => cases h
  | unmap g =>
    split at h <;> cases h
    next hg => exact .unmap hg
    next hg => exact .swept hg
  | deleteEvents g =>
    split at h
    next hg =>
      split at h <;> cases h
      next hfree => exact .deleteEvents hg (Bool.eq_false_of_not_eq_true hfree)
    next => cases h
  | deleteSession g =>
    split at h <;> cases h
    next hg => exact .deleteSession hg
  | touch ref now =>
    split at h <;> cases h
    next hsess => exact .touch now hsess
  | disconnect g =>
    cases h
    exact .disconnect g
  | stop =>
    cases h
    exact .stop

end

def plainCodec : Codec Envelope := ⟨id, some, fun _ => rfl⟩

def opening : List Action := [.getOrCreate 0 "s1" 0, .query 0, .load 0, .upsert 0]

end NomadDev.SessionDB
