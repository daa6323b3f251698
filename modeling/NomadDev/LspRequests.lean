import Mathlib.Algebra.Group.Int.Defs
import Mathlib.Order.Basic
import NomadDev.Foundation.PointUpdate
import NomadDev.Foundation.Transition

namespace NomadDev.Lsp.Requests

open Foundation.Transition Foundation.PointUpdate Function

variable {G V : Type}

inductive RawID
  | missing
  | null
  | num (n : ℤ)
  | other
  deriving DecidableEq

structure LspError where
  code : ℤ
  message : String
  deriving DecidableEq

structure Message (V : Type) where
  id : RawID
  method : String
  (params result : V)
  error : Option LspError

-- `json.Unmarshal` into an `int64`: `null` leaves the zero value.
def decodeID : RawID → Option ℤ
  | .missing => none
  | .null => some 0
  | .num n => if -2 ^ 63 ≤ n ∧ n < 2 ^ 63 then some n else none
  | .other => none

inductive RequestErr
  | notRunning
  | write
  | contextDone
  | serverExited
  | lsp (err : LspError)

inductive Outcome (V : Type)
  | failed (err : RequestErr)
  | answered (id : ℤ) (n : ℕ) (m : Message V)

def Outcome.value : Outcome V → Except RequestErr V
  | .failed err => .error err
  | .answered _ _ m =>
    match m.error with
    | some err => .error (.lsp err)
    | none => .ok m.result

inductive Call (V : Type)
  | idle
  | registered (id : ℤ)
  | waiting (id : ℤ)
  | cleaning (id : ℤ) (err : RequestErr)
  | returned (out : Outcome V)

def Call.activeID : Call V → Option ℤ
  | .registered id => some id
  | .waiting id => some id
  | .cleaning id _ => some id
  | _ => none

def Call.ownID : Call V → Option ℤ
  | .returned (.answered id _ _) => some id
  | c => c.activeID

inductive Reader (G V : Type)
  | idle
  | delivering (n : ℕ) (m : Message V) (g : G)
  | exited

structure Server (G V : Type) where
  nextID : ℤ
  pending : ℤ → Option G
  calls : G → Call V
  chan : G → Option (ℕ × Message V)
  reader : Reader G V
  inbound : List (Message V)
  (closed done : Bool)

def init : Server G V := ⟨0, fun _ => none, fun _ => .idle, fun _ => none, .idle, [], false, false⟩

inductive Action (G V : Type)
  | start (g : G)
  | write (g : G) (ok : Bool)
  | contextDone (g : G)
  | serverExited (g : G)
  | receive (g : G)
  | cleanup (g : G)
  | malformed
  | frame (m : Message V)
  | deliver
  | readError
  | markClosed
  | closeDone

variable [DecidableEq G] (s : Server G V)

def Server.setCall (g : G) (c : Call V) : Server G V :=
  { s with calls := update s.calls g c }

def Server.unregister (id : ℤ) : Server G V := { s with pending := update s.pending id none }

def routeResponse (n : ℕ) (m : Message V) : Server G V :=
  match decodeID m.id with
  | none => s
  | some id =>
    match s.pending id with
    | none => s
    | some g => { s.unregister id with reader := .delivering n m g }

/-- A frame with an id and a method is the server's own request, which is answered on the spot; one without an id is a
notification. -/
def readFrame (m : Message V) : Server G V :=
  let n := s.inbound.length
  let s := { s with inbound := s.inbound ++ [m] }
  if m.id ≠ .missing ∧ m.method ≠ "" then s
  else if m.id ≠ .missing then routeResponse s n m
  else s

def step : Action G V → Option (Server G V)
  | .start g =>
    match s.calls g with
    | .idle =>
      if s.closed then some (s.setCall g (.returned (.failed .notRunning)))
      else
        let id := s.nextID + 1
        some { s.setCall g (.registered id) with nextID := id, pending := update s.pending id (some g) }
    | _ => none
  | .write g ok =>
    match s.calls g with
    | .registered id => some (s.setCall g (if ok then .waiting id else .cleaning id .write))
    | _ => none
  | .contextDone g =>
    match s.calls g with
    | .waiting id => some (s.setCall g (.cleaning id .contextDone))
    | _ => none
  | .serverExited g =>
    match s.calls g with
    | .waiting id => if s.done then some (s.setCall g (.cleaning id .serverExited)) else none
    | _ => none
  | .receive g =>
    match s.calls g, s.chan g with
    | .waiting id, some (n, m) =>
      some { s.setCall g (.returned (.answered id n m)) with chan := update s.chan g none }
    | _, _ => none
  | .cleanup g =>
    match s.calls g with
    | .cleaning id err => some ((s.unregister id).setCall g (.returned (.failed err)))
    | _ => none
  | .malformed =>
    match s.reader with
    | .idle => some s
    | _ => none
  | .frame m =>
    match s.reader with
    | .idle => some (readFrame s m)
    | _ => none
  | .deliver =>
    match s.reader with
    | .delivering n m g =>
      if (s.chan g).isNone then some { s with reader := .idle, chan := update s.chan g (some (n, m)) }
      else none
    | _ => none
  | .readError =>
    match s.reader with
    | .idle => some { s with reader := .exited }
    | _ => none
  | .markClosed => some { s with closed := true }
  | .closeDone => if s.closed then some { s with done := true } else none

inductive Moved (s : Server G V) : Server G V → Prop
  | refuse {g : G} (hcall : s.calls g = .idle) : Moved s (s.setCall g (.returned (.failed .notRunning)))
  | start {g : G} (hcall : s.calls g = .idle) : Moved s { s.setCall g (.registered (s.nextID + 1)) with
      nextID := s.nextID + 1, pending := update s.pending (s.nextID + 1) (some g) }
  | keepID {g : G} {id : ℤ} {c : Call V} (hold : (s.calls g).activeID = some id) (hnew : c.activeID = some id) :
      Moved s (s.setCall g c)
  | receive {g : G} {id : ℤ} {n : ℕ} {m : Message V} (hcall : s.calls g = .waiting id)
      (hchan : s.chan g = some (n, m)) :
      Moved s { s.setCall g (.returned (.answered id n m)) with chan := update s.chan g none }
  | cleanup {g : G} {id : ℤ} {err : RequestErr} (hcall : s.calls g = .cleaning id err) :
      Moved s ((s.unregister id).setCall g (.returned (.failed err)))
  | frame (m : Message V) : Moved s (readFrame s m)
  | deliver {n : ℕ} {m : Message V} {g : G} (hreader : s.reader = .delivering n m g) :
      Moved s { s with reader := .idle, chan := update s.chan g (some (n, m)) }
  | exit : Moved s { s with reader := .exited }
  | flags (closed done : Bool) : Moved s { s with closed := closed, done := done }

variable {s t : Server G V} {a : Action G V} {n : ℕ} {c : Call V}

theorem step_moved (ht : step s a = some t) : Moved s t := by
  cases a with simp only [step] at ht
  | start g =>
    split at ht
    · next hcall =>
      split at ht <;> cases ht
      · exact .refuse hcall
      · exact .start hcall
    · cases ht
  | write g ok =>
    split at ht <;> cases ht
    next id hcall =>
      have hnew : (if ok then Call.waiting id else .cleaning id .write : Call V).activeID = some id := by
        cases ok <;> rfl
      exact .keepID (congrArg Call.activeID hcall) hnew
  | contextDone g =>
    split at ht <;> cases ht
    next id hcall => exact .keepID (congrArg Call.activeID hcall) rfl
  | serverExited g =>
    split at ht
    · next id hcall =>
      obtain ⟨-, ht⟩ := Option.ite_none_right_eq_some.mp ht
      cases ht
      exact .keepID (congrArg Call.activeID hcall) rfl
    · cases ht
  | receive g =>
    split at ht <;> cases ht
    next id n m hcall hchan => exact .receive hcall hchan
  | cleanup g =>
    split at ht <;> cases ht
    next id err hcall => exact .cleanup hcall
  | malformed =>
    split at ht <;> cases ht
    exact .flags s.closed s.done
  | frame m =>
    split at ht <;> cases ht
    exact .frame m
  | deliver =>
    split at ht
    · next n m g hreader =>
      obtain ⟨-, ht⟩ := Option.ite_none_right_eq_some.mp ht
      cases ht
      exact .deliver hreader
    · cases ht
  | readError =>
    split at ht <;> cases ht
    exact .exit
  | markClosed =>
    cases ht
    exact .flags true s.done
  | closeDone =>
    obtain ⟨-, ht⟩ := Option.ite_none_right_eq_some.mp ht
    cases ht
    exact .flags s.closed true

section Invariant

omit [DecidableEq G]

structure Fits (s : Server G V) (g : G) (n : ℕ) (m : Message V) : Prop where
  started : s.calls g ≠ .idle
  read : s.inbound[n]? = some m
  response : m.method = ""
  own : ∀ id, (s.calls g).activeID = some id → decodeID m.id = some id

def Holds (s : Server G V) (g : G) (n : ℕ) : Prop :=
  (∃ m, s.reader = .delivering n m g) ∨ (∃ m, s.chan g = some (n, m)) ∨ ∃ id m, s.calls g = .returned (.answered id n m)

structure Inv (s : Server G V) : Prop where
  nextID : 0 ≤ s.nextID
  ids : ∀ g id, (s.calls g).activeID = some id → 1 ≤ id
  pending : ∀ id g, s.pending id = some g →
    (s.calls g).activeID = some id ∧ s.chan g = none ∧ ∀ n m, s.reader ≠ .delivering n m g
  reader : ∀ n m g, s.reader = .delivering n m g → s.chan g = none ∧ Fits s g n m
  chan : ∀ g n m, s.chan g = some (n, m) → Fits s g n m
  answered : ∀ g id n m, s.calls g = .returned (.answered id n m) →
    s.inbound[n]? = some m ∧ m.method = "" ∧ m.id = .num id
  apart : ∀ g g' n, Holds s g n → Holds s g' n → g = g'

theorem inv_init : Inv (init : Server G V) where
  nextID := Int.le_refl 0
  ids := fun _ _ h => nomatch h
  pending := fun _ _ h => nomatch h
  reader := fun _ _ _ h => nomatch h
  chan := fun _ _ _ h => nomatch h
  answered := fun _ _ _ _ h => nomatch h
  apart := by
    rintro g g' n (⟨m, h⟩ | ⟨m, h⟩ | ⟨id, m, h⟩) <;> cases h

theorem Inv.lt_of_holds (h : Inv s) {g : G} (hn : Holds s g n) : n < s.inbound.length := by
  have hread : ∃ m, s.inbound[n]? = some m := by
    rcases hn with ⟨m, hm⟩ | ⟨m, hm⟩ | ⟨id, m, hm⟩
    · exact ⟨m, (h.reader n m g hm).2.read⟩
    · exact ⟨m, (h.chan g n m hm).read⟩
    · exact ⟨m, (h.answered g id n m hm).1⟩
  obtain ⟨m, hm⟩ := hread
  exact (List.getElem?_eq_some_iff.mp hm).1

theorem num_of_decodeID {raw : RawID} {id : ℤ} (h : decodeID raw = some id) (hid : 1 ≤ id) : raw = .num id := by
  cases raw with
  | missing | other => cases h
  | null =>
    cases h
    omega
  | num n =>
    obtain ⟨-, hn⟩ := Option.ite_none_right_eq_some.mp h
    cases hn
    rfl

theorem Inv.unregister (h : Inv s) (id : ℤ) : Inv (s.unregister id) :=
  { h with
    pending := fun _ g' hp => h.pending _ g' (of_update_none hp).2
    reader := fun n m g' hr => ⟨(h.reader n m g' hr).1, { (h.reader n m g' hr).2 with }⟩
    chan := fun g' n m hc => { h.chan g' n m hc with } }

theorem Inv.read (h : Inv s) (m : Message V) : Inv { s with inbound := s.inbound ++ [m] } := by
  have hread : ∀ {n : ℕ} {m' : Message V}, s.inbound[n]? = some m' → (s.inbound ++ [m])[n]? = some m' := by
    intro n m' hn
    rw [List.getElem?_append_left (List.getElem?_eq_some_iff.mp hn).1]
    exact hn
  exact { h with
    reader := fun n m' g' hr => ⟨(h.reader n m' g' hr).1, { (h.reader n m' g' hr).2 with
      read := hread (h.reader n m' g' hr).2.read }⟩
    chan := fun g' n m' hc => { h.chan g' n m' hc with read := hread (h.chan g' n m' hc).read }
    answered := fun g' id n m' hret => ⟨hread (h.answered g' id n m' hret).1, (h.answered g' id n m' hret).2⟩ }

theorem Inv.exit (h : Inv s) : Inv { s with reader := .exited } := by
  refine { h with
    pending := fun id g hp => ⟨(h.pending id g hp).1, (h.pending id g hp).2.1, nofun⟩
    reader := fun n m g hr => nomatch hr
    chan := fun g n m hc => { h.chan g n m hc with }
    apart := ?_ }
  have hholds : ∀ {g n}, Holds { s with reader := .exited } g n → Holds s g n := by
    rintro g n (⟨m, hr⟩ | hc)
    · cases hr
    · exact .inr hc
  exact fun g₁ g₂ n h₁ h₂ => h.apart g₁ g₂ n (hholds h₁) (hholds h₂)

theorem Inv.flags (h : Inv s) (closed done : Bool) : Inv { s with closed := closed, done := done } :=
  { h with
    reader := fun n m g hr => ⟨(h.reader n m g hr).1, { (h.reader n m g hr).2 with }⟩
    chan := fun g n m hc => { h.chan g n m hc with } }

theorem Inv.route (h : Inv s) {g : G} {m : Message V} {id : ℤ}
    (hread : s.inbound[n]? = some m) (hfresh : ∀ g', ¬ Holds s g' n) (hmethod : m.method = "")
    (hdecode : decodeID m.id = some id) (hentry : s.pending id = some g) :
    Inv { s.unregister id with reader := .delivering n m g } := by
  obtain ⟨hid, hnone, -⟩ := h.pending id g hentry
  have hf : Fits s g n m := by
    refine ⟨fun hcall => ?_, hread, hmethod, fun id' hid' => ?_⟩
    · rw [hcall] at hid
      cases hid
    · exact hdecode.trans (hid.symm.trans hid')
  have hun := h.unregister id
  refine { hun with
    pending := fun id' g' hp => ?_
    reader := fun n' m' g' hr => ?_
    chan := fun g' n' m' hc => { hun.chan g' n' m' hc with }
    apart := ?_ }
  · obtain ⟨hne, hold⟩ := of_update_none hp
    obtain ⟨hid', hnone', -⟩ := h.pending id' g' hold
    refine ⟨hid', hnone', fun n' m' hr => hne ?_⟩
    cases hr
    exact Option.some.inj (hid'.symm.trans hid)
  · cases hr
    exact ⟨hnone, { hf with }⟩
  · have hholds : ∀ {g' n'}, Holds { s.unregister id with reader := .delivering n m g } g' n' →
        Holds s g' n' ∨ g' = g ∧ n' = n := by
      rintro g' n' (⟨m', hr⟩ | hc | hret)
      · cases hr
        exact .inr ⟨rfl, rfl⟩
      · exact .inl (.inr (.inl hc))
      · exact .inl (.inr (.inr hret))
    intro g₁ g₂ n' h₁ h₂
    rcases hholds h₁ with h₁ | ⟨hg₁, hn₁⟩ <;> rcases hholds h₂ with h₂ | ⟨hg₂, hn₂⟩
    · exact h.apart g₁ g₂ n' h₁ h₂
    · exact absurd (hn₂ ▸ h₁) (hfresh g₁)
    · exact absurd (hn₁ ▸ h₂) (hfresh g₂)
    · exact hg₁.trans hg₂.symm

theorem Inv.readFrame (h : Inv s) (m : Message V) : Inv (readFrame s m) := by
  have hread := h.read m
  unfold Requests.readFrame routeResponse
  dsimp only
  split
  · exact hread
  next hrequest =>
  split
  · next hid =>
    split
    · exact hread
    next id hdecode =>
    split
    · exact hread
    next g hentry =>
    refine hread.route (List.getElem?_concat_length ..) (fun g' hg' => ?_)
      (not_not.mp fun hmethod => hrequest ⟨hid, hmethod⟩) hdecode hentry
    exact Nat.lt_irrefl _ (h.lt_of_holds hg')
  · exact hread

end Invariant

section Steps

theorem Server.setCall_calls_self (s : Server G V) (g : G) (c : Call V) : (s.setCall g c).calls g = c :=
  update_self ..

variable {s : Server G V} {g : G}

section

variable (h : Inv s)
include h

theorem Inv.setCall (hidle : c ≠ .idle)
    (hactive : ∀ id, c.activeID = some id → 1 ≤ id ∧ ∀ n m, Fits s g n m → decodeID m.id = some id)
    (hpending : ∀ id, s.pending id = some g → c.activeID = some id)
    (hout : ∀ id n m, c = .returned (.answered id n m) →
      (s.inbound[n]? = some m ∧ m.method = "" ∧ m.id = .num id) ∧ ∀ g', Holds s g' n → g' = g) :
    Inv (s.setCall g c) := by
  have hself := s.setCall_calls_self g c
  have hother : ∀ {g'}, g' ≠ g → (s.setCall g c).calls g' = s.calls g' := fun hg => update_of_ne hg _ _
  have hfits : ∀ {g' n m}, Fits s g' n m → Fits (s.setCall g c) g' n m := by
    intro g' n m hf
    by_cases hg : g' = g
    · subst hg
      exact ⟨by rwa [hself], hf.read, hf.response, fun id hid => (hactive id (by rwa [← hself])).2 n m hf⟩
    · exact ⟨by rw [hother hg]; exact hf.started, hf.read, hf.response, fun id hid => hf.own id (by rwa [← hother hg])⟩
  have hholds : ∀ {g' n}, Holds (s.setCall g c) g' n →
      Holds s g' n ∨ g' = g ∧ ∃ id m, c = .returned (.answered id n m) := by
    rintro g' n (hr | hc | ⟨id, m, hret⟩)
    · exact .inl (.inl hr)
    · exact .inl (.inr (.inl hc))
    · by_cases hg : g' = g
      · rw [hg, hself] at hret
        exact .inr ⟨hg, id, m, hret⟩
      · rw [hother hg] at hret
        exact .inl (.inr (.inr ⟨id, m, hret⟩))
  refine ⟨h.nextID, ?_, ?_, ?_, fun g' n m hc => hfits (h.chan g' n m hc), ?_, ?_⟩
  · intro g' id hid
    by_cases hg : g' = g
    · rw [hg, hself] at hid
      exact (hactive id hid).1
    · rw [hother hg] at hid
      exact h.ids g' id hid
  · intro id g' hp
    obtain ⟨hid, hrest⟩ := h.pending id g' hp
    refine ⟨?_, hrest⟩
    by_cases hg : g' = g
    · subst hg
      rw [hself]
      exact hpending id hp
    · rwa [hother hg]
  · intro n m g' hr
    obtain ⟨hchan, hf⟩ := h.reader n m g' hr
    exact ⟨hchan, hfits hf⟩
  · intro g' id n m hret
    by_cases hg : g' = g
    · rw [hg, hself] at hret
      exact (hout id n m hret).1
    · rw [hother hg] at hret
      exact h.answered g' id n m hret
  · intro g₁ g₂ n h₁ h₂
    rcases hholds h₁ with h₁ | ⟨hg₁, id, m, hc⟩ <;> rcases hholds h₂ with h₂ | ⟨hg₂, id', m', hc'⟩
    · exact h.apart g₁ g₂ n h₁ h₂
    · exact ((hout id' n m' hc').2 g₁ h₁).trans hg₂.symm
    · exact hg₁.trans ((hout id n m hc).2 g₂ h₂).symm
    · exact hg₁.trans hg₂.symm

theorem Inv.advance (hidle : c ≠ .idle) (hout : ∀ id n m, c ≠ .returned (.answered id n m))
    (hactive : ∀ id, c.activeID = some id → (s.calls g).activeID = some id)
    (hpending : ∀ id, s.pending id = some g → c.activeID = some id) : Inv (s.setCall g c) :=
  h.setCall hidle (fun id hid => ⟨h.ids g id (hactive id hid), fun _ _ hf => hf.own id (hactive id hid)⟩) hpending
    fun id n m hc => absurd hc (hout id n m)

theorem Inv.start (hcall : s.calls g = .idle) : Inv { s.setCall g (.registered (s.nextID + 1)) with
    nextID := s.nextID + 1, pending := update s.pending (s.nextID + 1) (some g) } := by
  have hnext := h.nextID
  have hnofit : ∀ n m, ¬ Fits s g n m := fun n m hf => hf.started hcall
  have hnoentry : ∀ id, s.pending id ≠ some g := by
    intro id hp
    have hid := (h.pending id g hp).1
    rw [hcall] at hid
    cases hid
  have hset : Inv (s.setCall g (.registered (s.nextID + 1))) := by
    refine h.setCall nofun ?_ (fun id hp => absurd hp (hnoentry id)) nofun
    intro id hid
    cases hid
    exact ⟨by omega, fun n m hf => absurd hf (hnofit n m)⟩
  have hchan : s.chan g = none := by
    cases hc : s.chan g with
    | none => rfl
    | some nm => exact absurd (h.chan g nm.1 nm.2 hc) (hnofit nm.1 nm.2)
  refine { hset with
    nextID := by dsimp only; omega
    pending := ?_
    reader := fun n m g' hr => ⟨(hset.reader n m g' hr).1, { (hset.reader n m g' hr).2 with }⟩
    chan := fun g' n m hc => { hset.chan g' n m hc with } }
  intro id g' hp
  rcases of_update_some hp with ⟨rfl, hg⟩ | ⟨-, hold⟩
  · subst hg
    exact ⟨congrArg Call.activeID (s.setCall_calls_self _ _), hchan, fun n m hr => hnofit n m (h.reader n m g' hr).2⟩
  · exact hset.pending id g' hold

theorem Inv.receive {id : ℤ} {n : ℕ} {m : Message V} (hcall : s.calls g = .waiting id) (hchan : s.chan g = some (n, m)) :
    Inv { s.setCall g (.returned (.answered id n m)) with chan := update s.chan g none } := by
  have hf := h.chan g n m hchan
  have hactive : (s.calls g).activeID = some id := by
    rw [hcall]
    rfl
  have hset : Inv (s.setCall g (.returned (.answered id n m))) := by
    refine h.setCall nofun nofun ?_ ?_
    · intro id' hp
      cases hchan.symm.trans (h.pending id' g hp).2.1
    · intro id' n' m' hc
      cases hc
      exact ⟨⟨hf.read, hf.response, num_of_decodeID (hf.own id hactive) (h.ids g id hactive)⟩,
        fun g' hg' => h.apart g' g n hg' (.inr (.inl ⟨m, hchan⟩))⟩
  refine { hset with
    pending := fun id' g' hp => ?_
    reader := fun n' m' g' hr => ?_
    chan := fun g' n' m' hc => { hset.chan g' n' m' (of_update_none hc).2 with }
    apart := ?_ }
  · obtain ⟨hid, hnone, hreader⟩ := hset.pending id' g' hp
    exact ⟨hid, update_of_forall (P := fun b v => b = g' → v = none) (fun _ => rfl) (fun b _ hb => hb ▸ hnone) g' rfl,
      hreader⟩
  · obtain ⟨hnone, hf'⟩ := hset.reader n' m' g' hr
    exact ⟨update_of_forall (P := fun b v => b = g' → v = none) (fun _ => rfl) (fun b _ hb => hb ▸ hnone) g' rfl,
      { hf' with }⟩
  · have hholds : ∀ {g' n'}, Holds { s.setCall g (.returned (.answered id n m)) with
        chan := update s.chan g none } g' n' → Holds (s.setCall g (.returned (.answered id n m))) g' n' := by
      rintro g' n' (hr | ⟨m', hc⟩ | hret)
      · exact .inl hr
      · exact .inr (.inl ⟨m', (of_update_none hc).2⟩)
      · exact .inr (.inr hret)
    exact fun g₁ g₂ n' h₁ h₂ => hset.apart g₁ g₂ n' (hholds h₁) (hholds h₂)

theorem Inv.deliver {m : Message V} (hreader : s.reader = .delivering n m g) :
    Inv { s with reader := .idle, chan := update s.chan g (some (n, m)) } := by
  obtain ⟨-, hf⟩ := h.reader n m g hreader
  refine { h with
    pending := fun id g' hp => ?_
    reader := fun n' m' g' hr => nomatch hr
    chan := fun g' n' m' hc => ?_
    apart := ?_ }
  · obtain ⟨hid, hnone, hne⟩ := h.pending id g' hp
    have hg : g' ≠ g := by
      rintro rfl
      exact hne n m hreader
    exact ⟨hid, (update_of_ne hg ..).trans hnone, nofun⟩
  · rcases of_update_some hc with ⟨rfl, hnm⟩ | ⟨-, hold⟩
    · cases hnm
      exact { hf with }
    · exact { h.chan g' n' m' hold with }
  · have hholds : ∀ {g' n'}, Holds { s with reader := .idle, chan := update s.chan g (some (n, m)) } g' n' →
        Holds s g' n' := by
      rintro g' n' (⟨m', hr⟩ | ⟨m', hc⟩ | hret)
      · cases hr
      · rcases of_update_some hc with ⟨rfl, hnm⟩ | ⟨-, hold⟩
        · cases hnm
          exact .inl ⟨m, hreader⟩
        · exact .inr (.inl ⟨m', hold⟩)
      · exact .inr (.inr hret)
    exact fun g₁ g₂ n' h₁ h₂ => h.apart g₁ g₂ n' (hholds h₁) (hholds h₂)

theorem Inv.cleanup {id : ℤ} {err : RequestErr} (hcall : s.calls g = .cleaning id err) :
    Inv ((s.unregister id).setCall g (.returned (.failed err))) := by
  refine (h.unregister id).advance nofun nofun nofun fun id' hp => ?_
  obtain ⟨hne, hold⟩ := of_update_none hp
  have hid := (h.pending id' g hold).1
  rw [hcall] at hid
  cases hid
  exact absurd rfl hne

theorem Inv.keepID {id : ℤ} (hold : (s.calls g).activeID = some id) (hnew : c.activeID = some id) :
    Inv (s.setCall g c) := by
  refine h.advance ?_ ?_ (fun id' hid' => ?_) fun id' hp => ?_
  · rintro rfl
    cases hnew
  · rintro id' n m rfl
    cases hnew
  · exact hold.trans (hnew.symm.trans hid')
  · exact hnew.trans (hold.symm.trans (h.pending id' g hp).1)

theorem step_inv (ht : step s a = some t) : Inv t := by
  cases step_moved ht with
  | @refuse g hcall =>
    refine h.advance nofun nofun nofun fun id hp => ?_
    have hid := (h.pending id g hp).1
    rw [hcall] at hid
    cases hid
  | start hcall => exact h.start hcall
  | keepID hold hnew => exact h.keepID hold hnew
  | receive hcall hchan => exact h.receive hcall hchan
  | cleanup hcall => exact h.cleanup hcall
  | frame m => exact h.readFrame m
  | deliver hreader => exact h.deliver hreader
  | exit => exact h.exit
  | flags closed done => exact h.flags closed done

end

structure OwnIDs (s : Server G V) : Prop where
  le : ∀ g id, (s.calls g).ownID = some id → id ≤ s.nextID
  eq : ∀ g g' id, (s.calls g).ownID = some id → (s.calls g').ownID = some id → g = g'

theorem OwnIDs.setCall (h : OwnIDs s) (hc : ∀ id, c.ownID = some id → (s.calls g).ownID = some id) :
    OwnIDs (s.setCall g c) := by
  have hold : ∀ {g' id}, ((s.setCall g c).calls g').ownID = some id → (s.calls g').ownID = some id := by
    intro g' id hid
    rcases update_cases (fun c : Call V => c.ownID = some id) hid with ⟨hg, hid⟩ | ⟨-, hid⟩
    · rw [hg]
      exact hc id hid
    · exact hid
  exact ⟨fun g' id hid => h.le g' id (hold hid), fun g₁ g₂ id h₁ h₂ => h.eq g₁ g₂ id (hold h₁) (hold h₂)⟩

theorem OwnIDs.start (h : OwnIDs s) (pending : ℤ → Option G) : OwnIDs
    { s.setCall g (.registered (s.nextID + 1)) with nextID := s.nextID + 1, pending := pending } := by
  have hcases : ∀ {g' id}, ((s.setCall g (.registered (s.nextID + 1))).calls g').ownID = some id →
      g' = g ∧ id = s.nextID + 1 ∨ (s.calls g').ownID = some id := by
    intro g' id hid
    rcases update_cases (fun c : Call V => c.ownID = some id) hid with ⟨hg, hid⟩ | ⟨-, hid⟩
    · exact .inl ⟨hg, (Option.some.inj hid).symm⟩
    · exact .inr hid
  constructor
  · intro g' id hid
    show id ≤ s.nextID + 1
    rcases hcases hid with ⟨-, rfl⟩ | hid
    · exact Int.le_refl _
    · have := h.le g' id hid
      omega
  · intro g₁ g₂ id h₁ h₂
    rcases hcases h₁ with ⟨hg₁, hid⟩ | h₁ <;> rcases hcases h₂ with ⟨hg₂, hid'⟩ | h₂
    · exact hg₁.trans hg₂.symm
    · have := h.le g₂ id h₂
      omega
    · have := h.le g₁ id h₁
      omega
    · exact h.eq g₁ g₂ id h₁ h₂

omit [DecidableEq G] in
theorem Call.ownID_of_activeID {id : ℤ} (h : c.activeID = some id) : c.ownID = some id := by
  cases c with
  | returned out => cases h
  | _ => exact h

omit [DecidableEq G] in
theorem OwnIDs.readFrame (h : OwnIDs s) (m : Message V) : OwnIDs (readFrame s m) := by
  have hsame : (Requests.readFrame s m).calls = s.calls ∧ (Requests.readFrame s m).nextID = s.nextID := by
    unfold Requests.readFrame routeResponse
    dsimp only
    repeat' split
    all_goals exact ⟨rfl, rfl⟩
  obtain ⟨hcalls, hnext⟩ := hsame
  exact ⟨by rw [hcalls, hnext]; exact h.le, by rw [hcalls]; exact h.eq⟩

theorem step_ownIDs (h : OwnIDs s) (ht : step s a = some t) : OwnIDs t := by
  cases step_moved ht with
  | refuse hcall => exact h.setCall nofun
  | start hcall => exact h.start _
  | keepID hold hnew =>
    refine h.setCall fun id' hid => ?_
    rw [← hid, Call.ownID_of_activeID hold, Call.ownID_of_activeID hnew]
  | @receive g id n m hcall hchan =>
    have hset : OwnIDs (s.setCall g (.returned (.answered id n m))) := by
      refine h.setCall fun id' hid => ?_
      rw [hcall]
      exact hid
    exact { hset with }
  | @cleanup g id err hcall =>
    have hset : OwnIDs (s.setCall g (.returned (.failed err))) := h.setCall nofun
    exact { hset with }
  | frame m => exact h.readFrame m
  | deliver | exit | flags => exact { h with }

end Steps

theorem requests_sound {as : List (Action G V)} {s : Server G V} (h : run step init as = some s) :
    (∀ g out v, s.calls g = .returned out → out.value = .ok v → ∃ id n m, out = .answered id n m ∧
      s.inbound[n]? = some m ∧ m.id = .num id ∧ m.method = "" ∧ m.error = none ∧ m.result = v) ∧
    (∀ g id n m, s.calls g = .returned (.answered id n m) → s.inbound[n]? = some m ∧ m.id = .num id ∧ m.method = "") ∧
    (∀ g g' id id' n m m', s.calls g = .returned (.answered id n m) → s.calls g' = .returned (.answered id' n m') →
      g = g') ∧
    (∀ g g' id, (s.calls g).ownID = some id → (s.calls g').ownID = some id → g = g') ∧
    ((∀ g, (s.calls g).activeID = none) → ∀ id, s.pending id = none) ∧
    (∀ n m g, s.reader = .delivering n m g → ∃ t, step s .deliver = some t) := by
  have hinv : Inv s := run_preserves (fun _ _ _ ht hs => step_inv hs ht) h inv_init
  have hown : OwnIDs s := run_preserves (fun _ _ _ ht hs => step_ownIDs hs ht) h ⟨nofun, nofun⟩
  have hanswered : ∀ g id n m, s.calls g = .returned (.answered id n m) →
      s.inbound[n]? = some m ∧ m.id = .num id ∧ m.method = "" := by
    intro g id n m hg
    obtain ⟨hread, hmethod, hid⟩ := hinv.answered g id n m hg
    exact ⟨hread, hid, hmethod⟩
  refine ⟨?_, hanswered, ?_, hown.eq, ?_, ?_⟩
  · rintro g (err | ⟨id, n, m⟩) v hg hv
    · cases hv
    · obtain ⟨hread, hid, hmethod⟩ := hanswered g id n m hg
      cases herr : m.error with
      | some err => simp [Outcome.value, herr] at hv
      | none =>
        simp only [Outcome.value, herr, Except.ok.injEq] at hv
        exact ⟨id, n, m, rfl, hread, hid, hmethod, herr, hv⟩
  · exact fun g g' id id' n m m' hg hg' => hinv.apart g g' n (.inr (.inr ⟨id, m, hg⟩)) (.inr (.inr ⟨id', m', hg'⟩))
  · intro hnone id
    by_contra hp
    obtain ⟨g, hp⟩ := Option.ne_none_iff_exists'.mp hp
    cases (hnone g).symm.trans (hinv.pending id g hp).1
  · intro n m g hr
    simp [step, hr, (hinv.reader n m g hr).1]

def response (id : RawID) : Message Unit := ⟨id, "", (), (), none⟩

def demoActions : List (Action Bool Unit) :=
  [.start false, .start true, .write false true, .write true true, .contextDone false, .frame (response (.num 1)),
    .deliver, .frame (response (.num 1)), .cleanup false, .frame ⟨.num 2, "workspace/configuration", (), (), none⟩,
    .frame (response .null), .malformed, .frame (response (.num 2)), .deliver, .receive true]

theorem requests_sound_cancelled :
    ∃ s, run step init demoActions = some s ∧ s.calls true = .returned (.answered 2 4 (response (.num 2))) ∧
      s.inbound[4]? = some (response (.num 2)) ∧ s.chan false = some (0, response (.num 1)) ∧
      ∀ id, s.pending id = none := by
  have hrun : run step init demoActions = some ((run step init demoActions).get rfl) := rfl
  obtain ⟨-, hframe, -, -, hempty, -⟩ := requests_sound hrun
  refine ⟨_, hrun, rfl, (hframe true 2 4 _ rfl).1, rfl, hempty fun g => ?_⟩
  cases g <;> rfl

end NomadDev.Lsp.Requests
