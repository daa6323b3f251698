import Mathlib.Data.Finset.Basic
import NomadDev.Foundation.PointUpdate
import NomadDev.Foundation.Transition

namespace NomadDev.Daemons

open Foundation.PointUpdate Foundation.Transition Function List Option

structure Daemon where
  (id sessionID command : String)
  startedAt : ℕ
  deriving DecidableEq

structure Registry where
  daemons : String → Option Daemon
  bySID : String → Option (Finset String)

def newDaemonRegistry : Registry := ⟨fun _ => none, fun _ => none⟩

namespace Registry

variable (r : Registry)

def register (d : Daemon) : Registry where
  daemons := update r.daemons d.id (some d)
  bySID := update r.bySID d.sessionID (some (insert d.id ((r.bySID d.sessionID).getD ∅)))

def get (sessionID id : String) : Option Daemon :=
  (r.daemons id).filter fun d => d.sessionID = sessionID

def without (set : Finset String) (id : String) : Option (Finset String) :=
  if set.erase id = ∅ then none else some (set.erase id)

def unregister (id : String) : Registry :=
  match r.daemons id with
  | none => r
  | some d =>
    { daemons := update r.daemons id none
      bySID := update r.bySID d.sessionID ((r.bySID d.sessionID).bind fun set => without set id) }

def Ranges (sessionID : String) (order : List String) : Prop :=
  order.Nodup ∧ order.toFinset = (r.bySID sessionID).getD ∅

instance (r : Registry) (sessionID : String) (order : List String) : Decidable (r.Ranges sessionID order) :=
  inferInstanceAs (Decidable (_ ∧ _))

structure Represents (r : Registry) (live : Finset Daemon) : Prop where
  daemons : ∀ id d, r.daemons id = some d ↔ d ∈ live ∧ d.id = id
  ids : ∀ sid id, id ∈ (r.bySID sid).getD ∅ ↔ ∃ d ∈ live, d.id = id ∧ d.sessionID = sid
  nonempty : ∀ sid, r.bySID sid ≠ some ∅

theorem new_represents : newDaemonRegistry.Represents ∅ where
  daemons := by simp [newDaemonRegistry]
  ids := by simp [newDaemonRegistry]
  nonempty := by simp [newDaemonRegistry]

section

variable {r : Registry} {live : Finset Daemon} {d : Daemon} {set : Finset String} {id sid : String}

theorem register_represents (h : r.Represents live) (hd : ∀ e ∈ live, e.id = d.id → e = d) :
    (r.register d).Represents (insert d live) where
  daemons := by
    intro id e
    by_cases hid : id = d.id
    · subst hid
      simp only [register, update_self, Option.some.injEq, Finset.mem_insert]
      constructor
      · rintro rfl
        exact ⟨.inl rfl, rfl⟩
      · rintro ⟨rfl | he, hid⟩
        · rfl
        · exact (hd e he hid).symm
    · simp only [register, update_of_ne hid, Finset.mem_insert, h.daemons]
      constructor
      · rintro ⟨he, rfl⟩
        exact ⟨.inr he, rfl⟩
      · rintro ⟨rfl | he, heq⟩
        · exact absurd heq.symm hid
        · exact ⟨he, heq⟩
  ids := by
    intro sid id
    by_cases hsid : sid = d.sessionID
    · subst hsid
      simp only [register, update_self, getD_some, Finset.mem_insert, h.ids, exists_eq_or_imp]
      constructor
      · rintro (rfl | he)
        · exact .inl ⟨rfl, trivial⟩
        · exact .inr he
      · rintro (⟨rfl, -⟩ | he)
        · exact .inl rfl
        · exact .inr he
    · simp only [register, update_of_ne hsid, Finset.mem_insert, h.ids, exists_eq_or_imp]
      constructor
      · exact .inr
      · rintro (⟨-, heq⟩ | he)
        · exact absurd heq.symm hsid
        · exact he
  nonempty := by
    intro sid
    by_cases hsid : sid = d.sessionID
    · subst hsid
      simp [register]
    · simpa only [register, update_of_ne hsid] using h.nonempty sid

theorem mem_without {x : String} : x ∈ (without set id).getD ∅ ↔ x ∈ set.erase id := by
  rw [without]
  split
  · next h => simp [h]
  · rfl

theorem without_ne : without set id ≠ some ∅ := by
  rw [without]
  split
  · simp
  · next h => simpa using h

theorem unregister_of_mem (h : r.Represents live) (hd : d ∈ live) :
    r.unregister d.id = { daemons := update r.daemons d.id none
                          bySID := update r.bySID d.sessionID
                            ((r.bySID d.sessionID).bind fun set => without set d.id) } := by
  have hr : r.daemons d.id = some d := (h.daemons d.id d).mpr ⟨hd, rfl⟩
  simp only [unregister, hr]

theorem unregister_of_not_mem (h : r.Represents live) (hid : ∀ e ∈ live, e.id ≠ d.id) : r.unregister d.id = r := by
  have hr : r.daemons d.id = none := by
    rw [eq_none_iff_forall_ne_some]
    intro e he
    obtain ⟨hlive, heq⟩ := (h.daemons d.id e).mp he
    exact hid e hlive heq
  simp only [unregister, hr]

theorem unregister_represents (h : r.Represents live) (hd : ∀ e ∈ live, e.id = d.id → e = d) :
    (r.unregister d.id).Represents (live.erase d) := by
  by_cases hlive : d ∈ live
  · rw [unregister_of_mem h hlive]
    have hset : ∀ id, id ∈ (((r.bySID d.sessionID).bind fun set => without set d.id).getD ∅) ↔
        id ≠ d.id ∧ id ∈ (r.bySID d.sessionID).getD ∅ := by
      intro id
      cases r.bySID d.sessionID with
      | none => simp
      | some set => simp [mem_without]
    constructor
    · intro id e
      by_cases hid : id = d.id
      · subst hid
        simp only [update_self, reduceCtorEq, Finset.mem_erase, false_iff]
        rintro ⟨⟨hne, he⟩, heq⟩
        exact hne (hd e he heq)
      · simp only [update_of_ne hid, h.daemons, Finset.mem_erase]
        constructor
        · rintro ⟨he, rfl⟩
          exact ⟨⟨fun heq => hid (by rw [heq]), he⟩, rfl⟩
        · rintro ⟨⟨-, he⟩, heq⟩
          exact ⟨he, heq⟩
    · intro sid id
      by_cases hsid : sid = d.sessionID
      · subst hsid
        simp only [update_self, hset, h.ids, Finset.mem_erase]
        constructor
        · rintro ⟨hne, e, he, rfl, hs⟩
          exact ⟨e, ⟨fun heq => hne (by rw [heq]), he⟩, rfl, hs⟩
        · rintro ⟨e, ⟨hne, he⟩, rfl, hs⟩
          exact ⟨fun heq => hne (hd e he heq), e, he, rfl, hs⟩
      · simp only [update_of_ne hsid, h.ids, Finset.mem_erase]
        constructor
        · rintro ⟨e, he, hid, hs⟩
          exact ⟨e, ⟨fun heq => hsid (by rw [← hs, heq]), he⟩, hid, hs⟩
        · rintro ⟨e, ⟨-, he⟩, hid, hs⟩
          exact ⟨e, he, hid, hs⟩
    · intro sid
      by_cases hsid : sid = d.sessionID
      · subst hsid
        simp only [update_self]
        cases r.bySID d.sessionID with
        | none => simp
        | some set => exact without_ne
      · simpa only [update_of_ne hsid] using h.nonempty sid
  · have hid : ∀ e ∈ live, e.id ≠ d.id := fun e he heq => hlive (hd e he heq ▸ he)
    rw [unregister_of_not_mem h hid, Finset.erase_eq_of_notMem hlive]
    exact h

theorem get_eq_some (h : r.Represents live) (hg : r.get sid id = some d) :
    d ∈ live ∧ d.id = id ∧ d.sessionID = sid := by
  rw [get, filter_eq_some_iff] at hg
  obtain ⟨hr, hs⟩ := hg
  obtain ⟨hlive, hid⟩ := (h.daemons id d).mp hr
  exact ⟨hlive, hid, by simpa using hs⟩

theorem mem_range (h : r.Represents live) {order : List String} (ho : r.Ranges sid order)
    (hd : d ∈ order.filterMap r.daemons) : d ∈ live ∧ d.sessionID = sid := by
  obtain ⟨id, hid, hr⟩ := mem_filterMap.mp hd
  obtain ⟨hlive, rfl⟩ := (h.daemons id d).mp hr
  have hset : d.id ∈ (r.bySID sid).getD ∅ := by
    rw [← ho.2]
    exact mem_toFinset.mpr hid
  obtain ⟨e, he, heid, hes⟩ := (h.ids sid d.id).mp hset
  have hsame : r.daemons d.id = some e := (h.daemons d.id e).mpr ⟨he, heid⟩
  cases hr.symm.trans hsame
  exact ⟨hlive, hes⟩

end

end Registry

inductive Signal
  | term | kill
  deriving DecidableEq

structure Sent where
  target : Daemon
  signal : Signal
  caller : String
  late : Bool

structure Call where
  sessionID : String
  targets : List (String × Daemon)
  stopped : Bool

inductive Stream
  | absent | reading | ended
  deriving DecidableEq

/-- `killing` are the delayed kills of `Daemon.Stop`, with the session of its caller; `registered` is what the calls so
far have registered and not unregistered, `outlived` whether both signals had been sent when `cmd.Wait` returned. -/
structure State where
  registry : Registry
  calls : ℕ → Option Call
  started : Daemon → Bool
  stream : Daemon → Stream
  (waited stopOnce : Daemon → Bool)
  killing : Daemon → Option String
  sent : List Sent
  answers : List (String × Daemon)
  registered : Finset Daemon
  outlived : Daemon → Bool

def init : State :=
  { registry := newDaemonRegistry, calls := fun _ => none, started := fun _ => false, stream := fun _ => .absent,
    waited := fun _ => false, stopOnce := fun _ => false, killing := fun _ => none, sent := [], answers := [],
    registered := ∅, outlived := fun _ => false }

inductive Action
  | start (d : Daemon)
  | register (d : Daemon)
  | get (sessionID id : String)
  | list (sessionID : String) (order : List String)
  | stop (c : ℕ) (sessionID id : String)
  | stopAllForSession (c : ℕ) (sessionID : String) (order : List String)
  | stopDaemon (c : ℕ)
  | unregister (c : ℕ)
  | kill (d : Daemon)
  | wait (d : Daemon)
  | linesClosed (c : ℕ) (d : Daemon)

namespace State

def begin (s : State) (c : ℕ) (sessionID : String) (targets : List (String × Daemon)) : State :=
  match targets with
  | [] => { s with calls := update s.calls c none }
  | _ :: _ => { s with calls := update s.calls c (some ⟨sessionID, targets, false⟩) }

def stopDaemon (s : State) (d : Daemon) (caller : String) : State :=
  if s.stopOnce d then s
  else { s with
    stopOnce := update s.stopOnce d true
    killing := update s.killing d (some caller)
    sent := s.sent ++ [⟨d, .term, caller, s.waited d⟩] }

def sendKill (s : State) (d : Daemon) (caller : String) : State :=
  { s with
    killing := update s.killing d none
    sent := s.sent ++ [⟨d, .kill, caller, s.waited d⟩] }

def reap (s : State) (d : Daemon) : State :=
  { s with
    waited := update s.waited d true
    outlived := update s.outlived d (s.stopOnce d && (s.killing d).isNone) }

def stop (s : State) (c : ℕ) (sessionID id : String) : State :=
  s.begin c sessionID ((s.registry.get sessionID id).toList.map fun d => (id, d))

end State

def step (s : State) : Action → Option State
  | .start d => if s.started d then none else some { s with started := update s.started d true }
  | .register d =>
    if s.started d then
      some { s with
        registry := s.registry.register d
        stream := update s.stream d .reading
        registered := insert d s.registered }
    else none
  | .get sid id => some { s with answers := s.answers ++ (s.registry.get sid id).toList.map fun d => (sid, d) }
  | .list sid order =>
    if s.registry.Ranges sid order then
      some { s with answers := s.answers ++ (order.filterMap s.registry.daemons).map fun d => (sid, d) }
    else none
  | .stop c sid id => if (s.calls c).isNone then some (s.stop c sid id) else none
  | .stopAllForSession c sid order =>
    if (s.calls c).isNone ∧ s.registry.Ranges sid order then
      some (s.begin c sid ((order.filterMap s.registry.daemons).map fun d => (d.id, d)))
    else none
  | .stopDaemon c =>
    match s.calls c with
    | some ⟨sid, (id, d) :: rest, false⟩ =>
      some { s.stopDaemon d sid with calls := update s.calls c (some ⟨sid, (id, d) :: rest, true⟩) }
    | _ => none
  | .unregister c =>
    match s.calls c with
    | some ⟨sid, (id, d) :: rest, true⟩ =>
      some ({ s with registry := s.registry.unregister id, registered := s.registered.erase d }.begin c sid rest)
    | _ => none
  | .kill d =>
    match s.killing d with
    | some caller => some (s.sendKill d caller)
    | none => none
  | .wait d => if s.started d ∧ ¬ s.waited d then some (s.reap d) else none
  -- the reaper closes `Lines` after `cmd.Wait`, and the streaming goroutine then stops the daemon it read from
  | .linesClosed c d =>
    if (s.calls c).isNone ∧ s.waited d ∧ s.stream d = .reading then
      some ({ s with stream := update s.stream d .ended }.stop c d.sessionID d.id)
    else none

inductive Moved (s : State) : Action → State → Prop
  | start (d : Daemon) : Moved s (.start d) { s with started := update s.started d true }
  | register (d : Daemon) : Moved s (.register d)
      { s with
        registry := s.registry.register d
        stream := update s.stream d .reading
        registered := insert d s.registered }
  | get (sid id : String) : Moved s (.get sid id)
      { s with answers := s.answers ++ (s.registry.get sid id).toList.map fun d => (sid, d) }
  | list {sid : String} {order : List String} : s.registry.Ranges sid order → Moved s (.list sid order)
      { s with answers := s.answers ++ (order.filterMap s.registry.daemons).map fun d => (sid, d) }
  | stop {c : ℕ} (sid id : String) : s.calls c = none → Moved s (.stop c sid id) (s.stop c sid id)
  | stopAllForSession {c : ℕ} {sid : String} {order : List String} : s.calls c = none → s.registry.Ranges sid order →
      Moved s (.stopAllForSession c sid order)
        (s.begin c sid ((order.filterMap s.registry.daemons).map fun d => (d.id, d)))
  | stopDaemon {c : ℕ} {sid id : String} {d : Daemon} {rest : List (String × Daemon)} :
      s.calls c = some ⟨sid, (id, d) :: rest, false⟩ → Moved s (.stopDaemon c)
        { s.stopDaemon d sid with calls := update s.calls c (some ⟨sid, (id, d) :: rest, true⟩) }
  | unregister {c : ℕ} {sid id : String} {d : Daemon} {rest : List (String × Daemon)} :
      s.calls c = some ⟨sid, (id, d) :: rest, true⟩ → Moved s (.unregister c)
        ({ s with registry := s.registry.unregister id, registered := s.registered.erase d }.begin c sid rest)
  | kill {d : Daemon} {caller : String} : s.killing d = some caller → Moved s (.kill d) (s.sendKill d caller)
  | wait {d : Daemon} : s.waited d = false → Moved s (.wait d) (s.reap d)
  | linesClosed {c : ℕ} {d : Daemon} : s.calls c = none → s.stream d = .reading →
      Moved s (.linesClosed c d) ({ s with stream := update s.stream d .ended }.stop c d.sessionID d.id)

variable {s : State}

theorem moved_of_step {t : State} {a : Action} (h : step s a = some t) : Moved s a t := by
  cases a with
  | start d =>
    obtain ⟨-, h⟩ := ite_none_left_eq_some.mp h
    cases h
    exact .start d
  | register d =>
    obtain ⟨-, h⟩ := ite_none_right_eq_some.mp h
    cases h
    exact .register d
  | get sid id =>
    cases h
    exact .get sid id
  | list sid order =>
    obtain ⟨ho, h⟩ := ite_none_right_eq_some.mp h
    cases h
    exact .list ho
  | stop c sid id =>
    obtain ⟨hc, h⟩ := ite_none_right_eq_some.mp h
    cases h
    exact .stop sid id (isNone_iff_eq_none.mp hc)
  | stopAllForSession c sid order =>
    obtain ⟨⟨hc, ho⟩, h⟩ := ite_none_right_eq_some.mp h
    cases h
    exact .stopAllForSession (isNone_iff_eq_none.mp hc) ho
  | stopDaemon c =>
    simp only [step] at h
    split at h <;> cases h
    next hc => exact .stopDaemon hc
  | unregister c =>
    simp only [step] at h
    split at h <;> cases h
    next hc => exact .unregister hc
  | kill d =>
    simp only [step] at h
    split at h <;> cases h
    next hk => exact .kill hk
  | wait d =>
    obtain ⟨⟨-, hw⟩, h⟩ := ite_none_right_eq_some.mp h
    cases h
    exact .wait (eq_false_of_ne_true hw)
  | linesClosed c d =>
    obtain ⟨⟨hc, -, hd⟩, h⟩ := ite_none_right_eq_some.mp h
    cases h
    exact .linesClosed (isNone_iff_eq_none.mp hc) hd

def DistinctIDs (acts : List Action) : Prop := Set.InjOn Daemon.id {d | Action.register d ∈ acts}

structure Inv (D : Set Daemon) (s : State) : Prop where
  represents : s.registry.Represents s.registered
  known : ∀ d ∈ s.registered, d ∈ D
  targets : ∀ c call, s.calls c = some call →
    ∀ x ∈ call.targets, x.2 ∈ D ∧ x.2.id = x.1 ∧ x.2.sessionID = call.sessionID
  killing : ∀ d sid, s.killing d = some sid → d.sessionID = sid
  sent : ∀ x ∈ s.sent, x.target.sessionID = x.caller
  answers : ∀ x ∈ s.answers, x.2.sessionID = x.1

theorem inv_init (D : Set Daemon) : Inv D init where
  represents := Registry.new_represents
  known := by simp [init]
  targets := by simp [init]
  killing := by simp [init]
  sent := by simp [init]
  answers := by simp [init]

section

variable {D : Set Daemon} {s t : State} {c : ℕ} {d : Daemon} {sid : String}

def opened (sid : String) : List (String × Daemon) → Option Call
  | [] => none
  | x :: rest => some ⟨sid, x :: rest, false⟩

theorem begin_eq (targets : List (String × Daemon)) :
    s.begin c sid targets = { s with calls := update s.calls c (opened sid targets) } := by
  cases targets <;> rfl

theorem opened_eq_some {targets : List (String × Daemon)} {call : Call} (h : opened sid targets = some call) :
    call = ⟨sid, targets, false⟩ := by
  cases targets with
  | nil => cases h
  | cons x rest => exact (Option.some.inj h).symm

namespace Inv

section

variable (hi : Inv D s)
include hi

theorem setCall {o : Option Call}
    (ht : ∀ call, o = some call → ∀ x ∈ call.targets, x.2 ∈ D ∧ x.2.id = x.1 ∧ x.2.sessionID = call.sessionID) :
    Inv D { s with calls := update s.calls c o } :=
  { hi with
    targets := by
      intro c' call h
      rcases update_cases (· = some call) h with ⟨-, h⟩ | ⟨-, h⟩
      · exact ht call h
      · exact hi.targets c' call h }

theorem beginCall {targets : List (String × Daemon)} (ht : ∀ x ∈ targets, x.2 ∈ D ∧ x.2.id = x.1 ∧ x.2.sessionID = sid) :
    Inv D (s.begin c sid targets) := by
  rw [begin_eq]
  refine hi.setCall fun call h => ?_
  cases opened_eq_some h
  exact ht

theorem stop (id : String) : Inv D (s.stop c sid id) := by
  apply hi.beginCall
  intro x hx
  obtain ⟨e, he, rfl⟩ := mem_map.mp hx
  obtain ⟨hlive, hid, hs⟩ := Registry.get_eq_some hi.represents (mem_toList.mp he)
  exact ⟨hi.known e hlive, hid, hs⟩

theorem answer {found : List Daemon} (hf : ∀ e ∈ found, e.sessionID = sid) :
    Inv D { s with answers := s.answers ++ found.map fun e => (sid, e) } :=
  { hi with
    answers := by
      intro x hx
      rcases mem_append.mp hx with hx | hx
      · exact hi.answers x hx
      · obtain ⟨e, he, rfl⟩ := mem_map.mp hx
        exact hf e he }

theorem stopDaemon (hd : d.sessionID = sid) : Inv D (s.stopDaemon d sid) := by
  rw [State.stopDaemon]
  split
  · exact hi
  refine { hi with killing := ?_, sent := ?_ }
  · intro e sid' he
    rcases update_cases (· = some sid') he with ⟨rfl, heq⟩ | ⟨-, he⟩
    · cases heq
      exact hd
    · exact hi.killing e sid' he
  · intro x hx
    rcases mem_append.mp hx with hx | hx
    · exact hi.sent x hx
    · rw [mem_singleton.mp hx]
      exact hd

theorem unregister (hinj : Set.InjOn Daemon.id D) (hd : d ∈ D) :
    Inv D { s with registry := s.registry.unregister d.id, registered := s.registered.erase d } :=
  { hi with
    represents := Registry.unregister_represents hi.represents fun e he heq => hinj (hi.known e he) hd heq
    known := fun e he => hi.known e (Finset.mem_of_mem_erase he) }

theorem register (hinj : Set.InjOn Daemon.id D) (hd : d ∈ D) {stream : Daemon → Stream} :
    Inv D { s with registry := s.registry.register d, stream := stream, registered := insert d s.registered } :=
  { hi with
    represents := Registry.register_represents hi.represents fun e he heq => hinj (hi.known e he) hd heq
    known := by
      intro e he
      rcases Finset.mem_insert.mp he with rfl | he
      · exact hd
      · exact hi.known e he }

theorem kill (hd : d.sessionID = sid) : Inv D (s.sendKill d sid) :=
  { hi with
    killing := by
      intro e sid' he
      rcases update_cases (· = some sid') he with ⟨-, heq⟩ | ⟨-, he⟩
      · cases heq
      · exact hi.killing e sid' he
    sent := by
      intro x hx
      rcases mem_append.mp hx with hx | hx
      · exact hi.sent x hx
      · rw [mem_singleton.mp hx]
        exact hd }

end

end Inv

theorem inv_step (hinj : Set.InjOn Daemon.id D) {a : Action} (ha : ∀ d, a = .register d → d ∈ D)
    (h : step s a = some t) (hi : Inv D s) : Inv D t := by
  cases moved_of_step h with
  | start | wait => exact { hi with }
  | register d => exact hi.register hinj (ha d rfl)
  | get =>
    apply hi.answer
    intro e he
    exact (Registry.get_eq_some hi.represents (mem_toList.mp he)).2.2
  | list ho =>
    apply hi.answer
    intro e he
    exact (Registry.mem_range hi.represents ho he).2
  | stop sid id => exact hi.stop id
  | stopAllForSession _ ho =>
    apply hi.beginCall
    intro x hx
    obtain ⟨e, he, rfl⟩ := mem_map.mp hx
    obtain ⟨hlive, hs⟩ := Registry.mem_range hi.represents ho he
    exact ⟨hi.known e hlive, rfl, hs⟩
  | @stopDaemon c sid id d rest hc =>
    have ht := hi.targets c _ hc
    have hd := (ht (id, d) mem_cons_self).2.2
    have hcalls : (s.stopDaemon d sid).calls = s.calls := by
      rw [State.stopDaemon]
      split <;> rfl
    rw [← hcalls]
    refine (hi.stopDaemon hd).setCall fun call h => ?_
    cases h
    exact ht
  | @unregister c sid id d rest hc =>
    have ht := hi.targets c _ hc
    obtain ⟨hd, hid, -⟩ := ht (id, d) mem_cons_self
    change d.id = id at hid
    subst hid
    exact (hi.unregister hinj hd).beginCall fun x hx => ht x (mem_cons_of_mem _ hx)
  | kill hk => exact hi.kill (hi.killing _ _ hk)
  | @linesClosed c d _ _ =>
    have hended : Inv D { s with stream := update s.stream d .ended } := { hi with }
    exact hended.stop d.id

end

variable {acts : List Action}

theorem registering_steps (h : run step init acts = some s) :
    Steps step (fun _ a => ∀ d, a = .register d → d ∈ {d | Action.register d ∈ acts}) init acts s := by
  apply steps_of_run_of_forall h
  rintro a ha d rfl
  exact ha

theorem inv_of_run (h : run step init acts = some s) (hd : DistinctIDs acts) : Inv {d | Action.register d ∈ acts} s :=
  (registering_steps h).preserves (fun _ _ _ ha hst hi => inv_step hd ha hst hi) (inv_init _)

theorem registry_exact {acts : List Action} {s : State} (h : run step init acts = some s) (hd : DistinctIDs acts) :
    s.registry.Represents s.registered ∧ (∀ x ∈ s.answers, x.2.sessionID = x.1) ∧
      ∀ x ∈ s.sent, x.target.sessionID = x.caller := by
  have hi := inv_of_run h hd
  exact ⟨hi.represents, hi.answers, hi.sent⟩

def devServer : Daemon := ⟨"d1", "s1", "npm run dev", 0⟩

theorem registry_exact_stopped :
    ∃ s, run step init [.start devServer, .register devServer, .get "s2" "d1", .stop 0 "s1" "d1", .stopDaemon 0,
        .unregister 0] = some s ∧
      s.answers = [] ∧ s.sent = [⟨devServer, .term, "s1", false⟩] ∧ s.registry.Represents s.registered ∧
      (∀ x ∈ s.answers, x.2.sessionID = x.1) ∧ ∀ x ∈ s.sent, x.target.sessionID = x.caller := by
  have hrun : run step init [.start devServer, .register devServer, .get "s2" "d1", .stop 0 "s1" "d1",
      .stopDaemon 0, .unregister 0] = some _ := rfl
  refine ⟨_, hrun, rfl, rfl, registry_exact hrun ?_⟩
  intro d hd e he _
  have honly : ∀ x, Action.register x ∈ [Action.start devServer, .register devServer, .get "s2" "d1",
      .stop 0 "s1" "d1", .stopDaemon 0, .unregister 0] → x = devServer := by simp
  rw [honly d hd, honly e he]

end NomadDev.Daemons
