import NomadDev.Foundation.PointUpdate
import NomadDev.SessionStore

namespace NomadDev.SessionDB

open Foundation.PointUpdate Foundation.Transition Function
open NomadDev.Session (Envelope Entry)

variable {B : Type} {codec : Codec B} {bufferSize maxBytes : ℕ} {s t : State B} {g ref : ℕ} {c : Call} {sid : String}
  {now : ℤ} {a : Action}

namespace State

def owner (s : State B) (ref : ℕ) : Option String := (s.heap ref).map Session.sid

theorem owner_setSession {sess new : Session} (h : s.heap ref = some sess) (hsid : new.sid = sess.sid) :
    (s.setSession ref new).owner = s.owner := by
  funext r
  change (update s.heap ref (some new) r).map Session.sid = (s.heap r).map Session.sid
  by_cases hr : r = ref
  · rw [hr, update_self, h, Option.map_some, Option.map_some, hsid]
  · rw [update_of_ne hr]

end State

structure Consistent (s : State B) : Prop where
  conns : ∀ g ref, s.conns g = some ref → ∃ sid, s.owner ref = some sid ∧ s.sessions sid = some ref
  rows : ∀ sid, s.events sid ≠ [] → (s.rows sid).isSome

def Keeps (s : State B) : Action → Prop
  | .unmap g => ∀ sid stale, s.calls g = .sweeping (sid :: stale) →
      ∀ k ref, s.conns k = some ref → s.owner ref ≠ some sid
  | .upsert g => ∀ sid ref now, s.calls g = .rehydrated sid ref now → s.sessions sid = some ref
  | .insert g => ∀ sid e, s.calls g = .pushed sid e → (s.rows sid).isSome
  | _ => True

namespace Call

def Building (sid : String) (ref : ℕ) : Call → Prop
  | created t r _ | loaded t r _ _ | rehydrated t r _ => t = sid ∧ r = ref
  | _ => False

def Locks (sid : String) : Call → Prop
  | inserted t _ | touched t _ | emptied t _ => t = sid
  | _ => False

end Call

def LockHeld (calls : ℕ → Call) (lock : String → Bool) : Prop :=
  ∀ g sid, (calls g).Locks sid → lock sid = true ∧ ∀ k, (calls k).Locks sid → k = g

namespace LockHeld

variable {calls : ℕ → Call} {lock : String → Bool} {g : ℕ} {c : Call} {sid : String}

theorem move (h : LockHeld calls lock) (hc : ∀ u, c.Locks u → (calls g).Locks u) :
    LockHeld (update calls g c) lock := by
  have hold : ∀ k u, (update calls g c k).Locks u → (calls k).Locks u := by
    intro k u hk
    rcases update_cases (Call.Locks _) hk with ⟨rfl, hd⟩ | ⟨-, hd⟩
    · exact hc u hd
    · exact hd
  intro k u hk
  obtain ⟨hl, huniq⟩ := h k u (hold k u hk)
  exact ⟨hl, fun j hj => huniq j (hold j u hj)⟩

theorem acquire (h : LockHeld calls lock) (hfree : lock sid = false) (hc : ∀ u, c.Locks u → u = sid) :
    LockHeld (update calls g c) (update lock sid true) := by
  have hother : ∀ k, k ≠ g → ∀ u, (calls k).Locks u → u ≠ sid := by
    rintro k - u hk rfl
    cases hfree.symm.trans (h k u hk).1
  intro k u hk
  rcases update_cases (Call.Locks _) hk with ⟨rfl, hd⟩ | ⟨hne, hd⟩
  · rw [hc u hd]
    refine ⟨update_self _ _ _, fun j hj => ?_⟩
    rcases update_cases (Call.Locks _) hj with ⟨rfl, -⟩ | ⟨hjk, hj⟩
    · rfl
    · exact absurd rfl (hother j hjk sid hj)
  · have hu := hother k hne u hd
    rw [update_of_ne hu]
    refine ⟨(h k u hd).1, fun j hj => ?_⟩
    rcases update_cases (Call.Locks _) hj with ⟨-, hcu⟩ | ⟨-, hj⟩
    · exact absurd (hc u hcu) hu
    · exact (h k u hd).2 j hj

theorem release (h : LockHeld calls lock) (hg : (calls g).Locks sid) (hc : ∀ u, ¬ c.Locks u) :
    LockHeld (update calls g c) (update lock sid false) := by
  intro k u hk
  rcases update_cases (Call.Locks _) hk with ⟨-, hcu⟩ | ⟨hne, hd⟩
  · exact absurd hcu (hc u)
  have hu : u ≠ sid := by
    rintro rfl
    exact hne ((h g u hg).2 k hd)
  rw [update_of_ne hu]
  refine ⟨(h k u hd).1, fun j hj => ?_⟩
  rcases update_cases (Call.Locks _) hj with ⟨-, hcu⟩ | ⟨-, hj⟩
  · exact absurd hcu (hc u)
  · exact (h k u hd).2 j hj

end LockHeld

structure Sound (s : State B) : Prop where
  live : ∀ sid ref, s.sessions sid = some ref → s.owner ref = some sid
  building : ∀ g sid ref, (s.calls g).Building sid ref → s.owner ref = some sid
  bound : ∀ ref, s.owner ref ≠ none → ref < s.fresh
  locked : LockHeld s.calls s.sidLock
  emptied : ∀ g sid stale, s.calls g = .emptied sid stale → s.events sid = []

theorem sound_init : Sound (init : State B) := by
  refine ⟨?_, ?_, ?_, ?_, ?_⟩
  · nofun
  · nofun
  · intro ref h
    exact absurd rfl h
  · nofun
  · nofun

theorem consistent_init : Consistent (init : State B) := by
  constructor
  · nofun
  · intro sid h
    exact absurd rfl h

theorem Sound.move (hi : Sound s) (hcalls : t.calls = update s.calls g c) (howner : t.owner = s.owner)
    (hfresh : t.fresh = s.fresh) (hsess : ∀ sid ref, t.sessions sid = some ref → s.sessions sid = some ref)
    (hbuild : ∀ sid ref, c.Building sid ref → s.owner ref = some sid) (hlock : LockHeld t.calls t.sidLock)
    (hempty : ∀ k sid stale, t.calls k = .emptied sid stale → t.events sid = []) : Sound t := by
  refine ⟨?_, ?_, ?_, hlock, hempty⟩
  · intro sid ref h
    rw [howner]
    exact hi.live sid ref (hsess sid ref h)
  · intro k sid ref h
    rw [howner]
    rw [hcalls] at h
    rcases update_cases (Call.Building sid ref) h with ⟨-, hc⟩ | ⟨-, hc⟩
    · exact hbuild sid ref hc
    · exact hi.building k sid ref hc
  · rw [howner, hfresh]
    exact hi.bound

theorem Sound.quiet (hi : Sound s) (hcalls : t.calls = update s.calls g c)
    (howner : t.owner = s.owner) (hfresh : t.fresh = s.fresh)
    (hsess : ∀ sid ref, t.sessions sid = some ref → s.sessions sid = some ref) (hevents : t.events = s.events)
    (hlock : t.sidLock = s.sidLock) (hbuild : ∀ sid ref, c.Building sid ref → s.owner ref = some sid)
    (hlocks : ∀ u, c.Locks u → (s.calls g).Locks u) (hempty : ∀ sid stale, c ≠ .emptied sid stale) : Sound t := by
  refine hi.move hcalls howner hfresh hsess hbuild ?_ ?_
  · rw [hcalls, hlock]
    exact hi.locked.move hlocks
  · intro k sid stale hk
    rw [hcalls] at hk
    rw [hevents]
    rcases update_cases (· = Call.emptied sid stale) hk with ⟨-, hc⟩ | ⟨-, hc⟩
    · exact absurd hc (hempty sid stale)
    · exact hi.emptied k sid stale hc

theorem Sound.congr (hi : Sound s) (hcalls : t.calls = s.calls) (howner : t.owner = s.owner) (hfresh : t.fresh = s.fresh)
    (hsess : t.sessions = s.sessions) (hevents : t.events = s.events) (hlock : t.sidLock = s.sidLock) : Sound t := by
  refine ⟨?_, ?_, ?_, ?_, ?_⟩
  · rw [howner, hsess]
    exact hi.live
  · rw [howner, hcalls]
    exact hi.building
  · rw [howner, hfresh]
    exact hi.bound
  · rw [hcalls, hlock]
    exact hi.locked
  · rw [hcalls, hevents]
    exact hi.emptied

theorem Sound.create (hi : Sound s) {sess : Session} (hsid : sess.sid = sid)
    (hcalls : t.calls = update s.calls g (.created sid s.fresh now))
    (hheap : t.heap = update s.heap s.fresh (some sess)) (hsess : t.sessions = update s.sessions sid (some s.fresh))
    (hfresh : t.fresh = s.fresh + 1) (hevents : t.events = s.events) (hlock : t.sidLock = s.sidLock) : Sound t := by
  have hnew : t.owner s.fresh = some sid := by
    rw [State.owner, hheap, update_self, Option.map_some, hsid]
  have hold : ∀ ref, ref ≠ s.fresh → t.owner ref = s.owner ref := by
    intro ref hne
    rw [State.owner, hheap, update_of_ne hne]
    rfl
  have hkeep : ∀ ref u, s.owner ref = some u → t.owner ref = some u := by
    intro ref u hu
    rw [hold ref, hu]
    rintro rfl
    refine Nat.lt_irrefl _ (hi.bound s.fresh ?_)
    rw [hu]
    exact Option.some_ne_none u
  refine ⟨?_, ?_, ?_, ?_, ?_⟩
  · intro u ref h
    rw [hsess] at h
    rcases of_update_some h with ⟨rfl, rfl⟩ | ⟨-, h⟩
    · exact hnew
    · exact hkeep ref u (hi.live u ref h)
  · intro k u ref h
    rw [hcalls] at h
    rcases update_cases (Call.Building u ref) h with ⟨-, rfl, rfl⟩ | ⟨-, hc⟩
    · exact hnew
    · exact hkeep ref u (hi.building k u ref hc)
  · intro ref h
    rw [hfresh]
    by_cases hne : ref = s.fresh
    · rw [hne]
      exact Nat.lt_succ_self _
    · rw [hold ref hne] at h
      exact Nat.lt_succ_of_lt (hi.bound ref h)
  · rw [hcalls, hlock]
    exact hi.locked.move fun u hu => hu.elim
  · intro k u stale h
    rw [hcalls] at h
    rw [hevents]
    rcases update_cases (· = Call.emptied u stale) h with ⟨-, hc⟩ | ⟨-, hc⟩
    · cases hc
    · exact hi.emptied k u stale hc

theorem Sound.getOrCreate (hi : Sound s) (sid : String) (now : ℤ) :
    Sound (SessionDB.getOrCreate bufferSize maxBytes s g sid now) := by
  unfold SessionDB.getOrCreate
  cases hmap : s.sessions sid with
  | none => exact hi.create rfl rfl rfl rfl rfl rfl rfl
  | some ref =>
    have hidle : ∀ {t : State B}, t.calls = update s.calls g .idle → t.owner = s.owner → t.fresh = s.fresh →
        t.sessions = s.sessions → t.events = s.events → t.sidLock = s.sidLock → Sound t := by
      intro t hcalls howner hfresh hsess hevents hlock
      refine hi.quiet hcalls howner hfresh ?_ hevents hlock (fun _ _ h => h.elim) (fun _ h => h.elim)
        nofun
      intro u r h
      rwa [hsess] at h
    cases hheap : s.heap ref with
    | none =>
      simp only [hheap]
      exact hidle rfl rfl rfl rfl rfl rfl
    | some sess =>
      have howner : (s.setSession ref { sess with lastSeen := now }).owner = s.owner :=
        State.owner_setSession hheap rfl
      simp only [hheap]
      exact hidle rfl howner rfl rfl rfl rfl

theorem locks_of_emptied {stale : List String} (h : c = .emptied sid stale) : c.Locks sid := by
  rw [h]
  exact rfl

theorem sound_step (h : step codec bufferSize maxBytes s a = some t) (hi : Sound s) : Sound t := by
  have calm : ∀ {g : ℕ} {c : Call} {t : State B}, t.calls = update s.calls g c → t.owner = s.owner →
      t.fresh = s.fresh → t.sessions = s.sessions → t.events = s.events → t.sidLock = s.sidLock →
      (∀ sid ref, c.Building sid ref → s.owner ref = some sid) → (∀ u, c.Locks u → (s.calls g).Locks u) →
      (∀ sid stale, c ≠ .emptied sid stale) → Sound t := by
    intro g c t hcalls howner hfresh hsess hevents hlock
    exact hi.quiet hcalls howner hfresh (fun u r h => by rwa [hsess] at h) hevents hlock
  cases effect_of_step h with
  | getOrCreate sid now => exact hi.getOrCreate sid now
  | @query g _ _ _ hg =>
    refine calm rfl rfl rfl rfl rfl rfl (fun u r hb => ?_) (fun _ hl => hl.elim) nofun
    exact hi.building g u r (by rw [hg]; exact hb)
  | @load g _ _ _ _ _ hg hsess =>
    refine calm rfl (State.owner_setSession hsess rfl) rfl rfl rfl rfl (fun u r hb => ?_) (fun _ hl => hl.elim)
      nofun
    exact hi.building g u r (by rw [hg]; exact hb)
  | append _ _ _ _ hsess =>
    exact calm rfl (State.owner_setSession hsess rfl) rfl rfl rfl rfl (fun _ _ hb => hb.elim) (fun _ hl => hl.elim)
      nofun
  | upsert | sweep | swept =>
    exact calm rfl rfl rfl rfl rfl rfl (fun _ _ hb => hb.elim) (fun _ hl => hl.elim) nofun
  | @insert _ sid _ _ hfree =>
    refine hi.move rfl rfl rfl (fun _ _ => id) (fun _ _ hb => hb.elim)
      (hi.locked.acquire hfree fun u hu => hu.symm) ?_
    intro k u stale hk
    rcases update_cases (· = Call.emptied u stale) hk with ⟨-, hc⟩ | ⟨-, hc⟩
    · cases hc
    have hu : u ≠ sid := by
      rintro rfl
      have hheld := (hi.locked k u (locks_of_emptied hc)).1
      cases hfree.symm.trans hheld
    exact (update_of_ne hu _ _).trans (hi.emptied k u stale hc)
  | touchRow now hg =>
    refine calm rfl rfl rfl rfl rfl rfl (fun _ _ hb => hb.elim) (fun u hl => ?_) nofun
    rw [hg]
    exact hl
  | @prune g _ sid hg =>
    have hlocks : (s.calls g).Locks sid := by
      rw [hg]
      exact rfl
    refine hi.move rfl rfl rfl (fun _ _ => id) (fun _ _ hb => hb.elim) (hi.locked.release hlocks fun _ => id) ?_
    intro k u stale hk
    rcases update_cases (· = Call.emptied u stale) hk with ⟨-, hc⟩ | ⟨hne, hc⟩
    · cases hc
    have hu : u ≠ sid := by
      rintro rfl
      exact hne ((hi.locked g u hlocks).2 k (locks_of_emptied hc))
    exact (update_of_ne hu _ _).trans (hi.emptied k u stale hc)
  | unmap =>
    exact hi.quiet rfl rfl rfl (fun u ref hu => (of_update_none hu).2) rfl rfl (fun _ _ hb => hb.elim)
      (fun _ hl => hl.elim) nofun
  | @deleteEvents _ sid _ _ hfree =>
    refine hi.move rfl rfl rfl (fun _ _ => id) (fun _ _ hb => hb.elim)
      (hi.locked.acquire hfree fun u hu => hu.symm) ?_
    intro k u stale' hk
    by_cases hu : u = sid
    · rw [hu]
      exact update_self _ _ _
    refine (update_of_ne hu _ _).trans ?_
    rcases update_cases (· = Call.emptied u stale') hk with ⟨-, hc⟩ | ⟨-, hc⟩
    · cases hc
      exact absurd rfl hu
    · exact hi.emptied k u stale' hc
  | @deleteSession g sid _ hg =>
    have hlocks : (s.calls g).Locks sid := locks_of_emptied hg
    refine hi.move rfl rfl rfl (fun _ _ => id) (fun _ _ hb => hb.elim) (hi.locked.release hlocks fun _ => id) ?_
    intro k u stale' hk
    rcases update_cases (· = Call.emptied u stale') hk with ⟨-, hc⟩ | ⟨-, hc⟩
    · cases hc
    · exact hi.emptied k u stale' hc
  | touch _ hsess => exact hi.congr rfl (State.owner_setSession hsess rfl) rfl rfl rfl rfl
  | disconnect => exact hi.congr rfl rfl rfl rfl rfl rfl
  | stop =>
    have h₀ : Sound (init : State B) := sound_init
    exact ⟨h₀.live, h₀.building, fun _ h => absurd rfl h, h₀.locked,
      fun g sid stale hg => absurd hg (by simp [State.stopped, init])⟩

theorem Consistent.congr (h : Consistent s) (hconns : t.conns = s.conns) (howner : t.owner = s.owner)
    (hsess : t.sessions = s.sessions) (hevents : ∀ sid, t.events sid ≠ [] → s.events sid ≠ [])
    (hrows : ∀ sid, (s.rows sid).isSome → (t.rows sid).isSome) : Consistent t := by
  constructor
  · rw [hconns, howner, hsess]
    exact h.conns
  · intro sid hne
    exact hrows sid (h.rows sid (hevents sid hne))

theorem pruned_nil (next : ℕ) : pruned bufferSize ([] : List (Row B)) next = [] := by
  unfold pruned
  split <;> rfl

theorem Consistent.ret (h : Consistent s) (g : ℕ) (howner : s.owner ref = some sid) (hmap : s.sessions sid = some ref) :
    Consistent (s.ret g ref) := by
  refine ⟨fun k r hk => ?_, h.rows⟩
  rcases of_update_some hk with ⟨-, rfl⟩ | ⟨-, hk⟩
  · exact ⟨sid, howner, hmap⟩
  · exact h.conns k r hk

theorem consistent_getOrCreate (hi : Sound s) (hp : Consistent s) (g : ℕ) (sid : String) (now : ℤ) :
    Consistent (getOrCreate bufferSize maxBytes s g sid now) := by
  unfold getOrCreate
  cases hmap : s.sessions sid with
  | some ref =>
    have howner := hi.live sid ref hmap
    cases hheap : s.heap ref with simp only [hheap]
    | none => exact hp.ret g howner hmap
    | some sess =>
      have hsame : (s.setSession ref { sess with lastSeen := now }).owner = s.owner :=
        State.owner_setSession hheap rfl
      refine Consistent.ret ?_ g (by rw [hsame]; exact howner) hmap
      exact hp.congr rfl hsame rfl (fun _ => id) fun _ => id
  | none =>
    refine ⟨fun k ref hk => ?_, hp.rows⟩
    obtain ⟨u, howner, hu⟩ := hp.conns k ref hk
    have hne : ref ≠ s.fresh := (hi.bound ref (by rw [howner]; exact Option.some_ne_none u)).ne
    have husid : u ≠ sid := by
      rintro rfl
      cases hu.symm.trans hmap
    refine ⟨u, ?_, (update_of_ne husid _ _).trans hu⟩
    rw [← howner]
    exact congrArg (Option.map Session.sid) (update_of_ne hne _ s.heap)

theorem consistent_upsert_iff (hi : Sound s) (hp : Consistent s) (hg : s.calls g = .rehydrated sid ref now) :
    Consistent ((s.setRow sid (some now)).ret g ref) ↔ s.sessions sid = some ref := by
  have howner : s.owner ref = some sid := hi.building g sid ref (by rw [hg]; exact ⟨rfl, rfl⟩)
  constructor
  · intro h
    obtain ⟨u, hu, hmap⟩ := h.conns g ref (update_self _ _ _)
    cases howner.symm.trans hu
    exact hmap
  · intro hmap
    have hset : Consistent (s.setRow sid (some now)) := by
      refine hp.congr rfl rfl rfl (fun _ => id) fun u hu => ?_
      change (update s.rows sid (some now) u).isSome
      by_cases husid : u = sid
      · rw [husid, update_self]
        rfl
      · rwa [update_of_ne husid]
    exact hset.ret g howner hmap

theorem consistent_insert_iff (hp : Consistent s) (sid : String) (row : Row B) (g : ℕ) (c : Call) :
    Consistent (((s.setEvents sid (s.events sid ++ [row])).setLock sid true).call g c) ↔ (s.rows sid).isSome := by
  constructor
  · intro h
    apply h.rows sid
    change update s.events sid (s.events sid ++ [row]) sid ≠ []
    rw [update_self]
    exact List.append_ne_nil_of_right_ne_nil _ (List.cons_ne_nil row [])
  · intro hsome
    refine ⟨hp.conns, fun u hu => ?_⟩
    by_cases husid : u = sid
    · rw [husid]
      exact hsome
    · exact hp.rows u (by rwa [← update_of_ne husid (s.events sid ++ [row]) s.events])

theorem consistent_unmap_iff (hp : Consistent s) (sid : String) (g : ℕ) (c : Call) :
    Consistent ({ s with sessions := update s.sessions sid none }.call g c) ↔
      ∀ k ref, s.conns k = some ref → s.owner ref ≠ some sid := by
  constructor
  · intro h k ref hk hsid
    obtain ⟨u, hu, hmap⟩ := h.conns k ref hk
    cases hsid.symm.trans hu
    exact (of_update_none hmap).1 rfl
  · intro hfree
    refine ⟨fun k ref hk => ?_, hp.rows⟩
    obtain ⟨u, hu, hmap⟩ := hp.conns k ref hk
    have husid : u ≠ sid := by
      rintro rfl
      exact hfree k ref hk hu
    exact ⟨u, hu, (update_of_ne husid _ _).trans hmap⟩

theorem consistent_step_iff (hi : Sound s) (hp : Consistent s) (h : step codec bufferSize maxBytes s a = some t) :
    Consistent t ↔ Keeps s a := by
  have same : ∀ {t : State B}, t.conns = s.conns → t.owner = s.owner → t.sessions = s.sessions →
      t.events = s.events → t.rows = s.rows → Consistent t := by
    intro t hconns howner hsess hevents hrows
    exact hp.congr hconns howner hsess (fun sid => by rw [hevents]; exact id) fun sid => by rw [hrows]; exact id
  cases effect_of_step h with
  | getOrCreate sid now => exact iff_of_true (consistent_getOrCreate hi hp _ sid now) trivial
  | query | sweep => exact iff_of_true (same rfl rfl rfl rfl rfl) trivial
  | load _ hsess | append _ _ _ _ hsess | touch _ hsess =>
    exact iff_of_true (same rfl (State.owner_setSession hsess rfl) rfl rfl rfl) trivial
  | @upsert _ ref sid now hg =>
    rw [consistent_upsert_iff hi hp hg]
    refine ⟨fun hmap u r n hc => ?_, fun hk => hk sid ref now hg⟩
    cases hg.symm.trans hc
    exact hmap
  | @insert _ sid e hg =>
    rw [consistent_insert_iff hp]
    refine ⟨fun hsome u f hc => ?_, fun hk => hk sid e hg⟩
    cases hg.symm.trans hc
    exact hsome
  | @touchRow _ _ sid =>
    refine iff_of_true (hp.congr rfl rfl rfl (fun _ => id) fun u hu => ?_) trivial
    change (update s.rows sid _ u).isSome
    by_cases husid : u = sid
    · rw [husid, update_self, Option.isSome_map, ← husid]
      exact hu
    · rwa [update_of_ne husid]
  | prune =>
    refine iff_of_true (hp.congr rfl rfl rfl (fun u hu => ?_) fun _ => id) trivial
    rcases update_cases (· ≠ []) hu with ⟨rfl, hu⟩ | ⟨-, hu⟩
    · intro hnil
      rw [hnil, pruned_nil] at hu
      exact hu rfl
    · exact hu
  | @unmap _ sid stale hg =>
    rw [consistent_unmap_iff hp]
    refine ⟨fun hfree u rest hc => ?_, fun hk => hk sid stale hg⟩
    cases hg.symm.trans hc
    exact hfree
  | swept hg =>
    refine iff_of_true (same rfl rfl rfl rfl rfl) fun sid stale hc => ?_
    cases hg.symm.trans hc
  | deleteEvents =>
    refine iff_of_true (hp.congr rfl rfl rfl (fun u hu => ?_) fun _ => id) trivial
    rcases update_cases (· ≠ []) hu with ⟨-, hu⟩ | ⟨-, hu⟩
    · exact absurd rfl hu
    · exact hu
  | @deleteSession g sid stale hg =>
    refine iff_of_true ⟨hp.conns, fun u hu => ?_⟩ trivial
    change (update s.rows sid none u).isSome
    have husid : u ≠ sid := by
      rintro rfl
      exact hu (hi.emptied g u stale hg)
    rw [update_of_ne husid]
    exact hp.rows u hu
  | disconnect g =>
    exact iff_of_true ⟨fun k ref hk => hp.conns k ref (of_update_none hk).2, hp.rows⟩ trivial
  | stop => exact iff_of_true ⟨fun k ref hk => absurd hk (by simp [State.stopped, init]), hp.rows⟩ trivial

theorem consistent_throughout_iff {acts : List Action} {s : State B}
    (h : run (step codec bufferSize maxBytes) init acts = some s) :
    Throughout (step codec bufferSize maxBytes) Consistent init acts ↔
      Steps (step codec bufferSize maxBytes) Keeps init acts s :=
  throughout_iff_steps (fun _ _ _ => sound_step) (fun _ _ _ => consistent_step_iff) h sound_init consistent_init

def closedThenSwept : List Action :=
  opening ++ [.append 0 0 ⟨⟨1, .pong⟩, 60⟩ 1, .insert 0, .touchRow 0 1, .prune 0, .disconnect 0, .sweep 9 100 30 ["s1"],
    .unmap 9, .deleteEvents 9, .deleteSession 9]

theorem consistent_throughout_swept : ∃ s, run (step plainCodec 2 1000) init closedThenSwept = some s ∧
      s.sessions "s1" = none ∧ s.rows "s1" = none ∧
      Throughout (step plainCodec 2 1000) Consistent init closedThenSwept := by
  refine ⟨_, rfl, rfl, rfl, (consistent_throughout_iff rfl).mpr ?_⟩
  refine .cons trivial rfl (.cons trivial rfl (.cons trivial rfl (.cons ?_ rfl (.cons trivial rfl (.cons ?_ rfl
    (.cons trivial rfl (.cons trivial rfl (.cons trivial rfl (.cons trivial rfl (.cons ?_ rfl (.cons trivial rfl
    (.cons trivial rfl (.nil _)))))))))))))
  · intro sid ref now h
    cases h
    rfl
  · intro sid e h
    cases h
    rfl
  · intro sid stale h k ref hk
    rcases k with _ | k <;> cases hk

theorem swept_open_connection :
    ∃ s, run (step plainCodec 2 1000) init (opening ++ [.touch 0 99, .sweep 9 100 30 ["s1"], .unmap 9, .deleteEvents 9,
        .deleteSession 9, .append 0 0 ⟨⟨1, .pong⟩, 60⟩ 100, .insert 0]) = some s ∧
      s.conns 0 = some 0 ∧ s.owner 0 = some "s1" ∧ s.sessions "s1" = none ∧ (s.events "s1").length = 1 ∧
      s.rows "s1" = none ∧ ¬ Consistent s := by
  refine ⟨_, rfl, rfl, rfl, rfl, rfl, rfl, fun h => ?_⟩
  obtain ⟨sid, howner, hmap⟩ := h.conns 0 0 rfl
  cases howner
  cases hmap

theorem sweep_excludes_append (acts : List Action) : Throughout (step codec bufferSize maxBytes) (fun s =>
    ∀ g sid stale, s.calls g = .emptied sid stale → s.events sid = [] ∧ ∀ k, (s.calls k).Locks sid → k = g) init acts :=
  throughout_of_preserves (fun _ _ _ => sound_step) (fun _ hs g sid stale hg =>
    ⟨hs.emptied g sid stale hg, (hs.locked g sid (locks_of_emptied hg)).2⟩) sound_init acts

end NomadDev.SessionDB
