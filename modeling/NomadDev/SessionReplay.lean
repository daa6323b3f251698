import NomadDev.Foundation.PointUpdate
import NomadDev.SessionLog

namespace NomadDev.SessionDB

open Foundation.PointUpdate Foundation.Transition Foundation.Window Function List
open NomadDev.Session (Envelope Entry RingBuffer newRingBuffer)

variable {B : Type} {codec : Codec B} {bufferSize maxBytes : ℕ}

def Action.sweeps : Action → Bool
  | .sweep .. | .unmap _ | .deleteEvents _ | .deleteSession _ => true
  | _ => false

def CallsOnly (a : Action) : Prop := a.sweeps = false

variable {c d : Call} {bound g k ref : ℕ} {items entries : List Entry} {sess : Session} {sid : String}
  {calls : ℕ → Call} {s : State B}

namespace Call

def Busy (sid : String) : Call → Prop
  | created t _ _ | loaded t _ _ _ | pushed t _ => t = sid
  | _ => False

def Late (sid : String) (bound : ℕ) : Call → Prop
  | created t _ _ | loaded t _ _ _ | pushed t _ => t ≠ sid
  | inserted t next | touched t next => t = sid → next < bound
  | _ => True

variable {sid : String} {n : ℕ}

theorem Late.mono {m : ℕ} (h : c.Late sid m) (hmn : m ≤ n) : c.Late sid n := by
  cases c with
  | inserted t next | touched t next => exact fun ht => (h ht).trans_le hmn
  | _ => exact h

theorem Late.not_busy (h : c.Late sid n) : ¬ c.Busy sid := by
  cases c with
  | created _ _ _ | loaded _ _ _ _ | pushed _ _ => exact h
  | _ => exact id

end Call

def Ordered (s : State B) : Action → Prop
  | .append _ ref _ _ => ∀ sess, s.heap ref = some sess → ∀ g, ¬ (s.calls g).Busy sess.sid
  | _ => True

variable (bufferSize maxBytes) in
def held (entries : List Entry) : List Entry := window (Fits (max bufferSize 1) (max maxBytes 1)) entries

variable (bufferSize maxBytes) in
inductive Phase (sid : String) (ref bound : ℕ) (entries items : List Entry) (calls : ℕ → Call) : Prop
  | created (g : ℕ) (now : ℤ) : calls g = .created sid ref now → items = [] →
      (∀ k, k ≠ g → (calls k).Late sid bound) → Phase sid ref bound entries items calls
  | loaded (g : ℕ) (now : ℤ) :
      calls g = .loaded sid ref now (some (entries.drop (entries.length - bufferSize))) → items = [] →
      (∀ k, k ≠ g → (calls k).Late sid bound) → Phase sid ref bound entries items calls
  | pushed (g : ℕ) (e : Entry) : calls g = .pushed sid e → items = held bufferSize maxBytes (entries ++ [e]) →
      (∀ k, k ≠ g → (calls k).Late sid bound) → Phase sid ref bound entries items calls
  | settled : items = held bufferSize maxBytes entries → (∀ k, (calls k).Late sid bound) →
      Phase sid ref bound entries items calls

def Unmoved (sid : String) (c d : Call) : Prop :=
  d = c ∨ (¬ c.Busy sid ∧ ∀ bound, c.Late sid bound → d.Late sid bound)

theorem Unmoved.late (h : Unmoved sid c d) (hc : c.Late sid bound) : d.Late sid bound := by
  rcases h with rfl | ⟨-, h⟩
  · exact hc
  · exact h bound hc

theorem Unmoved.busy (h : Unmoved sid c d) (hc : c.Busy sid) : d = c :=
  h.resolve_right fun hn => hn.1 hc

theorem Phase.frame {calls' : ℕ → Call} (h : Phase bufferSize maxBytes sid ref bound entries items calls)
    (hc : ∀ k, Unmoved sid (calls k) (calls' k)) : Phase bufferSize maxBytes sid ref bound entries items calls' := by
  have hlate : ∀ k, (calls k).Late sid bound → (calls' k).Late sid bound := fun k => (hc k).late
  cases h with
  | created g now hg hi hk =>
    refine .created g now ?_ hi fun k hne => hlate k (hk k hne)
    rw [(hc g).busy (by rw [hg]; exact rfl), hg]
  | loaded g now hg hi hk =>
    refine .loaded g now ?_ hi fun k hne => hlate k (hk k hne)
    rw [(hc g).busy (by rw [hg]; exact rfl), hg]
  | pushed g e hg hi hk =>
    refine .pushed g e ?_ hi fun k hne => hlate k (hk k hne)
    rw [(hc g).busy (by rw [hg]; exact rfl), hg]
  | settled hi hk => exact .settled hi fun k => hlate k (hk k)

variable (bufferSize maxBytes) in
structure Live (s : State B) (sid : String) (base : ℕ) (entries : List Entry) (ref : ℕ) (sess : Session) : Prop where
  mapped : s.sessions sid = some ref
  heap : s.heap ref = some sess
  owner : sess.sid = sid
  cap : sess.buffer.cap = max bufferSize 1
  bytes : sess.buffer.maxBytes = max maxBytes 1
  phase : Phase bufferSize maxBytes sid ref (base + entries.length) entries sess.buffer.items s.calls

variable (codec bufferSize maxBytes) in
def Good (s : State B) (sid : String) : Prop :=
  ∃ base entries, Logged codec (s.events sid) base entries ∧
    ((s.sessions sid = none ∧ ∀ k, (s.calls k).Late sid (base + entries.length)) ∨
      ∃ ref sess, Live bufferSize maxBytes s sid base entries ref sess)

variable (codec bufferSize maxBytes) in
structure Inv (s : State B) : Prop where
  good : ∀ sid, Good codec bufferSize maxBytes s sid
  mapped : ∀ ref sess, s.heap ref = some sess → ref < s.fresh ∧ s.sessions sess.sid = some ref

theorem unmoved_update (h : Unmoved sid (calls g) c) (k : ℕ) : Unmoved sid (calls k) (update calls g c k) := by
  by_cases hk : k = g
  · rw [hk, update_self]
    exact h
  · rw [update_of_ne hk]
    exact .inl rfl

theorem late_other (hk : k ≠ g) (h : (calls k).Late sid bound) : (update calls g c k).Late sid bound := by
  rwa [update_of_ne hk]

theorem late_update (hc : c.Late sid bound) (h : ∀ k, k ≠ g → (calls k).Late sid bound) (k : ℕ) :
    (update calls g c k).Late sid bound := by
  by_cases hk : k = g
  · rw [hk, update_self]
    exact hc
  · exact late_other hk (h k hk)

section

variable (h : Phase bufferSize maxBytes sid ref bound entries items calls)
include h

theorem Phase.of_busy (hb : (calls g).Busy sid) : (∀ k, k ≠ g → (calls k).Late sid bound) ∧
    ((∃ now, calls g = .created sid ref now ∧ items = []) ∨
      (∃ now, calls g = .loaded sid ref now (some (entries.drop (entries.length - bufferSize))) ∧ items = []) ∨
      ∃ e, calls g = .pushed sid e ∧ items = held bufferSize maxBytes (entries ++ [e])) := by
  have hsame : ∀ k, (∀ j, j ≠ k → (calls j).Late sid bound) → k = g := by
    intro k hk
    by_contra hne
    exact (hk g (Ne.symm hne)).not_busy hb
  cases h with
  | created k now hk hi hlate =>
    cases hsame k hlate
    exact ⟨hlate, .inl ⟨now, hk, hi⟩⟩
  | loaded k now hk hi hlate =>
    cases hsame k hlate
    exact ⟨hlate, .inr (.inl ⟨now, hk, hi⟩)⟩
  | pushed k e hk hi hlate =>
    cases hsame k hlate
    exact ⟨hlate, .inr (.inr ⟨e, hk, hi⟩)⟩
  | settled hi hlate => exact ((hlate g).not_busy hb).elim

theorem Phase.of_not_busy (hb : ∀ g, ¬ (calls g).Busy sid) :
    items = held bufferSize maxBytes entries ∧ ∀ k, (calls k).Late sid bound := by
  cases h with
  | created g _ hg _ _ | loaded g _ hg _ _ | pushed g _ hg _ _ =>
    refine (hb g ?_).elim
    rw [hg]
    exact rfl
  | settled hi hlate => exact ⟨hi, hlate⟩

theorem Phase.late_of_not_busy (hb : ¬ (calls g).Busy sid) : (calls g).Late sid bound := by
  cases h with
  | created k _ hk _ hlate | loaded k _ hk _ hlate | pushed k _ hk _ hlate =>
    apply hlate g
    rintro rfl
    rw [hk] at hb
    exact hb rfl
  | settled _ hlate => exact hlate g

end

variable (maxBytes) in
theorem held_drop_append (hn : 1 ≤ bufferSize) (hk : k = 0 ∨ bufferSize + k ≤ entries.length) (rest : List Entry) :
    held bufferSize maxBytes (entries.drop k ++ rest) = held bufferSize maxBytes (entries ++ rest) := by
  rw [held, held, Nat.max_eq_left hn]
  exact window_drop_append (max maxBytes 1) hn entries rest k hk

theorem Phase.drop (hn : 1 ≤ bufferSize) (h : Phase bufferSize maxBytes sid ref bound entries items calls)
    (hk : k = 0 ∨ bufferSize + k ≤ entries.length) :
    Phase bufferSize maxBytes sid ref bound (entries.drop k) items calls := by
  cases h with
  | created g now hg hi hlate => exact .created g now hg hi hlate
  | loaded g now hg hi hlate =>
    refine .loaded g now ?_ hi hlate
    have hsame : k + ((entries.drop k).length - bufferSize) = entries.length - bufferSize := by
      rw [length_drop]
      omega
    rw [hg, drop_drop, hsame]
  | pushed g e hg hi hlate => exact .pushed g e hg (by rw [hi, held_drop_append maxBytes hn hk]) hlate
  | settled hi hlate =>
    have hsame := held_drop_append maxBytes hn hk []
    rw [append_nil, append_nil] at hsame
    exact .settled (by rw [hi, hsame]) hlate

section Steps

variable {s t : State B} {sid : String} {new : Session}

theorem Good.frame (h : Good codec bufferSize maxBytes s sid) (hev : t.events sid = s.events sid)
    (hs : t.sessions sid = s.sessions sid)
    (hheap : ∀ ref sess, s.sessions sid = some ref → s.heap ref = some sess →
      ∃ seen, t.heap ref = some { sess with lastSeen := seen })
    (hc : ∀ k, Unmoved sid (s.calls k) (t.calls k)) : Good codec bufferSize maxBytes t sid := by
  obtain ⟨base, entries, hrows, hnone | ⟨ref, sess, hl⟩⟩ := h
  · exact ⟨base, entries, hev ▸ hrows, .inl ⟨hs.trans hnone.1, fun k => (hc k).late (hnone.2 k)⟩⟩
  · obtain ⟨seen, hseen⟩ := hheap ref sess hl.mapped hl.heap
    exact ⟨base, entries, hev ▸ hrows, .inr ⟨ref, _, hs.trans hl.mapped, hseen, hl.owner, hl.cap, hl.bytes,
      hl.phase.frame hc⟩⟩

theorem heap_update_other {r : ℕ} (hne : r ≠ ref) (h : s.heap r = some sess) :
    ∃ seen, update s.heap ref (some new) r = some { sess with lastSeen := seen } :=
  ⟨sess.lastSeen, (update_of_ne hne _ _).trans h⟩

theorem Logged.setEvents {rows : List (Row B)} {base : ℕ} {entries : List Entry} (h : Logged codec rows base entries) :
    Logged codec ((s.setEvents sid rows).events sid) base entries := by
  rwa [show (s.setEvents sid rows).events sid = rows from update_self _ _ _]

theorem Inv.touchHeap (hi : Inv codec bufferSize maxBytes s) (h : s.heap ref = some sess)
    (now : ℤ) : Inv codec bufferSize maxBytes (s.setSession ref { sess with lastSeen := now }) := by
  constructor
  · intro sid
    refine (hi.good sid).frame rfl rfl ?_ fun _ => .inl rfl
    intro r other hr hother
    by_cases hrr : r = ref
    · rw [hrr] at hother ⊢
      rw [h] at hother
      cases hother
      exact ⟨now, update_self _ _ _⟩
    · exact heap_update_other hrr hother
  · intro r other hr
    rcases of_update_some hr with ⟨rfl, rfl⟩ | ⟨-, hold⟩
    · exact hi.mapped r sess h
    · exact hi.mapped r other hold

theorem Inv.setCalls (hi : Inv codec bufferSize maxBytes s) (hev : t.events = s.events)
    (hs : t.sessions = s.sessions) (hheap : t.heap = s.heap) (hfresh : t.fresh = s.fresh)
    (hc : ∀ sid k, Unmoved sid (s.calls k) (t.calls k)) : Inv codec bufferSize maxBytes t := by
  constructor
  · intro sid
    refine (hi.good sid).frame (congrFun hev sid) (congrFun hs sid) ?_ (hc sid)
    intro ref sess _ h
    rw [hheap]
    exact ⟨sess.lastSeen, h⟩
  · rw [hheap, hfresh, hs]
    exact hi.mapped

theorem inv_init : Inv codec bufferSize maxBytes (init : State B) := by
  refine ⟨fun sid => ⟨0, [], ⟨rfl, fun _ => rfl⟩, .inl ⟨rfl, fun _ => trivial⟩⟩, ?_⟩
  nofun

section

variable (hi : Inv codec bufferSize maxBytes s)
include hi

theorem Inv.getOrCreate (hg : s.calls g = .idle) (sid : String) (now : ℤ) :
    Inv codec bufferSize maxBytes (SessionDB.getOrCreate bufferSize maxBytes s g sid now) := by
  unfold SessionDB.getOrCreate
  have hidle : ∀ sid, Unmoved sid (s.calls g) .idle := fun _ => .inr ⟨by rw [hg]; exact id, fun _ _ => trivial⟩
  cases hmap : s.sessions sid with
  | some ref =>
    obtain ⟨base, entries, -, hnone | ⟨r, sess, hl⟩⟩ := hi.good sid
    · rw [hmap] at hnone
      cases hnone.1
    · have hr : r = ref := Option.some.inj (hl.mapped.symm.trans hmap)
      rw [hr] at hl
      simp only [hl.heap]
      exact (hi.touchHeap hl.heap now).setCalls rfl rfl rfl rfl fun sid => unmoved_update (hidle sid)
  | none =>
    dsimp only
    constructor
    · intro other
      by_cases ho : other = sid
      · rw [ho]
        obtain ⟨base, entries, hrows, ⟨-, hlate⟩ | ⟨r, sess, hl⟩⟩ := hi.good sid
        · refine ⟨base, entries, hrows, .inr ⟨s.fresh, ⟨sid, now, newRingBuffer bufferSize maxBytes⟩, ?_⟩⟩
          refine ⟨update_self _ _ _, update_self _ _ _, rfl, rfl, rfl, ?_⟩
          refine .created g now (update_self g _ s.calls) rfl fun k hk => ?_
          exact late_other hk (hlate k)
        · cases hmap.symm.trans hl.mapped
      · refine (hi.good other).frame rfl (update_of_ne ho _ _) ?_ (unmoved_update ?_)
        · intro ref sess hr hsess
          exact heap_update_other (hi.mapped ref sess hsess).1.ne hsess
        · exact .inr ⟨by rw [hg]; exact id, fun _ _ => Ne.symm ho⟩
    · intro ref sess h
      rcases of_update_some h with ⟨rfl, rfl⟩ | ⟨-, hold⟩
      · exact ⟨Nat.lt_succ_self _, update_self _ _ _⟩
      obtain ⟨hlt, hm⟩ := hi.mapped ref sess hold
      refine ⟨Nat.lt_succ_of_lt hlt, (update_of_ne ?_ _ _).trans hm⟩
      intro hsid
      rw [hsid, hmap] at hm
      cases hm

theorem Inv.of_busy (hg : s.calls g = c) (hb : c.Busy sid) :
    ∃ base entries ref sess, Logged codec (s.events sid) base entries ∧
      Live bufferSize maxBytes s sid base entries ref sess ∧
      (∀ k, k ≠ g → (s.calls k).Late sid (base + entries.length)) ∧
      ((∃ now, c = .created sid ref now ∧ sess.buffer.items = []) ∨
        (∃ now, c = .loaded sid ref now (some (entries.drop (entries.length - bufferSize))) ∧ sess.buffer.items = []) ∨
        ∃ e, c = .pushed sid e ∧ sess.buffer.items = held bufferSize maxBytes (entries ++ [e])) := by
  subst hg
  obtain ⟨base, entries, hrows, ⟨-, hlate⟩ | ⟨ref, sess, hl⟩⟩ := hi.good sid
  · exact ((hlate g).not_busy hb).elim
  · exact ⟨base, entries, ref, sess, hrows, hl, hl.phase.of_busy hb⟩

theorem Inv.local (hsess : s.heap ref = some sess) (hgood : Good codec bufferSize maxBytes t sess.sid)
    (hev : ∀ sid, sid ≠ sess.sid → t.events sid = s.events sid) (hs : t.sessions = s.sessions)
    (hfresh : t.fresh = s.fresh) (hheap : t.heap = update s.heap ref (some new)) (hnew : new.sid = sess.sid)
    (hc : ∀ sid, sid ≠ sess.sid → ∀ k, Unmoved sid (s.calls k) (t.calls k)) : Inv codec bufferSize maxBytes t := by
  constructor
  · intro sid
    by_cases hsid : sid = sess.sid
    · rw [hsid]
      exact hgood
    refine (hi.good sid).frame (hev sid hsid) (congrFun hs sid) ?_ (hc sid hsid)
    intro r other hr hother
    rw [hheap]
    refine heap_update_other ?_ hother
    rintro rfl
    have hm := (hi.mapped r other hother).2
    cases hsess.symm.trans hother
    obtain ⟨base, entries, -, ⟨hnone, -⟩ | ⟨r', sess', hl⟩⟩ := hi.good sid
    · cases hr.symm.trans hnone
    · cases hr.symm.trans hl.mapped
      cases hother.symm.trans hl.heap
      exact hsid hl.owner.symm
  · intro r other hr
    rw [hheap] at hr
    rw [hfresh, hs]
    rcases of_update_some hr with ⟨rfl, rfl⟩ | ⟨-, hold⟩
    · rw [hnew]
      exact hi.mapped r sess hsess
    · exact hi.mapped r other hold

theorem Inv.relog (sid₀ : String) (hgood : Good codec bufferSize maxBytes t sid₀)
    (hev : ∀ sid, sid ≠ sid₀ → t.events sid = s.events sid) (hs : t.sessions = s.sessions) (hfresh : t.fresh = s.fresh)
    (hheap : t.heap = s.heap) (hc : ∀ sid, sid ≠ sid₀ → ∀ k, Unmoved sid (s.calls k) (t.calls k)) :
    Inv codec bufferSize maxBytes t := by
  constructor
  · intro sid
    by_cases hsid : sid = sid₀
    · rw [hsid]
      exact hgood
    · refine (hi.good sid).frame (hev sid hsid) (congrFun hs sid) ?_ (hc sid hsid)
      intro r other _ hother
      rw [hheap]
      exact ⟨other.lastSeen, hother⟩
  · rw [hheap, hfresh, hs]
    exact hi.mapped

theorem Inv.query {g ref : ℕ} {now : ℤ} (hg : s.calls g = .created sid ref now) : Inv codec bufferSize maxBytes
      (s.call g (.loaded sid ref now (loadRows codec bufferSize (s.events sid)))) := by
  obtain ⟨base, entries, r, sess, hrows, hl, hlate, hphase⟩ := hi.of_busy hg rfl
  rcases hphase with ⟨_, hc, hitems⟩ | ⟨_, hc, -⟩ | ⟨_, hc, -⟩ <;> cases hc
  refine hi.relog sid ⟨base, entries, hrows, .inr ⟨ref, sess, hl.mapped, hl.heap, hl.owner, hl.cap,
    hl.bytes, ?_⟩⟩ (fun _ _ => rfl) rfl rfl rfl ?_
  · refine .loaded g now ?_ hitems fun k hk => late_other hk (hlate k hk)
    rw [hrows.loadRows_eq bufferSize]
    exact update_self g _ s.calls
  · intro other ho
    refine unmoved_update (.inr ⟨?_, fun _ _ => Ne.symm ho⟩)
    rw [hg]
    exact Ne.symm ho

end

theorem Inv.load (hn : 1 ≤ bufferSize) (hi : Inv codec bufferSize maxBytes s) {g ref : ℕ} {now : ℤ}
    {batch : Option (List Entry)} {sess : Session} (hg : s.calls g = .loaded sid ref now batch)
    (hsess : s.heap ref = some sess) :
    Inv codec bufferSize maxBytes
      ((s.setSession ref { sess with buffer := pushAll sess.buffer (batch.getD []) }).call g
        (.rehydrated sid ref now)) := by
  obtain ⟨base, entries, r, sess', hrows, hl, hlate, hphase⟩ := hi.of_busy hg rfl
  rcases hphase with ⟨_, hc, -⟩ | ⟨_, hc, hitems⟩ | ⟨_, hc, -⟩ <;> cases hc
  cases hsess.symm.trans hl.heap
  obtain ⟨hcap, hbytes⟩ := pushAll_bounds sess.buffer (entries.drop (entries.length - bufferSize))
  have hmax : max bufferSize 1 = bufferSize := Nat.max_eq_left hn
  have hheld : (pushAll sess.buffer (entries.drop (entries.length - bufferSize))).items =
      held bufferSize maxBytes entries := by
    have hwin := pushAll_items sess.buffer [] (entries.drop (entries.length - bufferSize)) hitems
    have hdrop := window_drop_append (max maxBytes 1) hn entries [] (entries.length - bufferSize) (by omega)
    rw [append_nil, append_nil] at hdrop
    rw [hwin, nil_append, hl.cap, hl.bytes, held, hmax, hdrop]
  obtain rfl := hl.owner
  refine hi.local hsess ⟨base, entries, hrows, .inr ⟨ref, _, hl.mapped, update_self _ _ _, rfl,
    hcap.trans hl.cap, hbytes.trans hl.bytes, .settled hheld ?_⟩⟩ (fun _ _ => rfl) rfl rfl rfl rfl ?_
  · exact late_update trivial hlate
  · intro other ho
    refine unmoved_update (.inr ⟨?_, fun _ _ => trivial⟩)
    rw [hg]
    exact Ne.symm ho

theorem Inv.append (hi : Inv codec bufferSize maxBytes s) {g ref : ℕ} {e : Entry} {sess : Session}
    (hg : s.calls g = .idle) (hsess : s.heap ref = some sess) (hfree : ∀ g, ¬ (s.calls g).Busy sess.sid) (now : ℤ) :
    Inv codec bufferSize maxBytes
      ((s.setSession ref { sess with buffer := sess.buffer.push e.env e.size, lastSeen := now }).call g
        (.pushed sess.sid e)) := by
  obtain ⟨base, entries, hrows, ⟨hnone, -⟩ | ⟨r, sess', hl⟩⟩ := hi.good sess.sid
  · cases hnone.symm.trans (hi.mapped ref sess hsess).2
  cases hl.mapped.symm.trans (hi.mapped ref sess hsess).2
  cases hsess.symm.trans hl.heap
  obtain ⟨hitems, hlate⟩ := hl.phase.of_not_busy hfree
  have hpush : (sess.buffer.push e.env e.size).items = held bufferSize maxBytes (entries ++ [e]) := by
    rw [push_items, hitems, hl.cap, hl.bytes, held, held, window_concat fits_of_concat]
  refine hi.local hsess ⟨base, entries, hrows, .inr ⟨ref, _, hl.mapped, update_self _ _ _, rfl,
    hl.cap, hl.bytes, ?_⟩⟩ (fun _ _ => rfl) rfl rfl rfl rfl ?_
  · exact .pushed g e (update_self g _ s.calls) hpush fun k hk => late_other hk (hlate k)
  · intro other ho
    refine unmoved_update (.inr ⟨?_, fun _ _ => Ne.symm ho⟩)
    rw [hg]
    exact id

theorem Inv.insert (hi : Inv codec bufferSize maxBytes s) {g : ℕ} {e : Entry} (hg : s.calls g = .pushed sid e) :
    Inv codec bufferSize maxBytes
      (((s.setEvents sid (s.events sid ++ [⟨nextIdx (s.events sid), codec.marshal e.env, e.size⟩])).setLock sid
        true).call g (.inserted sid (nextIdx (s.events sid)))) := by
  obtain ⟨base, entries, r, sess, hrows, hl, hlate, hphase⟩ := hi.of_busy hg rfl
  rcases hphase with ⟨_, hc, -⟩ | ⟨_, hc, -⟩ | ⟨_, hc, hitems⟩ <;> cases hc
  have hnext := hrows.nextIdx_eq
  have hlen : (entries ++ [e]).length = entries.length + 1 := length_append
  refine hi.relog sid ⟨base, entries ++ [e], ?_, .inr ⟨r, sess, hl.mapped, hl.heap, hl.owner, hl.cap, hl.bytes,
    .settled hitems ?_⟩⟩ ?_ rfl rfl rfl ?_
  · exact (hrows.concat codec e).setEvents
  · refine late_update (fun _ => ?_) fun k hk => (hlate k hk).mono ?_
    · omega
    · omega
  · intro other ho
    exact update_of_ne ho _ _
  · intro other ho
    refine unmoved_update (.inr ⟨?_, fun _ _ h => (ho h.symm).elim⟩)
    rw [hg]
    exact Ne.symm ho

theorem Good.next_lt {next : ℕ} (h : Good codec bufferSize maxBytes s sid) (hg : s.calls g = .touched sid next) :
    ∃ base entries, Logged codec (s.events sid) base entries ∧ next < base + entries.length ∧
      ((s.sessions sid = none ∧ ∀ k, (s.calls k).Late sid (base + entries.length)) ∨
        ∃ ref sess, Live bufferSize maxBytes s sid base entries ref sess) := by
  obtain ⟨base, entries, hrows, hcases⟩ := h
  refine ⟨base, entries, hrows, ?_, hcases⟩
  have hlate : (s.calls g).Late sid (base + entries.length) := by
    rcases hcases with ⟨-, hlate⟩ | ⟨ref, sess, hl⟩
    · exact hlate g
    · apply hl.phase.late_of_not_busy
      rw [hg]
      exact id
  rw [hg] at hlate
  exact hlate rfl

theorem Inv.prune (hn : 1 ≤ bufferSize) (hi : Inv codec bufferSize maxBytes s) {g next : ℕ}
    (hg : s.calls g = .touched sid next) :
    Inv codec bufferSize maxBytes
      (((s.setEvents sid (pruned bufferSize (s.events sid) next)).setLock sid false).call g .idle) := by
  obtain ⟨base, entries, hrows, hnext, hcases⟩ := (hi.good sid).next_lt hg
  obtain ⟨k, hpruned, hk⟩ := hrows.pruned codec hnext hn
  have hbound : base + k + (entries.drop k).length = base + entries.length := by
    rw [length_drop]
    omega
  have hidle : ∀ sid j, Unmoved sid (s.calls j) (update s.calls g .idle j) := by
    intro sid
    refine unmoved_update (.inr ⟨?_, fun _ _ => trivial⟩)
    rw [hg]
    exact id
  refine hi.relog sid ⟨base + k, entries.drop k, hpruned.setEvents, ?_⟩ ?_ rfl rfl rfl fun other _ => hidle other
  · rw [hbound]
    rcases hcases with ⟨hnone, hlate⟩ | ⟨ref, sess, hl⟩
    · exact .inl ⟨hnone, fun j => (hidle sid j).late (hlate j)⟩
    · refine .inr ⟨ref, sess, hl.mapped, hl.heap, hl.owner, hl.cap, hl.bytes, ?_⟩
      rw [hbound]
      exact (hl.phase.drop hn hk).frame (hidle sid)
  · intro other ho
    exact update_of_ne ho _ _

theorem Inv.stop (hi : Inv codec bufferSize maxBytes s) : Inv codec bufferSize maxBytes s.stopped := by
  constructor
  · intro sid
    obtain ⟨base, entries, hrows, -⟩ := hi.good sid
    exact ⟨base, entries, hrows, .inl ⟨rfl, fun _ => trivial⟩⟩
  · nofun

theorem inv_step (hn : 1 ≤ bufferSize) {a : Action} (hok : CallsOnly a ∧ Ordered s a)
    (h : step codec bufferSize maxBytes s a = some t) (hi : Inv codec bufferSize maxBytes s) :
    Inv codec bufferSize maxBytes t := by
  cases effect_of_step h with
  | getOrCreate sid now hg => exact hi.getOrCreate hg sid now
  | query hg => exact hi.query hg
  | load hg hsess => exact hi.load hn hg hsess
  | upsert hg =>
    refine hi.setCalls rfl rfl rfl rfl fun other => unmoved_update (.inr ⟨?_, fun _ _ => trivial⟩)
    rw [hg]
    exact id
  | @append _ _ sess entry now hg _ hsess => exact hi.append hg hsess (hok.2 sess hsess) now
  | insert hg => exact hi.insert hg
  | touchRow now hg =>
    refine hi.setCalls rfl rfl rfl rfl fun other => unmoved_update (.inr ⟨?_, fun bound hlate => ?_⟩)
    · rw [hg]
      exact id
    · rw [hg] at hlate
      exact hlate
  | prune hg => exact hi.prune hn hg
  | sweep | unmap | swept | deleteEvents | deleteSession => cases hok.1
  | touch now hsess => exact hi.touchHeap hsess now
  | disconnect => exact hi.setCalls rfl rfl rfl rfl fun _ _ => .inl rfl
  | stop => exact hi.stop

end Steps

theorem Inv.items_of_idle (hi : Inv codec bufferSize maxBytes s) (hidle : ∀ g, s.calls g = .idle)
    (hmap : s.sessions sid = some ref) (hsess : s.heap ref = some sess) :
    ∃ base entries, Logged codec (s.events sid) base entries ∧
      sess.buffer.items = held bufferSize maxBytes entries := by
  obtain ⟨base, entries, hrows, ⟨hnone, -⟩ | ⟨r, sess', hl⟩⟩ := hi.good sid
  · cases hnone.symm.trans hmap
  cases hl.mapped.symm.trans hmap
  cases hsess.symm.trans hl.heap
  refine ⟨base, entries, hrows, (hl.phase.of_not_busy fun g => ?_).1⟩
  rw [hidle g]
  exact id

variable (codec bufferSize maxBytes) in
theorem create_run (sid : String) (now : ℤ) (hg : s.calls g = .idle) (hc : s.conns g = none)
    (hs : s.sessions sid = none) :
    ∃ t sess, run (step codec bufferSize maxBytes) s [.getOrCreate g sid now, .query g, .load g, .upsert g] = some t ∧
      t.conns g = some s.fresh ∧ t.heap s.fresh = some sess ∧ sess.sid = sid ∧ t.events = s.events ∧
      ∀ k, t.calls k = update s.calls g .idle k := by
  let sess : Session := ⟨sid, now, newRingBuffer bufferSize maxBytes⟩
  let batch := loadRows codec bufferSize (s.events sid)
  let s₁ : State B := { (s.setSession s.fresh sess).call g (.created sid s.fresh now) with
    sessions := update s.sessions sid (some s.fresh), fresh := s.fresh + 1 }
  have h₁ : step codec bufferSize maxBytes s (.getOrCreate g sid now) = some s₁ := by
    simp only [step, hg, hc, getOrCreate, hs]
    rfl
  let s₂ := s₁.call g (.loaded sid s.fresh now batch)
  have h₂ : step codec bufferSize maxBytes s₁ (.query g) = some s₂ := by
    have hcall : s₁.calls g = .created sid s.fresh now := update_self _ _ _
    simp only [step, hcall]
    rfl
  let sess' : Session := { sess with buffer := pushAll sess.buffer (batch.getD []) }
  let s₃ := (s₂.setSession s.fresh sess').call g (.rehydrated sid s.fresh now)
  have h₃ : step codec bufferSize maxBytes s₂ (.load g) = some s₃ := by
    have hcall : s₂.calls g = .loaded sid s.fresh now batch := update_self _ _ _
    have hheap : s₂.heap s.fresh = some sess := update_self _ _ _
    simp only [step, hcall, hheap]
    rfl
  have h₄ : step codec bufferSize maxBytes s₃ (.upsert g) = some ((s₃.setRow sid (some now)).ret g s.fresh) := by
    have hcall : s₃.calls g = .rehydrated sid s.fresh now := update_self _ _ _
    simp only [step, hcall]
  refine ⟨(s₃.setRow sid (some now)).ret g s.fresh, sess', ?_, update_self _ _ _, update_self _ _ _,
    rfl, rfl, fun k => ?_⟩
  · simp only [run, h₁, h₂, h₃, h₄, Option.bind_some]
  · by_cases hk : k = g
    · rw [hk, update_self]
      exact update_self _ _ _
    · change update (update (update (update s.calls g _) g _) g _) g _ k = _
      simp only [update_of_ne hk]

theorem logged_unique {rows : List (Row B)} {base base' : ℕ} {xs ys : List Entry} (hx : Logged codec rows base xs)
    (hy : Logged codec rows base' ys) : xs = ys := by
  have hmap : xs.map some = ys.map some := by
    rw [← map_decodeRow_encodeFrom codec base xs, ← hx.rows_eq, hy.rows_eq, map_decodeRow_encodeFrom]
  exact map_injective_iff.mpr (fun _ _ => Option.some.inj) hmap

theorem rehydrated_buffer_eq (hn : 1 ≤ bufferSize) {acts : List Action} {s : State B}
    (h : Steps (step codec bufferSize maxBytes) (fun s a => CallsOnly a ∧ Ordered s a) init acts s)
    (hidle : ∀ g, s.calls g = .idle) {sid : String} {ref : ℕ} {sess : Session} (hmap : s.sessions sid = some ref)
    (hsess : s.heap ref = some sess) (g : ℕ) (now : ℤ) :
    ∃ t ref' sess', run (step codec bufferSize maxBytes) s
        [.stop, .getOrCreate g sid now, .query g, .load g, .upsert g] = some t ∧
      t.conns g = some ref' ∧ t.heap ref' = some sess' ∧ sess'.buffer.items = sess.buffer.items := by
  have hi : Inv codec bufferSize maxBytes s := h.preserves (fun s a t => inv_step hn) inv_init
  obtain ⟨t, sess', hrun, hconn, hheap, howner, hevents, hcalls⟩ :=
    create_run codec bufferSize maxBytes sid now (show s.stopped.calls g = .idle from rfl) rfl rfl
  refine ⟨t, s.fresh, sess', hrun, hconn, hheap, ?_⟩
  have hcalm : Steps (step codec bufferSize maxBytes) (fun _ a => CallsOnly a ∧ ∀ s : State B, Ordered s a) s.stopped
      [.getOrCreate g sid now, .query g, .load g, .upsert g] t := by
    apply steps_of_run_of_forall hrun
    intro a ha
    simp only [mem_cons, not_mem_nil, or_false] at ha
    rcases ha with rfl | rfl | rfl | rfl <;> exact ⟨rfl, fun _ => trivial⟩
  have hit : Inv codec bufferSize maxBytes t :=
    hcalm.preserves (fun u a v hok => inv_step hn ⟨hok.1, hok.2 u⟩) hi.stop
  have hidle' : ∀ k, t.calls k = .idle := by
    intro k
    rw [hcalls]
    exact congrFun (update_eq_self g (init : State B).calls) k
  have hmap' : t.sessions sid = some s.fresh := howner ▸ (hit.mapped _ _ hheap).2
  obtain ⟨base, entries, hlog, hitems⟩ := hi.items_of_idle hidle hmap hsess
  obtain ⟨base', entries', hlog', hitems'⟩ := hit.items_of_idle hidle' hmap' hheap
  rw [hevents] at hlog'
  rw [hitems, hitems', logged_unique hlog hlog']

def helloEntry : Entry := ⟨⟨1, .hello⟩, 90⟩

def pongEntry : Entry := ⟨⟨2, .pong⟩, 60⟩

def inOrder : List Action :=
  [.append 0 0 helloEntry 1, .insert 0, .touchRow 0 1, .prune 0, .append 1 0 pongEntry 2, .insert 1, .touchRow 1 2,
    .prune 1]

theorem inOrder_steps : ∃ s, Steps (step plainCodec 2 1000) (fun s a => CallsOnly a ∧ Ordered s a) init
        (opening ++ inOrder) s ∧
      (∀ g, s.calls g = .idle) ∧ s.sessions "s1" = some 0 ∧
      ∃ sess, s.heap 0 = some sess ∧ sess.buffer.items = [helloEntry, pongEntry] := by
  refine ⟨_, .cons ⟨rfl, trivial⟩ rfl (.cons ⟨rfl, trivial⟩ rfl (.cons ⟨rfl, trivial⟩ rfl (.cons ⟨rfl, trivial⟩ rfl
    (.cons ⟨rfl, ?_⟩ rfl (.cons ⟨rfl, trivial⟩ rfl (.cons ⟨rfl, trivial⟩ rfl (.cons ⟨rfl, trivial⟩ rfl
    (.cons ⟨rfl, ?_⟩ rfl (.cons ⟨rfl, trivial⟩ rfl (.cons ⟨rfl, trivial⟩ rfl (.cons ⟨rfl, trivial⟩ rfl
    (.nil _)))))))))))), ?_, rfl, _, rfl, rfl⟩
  · intro sess _ g
    rcases g with _ | g <;> exact id
  · intro sess _ g
    rcases g with _ | _ | g <;> exact id
  · intro g
    rcases g with _ | _ | g <;> rfl

theorem rehydrated_buffer_in_order : ∃ s sess, s.heap 0 = some sess ∧ sess.buffer.items = [helloEntry, pongEntry] ∧
      ∃ t ref' sess', run (step plainCodec 2 1000) s
          [.stop, .getOrCreate 5 "s1" 9, .query 5, .load 5, .upsert 5] = some t ∧
        t.conns 5 = some ref' ∧ t.heap ref' = some sess' ∧ sess'.buffer.items = sess.buffer.items := by
  obtain ⟨s, hsteps, hidle, hmap, sess, hsess, hitems⟩ := inOrder_steps
  exact ⟨s, sess, hsess, hitems, rehydrated_buffer_eq (by decide) hsteps hidle hmap hsess 5 9⟩

def crossed : List Action :=
  [.append 0 0 helloEntry 1, .append 1 0 pongEntry 1, .insert 1, .touchRow 1 1, .prune 1, .insert 0, .touchRow 0 1,
    .prune 0]

theorem crossed_appends_reordered : ¬ ∀ (acts : List Action) (s : State Envelope),
      Steps (step plainCodec 2 1000) (fun _ a => CallsOnly a) init acts s → (∀ g, s.calls g = .idle) →
      ∀ sid ref sess, s.sessions sid = some ref → s.heap ref = some sess → ∀ g now,
        ∃ t ref' sess', run (step plainCodec 2 1000) s
            [.stop, .getOrCreate g sid now, .query g, .load g, .upsert g] = some t ∧
          t.conns g = some ref' ∧ t.heap ref' = some sess' ∧ sess'.buffer.items = sess.buffer.items := by
  intro hall
  obtain ⟨s, hs, hcalls, sess, hmap, hsess, hitems, hagain⟩ : ∃ s : State Envelope,
      run (step plainCodec 2 1000) init (opening ++ crossed) = some s ∧ (∀ g, s.calls g = .idle) ∧
      ∃ sess, s.sessions "s1" = some 0 ∧ s.heap 0 = some sess ∧ sess.buffer.items = [helloEntry, pongEntry] ∧
      ((run (step plainCodec 2 1000) s [.stop, .getOrCreate 0 "s1" 9, .query 0, .load 0, .upsert 0]).bind fun t =>
        (t.conns 0).bind fun ref => (t.heap ref).map fun sess => sess.buffer.items) = some [pongEntry, helloEntry] := by
    refine ⟨_, rfl, ?_, _, rfl, rfl, rfl, rfl⟩
    intro g
    rcases g with _ | _ | g <;> rfl
  have hsteps : Steps (step plainCodec 2 1000) (fun _ a => CallsOnly a) init (opening ++ crossed) s := by
    apply steps_of_run_of_forall hs
    show ∀ a ∈ opening ++ crossed, a.sweeps = false
    decide
  obtain ⟨t, ref', sess', hrun, hconn, hheap, hsame⟩ := hall _ s hsteps hcalls "s1" 0 sess hmap hsess 0 9
  rw [hrun, Option.bind_some, hconn, Option.bind_some, hheap, Option.map_some, hsame, hitems] at hagain
  exact absurd hagain (by decide)

end NomadDev.SessionDB
