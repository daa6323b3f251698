import Mathlib.Data.List.Induction
import NomadDev.Foundation.Transition

namespace NomadDev.Hub

open Foundation.Transition Function List

structure Client where
  (id sid : String)
  sendBuf : ℕ
  deriving DecidableEq

inductive Frame (α : Type)
  | replaced
  | envelope (env : α)

inductive Msg (α : Type)
  | register (c : Client)
  | unregister (c : Client)
  | send (sid : String) (env : α)

structure Registry (α : Type) where
  (clients bySID : String → Option Client)
  closed : Client → Bool
  queue : Client → List (Frame α)

variable {α : Type}

def empty : Registry α := ⟨fun _ => none, fun _ => none, fun _ => false, fun _ => []⟩

variable {c d : Client} {ms post pre : List (Msg α)} {m : Msg α} {sid : String} {cur : Option Client}

namespace Registry

variable (h : Registry α)

def close (c : Client) : Registry α := { h with closed := update h.closed c true }

def offer (c : Client) (f : Frame α) : Registry α :=
  if (h.queue c).length < c.sendBuf then { h with queue := update h.queue c (h.queue c ++ [f]) } else h

def removeClient (id : String) : Registry α := { h with clients := update h.clients id none }

def replacePrev (c : Client) : Registry α :=
  match h.bySID c.sid with
  | some prev => if prev.id ≠ c.id then ((h.offer prev .replaced).close prev).removeClient prev.id else h
  | none => h

def register (c : Client) : Registry α :=
  { h.replacePrev c with
    clients := update (h.replacePrev c).clients c.id (some c)
    bySID := update (h.replacePrev c).bySID c.sid (some c) }

def unregister (c : Client) : Registry α :=
  match h.clients c.id with
  | none => h
  | some _ =>
    { (h.removeClient c.id).close c with
      bySID := match h.bySID c.sid with
        | some current => if current.id = c.id then update h.bySID c.sid none else h.bySID
        | none => h.bySID }

def sendToSession (sid : String) (env : α) : Registry α :=
  match h.bySID sid with
  | none => h
  | some c => h.offer c (.envelope env)

section

variable (h : Registry α)

@[simp] theorem close_bySID (c : Client) : (h.close c).bySID = h.bySID := rfl

@[simp] theorem removeClient_bySID (id : String) : (h.removeClient id).bySID = h.bySID := rfl

@[simp] theorem removeClient_closed (id : String) : (h.removeClient id).closed = h.closed := rfl

@[simp] theorem offer_clients (c : Client) (f : Frame α) : (h.offer c f).clients = h.clients := by
  rw [offer]
  split <;> rfl

@[simp] theorem offer_bySID (c : Client) (f : Frame α) : (h.offer c f).bySID = h.bySID := by
  rw [offer]
  split <;> rfl

@[simp] theorem offer_closed (c : Client) (f : Frame α) : (h.offer c f).closed = h.closed := by
  rw [offer]
  split <;> rfl

theorem close_closed_of (c : Client) (hd : h.closed d = true) : (h.close c).closed d = true := by
  by_cases hc : d = c
  · rw [hc]
    exact update_self c true h.closed
  · exact (update_of_ne hc true h.closed).trans hd

@[simp] theorem replacePrev_bySID (c : Client) : (h.replacePrev c).bySID = h.bySID := by
  unfold replacePrev
  split
  · split
    · simp
    · rfl
  · rfl

end

end Registry

def process (h : Registry α) : Msg α → Registry α
  | .register c => h.register c
  | .unregister c => h.unregister c
  | .send sid env => h.sendToSession sid env

structure State (α : Type) where
  hub : Registry α
  (registers unregisters : List Client)
  sends : List (String × α)
  returned : Bool
  processed : List (Msg α)

def init : State α := ⟨empty, [], [], [], false, []⟩

inductive Action (α : Type)
  | register (c : Client)
  | unregister (c : Client)
  | send (sid : String) (env : α)
  | takeRegister
  | takeUnregister
  | takeSend
  | drain (c : Client)
  | close (c : Client)
  | shutdown

def State.take (s : State α) (m : Msg α) : State α :=
  { s with hub := process s.hub m, processed := s.processed ++ [m] }

-- Any goroutine may call Register, Unregister and SendToSession; `runConnection` registers its client first and
-- unregisters it once both pumps have ended. A blocked sender waits behind those before it.
def step (s : State α) : Action α → Option (State α)
  | .register c => some { s with registers := s.registers ++ [c] }
  | .unregister c => some { s with unregisters := s.unregisters ++ [c] }
  | .send sid env => some { s with sends := s.sends ++ [(sid, env)] }
  | .takeRegister =>
    match s.returned, s.registers with
    | false, c :: rest => some ({ s with registers := rest }.take (.register c))
    | _, _ => none
  | .takeUnregister =>
    match s.returned, s.unregisters with
    | false, c :: rest => some ({ s with unregisters := rest }.take (.unregister c))
    | _, _ => none
  | .takeSend =>
    match s.returned, s.sends with
    | false, (sid, env) :: rest => some ({ s with sends := rest }.take (.send sid env))
    | _, _ => none
  | .drain c => some { s with hub := { s.hub with queue := update s.hub.queue c (s.hub.queue c).tail } }
  | .close c => some { s with hub := s.hub.close c }
  | .shutdown =>
    some { s with
      returned := true
      hub := { s.hub with closed := fun c => s.hub.closed c || (s.hub.clients c.id == some c) } }

/-- What the registry is for: the client that holds a session after a sequence of messages. -/
def assign (sid : String) (cur : Option Client) : Msg α → Option Client
  | .register c => if c.sid = sid then some c else cur
  | .unregister c => if cur = some c then none else cur
  | .send _ _ => cur

def holder (ms : List (Msg α)) (sid : String) : Option Client := ms.foldl (assign sid) none

def Msg.client : Msg α → Option Client
  | .register c | .unregister c => some c
  | .send _ _ => none

def DistinctIDs (ms : List (Msg α)) : Prop :=
  ∀ c ∈ ms.filterMap Msg.client, ∀ d ∈ ms.filterMap Msg.client, c.id = d.id → c = d

instance (ms : List (Msg α)) : Decidable (DistinctIDs ms) :=
  inferInstanceAs (Decidable (∀ c ∈ ms.filterMap Msg.client, ∀ d ∈ ms.filterMap Msg.client, c.id = d.id → c = d))

theorem DistinctIDs.left {ns : List (Msg α)} (h : DistinctIDs (ms ++ ns)) : DistinctIDs ms := by
  intro c hc d hd
  rw [DistinctIDs, filterMap_append] at h
  exact h c (mem_append_left _ hc) d (mem_append_left _ hd)

theorem DistinctIDs.eq_of_mem (h : DistinctIDs (ms ++ [m]))
    (hc : c ∈ ms.filterMap Msg.client) (hd : m.client = some d) (hid : c.id = d.id) : c = d := by
  apply h c _ d _ hid
  · rw [filterMap_append]
    exact mem_append_left _ hc
  · rw [filterMap_append]
    exact mem_append_right _ (mem_filterMap.mpr ⟨m, mem_singleton_self m, hd⟩)

theorem holder_append (ms : List (Msg α)) (m : Msg α) (sid : String) :
    holder (ms ++ [m]) sid = assign sid (holder ms sid) m := by
  rw [holder, holder, foldl_append]
  rfl

theorem mem_of_holder (h : holder ms sid = some c) : c.sid = sid ∧ c ∈ ms.filterMap Msg.client := by
  induction ms using List.reverseRecOn with
  | nil => cases h
  | append_singleton ms m ih =>
    rw [holder_append] at h
    have hold : holder ms sid = some c → c.sid = sid ∧ c ∈ (ms ++ [m]).filterMap Msg.client := by
      intro hc
      rw [filterMap_append]
      exact ⟨(ih hc).1, mem_append_left _ (ih hc).2⟩
    cases m with
    | register d =>
      by_cases hd : d.sid = sid
      · rw [assign, if_pos hd] at h
        cases h
        exact ⟨hd, by simp [Msg.client]⟩
      · rw [assign, if_neg hd] at h
        exact hold h
    | unregister d =>
      by_cases hd : holder ms sid = some d
      · rw [assign, if_pos hd] at h
        cases h
      · rw [assign, if_neg hd] at h
        exact hold h
    | send _ _ => exact hold h

theorem assign_unregister_eq_some : assign sid cur (.unregister c : Msg α) = some d ↔ cur = some d ∧ d ≠ c := by
  by_cases hc : cur = some c
  · rw [assign, if_pos hc, hc]
    refine iff_of_false nofun ?_
    rintro ⟨hcd, hne⟩
    exact hne (Option.some.inj hcd).symm
  · rw [assign, if_neg hc]
    refine ⟨fun hd => ⟨hd, fun hdc => ?_⟩, And.left⟩
    rw [hdc] at hd
    exact hc hd

structure Refines (h : Registry α) (ms : List (Msg α)) : Prop where
  bySID : ∀ sid, h.bySID sid = holder ms sid
  clients : ∀ id c, h.clients id = some c ↔ c.id = id ∧ holder ms c.sid = some c

theorem empty_refines : Refines (empty : Registry α) [] := by
  refine ⟨fun _ => rfl, fun id c => ⟨?_, ?_⟩⟩
  · nofun
  · rintro ⟨-, h⟩
    cases h

namespace Refines

variable {h : Registry α} {ms : List (Msg α)} {c : Client}

section

variable (hr : Refines h ms)
include hr

theorem client_eq (hc : h.clients c.id = some d) (hd : ∀ e ∈ ms.filterMap Msg.client, e.id = c.id → e = c) :
    holder ms c.sid = some c := by
  obtain ⟨hid, hold⟩ := (hr.clients c.id d).mp hc
  rw [← hd d (mem_of_holder hold).2 hid]
  exact hold

theorem replacePrev_clients (hd : ∀ e ∈ ms.filterMap Msg.client, e.id = c.id → e = c) (id : String) (d : Client) :
    (h.replacePrev c).clients id = some d ↔ h.clients id = some d ∧ (d.sid = c.sid → d = c) := by
  unfold Registry.replacePrev
  rw [hr.bySID]
  cases hp : holder ms c.sid with
  | none =>
    refine ⟨fun hc => ⟨hc, fun hsid => ?_⟩, And.left⟩
    have hold := ((hr.clients id d).mp hc).2
    rw [hsid, hp] at hold
    cases hold
  | some prev =>
    have hprev : h.clients id = some d → d.sid = c.sid → d = prev := by
      intro hc hsid
      have hold := ((hr.clients id d).mp hc).2
      rw [hsid, hp] at hold
      exact (Option.some.inj hold).symm
    by_cases hid : prev.id = c.id
    · have hpc : prev = c := hd prev (mem_of_holder hp).2 hid
      simp only [hid, ne_eq, not_true_eq_false, if_false]
      exact ⟨fun hc => ⟨hc, fun hsid => (hprev hc hsid).trans hpc⟩, And.left⟩
    · simp only [hid, ne_eq, not_false_eq_true, if_true]
      change update (h.offer prev .replaced).clients prev.id none id = some d ↔ _
      rw [Registry.offer_clients]
      by_cases hi : id = prev.id
      · rw [hi, update_self]
        refine iff_of_false nofun ?_
        rintro ⟨hc, hsid⟩
        have hdp : d = prev := by
          obtain ⟨hdid, hold⟩ := (hr.clients _ d).mp hc
          have hpp : h.clients prev.id = some prev := (hr.clients _ prev).mpr ⟨rfl, (mem_of_holder hp).1 ▸ hp⟩
          exact Option.some.inj (hc.symm.trans hpp)
        rw [hdp] at hsid
        exact hid (congrArg Client.id (hsid (mem_of_holder hp).1))
      · rw [update_of_ne hi]
        refine ⟨fun hc => ⟨hc, fun hsid => ?_⟩, And.left⟩
        have hdid := ((hr.clients id d).mp hc).1
        rw [hprev hc hsid] at hdid
        exact (hi hdid.symm).elim

theorem register (hd : ∀ e ∈ ms.filterMap Msg.client, e.id = c.id → e = c) :
    Refines (h.register c) (ms ++ [.register c]) := by
  constructor
  · intro sid
    rw [holder_append]
    change update (h.replacePrev c).bySID c.sid (some c) sid = _
    rw [Registry.replacePrev_bySID]
    by_cases hs : c.sid = sid
    · rw [assign, if_pos hs, ← hs, update_self]
    · rw [assign, if_neg hs, update_of_ne (Ne.symm hs), hr.bySID]
  · intro id d
    rw [holder_append]
    change update (h.replacePrev c).clients c.id (some c) id = some d ↔ _
    by_cases hi : id = c.id
    · rw [hi, update_self]
      constructor
      · intro hcd
        cases hcd
        exact ⟨rfl, if_pos rfl⟩
      · rintro ⟨hid, hold⟩
        by_cases hs : c.sid = d.sid
        · rwa [assign, if_pos hs] at hold
        · rw [assign, if_neg hs] at hold
          rw [hd d (mem_of_holder hold).2 hid]
    · rw [update_of_ne hi, hr.replacePrev_clients hd, hr.clients]
      by_cases hs : c.sid = d.sid
      · rw [assign, if_pos hs]
        constructor
        · rintro ⟨⟨hid, -⟩, hdc⟩
          rw [hdc hs.symm] at hid
          exact (hi hid.symm).elim
        · rintro ⟨hid, hcd⟩
          cases hcd
          exact (hi hid.symm).elim
      · rw [assign, if_neg hs]
        exact ⟨And.left, fun hold => ⟨hold, fun hsid => (hs hsid.symm).elim⟩⟩

theorem unregister_of_none (hc : h.clients c.id = none) : Refines h (ms ++ [.unregister c]) := by
  have hsame : ∀ sid, holder (ms ++ [.unregister c]) sid = holder ms sid := by
    intro sid
    rw [holder_append]
    apply if_neg
    intro hold
    have hsid := (mem_of_holder hold).1
    rw [(hr.clients c.id c).mpr ⟨rfl, hsid ▸ hold⟩] at hc
    cases hc
  exact ⟨fun sid => (hr.bySID sid).trans (hsame sid).symm, fun id d => by rw [hsame, hr.clients]⟩

theorem unregister (hd : ∀ e ∈ ms.filterMap Msg.client, e.id = c.id → e = c) :
    Refines (h.unregister c) (ms ++ [.unregister c]) := by
  unfold Registry.unregister
  cases hc : h.clients c.id with
  | none => exact hr.unregister_of_none hc
  | some d =>
    have hold : holder ms c.sid = some c := hr.client_eq hc hd
    have hby : h.bySID c.sid = some c := (hr.bySID c.sid).trans hold
    simp only [hby, if_true]
    constructor
    · intro sid
      rw [holder_append]
      by_cases hs : sid = c.sid
      · rw [hs, assign, if_pos hold]
        exact update_self c.sid none h.bySID
      · rw [assign, if_neg fun hold' => hs (mem_of_holder hold').1.symm, ← hr.bySID]
        exact update_of_ne hs none h.bySID
    · intro id e
      rw [holder_append, assign_unregister_eq_some]
      change update h.clients c.id none id = some e ↔ _
      rw [← and_assoc, ← hr.clients]
      by_cases hi : id = c.id
      · rw [hi, update_self]
        refine iff_of_false nofun ?_
        rintro ⟨he, hne⟩
        obtain ⟨hid, hold'⟩ := (hr.clients c.id e).mp he
        exact hne (hd e (mem_of_holder hold').2 hid)
      · rw [update_of_ne hi]
        refine ⟨fun he => ⟨he, fun hec => ?_⟩, And.left⟩
        rw [hec] at he
        exact hi ((hr.clients id c).mp he).1.symm

theorem send (sid : String) (env : α) : Refines (h.sendToSession sid env) (ms ++ [.send sid env]) := by
  have hsame : ∀ t, holder (ms ++ [.send sid env]) t = holder ms t := fun t => holder_append ms _ t
  unfold Registry.sendToSession
  split
  · exact ⟨fun t => (hr.bySID t).trans (hsame t).symm, fun id d => by rw [hsame, hr.clients]⟩
  · exact ⟨fun t => by rw [Registry.offer_bySID, hsame, hr.bySID],
      fun id d => by rw [Registry.offer_clients, hsame, hr.clients]⟩

theorem process (hd : DistinctIDs (ms ++ [m])) : Refines (process h m) (ms ++ [m]) := by
  cases m with
  | register c => exact hr.register fun e he hid => hd.eq_of_mem he rfl hid
  | unregister c => exact hr.unregister fun e he hid => hd.eq_of_mem he rfl hid
  | send sid env => exact hr.send sid env

end

end Refines

theorem closed_process (h : Registry α) (m : Msg α) (hd : h.closed d = true) : (process h m).closed d = true := by
  cases m with
  | register c =>
    change (h.replacePrev c).closed d = true
    unfold Registry.replacePrev
    split
    · split
      · exact Registry.close_closed_of _ _ (by rwa [Registry.offer_closed])
      · exact hd
    · exact hd
  | unregister c =>
    change (h.unregister c).closed d = true
    unfold Registry.unregister
    split
    · exact hd
    · exact Registry.close_closed_of (h.removeClient c.id) c hd
  | send sid env =>
    change (h.sendToSession sid env).closed d = true
    unfold Registry.sendToSession
    split
    · exact hd
    · rwa [Registry.offer_closed]

theorem closed_of_replaced (h : Registry α) (hc : h.bySID d.sid = some c) (hid : c.id ≠ d.id) :
    (h.register d).closed c = true := by
  change (h.replacePrev d).closed c = true
  unfold Registry.replacePrev
  rw [hc]
  simp only [hid, ne_eq, not_false_eq_true, if_true]
  exact update_self c true (h.offer c .replaced).closed

def hubAfter (ms : List (Msg α)) : Registry α := ms.foldl process empty

theorem hubAfter_refines (ms : List (Msg α)) (hd : DistinctIDs ms) : Refines (hubAfter ms) ms := by
  induction ms using List.reverseRecOn with
  | nil => exact empty_refines
  | append_singleton ms m ih =>
    rw [hubAfter, foldl_append]
    exact (ih hd.left).process hd

structure Displaced (ms : List (Msg α)) (c d : Client) (pre post : List (Msg α)) : Prop where
  order : ms = pre ++ .register d :: post
  held : (hubAfter pre).bySID c.sid = some c
  sid : d.sid = c.sid
  newer : d ≠ c

structure Inv (s : State α) : Prop where
  refines : Refines s.hub s.processed
  closed : ∀ c d pre post, Displaced s.processed c d pre post → s.hub.closed c = true

inductive Effect (s t : State α) : Prop
  | quiet : t.processed = s.processed → t.hub.clients = s.hub.clients → t.hub.bySID = s.hub.bySID →
      (∀ c, s.hub.closed c = true → t.hub.closed c = true) → Effect s t
  | took (m : Msg α) : t.processed = s.processed ++ [m] → t.hub = process s.hub m → Effect s t

variable {s t : State α} {a : Action α} {h : Registry α}

theorem step_effect (h : step s a = some t) : Effect s t := by
  cases a with
  | register c | unregister c | send sid env | drain c =>
    cases h
    exact .quiet rfl rfl rfl fun _ => id
  | takeRegister | takeUnregister | takeSend =>
    simp only [step] at h
    split at h <;> cases h
    exact .took _ rfl rfl
  | close c =>
    cases h
    exact .quiet rfl rfl rfl fun d => Registry.close_closed_of s.hub c
  | shutdown =>
    cases h
    exact .quiet rfl rfl rfl fun c hc => Bool.or_eq_true_iff.mpr (.inl hc)

theorem displaced_append (h : Displaced (ms ++ [m]) c d pre post) :
    (m = .register d ∧ pre = ms) ∨ ∃ post', Displaced ms c d pre post' := by
  obtain ⟨horder, hheld, hsid, hnewer⟩ := h
  rcases eq_nil_or_concat post with rfl | ⟨post', m', rfl⟩
  · have heq := append_inj' horder rfl
    exact .inl ⟨by simpa using heq.2, heq.1.symm⟩
  · rw [concat_eq_append, ← cons_append, ← append_assoc] at horder
    exact .inr ⟨post', (append_inj' horder rfl).1, hheld, hsid, hnewer⟩

theorem Displaced.mem (h : Displaced ms c d pre post) (hd : DistinctIDs ms) :
    c ∈ ms.filterMap Msg.client ∧ d ∈ ms.filterMap Msg.client := by
  have hpre : DistinctIDs pre := by
    rw [h.order] at hd
    exact hd.left
  have hc := mem_of_holder (((hubAfter_refines pre hpre).bySID c.sid).symm.trans h.held)
  rw [h.order, filterMap_append]
  exact ⟨mem_append_left _ hc.2, mem_append_right _ (mem_filterMap.mpr ⟨_, mem_cons_self, rfl⟩)⟩

theorem inv_init : Inv (init : State α) := by
  refine ⟨empty_refines, ?_⟩
  intro c d pre post h
  exact (append_ne_nil_of_right_ne_nil pre (cons_ne_nil _ _) h.order.symm).elim

theorem inv_step (h : step s a = some t) (hd : DistinctIDs t.processed) (hi : DistinctIDs s.processed → Inv s) :
    Inv t := by
  cases step_effect h with
  | quiet hp hc hb hcl =>
    rw [hp] at hd
    obtain ⟨hr, hclosed⟩ := hi hd
    refine ⟨⟨?_, ?_⟩, ?_⟩
    · rw [hb, hp]
      exact hr.bySID
    · rw [hc, hp]
      exact hr.clients
    · intro c d pre post hdis
      rw [hp] at hdis
      exact hcl c (hclosed c d pre post hdis)
  | took m hp hh =>
    rw [hp] at hd
    obtain ⟨hr, hclosed⟩ := hi hd.left
    constructor
    · rw [hh, hp]
      exact hr.process hd
    · intro c d pre post hdis
      rw [hp] at hdis
      have hmem := hdis.mem hd
      rw [hh]
      rcases displaced_append hdis with ⟨rfl, rfl⟩ | ⟨post', hold⟩
      · have hheld : s.hub.bySID c.sid = some c :=
          (hr.bySID c.sid).trans (((hubAfter_refines _ hd.left).bySID c.sid).symm.trans hdis.held)
        apply closed_of_replaced s.hub (hdis.sid ▸ hheld)
        exact fun hid => hdis.newer (hd c hmem.1 d hmem.2 hid).symm
      · exact closed_process s.hub m (hclosed c d pre post' hold)

theorem inv_of_run {acts : List (Action α)} (h : run step init acts = some s)
    (hd : DistinctIDs s.processed) : Inv s := by
  refine run_preserves (I := fun s => DistinctIDs s.processed → Inv s) ?_ h (fun _ => inv_init) hd
  intro s a t hst hi hd
  exact inv_step hst hd hi

def Ejects (c : Client) : Msg α → Prop
  | .register d => d.sid = c.sid ∧ d ≠ c
  | .unregister d => d = c
  | .send _ _ => False

theorem assign_eq_some_iff : assign c.sid cur m = some c ↔ m = .register c ∨ (cur = some c ∧ ¬ Ejects c m) := by
  cases m with
  | register d =>
    by_cases hd : d = c
    · rw [hd]
      exact iff_of_true (if_pos rfl) (.inl rfl)
    have hne : (Msg.register d : Msg α) ≠ .register c := fun h => hd (Msg.register.inj h)
    by_cases hs : d.sid = c.sid
    · rw [assign, if_pos hs]
      refine iff_of_false (fun h => hd (Option.some.inj h)) ?_
      rintro (h | ⟨-, h⟩)
      · exact hne h
      · exact h ⟨hs, hd⟩
    · rw [assign, if_neg hs]
      exact ⟨fun h => .inr ⟨h, fun he => hs he.1⟩, fun h => (h.resolve_left hne).1⟩
  | unregister d =>
    rw [assign_unregister_eq_some]
    refine ⟨fun h => .inr ⟨h.1, fun hdc => h.2 (Eq.symm hdc)⟩, ?_⟩
    rintro (h | ⟨h, he⟩)
    · cases h
    · exact ⟨h, fun hcd => he hcd.symm⟩
  | send sid env =>
    refine ⟨fun h => .inr ⟨h, id⟩, ?_⟩
    rintro (h | ⟨h, -⟩)
    · cases h
    · exact h

theorem holder_eq_some_iff :
    holder ms c.sid = some c ↔ ∃ pre post, ms = pre ++ .register c :: post ∧ ∀ m ∈ post, ¬ Ejects c m := by
  induction ms using List.reverseRecOn with
  | nil =>
    refine iff_of_false nofun ?_
    rintro ⟨pre, post, h, -⟩
    exact append_ne_nil_of_right_ne_nil pre (cons_ne_nil _ _) h.symm
  | append_singleton ms m ih =>
    rw [holder_append, assign_eq_some_iff, ih]
    constructor
    · rintro (rfl | ⟨⟨pre, post, rfl, hpost⟩, hm⟩)
      · exact ⟨ms, [], rfl, nofun⟩
      · refine ⟨pre, post ++ [m], by simp, fun m' hm' => ?_⟩
        rcases mem_append.mp hm' with h | h
        · exact hpost m' h
        · rwa [mem_singleton.mp h]
    · rintro ⟨pre, post, h, hpost⟩
      rcases eq_nil_or_concat post with rfl | ⟨post', m', rfl⟩
      · have heq := (append_inj' h rfl).2
        exact .inl (by simpa using heq)
      rw [concat_eq_append] at h hpost
      rw [← cons_append, ← append_assoc] at h
      obtain ⟨hms, hm⟩ := append_inj' h rfl
      rw [singleton_inj] at hm
      rw [hm]
      exact .inr ⟨⟨pre, post', hms, fun k hk => hpost k (mem_append_left _ hk)⟩,
        hpost m' (mem_append_right _ (mem_singleton_self m'))⟩

theorem Refines.gone_iff (hr : Refines h ms) (c : Client) :
    ((∀ id, h.clients id ≠ some c) ∧ ∀ sid, h.bySID sid ≠ some c) ↔ holder ms c.sid ≠ some c := by
  constructor
  · rintro ⟨-, hs⟩
    rw [← hr.bySID]
    exact hs c.sid
  · intro hne
    constructor
    · intro id hc
      exact hne ((hr.clients id c).mp hc).2
    · intro sid hs
      rw [hr.bySID] at hs
      exact hne ((mem_of_holder hs).1 ▸ hs)

theorem unregistered_gone_iff {acts : List (Action α)} {s : State α} (h : run step init acts = some s)
    (hd : DistinctIDs s.processed) (c : Client) (_ : .register c ∈ s.processed) (_ : .unregister c ∈ s.processed) :
    ((∀ id, s.hub.clients id ≠ some c) ∧ ∀ sid, s.hub.bySID sid ≠ some c) ↔
      ∀ pre post, s.processed = pre ++ .register c :: post → ∃ m ∈ post, Ejects c m := by
  rw [(inv_of_run h hd).refines.gone_iff c, ne_eq, holder_eq_some_iff]
  constructor
  · intro hnone pre post heq
    by_contra hpost
    exact hnone ⟨pre, post, heq, fun m hm he => hpost ⟨m, hm, he⟩⟩
  · rintro hall ⟨pre, post, heq, hpost⟩
    obtain ⟨m, hm, he⟩ := hall pre post heq
    exact hpost m hm he

def phone : Client := ⟨"c1", "s1", 64⟩

def tablet : Client := ⟨"c2", "s1", 64⟩

theorem unregistered_gone_in_order : ∃ s : State Unit,
      run step init [.register phone, .takeRegister, .unregister phone, .takeUnregister] = some s ∧
      s.processed = [.register phone, .unregister phone] ∧
      (∀ id, s.hub.clients id ≠ some phone) ∧ ∀ sid, s.hub.bySID sid ≠ some phone := by
  obtain ⟨s, hs, hp⟩ : ∃ s : State Unit,
      run step init [.register phone, .takeRegister, .unregister phone, .takeUnregister] = some s ∧
      s.processed = [.register phone, .unregister phone] := ⟨_, rfl, rfl⟩
  refine ⟨s, hs, hp, (unregistered_gone_iff hs ?_ phone ?_ ?_).mpr ?_⟩
  · rw [hp]
    decide
  · rw [hp]
    exact mem_cons_self
  · rw [hp]
    exact mem_cons_of_mem _ mem_cons_self
  · intro pre post heq
    rw [hp] at heq
    cases pre with
    | nil =>
      refine ⟨.unregister phone, ?_, rfl⟩
      rw [← (List.cons.inj heq).2]
      exact mem_cons_self
    | cons x pre =>
      have hrest := (List.cons.inj heq).2
      cases pre with
      | nil => cases hrest
      | cons y pre => cases pre <;> cases hrest

theorem unregister_taken_before_register :
    ¬ ∀ (acts : List (Action Unit)) (s : State Unit), run step init acts = some s → DistinctIDs s.processed →
      ∀ c, .register c ∈ s.processed → .unregister c ∈ s.processed →
        (∀ id, s.hub.clients id ≠ some c) ∧ ∀ sid, s.hub.bySID sid ≠ some c := by
  intro hall
  refine (hall [.register phone, .unregister phone, .takeUnregister, .takeRegister] _ rfl ?_ phone ?_ ?_).2 "s1" rfl
  · decide
  · exact mem_cons_of_mem _ mem_cons_self
  · exact mem_cons_self

theorem Displaced.not_held (h : Displaced ms c d pre post) (hpost : .register c ∉ post) : holder ms c.sid ≠ some c := by
  rw [ne_eq, holder_eq_some_iff]
  rintro ⟨pre', post', heq, hnone⟩
  have hne : (Msg.register d : Msg α) ≠ .register c := fun he => h.newer (Msg.register.inj he)
  rw [h.order] at heq
  rcases append_eq_append_iff.mp heq with ⟨as, -, hrest⟩ | ⟨as, -, hrest⟩
  · cases as with
    | nil => exact hne (List.cons.inj hrest).1
    | cons x as =>
      apply hpost
      rw [(List.cons.inj hrest).2]
      exact mem_append_right as mem_cons_self
  · cases as with
    | nil => exact hne (List.cons.inj hrest).1.symm
    | cons x as =>
      have hd : .register d ∈ post' := by
        rw [(List.cons.inj hrest).2]
        exact mem_append_right as mem_cons_self
      exact hnone _ hd ⟨h.sid, h.newer⟩

theorem Refines.unregister_eq_self (hr : Refines h ms) (hd : ∀ e ∈ ms.filterMap Msg.client, e.id = c.id → e = c)
    (hc : holder ms c.sid ≠ some c) : h.unregister c = h := by
  unfold Registry.unregister
  cases hcl : h.clients c.id with
  | none => rfl
  | some e => exact (hc (hr.client_eq hcl hd)).elim

theorem registry_consistent {acts : List (Action α)} {s : State α} (h : run step init acts = some s)
    (hd : DistinctIDs s.processed) :
    (∀ sid c, s.hub.bySID sid = some c → c.sid = sid ∧ s.hub.clients c.id = some c) ∧
    (∀ id c, s.hub.clients id = some c → c.id = id ∧ s.hub.bySID c.sid = some c) ∧
    ∀ c d pre post, Displaced s.processed c d pre post → s.hub.closed c = true ∧
      (.register c ∉ post →
        (process s.hub (.unregister c)).clients = s.hub.clients ∧
        (process s.hub (.unregister c)).bySID = s.hub.bySID) := by
  obtain ⟨hr, hclosed⟩ := inv_of_run h hd
  refine ⟨?_, ?_, ?_⟩
  · intro sid c hc
    rw [hr.bySID] at hc
    have hsid := (mem_of_holder hc).1
    exact ⟨hsid, (hr.clients c.id c).mpr ⟨rfl, hsid ▸ hc⟩⟩
  · intro id c hc
    obtain ⟨hid, hold⟩ := (hr.clients id c).mp hc
    exact ⟨hid, (hr.bySID c.sid).trans hold⟩
  · intro c d pre post hdis
    refine ⟨hclosed c d pre post hdis, fun hpost => ?_⟩
    have hself : process s.hub (.unregister c) = s.hub :=
      hr.unregister_eq_self (fun e he hid => hd e he c (hdis.mem hd).1 hid) (hdis.not_held hpost)
    rw [hself]
    exact ⟨rfl, rfl⟩

theorem registry_consistent_replaced :
    ∃ s : State Unit, run step init [.register phone, .takeRegister, .register tablet, .takeRegister] = some s ∧
      s.hub.bySID "s1" = some tablet ∧ s.hub.closed phone = true ∧
      (process s.hub (.unregister phone)).bySID = s.hub.bySID := by
  obtain ⟨s, hs, hp, hb⟩ : ∃ s : State Unit,
      run step init [.register phone, .takeRegister, .register tablet, .takeRegister] = some s ∧
      s.processed = [.register phone, .register tablet] ∧ s.hub.bySID "s1" = some tablet := ⟨_, rfl, rfl, rfl⟩
  have hdistinct : DistinctIDs s.processed := by
    rw [hp]
    decide
  have hdis : Displaced s.processed phone tablet [.register phone] [] := ⟨hp, rfl, rfl, by decide⟩
  obtain ⟨hclosed, hkept⟩ := (registry_consistent hs hdistinct).2.2 _ _ _ _ hdis
  exact ⟨s, hs, hb, hclosed, (hkept not_mem_nil).2⟩

end NomadDev.Hub
