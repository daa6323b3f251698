import NomadDev.ResumeProtocol
import NomadDev.Foundation.PointUpdate

namespace NomadDev.Resume

open Session Foundation.Delivery Foundation.PointUpdate List Function Foundation.Transition

def IsStale (x : Envelope) : Prop := x.type = .sessionStale

def Needs (order : List Envelope) (e x : Envelope) : Prop := Before order e x ∧ e.type ≠ .sessionReplaced

def Conn.inFlight (k : Conn) : List Envelope :=
  if k.dead then [] else k.wire ++ if k.pumpDone then [] else k.send

section Views

variable (order : List Envelope) (received : ℕ → List Envelope) (staled : ℕ → Bool)

def InSequence (k : Conn) (x : Envelope) : Prop :=
  k.dead = true ∨ k.pumpDone = true ∨ staled k.device = true ∨ IsStale x ∨ (∃ z ∈ k.inFlight, IsStale z) ∨
    ∀ e, Needs order e x → e ∈ received k.device ∨ e ∈ k.inFlight

structure ConnOk (k : Conn) : Prop where
  served : staled k.device = false → Served (Needs order) (· ∈ received k.device) IsStale k.inFlight
  known : ∀ x ∈ k.wire ++ (k.send ++ k.replay), x ∈ order

structure DeviceOk (d : ℕ) : Prop where
  closed : staled d = false → ∀ x ∈ received d, ∀ e, Needs order e x → e ∈ received d
  known : ∀ x ∈ received d, x ∈ order

structure TaskOk (nextID : ℕ) (task : Task) : Prop where
  minted : task.env.id < nextID
  appended : task.appended = true → task.env ∈ order
  fresh : task.appended = false → ∀ x ∈ order, x.id ≠ task.env.id

end Views

structure Inv (s : State) : Prop where
  conns : ∀ c k, s.conns c = some k → ConnOk s.order s.received s.staled k
  devices : ∀ d, DeviceOk s.order s.received s.staled d
  tasks : ∀ t task, s.tasks t = some task → TaskOk s.order s.nextID task
  distinct : ∀ t u task other, s.tasks t = some task → s.tasks u = some other → t ≠ u → task.env.id ≠ other.env.id
  buffer : ∀ e ∈ s.buffer.items, e.env ∈ s.order
  minted : ∀ x ∈ s.order, x.id < s.nextID

variable {s : State} {order : List Envelope} {received : ℕ → List Envelope} {staled : ℕ → Bool} {y x : Envelope}
  {k : Conn}

theorem Needs.of_append {e : Envelope} (h : Needs (order ++ [y]) e x) (hx : x ∈ order) (hy : ∀ z ∈ order, z.id ≠ y.id) :
    Needs order e x := by
  refine ⟨?_, h.2⟩
  rcases h.1.of_append with hb | ⟨rfl, _⟩
  · exact hb
  · exact absurd rfl (hy x hx)

theorem inFlight_subset (k : Conn) : ∀ x ∈ k.inFlight, x ∈ k.wire ++ (k.send ++ k.replay) := by
  intro x hx
  unfold Conn.inFlight at hx
  split at hx
  · simp at hx
  split at hx
  · simp only [append_nil] at hx
    exact mem_append_left _ hx
  · rw [← append_assoc]
    exact mem_append_left _ hx

theorem enqueue_inFlight (x : Envelope) (hd : k.dead = false) (hp : k.pumpDone = false) :
    (k.enqueue x).inFlight = k.inFlight ++ [x] := by
  simp [Conn.inFlight, Conn.enqueue, hd, hp]

theorem enqueue_lost (x : Envelope) (h : k.dead = true ∨ k.pumpDone = true) : (k.enqueue x).inFlight = k.inFlight := by
  rcases h with h | h <;> simp [Conn.inFlight, Conn.enqueue, h]

section

variable (h : ConnOk order received staled k)
include h

theorem ConnOk.shrink {k' : Conn} {r : List Envelope} (hdev : k'.device = k.device)
    (hfl : k.inFlight = k'.inFlight ++ r) (hknown : ∀ x ∈ k'.wire ++ (k'.send ++ k'.replay), x ∈ order) :
    ConnOk order received staled k' := by
  refine ⟨?_, hknown⟩
  rw [hdev]
  intro hs
  have hq := h.served hs
  rw [hfl] at hq
  exact hq.of_append

theorem ConnOk.enqueue (hx : x ∈ order) (hseq : InSequence order received staled k x) :
    ConnOk order received staled (k.enqueue x) := by
  refine ⟨?_, ?_⟩
  · intro hs
    by_cases hlost : k.dead = true ∨ k.pumpDone = true
    · rw [enqueue_lost x hlost]
      exact h.served hs
    simp only [not_or, Bool.not_eq_true] at hlost
    rw [enqueue_inFlight x hlost.1 hlost.2]
    refine (h.served hs).snoc ?_
    rcases hseq with hd | hp | hst | hr
    · simp [hlost.1] at hd
    · simp [hlost.2] at hp
    · have hs' : staled k.device = false := hs
      rw [hs'] at hst
      cases hst
    · exact hr
  · intro y hy
    simp only [Conn.enqueue, mem_append, mem_singleton] at hy
    rcases hy with hy | (hy | rfl) | hy
    · exact h.known y (by simp [hy])
    · exact h.known y (by simp [hy])
    · exact hx
    · exact h.known y (by simp [hy])

theorem ConnOk.grow (hy : ∀ z ∈ order, z.id ≠ y.id) : ConnOk (order ++ [y]) received staled k := by
  refine ⟨?_, fun x hx => mem_append_left _ (h.known x hx)⟩
  intro hs
  refine (h.served hs).mono (fun e he => he) ?_
  intro x hx e he
  exact he.of_append (h.known x (inFlight_subset k x hx)) hy

end

theorem DeviceOk.grow {d : ℕ} (h : DeviceOk order received staled d) (hy : ∀ z ∈ order, z.id ≠ y.id) :
    DeviceOk (order ++ [y]) received staled d := by
  refine ⟨?_, fun x hx => mem_append_left _ (h.known x hx)⟩
  intro hs x hx e he
  exact h.closed hs x hx e (he.of_append (h.known x hx) hy)

theorem Inv.setConn (h : Inv s) {c : ℕ} (hk : ConnOk s.order s.received s.staled k) : Inv (s.setConn c k) := by
  refine ⟨?_, h.devices, h.tasks, h.distinct, h.buffer, h.minted⟩
  intro c' k' hc
  rcases of_update_some hc with ⟨-, rfl⟩ | ⟨-, hc⟩
  · exact hk
  · exact h.conns c' k' hc

theorem Inv.clearTask (h : Inv s) (t : ℕ) : Inv (s.setTask t none) := by
  have hsub : ∀ u task, (s.setTask t none).tasks u = some task → s.tasks u = some task :=
    fun u task hu => (of_update_none hu).2
  refine ⟨h.conns, h.devices, ?_, ?_, h.buffer, h.minted⟩
  · intro u task hu
    exact h.tasks u task (hsub u task hu)
  · intro u v task other hu hv
    exact h.distinct u v task other (hsub u task hu) (hsub v other hv)

theorem Inv.mint (h : Inv s) (c t : ℕ) (type : EventType) : Inv (s.mint c t type) := by
  refine ⟨h.conns, h.devices, ?_, ?_, h.buffer, fun x hx => Nat.lt_succ_of_lt (h.minted x hx)⟩
  · intro u task hu
    rcases of_update_some hu with ⟨-, rfl⟩ | ⟨-, hu⟩
    · refine ⟨Nat.lt_succ_self _, by simp, ?_⟩
      intro _ x hx
      exact Nat.ne_of_lt (h.minted x hx)
    · have ht := h.tasks u task hu
      exact ⟨Nat.lt_succ_of_lt ht.minted, ht.appended, ht.fresh⟩
  · intro u v task other hu hv huv
    rcases of_update_some hu with ⟨rfl, rfl⟩ | ⟨-, hu⟩
    · exact Nat.ne_of_gt (h.tasks v other ((of_update_some hv).resolve_left fun h => huv h.1.symm).2).minted
    · rcases of_update_some hv with ⟨-, rfl⟩ | ⟨-, hv⟩
      · exact Nat.ne_of_lt (h.tasks u task hu).minted
      · exact h.distinct u v task other hu hv huv

theorem Inv.append (h : Inv s) {t : ℕ} {task : Task} (ht : s.tasks t = some task) (ha : task.appended = false)
    (size : ℕ) :
    Inv { s.setTask t (some { task with appended := true }) with
      buffer := s.buffer.push task.env size
      order := s.order ++ [task.env] } := by
  have hfresh := (h.tasks t task ht).fresh ha
  have hmem : ∀ x ∈ s.order ++ [task.env], x ∈ s.order ∨ x = task.env := fun x hx => by simpa using hx
  refine ⟨fun c k hc => (h.conns c k hc).grow hfresh, fun d => (h.devices d).grow hfresh, ?_, ?_, ?_, ?_⟩
  · intro u other hu
    rcases of_update_some hu with ⟨-, rfl⟩ | ⟨hne, hu⟩
    · exact ⟨(h.tasks t task ht).minted, fun _ => mem_append_right _ (mem_singleton_self _), by simp⟩
    have ho := h.tasks u other hu
    refine ⟨ho.minted, fun hap => mem_append_left _ (ho.appended hap), ?_⟩
    intro hap x hx
    rcases hmem x hx with hx | rfl
    · exact ho.fresh hap x hx
    · exact h.distinct t u task other ht hu (Ne.symm hne)
  · intro u v a b hu hv huv
    rcases of_update_some hu with ⟨rfl, rfl⟩ | ⟨-, hu⟩
    · exact h.distinct u v task b ht ((of_update_some hv).resolve_left fun h => huv h.1.symm).2 huv
    · rcases of_update_some hv with ⟨hvt, rfl⟩ | ⟨-, hv⟩
      · exact h.distinct u t a task hu ht (hvt ▸ huv)
      · exact h.distinct u v a b hu hv huv
  · intro e he
    rcases RingBuffer.mem_push he with he | rfl
    · exact mem_append_left _ (h.buffer e he)
    · exact mem_append_right _ (mem_singleton_self _)
  · intro x hx
    rcases hmem x hx with hx | rfl
    · exact h.minted x hx
    · exact (h.tasks t task ht).minted

section

def Gapless (s : State) : Action → Prop
  | .send t => ∀ task k, s.tasks t = some task → s.conns task.conn = some k →
      InSequence s.order s.received s.staled k task.env
  | .replay c => ∀ k e rest, s.conns c = some k → k.replay = e :: rest →
      InSequence s.order s.received s.staled k e
  | .hubRegister => ∀ prev k, s.bySID = some prev → s.register.head? ≠ some prev → s.conns prev = some k →
      k.send.length < sendBuf → InSequence s.mintReplaced.order s.received s.staled k s.replaced
  | .resume c (some _) => ∀ k, s.conns c = some k → s.staled k.device = false
  | _ => True

variable {s : State} {c : ℕ} {k : Conn}

theorem ConnOk.close {order : List Envelope} {received : ℕ → List Envelope} {staled : ℕ → Bool}
    (h : ConnOk order received staled k) : ConnOk order received staled k.close :=
  ⟨h.served, h.known⟩

theorem Inv.mintReplaced (h : Inv s) : Inv s.mintReplaced := by
  have hfresh : ∀ z ∈ s.order, z.id ≠ s.replaced.id := fun z hz => Nat.ne_of_lt (h.minted z hz)
  refine ⟨fun c k hc => (h.conns c k hc).grow hfresh, fun d => (h.devices d).grow hfresh, ?_, h.distinct,
    fun e he => mem_append_left _ (h.buffer e he), ?_⟩
  · intro t task ht
    have hok := h.tasks t task ht
    refine ⟨Nat.lt_succ_of_lt hok.minted, fun ha => mem_append_left _ (hok.appended ha), ?_⟩
    intro ha x hx
    rcases mem_append.mp hx with hx | hx
    · exact hok.fresh ha x hx
    · rw [mem_singleton.mp hx]
      exact Nat.ne_of_gt hok.minted
  · intro x hx
    rcases mem_append.mp hx with hx | hx
    · exact Nat.lt_succ_of_lt (h.minted x hx)
    · rw [mem_singleton.mp hx]
      exact Nat.lt_succ_self _

theorem Inv.replacePrev (h : Inv s) {prev : ℕ} (hk : s.conns prev = some k)
    (hseq : k.send.length < sendBuf → InSequence s.mintReplaced.order s.received s.staled k s.replaced) :
    Inv (s.mintReplaced.setConn prev (if k.send.length < sendBuf then k.enqueue s.replaced else k).close) := by
  have hk' := h.mintReplaced.conns prev k hk
  refine h.mintReplaced.setConn (ConnOk.close ?_)
  split
  · next hroom => exact hk'.enqueue (mem_append_right _ (mem_singleton_self _)) (hseq hroom)
  · exact hk'

theorem ConnOk.receive {order : List Envelope} {received received' : ℕ → List Envelope} {staled staled' : ℕ → Bool}
    {k : Conn} (h : ConnOk order received staled k) (hst : staled' k.device = false → staled k.device = false)
    (hr : ∀ e ∈ received k.device, e ∈ received' k.device) : ConnOk order received' staled' k := by
  refine ⟨?_, h.known⟩
  intro hs
  exact (h.served (hst hs)).mono hr (fun _ _ _ he => he)

theorem Inv.deliver (h : Inv s) {x : Envelope} {rest : List Envelope} (hk : s.conns c = some k)
    (hdead : k.dead = false) (hwire : k.wire = x :: rest) :
    Inv { s.setConn c { k with wire := rest } with
      received := update s.received k.device (s.received k.device ++ [x])
      staled := update s.staled k.device (s.staled k.device || x.type == .sessionStale) } := by
  have hok := h.conns c k hk
  have hfl : k.inFlight = x :: (rest ++ if k.pumpDone then [] else k.send) := by simp [Conn.inFlight, hdead, hwire]
  have hx : x ∈ s.order := hok.known x (by simp [hwire])
  have hdown : ∀ d, update s.staled k.device (s.staled k.device || x.type == .sessionStale) d = false →
      s.staled d = false ∧ (d = k.device → ¬ IsStale x) := by
    intro d hd
    rcases update_cases (· = false) hd with ⟨hdk, hd⟩ | ⟨hdk, hd⟩
    · simp only [Bool.or_eq_false_iff, beq_eq_false_iff_ne, ne_eq] at hd
      exact ⟨hdk ▸ hd.1, fun _ => hd.2⟩
    · exact ⟨hd, fun h => absurd h hdk⟩
  have hgot : ∀ d e, e ∈ s.received d → e ∈ update s.received k.device (s.received k.device ++ [x]) d := by
    intro d e he
    rw [update_apply]
    split
    · next hdk => exact mem_append_left _ (hdk ▸ he)
    · exact he
  refine ⟨?_, ?_, h.tasks, h.distinct, h.buffer, h.minted⟩
  · intro c' k' hc'
    rcases of_update_some hc' with ⟨-, rfl⟩ | ⟨-, hc'⟩
    · refine ⟨?_, fun y hy => hok.known y ?_⟩
      · intro hd
        obtain ⟨hst, hns⟩ := hdown k.device hd
        have hserved := hok.served hst
        rw [hfl] at hserved
        have htail : Served (Needs s.order)
            (· ∈ update s.received k.device (s.received k.device ++ [x]) k.device) IsStale
            (rest ++ if k.pumpDone then [] else k.send) := hserved.tail (hns rfl) (by simp)
        simpa only [State.setConn, Conn.inFlight, hdead, Bool.false_eq_true, if_false] using htail
      · rw [hwire]
        exact mem_cons_of_mem _ hy
    · exact (h.conns c' k' hc').receive (fun hd => (hdown _ hd).1) (hgot k'.device)
  · intro d
    have hdev := h.devices d
    by_cases hdk : d = k.device
    · subst hdk
      refine ⟨?_, ?_⟩
      · intro hd y hy e he
        obtain ⟨hst, hns⟩ := hdown k.device hd
        simp only [update_self, mem_append, mem_singleton] at hy ⊢
        rcases hy with hy | rfl
        · exact .inl (hdev.closed hst y hy e he)
        · have hserved := hok.served hst
          rw [hfl] at hserved
          exact .inl (hserved.head (hns rfl) e he)
      · intro y hy
        simp only [update_self, mem_append, mem_singleton] at hy
        rcases hy with hy | rfl
        · exact hdev.known y hy
        · exact hx
    · refine ⟨?_, ?_⟩
      · simpa only [State.setConn, update_of_ne hdk] using hdev.closed
      · simpa only [State.setConn, update_of_ne hdk] using hdev.known

theorem staled_resume {lastID : Option ℕ} (hg : Gapless s (.resume c lastID)) (hk : s.conns c = some k) :
    update s.staled k.device (s.staled k.device && lastID.isNone) = s.staled := by
  cases lastID with
  | none => simp
  | some lastID => rw [hg k hk, Bool.false_and, ← hg k hk, update_eq_self]

theorem Inv.replayAll (h : Inv s) {lastID : ℕ} {rest : List (Option ℕ)} {events : List Envelope}
    (hk : s.conns c = some k) (hev : s.buffer.since (some lastID) = some events) :
    Inv (s.setConn c { k with inbox := rest, replay := events }) := by
  have hok := h.conns c k hk
  refine h.setConn ⟨hok.served, ?_⟩
  intro x hx
  simp only [mem_append] at hx
  rcases hx with hx | hx | hx
  · exact hok.known x (by simp [hx])
  · exact hok.known x (by simp [hx])
  · obtain ⟨e, he, rfl⟩ := RingBuffer.mem_since hev hx
    exact h.buffer e he

variable {x : Envelope} {rest : List Envelope}

theorem Inv.drain (h : Inv s) (hk : s.conns c = some k) (hsend : k.send = x :: rest) (hpump : k.pumpDone = false) :
    Inv (s.setConn c { k with send := rest, wire := k.wire ++ [x] }) := by
  have hok := h.conns c k hk
  refine h.setConn (hok.shrink (r := []) rfl ?_ fun y hy => hok.known y ?_)
  · simp [Conn.inFlight, hpump, hsend]
  · simpa [hsend] using hy

theorem Inv.pumpDone (h : Inv s) (hk : s.conns c = some k) (hsend : rest ⊆ k.send) (hpump : k.pumpDone = false) :
    Inv (s.setConn c { k with send := rest, pumpDone := true }) := by
  have hok := h.conns c k hk
  refine h.setConn (hok.shrink (r := if k.dead then [] else k.send) rfl ?_ fun y hy => hok.known y ?_)
  · by_cases hd : k.dead <;> simp [Conn.inFlight, hd, hpump]
  · simp only [mem_append] at hy ⊢
    exact hy.imp_right (Or.imp_left fun hy => hsend hy)

theorem Inv.replay (h : Inv s) {e : Envelope} (hg : Gapless s (.replay c)) (hk : s.conns c = some k)
    (hr : k.replay = e :: rest) : Inv (s.setConn c { k.enqueue e with replay := rest }) := by
  have hok := h.conns c k hk
  have henq := hok.enqueue (hok.known e (by simp [hr])) (hg k e rest hk hr)
  refine h.setConn ⟨henq.served, ?_⟩
  intro x hx
  apply henq.known
  simp only [Conn.enqueue, hr, mem_append, mem_cons] at hx ⊢
  tauto

theorem Inv.replayEnds (h : Inv s) (hk : s.conns c = some k) : Inv (s.setConn c { k with replay := [] }) := by
  have hok := h.conns c k hk
  refine h.setConn ⟨hok.served, ?_⟩
  intro x hx
  apply hok.known
  simp only [append_nil, mem_append] at hx ⊢
  tauto

end

section

def NoGap (s : State) (d : ℕ) : Prop :=
  s.staled d = false → ∀ x ∈ s.received d, (∀ y ∈ s.received d, y.id ≤ x.id) →
    ∀ e, Before s.order e x → e.type ≠ .sessionReplaced → e ∈ s.received d

variable {s s' : State}

theorem inv_init (cap maxBytes : ℕ) : Inv (init cap maxBytes) := by
  refine ⟨?_, ?_, ?_, ?_, ?_, ?_⟩ <;> simp [init, newRingBuffer]
  intro d
  exact ⟨by simp, by simp⟩

theorem step_inv (a : Action) (hg : Gapless s a) (hs : step s a = some s') (h : Inv s) : Inv s' := by
  have hset : ∀ {c : ℕ} {k : Conn} (k' : Conn), s.conns c = some k →
      (ConnOk s.order s.received s.staled k → ConnOk s.order s.received s.staled k') → Inv (s.setConn c k') :=
    fun k' hk hok => h.setConn (hok (h.conns _ _ hk))
  cases moved_of_step hs with
  | connect =>
    have hnew : ∀ device, ConnOk s.order s.received s.staled (newConn device) :=
      fun _ => ⟨fun _ => by simpa [Conn.inFlight, newConn] using served_nil, by simp [newConn]⟩
    exact { h.setConn (hnew _) with }
  | greet hk | helloStale hk =>
    apply Inv.mint
    exact hset _ hk fun hok => ⟨hok.served, hok.known⟩
  | start hk | clientHello hk => exact hset _ hk fun hok => ⟨hok.served, hok.known⟩
  | @leave c k hk =>
    have hleft : Inv (s.setConn c { k with phase := .left }) := hset _ hk fun hok => ⟨hok.served, hok.known⟩
    exact { hleft with }
  | emit => exact h.mint _ _ _
  | append ht ha => exact h.append ht ha _
  | @send t task k ht ha hk =>
    have hm := (h.tasks t task ht).appended ha
    exact Inv.clearTask (hset _ hk fun hok => hok.enqueue hm (hg task k ht hk)) t
  | done | drop => exact h.clearTask _
  | drain hk hsend hpump => exact h.drain hk hsend hpump
  | writeFail hk hsend hpump => exact h.pumpDone hk (hsend ▸ List.subset_cons_self _ _) hpump
  | pumpExit hk hpump => exact h.pumpDone hk (List.Subset.refl _) hpump
  | close hk => exact hset _ hk .close
  | @cut c k hk => exact hset _ hk fun hok => hok.shrink (r := k.inFlight) rfl (by simp [Conn.inFlight]) hok.known
  | deliver hk hdead hwire => exact h.deliver hk hdead hwire
  | hubRegister | hubUnregister => exact { h with }
  | @hubReplace prev k _ _ _ hprev hne hk => exact { h.replacePrev hk (hg prev k hprev hne hk) with }
  | hubClose _ _ _ hk => exact { hset _ hk .close with }
  | @resume c lastID k hk =>
    have hinbox : Inv (s.setConn c { k with inbox := k.inbox ++ [lastID] }) :=
      hset _ hk fun hok => ⟨hok.served, hok.known⟩
    rw [staled_resume hg hk]
    exact { hinbox with }
  | helloReplay hk hsince => exact h.replayAll hk hsince
  | replay hk hr => exact h.replay hg hk hr
  | replayEnds hk => exact h.replayEnds hk

theorem gapless_run_noGap (cap maxBytes : ℕ) (as : List Action)
    (h : Steps step Gapless (init cap maxBytes) as s) (d : ℕ) : NoGap s d := by
  have hi : Inv s := h.preserves (fun s a t hg hs hi => step_inv a hg hs hi) (inv_init cap maxBytes)
  intro hst x hx _ e hb he
  exact (hi.devices d).closed hst x hx e ⟨hb, he⟩

theorem inSequence_of_last {l : List Envelope} {received : ℕ → List Envelope} {staled : ℕ → Bool} {k : Conn}
    {x : Envelope} (hx : x ∉ l) (hl : ∀ e ∈ l, e ∈ received k.device ∨ e ∈ k.inFlight) :
    InSequence (l ++ [x]) received staled k x := by
  refine .inr (.inr (.inr (.inr (.inr ?_))))
  intro e he
  rcases he.1.of_append with ⟨pre, post, rfl, _⟩ | ⟨_, hm⟩
  · simp at hx
  · exact hl e hm

def greeting (c device t : ℕ) : List Action :=
  [.connect c device, .hubRegister, .greet c t, .append t 180, .send t, .start c]

theorem gapless_run_noGap_greeted : ∃ s, Steps step Gapless (init 256 1048576)
        (greeting 0 0 0 ++ [.drain 0, .deliver 0, .emit 0 1 .pong, .append 1 90, .send 1, .drain 0, .deliver 0]) s ∧
      (s.received 0).length = 2 ∧ NoGap s 0 := by
  refine Exists.imp (p := fun s => Steps step Gapless (init 256 1048576) _ s ∧ (s.received 0).length = 2)
    (fun s hs => ⟨hs.1, hs.2, gapless_run_noGap 256 1048576 _ hs.1 0⟩) ?_
  refine ⟨_, .cons trivial rfl (.cons ?_ rfl (.cons trivial rfl (.cons trivial rfl (.cons ?_ rfl (.cons trivial rfl
    (.cons trivial rfl (.cons trivial rfl (.cons trivial rfl (.cons trivial rfl (.cons ?_ rfl
    (.cons trivial rfl (.cons trivial rfl (.nil _))))))))))))), rfl⟩
  · nofun
  · intro task k ht hk
    cases ht
    cases hk
    exact inSequence_of_last (l := []) (by simp) (by simp)
  · intro task k ht hk
    cases ht
    cases hk
    refine inSequence_of_last (l := [⟨0, .hello⟩]) (by simp) ?_
    intro e he
    rw [List.mem_singleton.mp he]
    exact .inl (List.mem_singleton_self _)

theorem overtaken_send_gap : ∃ s, run step (init 256 1048576)
        (greeting 0 0 0 ++ [.emit 0 1 .commandChunk, .emit 0 2 .pong, .append 1 300, .append 2 90, .send 2,
          .drain 0, .deliver 0, .drain 0, .deliver 0]) = some s ∧ ¬ NoGap s 0 := by
  refine exists_run_of_any_imp (P := fun s : State => s.staled 0 = false ∧
    s.received 0 = [⟨0, .hello⟩, ⟨2, .pong⟩] ∧ s.order = [⟨0, .hello⟩, ⟨1, .commandChunk⟩, ⟨2, .pong⟩])
    (by decide +kernel) ?_
  rintro s ⟨hstaled, hreceived, horder⟩ h
  have hmissing := h hstaled ⟨2, .pong⟩ (by simp [hreceived]) (by simp [hreceived]) ⟨1, .commandChunk⟩
    ⟨[⟨0, .hello⟩, ⟨1, .commandChunk⟩], [], horder, by decide⟩ (by decide)
  rw [hreceived] at hmissing
  exact absurd hmissing (by decide)

end

end NomadDev.Resume
