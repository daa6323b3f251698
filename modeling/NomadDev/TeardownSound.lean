import NomadDev.Foundation.PointUpdate
import NomadDev.Teardown

namespace NomadDev.Teardown

open Foundation.PointUpdate Foundation.Transition Function List

variable {s t : State}

def Phase.scannedServers : Phase → Bool
  | .stoppingServers _ | .finished => true
  | _ => false

def WillStop (s : State) (c e : ℕ) : Prop :=
  (e ∈ s.entries ∧ (s.phase c).scannedServers = false) ∨ ∃ ts, s.phase c = .stoppingServers ts ∧ e ∈ ts

def Timely (s : State) : Action → Prop
  | .register h => ∀ c p, s.handlers h = some (c, .spawned p) → s.phase c = .serving
  | .getOrStart h true => ∀ c e, s.handlers h = some (c, .holding e) → (∀ p, s.server e = some p → s.closed p = true) →
      (∀ p, s.server e = some p → s.stopped p = true) ∧ WillStop s c e
  | .scanDaemons c => ∀ p ∈ s.daemonsOf (s.sid c), s.startedBy p ≤ c
  | .scanServers c => ∀ e ∈ s.entriesOf (s.sid c), ∀ p, s.server e = some p → s.stopped p = false → s.startedBy p = c
  | _ => True

def Clean (s : State) (c : ℕ) : Prop :=
  s.phase c = .finished → (∀ h w, s.handlers h ≠ some (c, w)) →
    (∀ p < s.procs, s.startedBy p = c → s.stopped p = true) ∧
    ∀ p < s.procs, s.stoppedBy p = some c → s.startedBy p ≤ c

structure Ids (s : State) : Prop where
  phase : ∀ c, s.conns ≤ c → s.phase c = .absent
  handler : ∀ h c w, s.handlers h = some (c, w) → c < s.conns
  started : ∀ p, p < s.procs → s.startedBy p < s.conns
  spawned : ∀ h c p, s.handlers h = some (c, .spawned p) → p < s.procs ∧ s.startedBy p = c
  holding : ∀ h c e, s.handlers h = some (c, .holding e) → e < s.slots ∧ s.slotSid e = s.sid c
  daemons : ∀ p ∈ s.daemons, p < s.procs
  entries : ∀ e ∈ s.entries, e < s.slots
  server : ∀ e p, s.server e = some p → p < s.procs

def Phase.StopsDaemon : Phase → ℕ → Prop
  | .serving, _ => True
  | .stoppingDaemons ts, p => p ∈ ts
  | _, _ => False

/-- Who will stop a process that is still running: it is about to be registered, or its connection's teardown will find
it or has found it. -/
inductive Tracked (s : State) (p : ℕ) : Prop
  | spawned (h : ℕ) : s.handlers h = some (s.startedBy p, .spawned p) → Tracked s p
  | daemon : p ∈ s.daemons → (s.phase (s.startedBy p)).StopsDaemon p → Tracked s p
  | server (e : ℕ) : s.server e = some p → s.slotSid e = s.sid (s.startedBy p) → WillStop s (s.startedBy p) e →
      Tracked s p

def ServerTarget (s : State) (c e : ℕ) : Prop :=
  e < s.slots ∧ e ∉ s.entries ∧ (∀ p, s.server e = some p → s.stopped p = false → s.startedBy p = c) ∧
    ∀ d ts, s.phase d = .stoppingServers ts → e ∈ ts → d = c

structure Targets (s : State) : Prop where
  daemon : ∀ c ts, s.phase c = .stoppingDaemons ts → ∀ p ∈ ts, p < s.procs ∧ s.startedBy p ≤ c
  server : ∀ c ts, s.phase c = .stoppingServers ts → ∀ e ∈ ts, ServerTarget s c e

structure InvBut (ex : ℕ → Prop) (s : State) : Prop where
  ids : Ids s
  tracked : ∀ p < s.procs, s.stopped p = false → ¬ ex p → Tracked s p
  targets : Targets s
  blame : ∀ p < s.procs, ∀ c, s.stoppedBy p = some c → s.startedBy p ≤ c

def Inv (s : State) : Prop := InvBut (fun _ => False) s

theorem Inv.clean (hi : Inv s) (c : ℕ) : Clean s c := by
  intro hphase hnone
  refine ⟨fun p hp hc => ?_, fun p hp hc => hi.blame p hp c hc⟩
  by_contra hrun
  cases hi.tracked p hp (Bool.not_eq_true _ ▸ hrun) id with
  | spawned h hh =>
    rw [hc] at hh
    exact hnone h _ hh
  | daemon _ hstops =>
    rw [hc, hphase] at hstops
    cases hstops
  | server e _ _ hwill =>
    rw [hc] at hwill
    rcases hwill with ⟨-, hscan⟩ | ⟨ts, hts, -⟩
    · rw [hphase] at hscan
      cases hscan
    · rw [hphase] at hts
      cases hts

theorem inv_init : Inv init := by
  refine ⟨⟨?_, ?_, ?_, ?_, ?_, ?_, ?_, ?_⟩, ?_, ⟨?_, ?_⟩, ?_⟩
  all_goals simp [init]

variable {ph : Phase} {rest : List ℕ}

section

variable {ex : ℕ → Prop} {p q c e h : ℕ}

theorem InvBut.settle (hi : InvBut (fun p => ex p ∨ p = q) s) (hq : s.stopped q = true ∨ Tracked s q) :
    InvBut ex s := by
  refine ⟨hi.ids, fun p hp hrun hex => ?_, hi.targets, hi.blame⟩
  by_cases hpq : p = q
  · rw [hpq] at hrun ⊢
    rcases hq with hq | hq
    · cases hq.symm.trans hrun
    · exact hq
  · exact hi.tracked p hp hrun fun h => h.elim hex hpq

theorem Tracked.frame (ht : Tracked s p) (hstart : t.startedBy p = s.startedBy p)
    (hhand : ∀ k, s.handlers k = some (s.startedBy p, .spawned p) → t.handlers k = s.handlers k)
    (hphase : t.phase (s.startedBy p) = s.phase (s.startedBy p)) (hd : p ∈ s.daemons → p ∈ t.daemons)
    (hsid : t.sid (s.startedBy p) = s.sid (s.startedBy p))
    (hserver : ∀ e, s.server e = some p → WillStop s (s.startedBy p) e →
      t.server e = some p ∧ t.slotSid e = s.slotSid e ∧ (e ∈ s.entries → e ∈ t.entries)) : Tracked t p := by
  cases ht with
  | spawned k hk => exact .spawned k (by rw [hstart, hhand k hk, hk])
  | daemon hmem hp =>
    refine .daemon (hd hmem) ?_
    rw [hstart, hphase]
    exact hp
  | server e he hs hw =>
    obtain ⟨he', hslot, hent⟩ := hserver e he hw
    refine .server e he' (by rw [hstart, hslot, hsid, hs]) ?_
    rw [hstart, WillStop, hphase]
    exact hw.imp (And.imp_left hent) id

theorem Tracked.same (ht : Tracked s p) (hstart : t.startedBy = s.startedBy) (hhand : t.handlers = s.handlers)
    (hphase : t.phase = s.phase) (hd : p ∈ s.daemons → p ∈ t.daemons) (hsid : t.sid = s.sid)
    (hserver : t.server = s.server) (hslot : t.slotSid = s.slotSid) (hent : t.entries = s.entries) : Tracked t p := by
  refine ht.frame (congrFun hstart p) (fun k _ => congrFun hhand k) (congrFun hphase _) hd (congrFun hsid _) ?_
  intro e he _
  rw [hserver, hslot, hent]
  exact ⟨he, rfl, id⟩

theorem stopped_kill : (s.kill p).stopped p = true := update_self _ _ _

theorem running_of_kill (hq : (s.kill p).stopped q = false) : s.stopped q = false := by
  by_cases hpq : q = p
  · rw [hpq, stopped_kill] at hq
    cases hq
  · exact (update_of_ne hpq _ _).symm.trans hq

theorem InvBut.kill (hi : InvBut ex s) (p : ℕ) : InvBut ex (s.kill p) := by
  refine ⟨{ hi.ids with }, fun q hq hrun hex => ?_, { hi.targets with server := ?_ }, hi.blame⟩
  · exact (hi.tracked q hq (running_of_kill hrun) hex).same rfl rfl rfl id rfl rfl rfl rfl
  · intro c ts hts e he
    obtain ⟨hlt, hgone, hstarted, honly⟩ := hi.targets.server c ts hts e he
    exact ⟨hlt, hgone, fun q hq hrun => hstarted q hq (running_of_kill hrun), honly⟩

theorem InvBut.close (hi : InvBut ex s) (p : ℕ) : InvBut ex (s.close p) := by
  refine ⟨{ hi.ids with }, fun q hq hrun hex => ?_, { hi.targets with }, hi.blame⟩
  exact (hi.tracked q hq hrun hex).same rfl rfl rfl id rfl rfl rfl rfl

theorem InvBut.killBy (hi : InvBut ex s) (hc : s.startedBy p ≤ c) : InvBut ex (s.killBy p c) := by
  unfold State.killBy
  split
  · exact hi
  obtain ⟨hids, htracked, htargets, hblame⟩ := hi.kill p
  refine ⟨{ hids with }, ?_, { htargets with }, ?_⟩
  · intro q hq hrun hex
    exact (htracked q hq hrun hex).same rfl rfl rfl id rfl rfl rfl rfl
  · intro q hq k hk
    change update s.stoppedBy p (some c) q = some k at hk
    rcases of_update_some hk with ⟨rfl, rfl⟩ | ⟨-, hk⟩
    · exact hc
    · exact hi.blame q hq k hk

theorem stopped_killBy : (s.killBy p c).stopped p = true := by
  unfold State.killBy
  split
  · assumption
  · exact stopped_kill

section

variable (hi : InvBut ex s)
include hi

theorem InvBut.unregister (hp : s.stopped p = true) : InvBut ex (s.unregister p) := by
  refine ⟨{ hi.ids with daemons := ?_ }, fun q hq hrun hex => ?_, { hi.targets with }, hi.blame⟩
  · intro q hq
    exact hi.ids.daemons q (mem_of_mem_filter hq)
  · refine (hi.tracked q hq hrun hex).same rfl rfl rfl (fun hmem => ?_) rfl rfl rfl rfl
    refine mem_filter.mpr ⟨hmem, ?_⟩
    rw [decide_eq_true_iff]
    rintro rfl
    cases hp.symm.trans hrun

theorem InvBut.dropEntries {ex' : ℕ → Prop} {keep : ℕ → Bool} (hex : ∀ p, ex p → ex' p)
    (hgone : ∀ e ∈ s.entries, keep e = false → ∀ p, s.server e = some p → s.stopped p = false → ex' p) :
    InvBut ex' { s with entries := s.entries.filter keep } := by
  refine ⟨{ hi.ids with entries := ?_ }, fun q hq hrun hq' => ?_, { hi.targets with server := ?_ }, hi.blame⟩
  · intro k hk
    exact hi.ids.entries k (mem_of_mem_filter hk)
  · refine (hi.tracked q hq hrun fun h => hq' (hex q h)).frame rfl (fun _ _ => rfl) rfl id rfl ?_
    refine fun k hk _ => ⟨hk, rfl, fun hmem => mem_filter.mpr ⟨hmem, ?_⟩⟩
    exact eq_true_of_ne_false fun hkeep => hq' (hgone k hmem hkeep q hk hrun)
  · intro c ts hts k hk
    obtain ⟨hlt, hgone, hrest⟩ := hi.targets.server c ts hts k hk
    exact ⟨hlt, fun hmem => hgone (mem_of_mem_filter hmem), hrest⟩

theorem InvBut.setHandler {o : Option (ℕ × Work)}
    (hnew : ∀ d v, o = some (d, v) → d < s.conns ∧ (∀ p, v = .spawned p → p < s.procs ∧ s.startedBy p = d) ∧
      ∀ e, v = .holding e → e < s.slots ∧ s.slotSid e = s.sid d)
    (hold : ∀ d p, s.handlers h = some (d, .spawned p) → ex p) :
    InvBut ex { s with handlers := update s.handlers h o } := by
  have hcases : ∀ k v, update s.handlers h o k = some v → o = some v ∨ s.handlers k = some v :=
    fun k v hk => (update_cases (· = some v) hk).imp And.right And.right
  refine ⟨{ hi.ids with handler := ?_, spawned := ?_, holding := ?_ }, fun q hq hrun hex => ?_, { hi.targets with },
    hi.blame⟩
  · intro k d v hk
    rcases hcases k _ hk with hk | hk
    · exact (hnew d v hk).1
    · exact hi.ids.handler k d v hk
  · intro k d q hk
    rcases hcases k _ hk with hk | hk
    · exact (hnew d _ hk).2.1 q rfl
    · exact hi.ids.spawned k d q hk
  · intro k d e hk
    rcases hcases k _ hk with hk | hk
    · exact (hnew d _ hk).2.2 e rfl
    · exact hi.ids.holding k d e hk
  · refine (hi.tracked q hq hrun hex).frame rfl (fun k hk => ?_) rfl id rfl fun k hk _ => ⟨hk, rfl, id⟩
    refine update_of_ne ?_ _ _
    rintro rfl
    exact hex (hold _ q hk)

theorem InvBut.work {w : Work} (hc : c < s.conns) (hspawned : ∀ p, w = .spawned p → p < s.procs ∧ s.startedBy p = c)
    (hholding : ∀ e, w = .holding e → e < s.slots ∧ s.slotSid e = s.sid c)
    (hold : ∀ d p, s.handlers h = some (d, .spawned p) → ex p) : InvBut ex (s.work h c w) := by
  refine hi.setHandler (fun d v hw => ?_) hold
  cases hw
  exact ⟨hc, hspawned, hholding⟩

theorem InvBut.returns (hold : ∀ d p, s.handlers h ≠ some (d, .spawned p)) :
    InvBut ex { s with handlers := update s.handlers h none } :=
  hi.setHandler nofun fun d p hk => absurd hk (hold d p)

end

theorem start_old (hp : p < s.procs) : (s.start c).startedBy p = s.startedBy p ∧ (s.start c).stopped p = s.stopped p ∧
    (s.start c).stoppedBy p = s.stoppedBy p :=
  have hne := Nat.ne_of_lt hp
  ⟨update_of_ne hne _ _, update_of_ne hne _ _, update_of_ne hne _ _⟩

theorem start_new : (s.start c).startedBy s.procs = c ∧ (s.start c).stopped s.procs = false ∧
    (s.start c).stoppedBy s.procs = none :=
  ⟨update_self _ _ _, update_self _ _ _, update_self _ _ _⟩

theorem InvBut.start (hi : InvBut ex s) (hc : c < s.conns) : InvBut (fun p => ex p ∨ p = s.procs) (s.start c) := by
  have hold : ∀ p, p < (s.start c).procs → p ≠ s.procs → p < s.procs :=
    fun p hp hne => Nat.lt_of_le_of_ne (Nat.le_of_lt_succ hp) hne
  refine ⟨{ hi.ids with started := ?_, spawned := ?_, daemons := ?_, server := ?_ }, ?_, ⟨?_, ?_⟩, ?_⟩
  · intro p hp
    by_cases hpq : p = s.procs
    · rw [hpq, start_new.1]
      exact hc
    · rw [(start_old (hold p hp hpq)).1]
      exact hi.ids.started p (hold p hp hpq)
  · intro k d p hk
    obtain ⟨hp, hd⟩ := hi.ids.spawned k d p hk
    exact ⟨Nat.lt_succ_of_lt hp, (start_old hp).1.trans hd⟩
  · intro p hp
    exact Nat.lt_succ_of_lt (hi.ids.daemons p hp)
  · intro k p hk
    exact Nat.lt_succ_of_lt (hi.ids.server k p hk)
  · intro p hp hrun hex
    have hlt := hold p hp fun h => hex (.inr h)
    rw [(start_old hlt).2.1] at hrun
    refine (hi.tracked p hlt hrun fun h => hex (.inl h)).frame (start_old hlt).1 (fun _ _ => rfl) rfl id rfl ?_
    exact fun k hk _ => ⟨hk, rfl, id⟩
  · intro d ts hts p hp
    obtain ⟨hlt, hle⟩ := hi.targets.daemon d ts hts p hp
    exact ⟨Nat.lt_succ_of_lt hlt, Nat.le_trans (Nat.le_of_eq (start_old hlt).1) hle⟩
  · intro d ts hts k hk
    obtain ⟨hk, hgone, hstarted, honly⟩ := hi.targets.server d ts hts k hk
    refine ⟨hk, hgone, fun p hp hrun => ?_, honly⟩
    have hlt := hi.ids.server k p hp
    rw [(start_old hlt).2.1] at hrun
    exact (start_old hlt).1.trans (hstarted p hp hrun)
  · intro p hp d hd
    by_cases hpq : p = s.procs
    · rw [hpq, start_new.2.2] at hd
      cases hd
    · have hlt := hold p hp hpq
      rw [(start_old hlt).2.2] at hd
      rw [(start_old hlt).1]
      exact hi.blame p hlt d hd

theorem InvBut.addDaemon (hi : InvBut ex s) (hp : p < s.procs) : InvBut ex { s with daemons := p :: s.daemons } := by
  refine ⟨{ hi.ids with daemons := ?_ }, fun q hq hrun hex => ?_, { hi.targets with }, hi.blame⟩
  · intro q hq
    rcases mem_cons.mp hq with rfl | hq
    · exact hp
    · exact hi.ids.daemons q hq
  · exact (hi.tracked q hq hrun hex).same rfl rfl rfl (mem_cons_of_mem p) rfl rfl rfl rfl

theorem InvBut.setServer {o : Option ℕ} (hi : InvBut ex s) (hfree : ∀ q, s.server e = some q → s.stopped q = true)
    (hnew : ∀ p, o = some p → p < s.procs ∧
      ∀ c ts, s.phase c = .stoppingServers ts → e ∈ ts → s.startedBy p = c) : InvBut ex (s.setServer e o) := by
  have hcases : ∀ k q, (s.setServer e o).server k = some q → (k = e ∧ o = some q) ∨ (k ≠ e ∧ s.server k = some q) :=
    fun k q hk => update_cases (· = some q) hk
  refine ⟨{ hi.ids with server := ?_ }, fun q hq hrun hex => ?_, { hi.targets with server := ?_ }, hi.blame⟩
  · intro k q hk
    rcases hcases k q hk with ⟨-, hq⟩ | ⟨-, hk⟩
    · exact (hnew q hq).1
    · exact hi.ids.server k q hk
  · refine (hi.tracked q hq hrun hex).frame rfl (fun _ _ => rfl) rfl id rfl fun k hk _ => ⟨?_, rfl, id⟩
    refine (update_of_ne ?_ _ _).trans hk
    rintro rfl
    cases (hfree q hk).symm.trans hrun
  · intro c ts hts k hk
    obtain ⟨hlt, hgone, hstarted, honly⟩ := hi.targets.server c ts hts k hk
    refine ⟨hlt, hgone, fun q hq hrun => ?_, honly⟩
    rcases hcases k q hq with ⟨rfl, ho⟩ | ⟨-, hq⟩
    · exact (hnew q ho).2 c ts hts hk
    · exact hstarted q hq hrun

theorem InvBut.newSlot (hi : InvBut ex s) (c : ℕ) (lang : String) : InvBut ex { s with
      slots := s.slots + 1
      slotSid := update s.slotSid s.slots (s.sid c)
      slotLang := update s.slotLang s.slots lang
      server := update s.server s.slots none
      entries := s.slots :: s.entries } := by
  have hsid : ∀ e, e < s.slots → update s.slotSid s.slots (s.sid c) e = s.slotSid e :=
    fun e he => update_of_ne (Nat.ne_of_lt he) _ _
  have hserver : ∀ e q, update s.server s.slots none e = some q → s.server e = some q :=
    fun e q he => (of_update_none he).2
  have hlt : ∀ d e, WillStop s d e → e < s.slots := by
    rintro d e (⟨he, -⟩ | ⟨ts, hts, he⟩)
    · exact hi.ids.entries e he
    · exact (hi.targets.server d ts hts e he).1
  refine ⟨{ hi.ids with holding := ?_, entries := ?_, server := ?_ }, fun q hq hrun hex => ?_,
    { hi.targets with server := ?_ }, hi.blame⟩
  · intro k d e hk
    obtain ⟨he, hs⟩ := hi.ids.holding k d e hk
    exact ⟨Nat.lt_succ_of_lt he, (hsid e he).trans hs⟩
  · intro e he
    rcases mem_cons.mp he with rfl | he
    · exact Nat.lt_succ_self _
    · exact Nat.lt_succ_of_lt (hi.ids.entries e he)
  · intro e q he
    exact hi.ids.server e q (hserver e q he)
  · refine (hi.tracked q hq hrun hex).frame rfl (fun _ _ => rfl) rfl id rfl fun e he hw => ?_
    have hes := hlt _ e hw
    exact ⟨(update_of_ne (Nat.ne_of_lt hes) _ _).trans he, hsid e hes, mem_cons_of_mem _⟩
  · intro d ts hts e he
    obtain ⟨hes, hgone, hstarted, honly⟩ := hi.targets.server d ts hts e he
    refine ⟨Nat.lt_succ_of_lt hes, fun hmem => ?_, fun q hq => hstarted q (hserver e q hq), honly⟩
    exact (mem_cons.mp hmem).elim (Nat.ne_of_lt hes) hgone

theorem InvBut.setPhase (hi : InvBut ex s) (hc : c < s.conns)
    (hdaemons : ∀ ts, ph = .stoppingDaemons ts → ∀ p ∈ ts, p < s.procs ∧ s.startedBy p ≤ c)
    (hservers : ∀ ts, ph = .stoppingServers ts → ∀ e ∈ ts, ServerTarget s c e)
    (htracked : ∀ p < s.procs, s.startedBy p = c → s.stopped p = false → ¬ ex p → Tracked (s.setPhase c ph) p) :
    InvBut ex (s.setPhase c ph) := by
  have hcases : ∀ k v, (s.setPhase c ph).phase k = v → (k = c ∧ ph = v) ∨ (k ≠ c ∧ s.phase k = v) :=
    fun k v hk => update_cases (· = v) hk
  refine ⟨{ hi.ids with phase := ?_ }, fun q hq hrun hex => ?_, ⟨?_, ?_⟩, hi.blame⟩
  · intro k hk
    exact (update_of_ne (Nat.ne_of_gt (Nat.lt_of_lt_of_le hc hk)) _ _).trans (hi.ids.phase k hk)
  · by_cases hqc : s.startedBy q = c
    · exact htracked q hq hqc hrun hex
    · exact (hi.tracked q hq hrun hex).frame rfl (fun _ _ => rfl) (update_of_ne hqc _ _) id rfl
        fun e he _ => ⟨he, rfl, id⟩
  · intro k ts hts p hp
    rcases hcases k _ hts with ⟨rfl, rfl⟩ | ⟨-, hts⟩
    · exact hdaemons ts rfl p hp
    · exact hi.targets.daemon k ts hts p hp
  · intro k ts hts e he
    rcases hcases k _ hts with ⟨rfl, rfl⟩ | ⟨-, hold⟩
    · obtain ⟨hlt, hgone, hstarted, honly⟩ := hservers ts rfl e he
      refine ⟨hlt, hgone, hstarted, fun d ts' hd hed => ?_⟩
      rcases hcases d _ hd with ⟨hdk, -⟩ | ⟨-, hd⟩
      · exact hdk
      · exact honly d ts' hd hed
    · obtain ⟨hlt, hgone, hstarted, honly⟩ := hi.targets.server k ts hold e he
      refine ⟨hlt, hgone, hstarted, fun d ts' hd hed => ?_⟩
      rcases hcases d _ hd with ⟨rfl, rfl⟩ | ⟨-, hd⟩
      · exact ((hservers ts' rfl e hed).2.2.2 k ts hold he).symm
      · exact honly d ts' hd hed

theorem InvBut.connect (hi : InvBut ex s) (sid : String) : InvBut ex { s with
      conns := s.conns + 1
      sid := update s.sid s.conns sid
      phase := update s.phase s.conns .serving } := by
  have hold : ∀ k v, update s.phase s.conns .serving k = v → v ≠ .serving → s.phase k = v :=
    fun k v hk hv => (update_cases (· = v) hk).elim (fun h => absurd h.2.symm hv) And.right
  have hs : ∀ k ts, update s.phase s.conns .serving k = .stoppingServers ts → s.phase k = .stoppingServers ts :=
    fun k ts hk => hold k _ hk nofun
  refine ⟨⟨?_, ?_, ?_, hi.ids.spawned, ?_, hi.ids.daemons, hi.ids.entries, hi.ids.server⟩,
    fun q hq hrun hex => ?_, ⟨?_, ?_⟩, hi.blame⟩
  · intro k hk
    exact (update_of_ne (Nat.ne_of_gt hk) _ _).trans (hi.ids.phase k (Nat.le_of_succ_le hk))
  · intro k d w hk
    exact Nat.lt_succ_of_lt (hi.ids.handler k d w hk)
  · intro p hp
    exact Nat.lt_succ_of_lt (hi.ids.started p hp)
  · intro k d e hk
    obtain ⟨he, hsid⟩ := hi.ids.holding k d e hk
    exact ⟨he, hsid.trans (update_of_ne (Nat.ne_of_lt (hi.ids.handler k d _ hk)) _ _).symm⟩
  · have hne := Nat.ne_of_lt (hi.ids.started q hq)
    exact (hi.tracked q hq hrun hex).frame rfl (fun _ _ => rfl) (update_of_ne hne _ _) id
      (update_of_ne hne _ _) fun e he _ => ⟨he, rfl, id⟩
  · intro k ts hts
    exact hi.targets.daemon k ts (hold k _ hts nofun)
  · intro k ts hts e he
    obtain ⟨hlt, hgone, hstarted, honly⟩ := hi.targets.server k ts (hs k ts hts) e he
    exact ⟨hlt, hgone, hstarted, fun d ts' hd => honly d ts' (hs d ts' hd)⟩

end

theorem Ids.conn_lt (hi : Ids s) {c : ℕ} (h : s.phase c = ph) (hph : ph ≠ .absent) : c < s.conns := by
  by_contra hlt
  exact hph (h.symm.trans (hi.phase c (Nat.le_of_not_lt hlt)))

section

variable {p c : ℕ}

theorem phase_setPhase_self : (s.setPhase c ph).phase c = ph := update_self _ _ _

theorem Tracked.setPhase (ht : Tracked s p) (hpc : s.startedBy p = c)
    (hd : p ∈ s.daemons → (s.phase c).StopsDaemon p → ph.StopsDaemon p)
    (hw : ∀ e, s.server e = some p → s.slotSid e = s.sid c → WillStop s c e → WillStop (s.setPhase c ph) c e) :
    Tracked (s.setPhase c ph) p := by
  subst hpc
  cases ht with
  | spawned h hh => exact .spawned h hh
  | daemon hmem hstops =>
    refine .daemon hmem ?_
    change ((s.setPhase _ ph).phase (s.startedBy p)).StopsDaemon p
    rw [phase_setPhase_self]
    exact hd hmem hstops
  | server e he hs hwill => exact .server e he hs (hw e he hs hwill)

theorem WillStop.setPhase {e : ℕ} (hw : WillStop s c e) (hold : (s.phase c).scannedServers = false)
    (hph : ph.scannedServers = false) : WillStop (s.setPhase c ph) c e := by
  rcases hw with ⟨he, -⟩ | ⟨ts, hts, -⟩
  · exact .inl ⟨he, by rw [phase_setPhase_self, hph]⟩
  · rw [hts] at hold
    cases hold

theorem Inv.scanDaemons (hi : Inv s) (hc : s.phase c = .serving) (hok : ∀ p ∈ s.daemonsOf (s.sid c), s.startedBy p ≤ c) :
    Inv (s.setPhase c (.stoppingDaemons (s.daemonsOf (s.sid c)))) := by
  refine hi.setPhase (hi.ids.conn_lt hc nofun) ?_ nofun ?_
  · rintro ts h p hp
    cases h
    exact ⟨hi.ids.daemons p (mem_of_mem_filter hp), hok p hp⟩
  · intro p hp hpc hrun _
    refine (hi.tracked p hp hrun id).setPhase hpc (fun hd _ => mem_filter.mpr ⟨hd, ?_⟩) fun e _ _ hw => ?_
    · rw [decide_eq_true_iff, hpc]
    · exact hw.setPhase (by rw [hc]; rfl) rfl

theorem killBy_phase : (s.killBy p c).phase = s.phase := by
  unfold State.killBy
  split <;> rfl

theorem Inv.nextDaemon (hi : Inv s) (hc : s.phase c = .stoppingDaemons (p :: rest)) :
    Inv (((s.killBy p c).unregister p).setPhase c (.stoppingDaemons rest)) := by
  have hle : s.startedBy p ≤ c := (hi.targets.daemon c _ hc p mem_cons_self).2
  have hi' : Inv ((s.killBy p c).unregister p) := (hi.killBy hle).unregister stopped_killBy
  have hc' : ((s.killBy p c).unregister p).phase c = .stoppingDaemons (p :: rest) :=
    (congrFun killBy_phase c).trans hc
  have hstop : ((s.killBy p c).unregister p).stopped p = true := stopped_killBy
  refine hi'.setPhase (hi'.ids.conn_lt hc' nofun) ?_ nofun ?_
  · rintro ts h q hq
    cases h
    exact hi'.targets.daemon c _ hc' q (mem_cons_of_mem p hq)
  · intro q hq hqc hrun _
    refine (hi'.tracked q hq hrun id).setPhase hqc (fun _ hstops => ?_) fun e _ _ hw => ?_
    · rw [hc'] at hstops
      rcases mem_cons.mp hstops with rfl | hrest
      · cases hstop.symm.trans hrun
      · exact hrest
    · exact hw.setPhase (by rw [hc']; rfl) rfl

theorem Inv.daemonsStopped (hi : Inv s) (hc : s.phase c = .stoppingDaemons []) : Inv (s.setPhase c .daemonsStopped) := by
  refine hi.setPhase (hi.ids.conn_lt hc nofun) nofun nofun ?_
  intro p hp hpc hrun _
  refine (hi.tracked p hp hrun id).setPhase hpc (fun _ hstops => ?_) fun e _ _ hw => ?_
  · rw [hc] at hstops
    cases hstops
  · exact hw.setPhase (by rw [hc]; rfl) rfl

theorem Inv.scanServers (hi : Inv s) (hc : s.phase c = .daemonsStopped)
    (hok : ∀ e ∈ s.entriesOf (s.sid c), ∀ p, s.server e = some p → s.stopped p = false → s.startedBy p = c) :
    Inv ({ s with entries := s.entries.filter fun e => s.slotSid e ≠ s.sid c }.setPhase c
      (.stoppingServers (s.entriesOf (s.sid c)))) := by
  have hdropped : InvBut (fun p => s.startedBy p = c)
      { s with entries := s.entries.filter fun e => s.slotSid e ≠ s.sid c } := by
    refine InvBut.dropEntries hi (fun _ => False.elim) fun e he hkeep => hok e (mem_filter.mpr ⟨he, ?_⟩)
    exact decide_eq_true (not_not.mp (of_decide_eq_false hkeep))
  have hmoved : InvBut (fun p => s.startedBy p = c)
      ({ s with entries := s.entries.filter fun e => s.slotSid e ≠ s.sid c }.setPhase c
        (.stoppingServers (s.entriesOf (s.sid c)))) := by
    refine hdropped.setPhase (hdropped.ids.conn_lt hc nofun) nofun ?_
      fun p _ hpc _ hex => (hex hpc).elim
    rintro ts h e he
    cases h
    obtain ⟨hmem, hsid⟩ := mem_filter.mp he
    refine ⟨hi.ids.entries e hmem, fun hkept => ?_, hok e he, fun d ts' hd hed => ?_⟩
    · have hne := (mem_filter.mp hkept).2
      rw [decide_eq_true_iff] at hne hsid
      exact hne hsid
    · exact absurd hmem (hi.targets.server d ts' hd e hed).2.1
  refine ⟨hmoved.ids, fun p hp hrun _ => ?_, hmoved.targets, hmoved.blame⟩
  by_cases hpc : s.startedBy p = c
  · subst hpc
    cases hi.tracked p hp hrun id with
    | spawned h hh => exact .spawned h hh
    | daemon _ hstops =>
      rw [hc] at hstops
      cases hstops
    | server e he hs hw =>
      refine .server e he hs (.inr ⟨_, update_self _ _ _, ?_⟩)
      rcases hw with ⟨hmem, -⟩ | ⟨ts, hts, -⟩
      · refine mem_filter.mpr ⟨hmem, ?_⟩
        rw [decide_eq_true_iff]
        exact hs
      · cases hc.symm.trans hts
  · exact hmoved.tracked p hp hrun hpc

theorem Inv.nextServer (hi : Inv s) {e : ℕ} (hc : s.phase c = .stoppingServers (e :: rest))
    (hfree : ∀ p, s.server e = some p → s.stopped p = true) : Inv (s.setPhase c (.stoppingServers rest)) := by
  refine hi.setPhase (hi.ids.conn_lt hc nofun) nofun ?_ ?_
  · rintro ts h k hk
    cases h
    exact hi.targets.server c _ hc k (mem_cons_of_mem e hk)
  · intro p hp hpc hrun _
    refine (hi.tracked p hp hrun id).setPhase hpc (fun _ hstops => ?_) fun k hk _ hw => ?_
    · rw [hc] at hstops
      cases hstops
    · refine .inr ⟨rest, update_self _ _ _, ?_⟩
      rcases hw with ⟨-, hscan⟩ | ⟨ts, hts, hkts⟩
      · rw [hc] at hscan
        cases hscan
      · cases hc.symm.trans hts
        rcases mem_cons.mp hkts with rfl | hrest
        · cases (hfree p hk).symm.trans hrun
        · exact hrest

theorem Inv.finished (hi : Inv s) (hc : s.phase c = .stoppingServers []) : Inv (s.setPhase c .finished) := by
  refine hi.setPhase (hi.ids.conn_lt hc nofun) nofun nofun ?_
  intro p hp hpc hrun _
  refine (hi.tracked p hp hrun id).setPhase hpc (fun _ hstops => ?_) fun k hk _ hw => ?_
  · rw [hc] at hstops
    cases hstops
  · rcases hw with ⟨-, hscan⟩ | ⟨ts, hts, hkts⟩
    · rw [hc] at hscan
      cases hscan
    · cases hc.symm.trans hts
      cases hkts

theorem InvBut.mono {ex ex' : ℕ → Prop} (hi : InvBut ex s) (h : ∀ p, ex p → ex' p) : InvBut ex' s :=
  ⟨hi.ids, fun p hp hrun hex => hi.tracked p hp hrun fun hp => hex (h p hp), hi.targets, hi.blame⟩

variable {h e : ℕ}

theorem Inv.run (hi : Inv s) (hc : c < s.conns) (hold : ∀ d p, s.handlers h ≠ some (d, .spawned p)) :
    Inv (s.work h c .running) :=
  InvBut.work hi hc nofun nofun fun d p hk => absurd hk (hold d p)

theorem Inv.startDaemon (hi : Inv s) (hh : s.handlers h = some (c, .running)) :
    Inv ((s.start c).work h c (.spawned s.procs)) := by
  have hc := hi.ids.handler h c _ hh
  have hstarted := InvBut.start hi hc
  refine (hstarted.work (h := h) hc ?_ (fun _ hw => by cases hw) fun d p hk => ?_).settle (.inr ?_)
  · rintro p hw
    cases hw
    exact ⟨Nat.lt_succ_self _, start_new.1⟩
  · cases hh.symm.trans hk
  · refine .spawned h ?_
    rw [show ((s.start c).work h c (.spawned s.procs)).startedBy s.procs = c from start_new.1]
    exact update_self _ _ _

theorem Inv.register (hi : Inv s) (hh : s.handlers h = some (c, .spawned p)) (hserving : s.phase c = .serving) :
    Inv ({ s with daemons := p :: s.daemons }.work h c .running) := by
  obtain ⟨hp, hpc⟩ := hi.ids.spawned h c p hh
  have hadded := (InvBut.addDaemon hi hp).mono fun q (hq : False) => hq.elim (C := False ∨ q = p)
  refine (hadded.work (h := h) (hi.ids.handler h c _ hh) (fun _ hw => by cases hw) (fun _ hw => by cases hw)
    fun d q hk => ?_).settle (.inr ?_)
  · cases hh.symm.trans hk
    exact .inr rfl
  · refine .daemon mem_cons_self ?_
    change (s.phase (s.startedBy p)).StopsDaemon p
    rw [hpc, hserving]
    trivial

theorem Inv.fetchEntry (hi : Inv s) (hh : s.handlers h = some (c, .running)) (lang : String) :
    Inv (fetchEntry s h c lang) := by
  have hc := hi.ids.handler h c _ hh
  have hold : ∀ d p, s.handlers h = some (d, .spawned p) → False := by
    intro d p hk
    cases hh.symm.trans hk
  unfold Teardown.fetchEntry
  split
  · next e he =>
    refine InvBut.work hi hc nofun (fun k hw => ?_) hold
    cases hw
    have hfound := List.find?_some he
    rw [decide_eq_true_iff] at hfound
    exact ⟨hi.ids.entries e (mem_of_find?_eq_some he), hfound.1⟩
  · refine InvBut.work (InvBut.newSlot hi c lang) hc nofun (fun k hw => ?_) hold
    cases hw
    exact ⟨Nat.lt_succ_self _, update_self _ _ _⟩

theorem Inv.startServer (hi : Inv s) (hh : s.handlers h = some (c, .holding e))
    (hfree : ∀ q, s.server e = some q → s.stopped q = true) (hwill : WillStop s c e) :
    Inv ((s.start c).setServer e (some s.procs)) := by
  have hc := hi.ids.handler h c _ hh
  have hsid := (hi.ids.holding h c e hh).2
  refine InvBut.settle (InvBut.setServer (InvBut.start hi hc) ?_ fun p hp => ?_) (.inr ?_)
  · intro q hq
    rw [(start_old (hi.ids.server e q hq)).2.1]
    exact hfree q hq
  · cases hp
    refine ⟨Nat.lt_succ_self _, fun d ts hts hets => ?_⟩
    rw [start_new.1]
    obtain ⟨-, hgone, -, honly⟩ := hi.targets.server d ts hts e hets
    rcases hwill with ⟨hmem, -⟩ | ⟨ts', hts', he⟩
    · exact absurd hmem hgone
    · exact honly c ts' hts' he
  · have hby : ((s.start c).setServer e (some s.procs)).startedBy s.procs = c := start_new.1
    refine .server e (update_self _ _ _) ?_ ?_
    · rw [hby]
      exact hsid
    · rw [hby]
      exact hwill

theorem Inv.getOrStart (hi : Inv s) (hh : s.handlers h = some (c, .holding e)) {initialized : Bool}
    (hok : initialized = true → (∀ p, s.server e = some p → s.closed p = true) →
      (∀ p, s.server e = some p → s.stopped p = true) ∧ WillStop s c e) :
    Inv ((getOrStart s c e initialized).work h c .running) := by
  have hc := hi.ids.handler h c _ hh
  have hold : ∀ d p, s.handlers h ≠ some (d, .spawned p) := by
    intro d p hk
    cases hh.symm.trans hk
  unfold Teardown.getOrStart
  split
  · exact hi.run hc hold
  next hlive =>
  have hclosed : ∀ q, s.server e = some q → s.closed q = true := by
    intro q hq
    rw [hq] at hlive
    simpa using hlive
  split
  · next hinit =>
    obtain ⟨hfree, hwill⟩ := hok hinit hclosed
    exact Inv.run (hi.startServer hh hfree hwill) hc hold
  · have hkilled : Inv (((s.start c).kill s.procs).close s.procs) :=
      InvBut.settle (((InvBut.start hi hc).kill s.procs).close s.procs) (.inl stopped_kill)
    exact hkilled.run hc hold

theorem killBy_server : (s.killBy p c).server = s.server := by
  unfold State.killBy
  split <;> rfl

theorem Inv.stopServer (hi : Inv s) (hc : s.phase c = .stoppingServers (e :: rest))
    (hp : s.server e = some p) :
    Inv ((((s.killBy p c).close p).setServer e none).setPhase c (.stoppingServers rest)) := by
  have hkilled : Inv (s.killBy p c) := by
    cases hstop : s.stopped p with
    | true =>
      rw [State.killBy, if_pos hstop]
      exact hi
    | false =>
      have hby : s.startedBy p = c := (hi.targets.server c _ hc e mem_cons_self).2.2.1 p hp hstop
      exact InvBut.killBy hi (Nat.le_of_eq hby)
  have hcleared : Inv (((s.killBy p c).close p).setServer e none) := by
    refine InvBut.setServer (hkilled.close p) (fun q hq => ?_) nofun
    rw [show ((s.killBy p c).close p).server = s.server from killBy_server, hp] at hq
    cases hq
    exact stopped_killBy
  refine hcleared.nextServer ((congrFun killBy_phase c).trans hc) fun q hq => ?_
  change update (s.killBy p c).server e none e = some q at hq
  rw [update_self] at hq
  cases hq

theorem inv_step {a : Action} (hok : Timely s a) (h : step s a = some t) (hi : Inv s) : Inv t := by
  cases a with simp only [step] at h
  | connect sid =>
    cases h
    exact InvBut.connect hi sid
  | dispatch k c =>
    split at h <;> cases h
    next hk hc =>
      refine hi.run (hi.ids.conn_lt hc nofun) fun d p hd => ?_
      cases hk.symm.trans hd
  | startDaemon k =>
    split at h <;> cases h
    next c hk => exact hi.startDaemon hk
  | register k =>
    split at h <;> cases h
    next c p hk => exact hi.register hk (hok c p hk)
  | fetchEntry k lang =>
    split at h <;> cases h
    next c hk => exact hi.fetchEntry hk lang
  | getOrStart k initialized =>
    split at h <;> cases h
    next c e hk =>
      refine hi.getOrStart hk ?_
      rintro rfl hclosed
      exact hok c e hk hclosed
  | returns k =>
    split at h <;> cases h
    next hk =>
      refine InvBut.returns hi fun d p hd => ?_
      cases hk.symm.trans hd
  | exit p =>
    split at h <;> cases h
    exact InvBut.kill hi p
  | endRead p =>
    split at h <;> cases h
    exact InvBut.close hi p
  | stopDaemon sid p =>
    split at h <;> cases h
    exact (InvBut.kill hi p).unregister stopped_kill
  | scanDaemons c =>
    split at h <;> cases h
    next hc => exact hi.scanDaemons hc hok
  | stopNextDaemon c =>
    split at h <;> cases h
    next hc => exact hi.nextDaemon hc
    next hc => exact hi.daemonsStopped hc
  | scanServers c =>
    split at h <;> cases h
    next hc => exact hi.scanServers hc hok
  | stopNextServer c =>
    split at h
    · next hc =>
      split at h <;> cases h
      next hp => exact hi.stopServer hc hp
      next hnone =>
        refine hi.nextServer hc fun p hp => ?_
        cases hnone.symm.trans hp
    · next hc =>
      cases h
      exact hi.finished hc
    · cases h
  | reapServer e =>
    split at h <;> cases h
    next p hp =>
      refine InvBut.setServer ((InvBut.kill hi p).close p) (fun q hq => ?_) nofun
      cases hp.symm.trans hq
      exact stopped_kill
  | reapEntry e =>
    split at h <;> cases h
    next hnone =>
      refine InvBut.dropEntries hi (fun _ => id) fun k _ hk p hp _ => ?_
      rw [not_not.mp (of_decide_eq_false hk), hnone] at hp
      cases hp

end

def teardown (c daemons servers : ℕ) : List Action :=
  .scanDaemons c :: List.replicate (daemons + 1) (.stopNextDaemon c) ++
    .scanServers c :: List.replicate (servers + 1) (.stopNextServer c)

theorem teardown_clean {acts : List Action} {s : State} (h : Steps step Timely init acts s) (c : ℕ) : Clean s c :=
  (h.preserves (fun _ _ _ => inv_step) inv_init).clean c

theorem no_handler {handlers : ℕ → Option (ℕ × Work)} (hfirst : handlers 0 = none)
    (hrest : ∀ h, handlers (h + 1) = none) (c : ℕ) : ∀ h w, handlers h ≠ some (c, w)
  | 0, _, hw => by cases hfirst.symm.trans hw
  | h + 1, _, hw => by cases (hrest h).symm.trans hw

def queryGo : List Action := [.fetchEntry 0 "go", .getOrStart 0 true]

theorem teardown_clean_reaped : ∃ s, Steps step Timely init
        ([.connect "s1", .dispatch 0 0, .startDaemon 0, .register 0] ++ queryGo ++ [.endRead 1, .reapServer 0] ++ queryGo ++
          .returns 0 :: teardown 0 1 1) s ∧
      s.phase 0 = .finished ∧ (∀ h w, s.handlers h ≠ some (0, w)) ∧ s.procs = 3 ∧ s.stopped 2 = true ∧ Clean s 0 := by
  refine Exists.imp (p := fun s => Steps step Timely init _ s ∧ s.phase 0 = .finished ∧
    (∀ h w, s.handlers h ≠ some (0, w)) ∧ s.procs = 3 ∧ s.stopped 2 = true)
    (fun s hs => ⟨hs.1, hs.2.1, hs.2.2.1, hs.2.2.2.1, hs.2.2.2.2, teardown_clean hs.1 0⟩) ?_
  refine ⟨_, .cons trivial rfl (.cons trivial rfl (.cons trivial rfl (.cons ?_ rfl (.cons trivial rfl (.cons ?_ rfl
    (.cons trivial rfl (.cons trivial rfl (.cons trivial rfl (.cons ?_ rfl (.cons trivial rfl (.cons ?_ rfl
    (.cons trivial rfl (.cons trivial rfl (.cons ?_ rfl (.cons trivial rfl (.cons trivial rfl (.nil _))))))))))))))))),
    rfl, ?_, rfl, rfl⟩
  · intro c p hk
    cases hk
    rfl
  iterate 2
    · intro c e hk _
      cases hk
      exact ⟨nofun, .inl ⟨mem_singleton_self 0, rfl⟩⟩
  · intro p hp
    have hp : p ∈ [0] := hp
    rw [mem_singleton.mp hp]
    exact Nat.le_refl 0
  · intro e he p hp _
    have he : e ∈ [0] := he
    rw [mem_singleton.mp he] at hp
    cases hp
    rfl
  · intro h w
    rcases h with _ | h <;> exact nofun

/-- The teardown of a replaced connection stops a daemon of the one that replaced it; a daemon registered after the scan
outlives its connection; and so does a language server whose reader gave up, once another has taken its entry. -/
theorem teardown_stops_later_daemon :
    (∃ s, run step init ([.connect "s1", .connect "s1", .dispatch 0 1, .startDaemon 0, .register 0] ++ teardown 0 1 0) =
        some s ∧ s.phase 0 = .finished ∧ s.startedBy 0 = 1 ∧ s.stoppedBy 0 = some 0 ∧ ¬ Clean s 0) ∧
    (∃ s, run step init ([.connect "s1", .dispatch 0 0, .startDaemon 0] ++ teardown 0 0 0 ++ [.register 0, .returns 0]) =
        some s ∧ s.phase 0 = .finished ∧ s.startedBy 0 = 0 ∧ s.stopped 0 = false ∧ ¬ Clean s 0) ∧
    ∃ s, run step init ([.connect "s1", .dispatch 0 0] ++ queryGo ++ [.endRead 0] ++ queryGo ++
        .returns 0 :: teardown 0 0 1) =
      some s ∧ s.phase 0 = .finished ∧ s.startedBy 0 = 0 ∧ s.stopped 0 = false ∧ ¬ Clean s 0 := by
  refine ⟨⟨_, rfl, rfl, rfl, rfl, fun hclean => ?_⟩, ⟨_, rfl, rfl, rfl, rfl, fun hclean => ?_⟩,
    ⟨_, rfl, rfl, rfl, rfl, fun hclean => ?_⟩⟩
  · refine absurd ((hclean rfl ?_).2 0 Nat.one_pos rfl) (by decide)
    intro h w
    rcases h with _ | h <;> exact nofun
  · refine absurd ((hclean rfl ?_).1 0 Nat.one_pos rfl) (by decide)
    intro h w
    rcases h with _ | h <;> exact nofun
  · refine absurd ((hclean rfl ?_).1 0 Nat.two_pos rfl) (by decide)
    intro h w
    rcases h with _ | h <;> exact nofun

end NomadDev.Teardown
