import NomadDev.Approver

namespace NomadDev.Approval

open Tools Foundation.OneShot Foundation.PointUpdate Function

variable {α : Type} {s : State α} {p p' : Approver}

structure Keeps (p p' : Approver) : Prop where
  le : p.nextChan ≤ p'.nextChan
  id : ∀ c < p.nextChan, (p'.chans c).id = (p.chans c).id
  taken : ∀ c < p.nextChan, (p'.chans c).slot.taken = (p.chans c).slot.taken
  fresh : ∀ c < p'.nextChan, p.nextChan ≤ c → (p'.chans c).slot.taken = none
  sent : ∀ c < p'.nextChan, ∀ sig ∈ (p'.chans c).slot.sent,
    c < p.nextChan ∧ sig ∈ (p.chans c).slot.sent ∨ sig.correlationID = (p'.chans c).id

theorem keeps_refl (p : Approver) : Keeps p p :=
  ⟨Nat.le_refl _, fun _ _ => rfl, fun _ _ => rfl, fun _ hlt hle => absurd hlt (Nat.not_lt.mpr hle),
    fun _ hc _ hs => .inl ⟨hc, hs⟩⟩

theorem register_cases (p : Approver) (id : ℕ) : p.register id = p ∨ (p.register id).nextChan = p.nextChan + 1 ∧
      (p.register id).chans = update p.chans p.nextChan ⟨id, .empty⟩ := by
  unfold Approver.register
  split
  · exact .inl rfl
  · exact .inr ⟨rfl, rfl⟩

theorem keeps_register (p : Approver) (id : ℕ) : Keeps p (p.register id) := by
  rcases register_cases p id with h | ⟨hnext, hchans⟩
  · rw [h]
    exact keeps_refl p
  have hold : ∀ c < p.nextChan, (p.register id).chans c = p.chans c := by
    intro c hc
    rw [hchans]
    apply update_of_ne
    omega
  have hnew : ∀ c < (p.register id).nextChan, ¬ c < p.nextChan → (p.register id).chans c = ⟨id, .empty⟩ := by
    intro c hlt hle
    have hc : c = p.nextChan := by omega
    rw [hchans, hc, update_self]
  refine ⟨by omega, ?_, ?_, ?_, ?_⟩
  · intro c hc
    rw [hold c hc]
  · intro c hc
    rw [hold c hc]
  · intro c hlt hle
    rw [hnew c hlt (Nat.not_lt.mpr hle)]
    rfl
  · intro c hlt sig hs
    by_cases hc : c < p.nextChan
    · rw [hold c hc] at hs
      exact .inl ⟨hc, hs⟩
    · rw [hnew c hlt hc] at hs
      cases hs

theorem keeps_cancel (p : Approver) (id : ℕ) : Keeps p (p.cancel id) :=
  have h := keeps_refl p
  ⟨h.le, h.id, h.taken, h.fresh, h.sent⟩

theorem setSlot_self (p : Approver) (c : ℕ) (slot : Slot Signal) :
    (p.setSlot c slot).chans c = ⟨(p.chans c).id, slot⟩ :=
  update_self ..

variable {c j id : ℕ} {job : Job α} {o : Origin α} {ph : Phase α} {s' : State α} {sig : Signal}

theorem setSlot_of_ne (p : Approver) {d : ℕ} (slot : Slot Signal) (h : d ≠ c) :
    (p.setSlot c slot).chans d = p.chans d :=
  update_of_ne h ..

theorem setSlot_id (p : Approver) (c d : ℕ) (slot : Slot Signal) :
    ((p.setSlot c slot).chans d).id = (p.chans d).id := by
  by_cases h : d = c
  · rw [h, setSlot_self]
  · rw [setSlot_of_ne p slot h]

theorem keeps_send (p : Approver) (c : ℕ) (sig : Signal) (h : sig.correlationID = (p.chans c).id) :
    Keeps p (p.send c sig) := by
  refine ⟨Nat.le_refl _, fun d _ => setSlot_id p c d _, ?_, fun _ hlt hle => absurd hlt (Nat.not_lt.mpr hle), ?_⟩
  · intro d _
    by_cases hd : d = c
    · rw [hd, Approver.send, setSlot_self]
      rfl
    · rw [Approver.send, setSlot_of_ne p _ hd]
  · intro d hlt sig' hs
    by_cases hd : d = c
    · subst hd
      rw [Approver.send, setSlot_self, Slot.sent_offer] at hs
      rcases List.mem_append.mp hs with hs | hs
      · exact .inl ⟨hlt, hs⟩
      · right
        rw [List.mem_singleton.mp hs, h]
        exact (setSlot_id p d d _).symm
    · rw [Approver.send, setSlot_of_ne p _ hd] at hs
      exact .inl ⟨hlt, hs⟩

def Job.Asks (job : Job α) (next : Answer → Outcome α) : Prop := ∃ reason, job.origin.gate = some (.ask reason next)

structure Verdict (p : Approver) (id : ℕ) (ch : Option ℕ) (a : Answer) : Prop where
  chan : ∀ c, ch = some c → c < p.nextChan ∧ (p.chans c).id = id
  taken : a = .granted ∨ a = .denied → ∃ c sig, ch = some c ∧ (p.chans c).slot.taken = some sig ∧ a = verdict sig

def JobOK (p : Approver) (job : Job α) : Prop :=
  match job.phase with
  | .asking _ _ next => job.Asks next
  | .waiting id c next =>
    job.Asks next ∧ c < p.nextChan ∧ (p.chans c).id = id ∧ (p.chans c).slot.taken = none
  | .resolved id ch a out => (∃ next, job.Asks next ∧ out = next a) ∧ Verdict p id ch a
  | .finished out => job.origin.gate = some (.done out)

theorem JobOK.move (h : JobOK p job) (hle : p.nextChan ≤ p'.nextChan)
    (hid : ∀ c < p.nextChan, (p'.chans c).id = (p.chans c).id)
    (htaken : ∀ c < p.nextChan, (∃ id next, job.phase = .waiting id c next) ∨ (p.chans c).slot.taken ≠ none →
      (p'.chans c).slot.taken = (p.chans c).slot.taken) : JobOK p' job := by
  obtain ⟨o, ph⟩ := job
  cases ph with
  | asking | finished => exact h
  | waiting id c next =>
    obtain ⟨hask, hc, hold, ht⟩ := h
    exact ⟨hask, Nat.lt_of_lt_of_le hc hle, (hid c hc).trans hold, (htaken c hc (.inl ⟨id, next, rfl⟩)).trans ht⟩
  | resolved id ch a out =>
    obtain ⟨hask, hv⟩ := h
    refine ⟨hask, ?_, ?_⟩
    · intro c hc
      have hold := hv.chan c hc
      exact ⟨Nat.lt_of_lt_of_le hold.1 hle, (hid c hold.1).trans hold.2⟩
    · intro ha
      obtain ⟨c, sig, hc, ht, hs⟩ := hv.taken ha
      exact ⟨c, sig, hc, (htaken c (hv.chan c hc).1 (.inr (by rw [ht]; exact Option.some_ne_none sig))).trans ht, hs⟩

theorem JobOK.keeps (h : JobOK p job) (hk : Keeps p p') : JobOK p' job :=
  h.move hk.le hk.id fun c hc _ => hk.taken c hc

structure Inv (s : State α) : Prop where
  job : ∀ j job, s.jobs j = some job → JobOK s.approver job
  minted : ∀ j job id, s.jobs j = some job → job.phase.id = some id → id < s.nextID
  unique : ∀ j j' job job' id, s.jobs j = some job → s.jobs j' = some job' →
    job.phase.id = some id → job'.phase.id = some id → j = j'
  taken : ∀ c < s.approver.nextChan, (s.approver.chans c).slot.taken ≠ none →
    ∃ j job, s.jobs j = some job ∧ job.phase.id = some (s.approver.chans c).id ∧ job.phase.outcome ≠ none
  sending : ∀ t c sig, s.sending t = some (c, sig) →
    c < s.approver.nextChan ∧ sig.correlationID = (s.approver.chans c).id
  addressed : ∀ c < s.approver.nextChan, ∀ sig ∈ (s.approver.chans c).slot.sent,
    sig.correlationID = (s.approver.chans c).id
  requests : ∀ sid id, (sid, id) ∈ s.requests →
    ∃ j job, s.jobs j = some job ∧ job.phase.id = some id ∧ job.origin.client.sid = sid

theorem inv_init : Inv (init : State α) := by
  refine ⟨?_, ?_, ?_, ?_, ?_, ?_, ?_⟩ <;> simp [init, Approver.empty]

theorem Inv.withApprover (h : Inv s) (hk : Keeps s.approver p) : Inv { s with approver := p } := by
  refine ⟨fun j job hj => (h.job j job hj).keeps hk, h.minted, h.unique, ?_, ?_, ?_, h.requests⟩
  · intro c hlt ht
    by_cases hc : c < s.approver.nextChan
    · rw [hk.taken c hc] at ht
      rw [hk.id c hc]
      exact h.taken c hc ht
    · exact absurd (hk.fresh c hlt (by omega)) ht
  · intro t c sig hs
    have hold := h.sending t c sig hs
    exact ⟨Nat.lt_of_lt_of_le hold.1 hk.le, hold.2.trans (hk.id c hold.1).symm⟩
  · intro c hlt sig hs
    rcases hk.sent c hlt sig hs with ⟨hc, hs⟩ | hid
    · exact (h.addressed c hc sig hs).trans (hk.id c hc).symm
    · exact hid

theorem setJob_self : (s.setJob j o ph).jobs j = some ⟨o, ph⟩ :=
  update_self ..

theorem setJob_of_ne {j' : ℕ} (h : j' ≠ j) : (s.setJob j o ph).jobs j' = s.jobs j' :=
  update_of_ne h ..

structure SameSends (p p' : Approver) : Prop where
  next : p'.nextChan = p.nextChan
  id : ∀ c, (p'.chans c).id = (p.chans c).id
  sent : ∀ c, (p'.chans c).slot.sent = (p.chans c).slot.sent

theorem sameSends_refl (p : Approver) : SameSends p p := ⟨rfl, fun _ => rfl, fun _ => rfl⟩

theorem Inv.setJob (h : Inv s) (n : ℕ) (hn : s.nextID ≤ n)
    (hp : SameSends s.approver p) (hok : JobOK p ⟨o, ph⟩)
    (hrest : ∀ j' job', j' ≠ j → s.jobs j' = some job' → JobOK p job')
    (htaken : ∀ c, (p.chans c).slot.taken ≠ none → (s.approver.chans c).slot.taken = none →
      ph.id = some (p.chans c).id ∧ ph.outcome ≠ none)
    (hmint : ∀ id, ph.id = some id → id < n)
    (hfree : ∀ id, ph.id = some id → ∀ j' job', j' ≠ j → s.jobs j' = some job' → job'.phase.id ≠ some id)
    (hkeep : ∀ job id, s.jobs j = some job → job.phase.id = some id →
      ph.id = some id ∧ o = job.origin ∧ job.phase.outcome = none) :
    Inv { s.setJob j o ph with nextID := n, approver := p } := by
  have hcases : ∀ j' job', (s.setJob j o ph).jobs j' = some job' →
      j' = j ∧ job' = ⟨o, ph⟩ ∨ j' ≠ j ∧ s.jobs j' = some job' :=
    fun j' job' hj' => of_update_some hj'
  have hlift : ∀ j' job' id, s.jobs j' = some job' → job'.phase.id = some id →
      ∃ job, (s.setJob j o ph).jobs j' = some job ∧ job.phase.id = some id ∧ job.origin = job'.origin ∧
        (job'.phase.outcome ≠ none → job.phase.outcome ≠ none) := by
    intro j' job' id hj' hid
    by_cases he : j' = j
    · subst he
      obtain ⟨hph, ho, hout⟩ := hkeep job' id hj' hid
      exact ⟨⟨o, ph⟩, setJob_self, hph, ho, fun hne => absurd hout hne⟩
    · exact ⟨job', (setJob_of_ne he).trans hj', hid, rfl, fun hne => hne⟩
  refine ⟨?_, ?_, ?_, ?_, ?_, ?_, ?_⟩
  · intro j' job' hj'
    rcases hcases j' job' hj' with ⟨_, rfl⟩ | ⟨hne, hold⟩
    · exact hok
    · exact hrest j' job' hne hold
  · intro j' job' id hj' hid
    rcases hcases j' job' hj' with ⟨_, rfl⟩ | ⟨_, hold⟩
    · exact hmint id hid
    · exact Nat.lt_of_lt_of_le (h.minted j' job' id hold hid) hn
  · intro j₁ j₂ job₁ job₂ id h₁ h₂ hid₁ hid₂
    rcases hcases j₁ job₁ h₁ with ⟨rfl, rfl⟩ | ⟨hne₁, hold₁⟩
    · rcases hcases j₂ job₂ h₂ with ⟨rfl, rfl⟩ | ⟨hne₂, hold₂⟩
      · rfl
      · exact absurd hid₂ (hfree id hid₁ j₂ job₂ hne₂ hold₂)
    · rcases hcases j₂ job₂ h₂ with ⟨rfl, rfl⟩ | ⟨hne₂, hold₂⟩
      · exact absurd hid₁ (hfree id hid₂ j₁ job₁ hne₁ hold₁)
      · exact h.unique j₁ j₂ job₁ job₂ id hold₁ hold₂ hid₁ hid₂
  · intro c hc ht
    by_cases hold : (s.approver.chans c).slot.taken = none
    · exact ⟨j, _, setJob_self, htaken c ht hold⟩
    · obtain ⟨j', job', hj', hid, hout⟩ := h.taken c (hp.next ▸ hc) hold
      obtain ⟨job, hjob, hid', _, hout'⟩ := hlift j' job' _ hj' hid
      exact ⟨j', job, hjob, (hp.id c).symm ▸ hid', hout' hout⟩
  · intro t c sig hs
    have hold := h.sending t c sig hs
    exact ⟨hp.next.symm ▸ hold.1, hold.2.trans (hp.id c).symm⟩
  · intro c hc sig hs
    exact (h.addressed c (hp.next ▸ hc) sig (hp.sent c ▸ hs)).trans (hp.id c).symm
  · intro sid id hm
    obtain ⟨j', job', hj', hid, hsid⟩ := h.requests sid id hm
    obtain ⟨job, hjob, hid', ho, _⟩ := hlift j' job' id hj' hid
    exact ⟨j', job, hjob, hid', by rw [ho, hsid]⟩

theorem Inv.newJob (h : Inv s) (n : ℕ) (hn : s.nextID ≤ n) (hj : s.jobs j = none) (hok : JobOK s.approver ⟨o, ph⟩)
    (hid : ∀ id, ph.id = some id → s.nextID ≤ id ∧ id < n) :
    Inv { s.setJob j o ph with nextID := n } := by
  apply h.setJob n hn (sameSends_refl _) hok (fun j' job' _ => h.job j' job')
    (fun c ht hnone => absurd hnone ht) (fun id hi => (hid id hi).2)
  · intro id hi j' job' _ hj' hid'
    have hlt := h.minted j' job' id hj' hid'
    have hle := (hid id hi).1
    omega
  · intro job id hjob
    rw [hj] at hjob
    cases hjob

theorem Inv.advance (h : Inv s) {ph' : Phase α} (hj : s.jobs j = some ⟨o, ph⟩)
    (hid : ph'.id = ph.id) (hout : ph.outcome = none) (hok : JobOK s.approver ⟨o, ph'⟩) :
    Inv (s.setJob j o ph') := by
  apply h.setJob s.nextID (Nat.le_refl _) (sameSends_refl _) hok (fun j' job' _ => h.job j' job')
    (fun c ht hnone => absurd hnone ht)
  · intro id hi
    exact h.minted j _ id hj (hid ▸ hi)
  · intro id hi j' job' hne hj' hid'
    exact hne (h.unique j' j job' _ id hj' hj hid' (hid ▸ hi))
  · intro job id hjob hi
    rw [hj] at hjob
    cases hjob
    exact ⟨hid.trans hi, rfl, hout⟩

theorem Inv.giveUp (h : Inv s) {a : Answer} (ha : a ≠ .granted ∧ a ≠ .denied)
    (hs : giveUp s j a = some s') : Inv s' := by
  unfold Approval.giveUp at hs
  split at hs <;> cases hs
  next o id c next hj =>
    obtain ⟨hask, hc, hid, _⟩ := h.job j _ hj
    refine h.advance hj rfl rfl ⟨⟨next, hask, rfl⟩, ?_, ?_⟩
    · rintro d hd
      cases hd
      exact ⟨hc, hid⟩
    · rintro (hg | hd)
      · exact absurd hg ha.1
      · exact absurd hd ha.2

theorem Inv.awaitID (h : Inv s) {next : Answer → Outcome α} {stage : Stage}
    (hj : s.jobs j = some ⟨o, .asking stage id next⟩) : Inv (awaitID s j o id next) := by
  have hask := h.job j _ hj
  unfold Approval.awaitID
  split
  · refine h.advance hj rfl rfl ⟨⟨next, hask, rfl⟩, fun c hc => (by cases hc), ?_⟩
    rintro (hg | hd)
    · cases hg
    · cases hd
  · next c hp =>
    obtain ⟨hc, hid⟩ := s.approver.pending_chan id c hp
    refine h.advance hj rfl rfl ⟨hask, hc, hid, ?_⟩
    by_contra ht
    obtain ⟨j', job', hj', hid', hout⟩ := h.taken c hc ht
    rw [hid] at hid'
    have he := h.unique j' j job' _ id hj' hj hid' rfl
    subst he
    rw [hj] at hj'
    cases hj'
    exact hout rfl

structure Takes (p p' : Approver) (c : ℕ) (sig : Signal) : Prop where
  fresh : (p.chans c).slot.taken = none
  taken : (p'.chans c).slot.taken = some sig
  other : ∀ d, d ≠ c → p'.chans d = p.chans d
  same : SameSends p p'

theorem takes_setSlot (hb : (p.chans c).slot.buffer = some sig) (hnone : (p.chans c).slot.taken = none) :
    Takes p (p.setSlot c ((p.chans c).slot.take sig hb)) c sig := by
  have hother : ∀ d, d ≠ c → (p.setSlot c ((p.chans c).slot.take sig hb)).chans d = p.chans d :=
    fun d hd => setSlot_of_ne p _ hd
  refine ⟨hnone, ?_, hother, rfl, fun d => setSlot_id p c d _, ?_⟩
  · rw [setSlot_self]
    exact Slot.taken_take _ sig hb hnone
  · intro d
    by_cases hd : d = c
    · rw [hd, setSlot_self, Slot.sent_take]
    · rw [hother d hd]

theorem JobOK.takes (h : JobOK p job) (hp : Takes p p' c sig) (hwait : ∀ id next, job.phase ≠ .waiting id c next) :
    JobOK p' job := by
  refine h.move (Nat.le_of_eq hp.same.next.symm) (fun d _ => hp.same.id d) fun d _ hd => ?_
  rw [hp.other d]
  rintro rfl
  rcases hd with ⟨id, next, hph⟩ | hne
  · exact hwait id next hph
  · exact hne hp.fresh

theorem Inv.receive (h : Inv s) {s' : State α} {j id c : ℕ} {o : Origin α} {next : Answer → Outcome α}
    (hj : s.jobs j = some ⟨o, .waiting id c next⟩) (hs : receive s j o id c next = some s') : Inv s' := by
  unfold Approval.receive at hs
  split at hs
  · cases hs
  next sig hb =>
  cases hs
  obtain ⟨hask, hc, hid, hnone⟩ := h.job j _ hj
  have hp := takes_setSlot hb hnone
  have hok : JobOK (s.approver.setSlot c ((s.approver.chans c).slot.take sig hb))
      ⟨o, .resolved id (some c) (verdict sig) (next (verdict sig))⟩ := by
    refine ⟨⟨next, hask, rfl⟩, ?_, fun _ => ⟨c, sig, rfl, hp.taken, rfl⟩⟩
    rintro d hd
    cases hd
    exact ⟨hc, (hp.same.id c).trans hid⟩
  refine h.setJob s.nextID (Nat.le_refl _) hp.same hok ?_ ?_ ?_ ?_ ?_
  · rintro j' job' hne hj'
    apply (h.job j' job' hj').takes hp
    intro id' next' hph
    obtain ⟨o', ph'⟩ := job'
    simp only at hph
    subst hph
    obtain ⟨_, _, hid', _⟩ := h.job j' _ hj'
    have hsame : id' = id := hid'.symm.trans hid
    exact hne (h.unique j' j _ _ id hj' hj (congrArg some hsame) rfl)
  · intro d ht hd
    have hdc : d = c := by
      by_contra hdc
      rw [hp.other d hdc] at ht
      exact ht hd
    refine ⟨?_, Option.some_ne_none _⟩
    rw [hp.same.id, hdc, hid]
    rfl
  · intro i hi
    exact h.minted j _ i hj hi
  · intro i hi j' job' hne hj' hid'
    exact hne (h.unique j' j job' _ i hj' hj hid' hi)
  · intro job i hjob hi
    rw [hj] at hjob
    cases hjob
    exact ⟨hi, rfl, rfl⟩

theorem Inv.request (h : Inv s) (hj : s.jobs j = some job) (hid : job.phase.id = some id) :
    Inv { s with requests := s.requests ++ [(job.origin.client.sid, id)] } := by
  refine ⟨h.job, h.minted, h.unique, h.taken, h.sending, h.addressed, ?_⟩
  intro sid i hm
  rcases List.mem_append.mp hm with hm | hm
  · exact h.requests sid i hm
  · cases List.mem_singleton.mp hm
    exact ⟨j, job, hj, hid, rfl⟩

theorem Inv.withSending (h : Inv s) {t : ℕ} {v : Option (ℕ × Signal)}
    (hv : ∀ c sig, v = some (c, sig) → c < s.approver.nextChan ∧ sig.correlationID = (s.approver.chans c).id) :
    Inv { s with sending := update s.sending t v } := by
  refine ⟨h.job, h.minted, h.unique, h.taken, ?_, h.addressed, h.requests⟩
  intro t' c sig hs
  rcases update_cases (· = some (c, sig)) hs with ⟨-, hs⟩ | ⟨-, hs⟩
  · exact hv c sig hs
  · exact h.sending t' c sig hs

theorem Inv.start (h : Inv s) (hs : start s j o = some s') : Inv s' := by
  unfold Approval.start at hs
  split at hs <;> cases hs
  next out hj hg => exact h.newJob s.nextID (Nat.le_refl _) hj hg nofun
  next reason next hj hg =>
    refine h.newJob (s.nextID + 1) (Nat.le_succ _) hj ⟨reason, hg⟩ ?_
    intro id hi
    cases hi
    omega

theorem Inv.step (h : Inv s) {a : Action α} (hs : step s a = some s') : Inv s' := by
  cases a with simp only [Approval.step] at hs
  | start j o => exact h.start hs
  | register j =>
    split at hs <;> cases hs
    next o id next hj =>
      have hok := h.job j _ hj
      have hnext : Inv (s.setJob j o (.asking .registered id next)) := h.advance hj rfl rfl hok
      exact hnext.withApprover (keeps_register _ id)
  | request j =>
    split at hs <;> cases hs
    next o id next hj =>
      have hok := h.job j _ hj
      have hnext : Inv (s.setJob j o (.asking .requested id next)) := h.advance hj rfl rfl hok
      exact hnext.request setJob_self rfl
  | await j =>
    split at hs <;> cases hs
    next o id next hj => exact h.awaitID hj
  | receive j =>
    split at hs
    · next o id c next hj => exact h.receive hj hs
    · cases hs
  | timeout j => exact h.giveUp (by decide) hs
  | ctxDone j deadline =>
    apply h.giveUp _ hs
    cases deadline <;> decide
  | release j =>
    split at hs <;> cases hs
    exact h.withApprover (keeps_cancel _ _)
  | signal t sid correlationID granted =>
    split at hs <;> cases hs
    unfold routeApproval
    split
    · exact h
    split
    · exact h
    next id _ c hp =>
    have hc := s.approver.pending_chan id c hp
    apply h.withSending
    intro d sig hv
    cases hv
    exact ⟨hc.1, hc.2.symm⟩
  | send t =>
    split at hs <;> cases hs
    next c sig ht =>
      have hkeeps := keeps_send s.approver c sig (h.sending t c sig ht).2
      exact (h.withApprover hkeeps).withSending nofun
  | registerID id =>
    cases hs
    exact h.withApprover (keeps_register _ id)
  | cancelID id =>
    cases hs
    exact h.withApprover (keeps_cancel _ id)

end NomadDev.Approval
