import NomadDev.ResumeInvariant

namespace NomadDev.Resume

open Session Foundation.PointUpdate Foundation.Transition Function

variable {s s' : State} {a : Action} {as : List Action}

-- What a step does to the ids: which envelopes exist, which are buffered, which are still to be appended.
inductive Books (s s' : State) : Prop
  | idle : s'.nextID = s.nextID → s'.buffer = s.buffer → s'.order = s.order →
      (∀ t task, s'.tasks t = some task → s.tasks t = some task) → Books s s'
  | mint (c t : ℕ) (type : EventType) : type ≠ .sessionReplaced → s'.nextID = s.nextID + 1 → s'.buffer = s.buffer →
      s'.order = s.order → s'.tasks = update s.tasks t (some ⟨c, ⟨s.nextID, type⟩, false⟩) → Books s s'
  | append (t size : ℕ) (task : Task) : s.tasks t = some task → s'.nextID = s.nextID →
      s'.buffer = s.buffer.push task.env size → s'.order = s.order ++ [task.env] →
      s'.tasks = update s.tasks t (some { task with appended := true }) → Books s s'
  | replace : s'.nextID = s.nextID + 1 → s'.buffer = s.buffer → s'.order = s.order ++ [s.replaced] →
      s'.tasks = s.tasks → Books s s'

theorem step_books (h : step s a = some s') : Books s s' := by
  cases moved_of_step h with
  | greet => exact .mint _ _ .hello (by decide) rfl rfl rfl rfl
  | helloStale => exact .mint _ _ .sessionStale (by decide) rfl rfl rfl rfl
  | emit htype =>
    refine .mint _ _ _ ?_ rfl rfl rfl rfl
    rintro rfl
    exact Bool.false_ne_true htype
  | append ht => exact .append _ _ _ ht rfl rfl rfl rfl
  | hubReplace => exact .replace rfl rfl rfl rfl
  | send | done | drop => exact .idle rfl rfl rfl fun _ _ ht => (of_update_none ht).2
  | _ => exact .idle rfl rfl rfl fun _ _ ht => ht

structure Every (N : ℕ → Prop) (P : ℕ → Envelope → Prop) (s : State) : Prop where
  next : N s.nextID
  tasks : ∀ t task, s.tasks t = some task → P s.nextID task.env
  buffer : ∀ e ∈ s.buffer.items, P s.nextID e.env

theorem Every.step {N : ℕ → Prop} {P : ℕ → Envelope → Prop} (hN : ∀ n, N n → N (n + 1))
    (hP : ∀ n x, P n x → P (n + 1) x) (hmint : ∀ n type, N n → type ≠ .sessionReplaced → P (n + 1) ⟨n, type⟩)
    (s : State) (a : Action) (s' : State) (hs : step s a = some s') (h : Every N P s) : Every N P s' := by
  cases step_books hs with
  | idle hid hbuf _ htasks =>
    constructor
    · exact hid ▸ h.next
    · intro t task ht
      rw [hid]
      exact h.tasks t task (htasks t task ht)
    · rw [hbuf, hid]
      exact h.buffer
  | mint c t type htype hid hbuf _ htasks =>
    constructor
    · exact hid ▸ hN _ h.next
    · intro u task hu
      rw [htasks] at hu
      rw [hid]
      rcases of_update_some hu with ⟨-, rfl⟩ | ⟨-, hu⟩
      · exact hmint _ type h.next htype
      · exact hP _ _ (h.tasks u task hu)
    · rw [hbuf, hid]
      exact fun e he => hP _ _ (h.buffer e he)
  | append t size task ht hid hbuf _ htasks =>
    have htask := h.tasks t task ht
    constructor
    · exact hid ▸ h.next
    · intro u other hu
      rw [htasks] at hu
      rw [hid]
      rcases of_update_some hu with ⟨-, rfl⟩ | ⟨-, hu⟩
      · exact htask
      · exact h.tasks u other hu
    · intro e he
      rw [hbuf] at he
      rw [hid]
      rcases RingBuffer.mem_push he with he | rfl
      · exact h.buffer e he
      · exact htask
  | replace hid hbuf _ htasks =>
    constructor
    · exact hid ▸ hN _ h.next
    · intro t task ht
      rw [htasks] at ht
      rw [hid]
      exact hP _ _ (h.tasks t task ht)
    · rw [hbuf, hid]
      exact fun e he => hP _ _ (h.buffer e he)

def Minted : State → Prop := Every (fun _ => True) fun n x => x.id < n ∧ x.type ≠ .sessionReplaced

theorem minted_run {cap maxBytes : ℕ} (h : run step (init cap maxBytes) as = some s) : Minted s := by
  refine run_preserves (Every.step (fun _ hn => hn) (fun n x hx => ?_) fun n type _ htype => ?_) h
    ⟨trivial, nofun, nofun⟩
  · exact ⟨Nat.lt_succ_of_lt hx.1, hx.2⟩
  · exact ⟨Nat.lt_succ_self n, htype⟩

def Unbuffered (i : ℕ) : State → Prop := Every (i < ·) fun _ x => x.id ≠ i

theorem Unbuffered.run {i : ℕ} (h : run step s as = some s') (hs : Unbuffered i s) : Unbuffered i s' := by
  refine run_preserves (Every.step (fun n hn => ?_) (fun _ _ hx => hx) fun n type hn _ => ?_) h hs
  · exact Nat.lt_succ_of_lt hn
  · exact Nat.ne_of_gt hn

theorem sent_cases {x : Envelope} (h : Minted s) (hs : step s a = some s') (hx : s'.order = s.order ++ [x]) :
    (x.type ≠ .sessionReplaced ∧ ∃ e ∈ s'.buffer.items, e.env = x) ∨
      x.type = .sessionReplaced ∧ Unbuffered x.id s' := by
  have hgrown : s'.order ≠ s.order := by
    rw [hx]
    simp
  cases step_books hs with
  | idle _ _ horder => exact absurd horder hgrown
  | mint _ _ _ _ _ _ horder => exact absurd horder hgrown
  | append t size task ht _ hbuf horder =>
    obtain rfl : task.env = x := by simpa [hx] using horder.symm
    refine .inl ⟨(h.tasks t task ht).2, ⟨task.env, size⟩, ?_, rfl⟩
    rw [hbuf]
    exact RingBuffer.mem_push_self _ _ _
  | replace hid hbuf horder htasks =>
    obtain rfl : s.replaced = x := by simpa [hx] using horder.symm
    refine .inr ⟨rfl, hid ▸ Nat.lt_succ_self _, fun t task ht => ?_, fun e he => ?_⟩
    · rw [htasks] at ht
      exact Nat.ne_of_lt (h.tasks t task ht).1
    · rw [hbuf] at he
      exact Nat.ne_of_lt (h.buffer e he).1

def AnsweredStale (s : State) (t : ℕ) : Prop := ∃ task, s.tasks t = some task ∧ task.env.type = .sessionStale

theorem clientHello_stale_iff {c t lastID : ℕ} {k : Conn} {rest : List (Option ℕ)} (hk : s.conns c = some k)
    (hinbox : k.inbox = some lastID :: rest) (hs : clientHello s c t = some s') :
    AnsweredStale s' t ↔ s.buffer.since (some lastID) = none := by
  unfold Resume.clientHello at hs
  rw [hk] at hs
  dsimp only at hs
  rw [hinbox] at hs
  split at hs
  · rename_i heq _ _
    cases heq
  · rename_i heq _ htask
    cases heq
    split at hs
    · rename_i hsince
      cases hs
      exact iff_of_true ⟨_, update_self .., rfl⟩ hsince
    · rename_i events hsince
      cases hs
      rw [hsince]
      refine iff_of_false ?_ nofun
      rintro ⟨task, ht, -⟩
      cases htask.symm.trans ht
  · cases hs

theorem resume_not_stale_iff {cap maxBytes : ℕ} {as₀ as : List Action} {a : Action} {s₀ s₁ : State} {x : Envelope}
    {c t : ℕ} {k : Conn} {rest : List (Option ℕ)} (hrun₀ : run step (init cap maxBytes) as₀ = some s₀)
    (hsent : step s₀ a = some s₁) (hx : s₁.order = s₀.order ++ [x]) (hrun : run step s₁ as = some s)
    (hkept : s₁.buffer.items <+: s.buffer.items) (hk : s.conns c = some k) (hinbox : k.inbox = some x.id :: rest)
    (hs : step s (.clientHello c t) = some s') :
    ¬ AnsweredStale s' t ↔ x.type ≠ .sessionReplaced ∧ s.buffer.InRange x.id := by
  rw [clientHello_stale_iff hk hinbox hs, ← ne_eq, Option.ne_none_iff_isSome, RingBuffer.since_isSome_iff]
  apply and_congr_left
  intro _
  rcases sent_cases (minted_run hrun₀) hsent hx with ⟨htype, e, he, rfl⟩ | ⟨htype, habsent⟩
  · exact iff_of_true ⟨e, hkept.subset he, rfl⟩ htype
  · refine iff_of_false ?_ fun hne => hne htype
    rintro ⟨e, he, hid⟩
    exact (habsent.run hrun).buffer e he hid

theorem resume_not_stale_after_pong :
    ∃ s₀ s₁ s s', run step (init 256 1048576) (greeting 0 0 0 ++ [.drain 0, .deliver 0, .emit 0 1 .pong]) = some s₀ ∧
      step s₀ (.append 1 90) = some s₁ ∧
      run step s₁ ([.send 1, .drain 0, .deliver 0, .cut 0] ++ greeting 1 0 2 ++ [.resume 1 (some 1)]) = some s ∧
      (s.received 0).getLast? = some ⟨1, .pong⟩ ∧ step s (.clientHello 1 3) = some s' ∧ ¬ AnsweredStale s' 3 := by
  refine ⟨_, _, _, _, rfl, rfl, rfl, rfl, rfl, ?_⟩
  refine (resume_not_stale_iff (x := ⟨1, .pong⟩) (c := 1)
    (show run step (init 256 1048576) (greeting 0 0 0 ++ [.drain 0, .deliver 0, .emit 0 1 .pong]) = some _ from rfl)
    (show step _ (.append 1 90) = some _ from rfl) rfl
    (show run step _ ([.send 1, .drain 0, .deliver 0, .cut 0] ++ greeting 1 0 2 ++ [.resume 1 (some 1)]) = some _
      from rfl) ⟨_, rfl⟩ rfl rfl rfl).mpr ⟨nofun, ?_, ?_⟩
  · rintro e ⟨⟩
    decide
  · rintro e ⟨⟩
    decide

theorem replaced_device_stale :
    ∃ s₀ s₁ s s', run step (init 256 1048576) (greeting 0 0 0 ++ [.drain 0, .deliver 0, .connect 1 1]) = some s₀ ∧
      step s₀ .hubRegister = some s₁ ∧ s₁.order = s₀.order ++ [⟨1, .sessionReplaced⟩] ∧
      run step s₁ ([.drain 0, .deliver 0] ++ greeting 2 0 2 ++ [.resume 2 (some 1)]) = some s ∧
      s₁.buffer.items <+: s.buffer.items ∧ (s.received 0).getLast? = some ⟨1, .sessionReplaced⟩ ∧
      step s (.clientHello 2 3) = some s' ∧ AnsweredStale s' 3 :=
  ⟨_, _, _, _, rfl, rfl, rfl, rfl, ⟨_, rfl⟩, rfl, rfl, _, rfl, rfl⟩

end NomadDev.Resume
