import NomadDev.Foundation.PointUpdate
import NomadDev.WebAuthn

namespace NomadDev.WebAuthn.Counts

open Foundation.PointUpdate Foundation.Transition Function Option

structure Validated where
  sub : String
  credID : List UInt8
  (counter read count : ℕ)
  cloneWarning : Bool
  deriving DecidableEq

structure Accepted where
  login : Validated
  replaced : ℕ

structure State where
  service : WebAuthn.State
  validated : ℕ → Option Validated
  accepted : List Accepted

inductive Action
  | service (a : WebAuthn.Action)
  | listBySub (r : ℕ) (ok : Bool)
  | updateSignCount (r : ℕ) (ok : Bool)

variable (s : WebAuthn.State)

def loginOf (r : ℕ) : Option Finish := (s.finishing r).filter fun f => f.ceremony = .login

def completesLogin : WebAuthn.Action → Bool
  | .complete r => (loginOf s r).isSome
  | _ => false

def storedCount (store : List Credential) (sub : String) (credID : List UInt8) : Option ℕ :=
  (store.find? fun c => c.sub = sub ∧ c.id = credID).map Credential.signCount

def finished (r : ℕ) : WebAuthn.State :=
  { s with finishing := update s.finishing r none }

def validatedLogin (f : Finish) : Credential × ℕ × Bool → Validated
  | (c, count, warning) => ⟨f.sub, c.id, f.response.signCount, c.signCount, count, warning⟩

def step (cfg : Config) (s : State) : Action → Option State
  | .service a =>
    if completesLogin s.service a then none
    else (WebAuthn.step cfg s.service a).map fun service => { s with service := service }
  | .listBySub r ok =>
    match loginOf s.service r, s.validated r with
    | some f, none =>
      some { s with
        service := finished s.service r
        validated := if ok then
            update s.validated r ((validateLogin (listBySub s.service f.sub) f).map (validatedLogin f))
          else s.validated }
    | _, _ => none
  | .updateSignCount r ok =>
    match s.validated r with
    | none => none
    | some l =>
      let returned := { s with validated := update s.validated r none }
      if ok then
        some { returned with
          service := { s.service with store := updateSignCount s.service l.sub l.credID l.count }
          accepted := ⟨l, (storedCount s.service.store l.sub l.credID).getD 0⟩ :: s.accepted }
      else some returned

def init (clock : ℕ) (store : List Credential) : State := ⟨WebAuthn.init clock store, fun _ => none, []⟩

def Fresh (counter count : ℕ) : Prop := count < counter ∨ counter = 0 ∧ count = 0

instance (counter count : ℕ) : Decidable (Fresh counter count) := inferInstanceAs (Decidable (_ ∨ _))

def Sound (s : State) : Prop :=
  ∀ e ∈ s.accepted, e.replaced ≤ e.login.count ∧ Fresh e.login.counter e.login.read ∧ Fresh e.login.counter e.replaced

def FreshUpdate (s : State) (a : Action) : Prop :=
  ∀ r l, a = .updateSignCount r true → s.validated r = some l →
    Fresh l.counter ((storedCount s.service.store l.sub l.credID).getD 0)

variable {count counter r : ℕ} {cfg : Config} {s t : State} {a : Action}

theorem updateCounter_of_fresh (h : Fresh counter count) : updateCounter count counter = (counter, false) := by
  apply if_neg
  rintro ⟨hle, hne⟩
  rcases h with h | h
  · omega
  · omega

theorem Fresh.of_le {count' : ℕ} (h : Fresh counter count) (hle : count' ≤ count) : Fresh counter count' := by
  rcases h with h | ⟨h0, hcount⟩
  · exact .inl (by omega)
  · exact .inr ⟨h0, by omega⟩

theorem Fresh.le (h : Fresh counter count) : count ≤ counter := by
  rcases h with h | ⟨h0, hcount⟩ <;> omega

section Stores

variable {sub sub' : String} {id id' : List UInt8} {n : ℕ}

theorem storedCount_updateSignCount (s : WebAuthn.State) (count : ℕ) :
    storedCount (updateSignCount s sub id count) sub' id' =
      (storedCount s.store sub' id').map fun n => if sub' = sub ∧ id' = id then count else n := by
  have hkey : ((fun c : Credential => decide (c.sub = sub' ∧ c.id = id')) ∘ fun c =>
      if c.sub = sub ∧ c.id = id then { c with signCount := count } else c) =
      fun c => decide (c.sub = sub' ∧ c.id = id') := by
    funext c
    simp only [Function.comp_apply]
    split <;> rfl
  simp only [storedCount, updateSignCount, List.find?_map, hkey]
  cases hfind : s.store.find? fun c => decide (c.sub = sub' ∧ c.id = id') with
  | none => rfl
  | some c =>
    obtain ⟨rfl, rfl⟩ : c.sub = sub' ∧ c.id = id' := by simpa using List.find?_some hfind
    simp only [map_some]
    split <;> rfl

theorem storedCount_append {store : List Credential} (h : storedCount store sub id = some n) (more : List Credential) :
    storedCount (store ++ more) sub id = some n := by
  obtain ⟨c, hc, rfl⟩ := map_eq_some_iff.mp h
  rw [storedCount, List.find?_append, hc]
  rfl

theorem storedCount_of_listBySub {s : WebAuthn.State} {c : Credential}
    (h : (listBySub s sub).find? (fun c => c.id == id) = some c) : storedCount s.store sub c.id = some c.signCount := by
  have hid : c.id = id := by simpa using List.find?_some h
  rw [listBySub, List.find?_filter] at h
  rw [storedCount, hid]
  have hboth : (fun c : Credential => decide (c.sub = sub ∧ c.id = id)) =
      fun c => decide (decide (c.sub = sub) = true ∧ (c.id == id) = true) := by
    funext c
    simp
  rw [hboth, h]
  rfl

def ReadFrom (store : List Credential) (l : Validated) : Prop :=
  storedCount store l.sub l.credID = some l.read ∧ (l.count, l.cloneWarning) = updateCounter l.read l.counter

theorem readFrom_of_validateLogin {s : WebAuthn.State} {f : Finish} {l : Validated}
    (h : (validateLogin (listBySub s f.sub) f).map (validatedLogin f) = some l) : ReadFrom s.store l := by
  obtain ⟨v, hv, rfl⟩ := map_eq_some_iff.mp h
  unfold validateLogin at hv
  split at hv
  · obtain ⟨c, hc, rfl⟩ := map_eq_some_iff.mp hv
    exact ⟨storedCount_of_listBySub hc, rfl⟩
  · cases hv

theorem startFinish_store {s t : WebAuthn.State} {ceremony : Ceremony} {callerSub token : String}
    {resp : Response} (h : startFinish s r ceremony callerSub token resp = some t) : t.store = s.store := by
  unfold startFinish at h
  split at h <;> cases h
  · rfl
  · rfl

theorem completeRegistration_store (s : WebAuthn.State) (f : Finish) :
    ∃ more, (completeRegistration s f).store = s.store ++ more := by
  unfold completeRegistration
  split
  · split
    · next store hinsert =>
      unfold insert at hinsert
      split at hinsert
      · cases hinsert
      split at hinsert
      · cases hinsert
      · cases hinsert
        exact ⟨_, rfl⟩
    · exact ⟨[], (List.append_nil _).symm⟩
  · exact ⟨[], (List.append_nil _).symm⟩

theorem service_store {s t : WebAuthn.State} {a : WebAuthn.Action} (ha : completesLogin s a = false)
    (h : WebAuthn.step cfg s a = some t) : ∃ more, t.store = s.store ++ more := by
  have hsame : ∀ {u : WebAuthn.State}, u.store = s.store → ∃ more, u.store = s.store ++ more :=
    fun hu => ⟨[], hu.trans (List.append_nil _).symm⟩
  cases a with simp only [WebAuthn.step] at h
  | tick d =>
    cases h
    exact hsame rfl
  | registerBegin | loginBegin => split at h <;> cases h <;> exact hsame rfl
  | registerFinish r bearer token resp =>
    split at h
    · cases h
      exact hsame rfl
    · split at h
      · cases h
        exact hsame rfl
      · exact hsame (startFinish_store h)
  | loginFinish r token resp =>
    split at h
    · cases h
      exact hsame rfl
    · exact hsame (startFinish_store h)
  | complete r =>
    simp only [complete] at h
    split at h
    · cases h
    next f hf =>
    split at h
    · cases h
      exact completeRegistration_store _ f
    · next hlogin => simp [completesLogin, loginOf, hf, hlogin] at ha

end Stores

inductive Effect (s : State) (a : Action) (t : State) : Prop
  | quiet (notUpdate : ∀ r, a ≠ .updateSignCount r true) (accepted : t.accepted = s.accepted)
      (store : ∃ more, t.service.store = s.service.store ++ more)
      (validated : ∀ r l, t.validated r = some l → s.validated r = some l ∨ ReadFrom s.service.store l)
  | update (r : ℕ) (l : Validated) (act : a = .updateSignCount r true) (login : s.validated r = some l)
      (accepted : t.accepted = ⟨l, (storedCount s.service.store l.sub l.credID).getD 0⟩ :: s.accepted)
      (store : t.service.store = updateSignCount s.service l.sub l.credID l.count)
      (validated : ∀ r l, t.validated r = some l → s.validated r = some l)

theorem effect_of_step (h : step cfg s a = some t) : Effect s a t := by
  have hsame : ∃ more, s.service.store = s.service.store ++ more := ⟨[], (List.append_nil _).symm⟩
  cases a with simp only [step] at h
  | service a =>
    split at h
    · cases h
    · next ha =>
      obtain ⟨service, hservice, rfl⟩ := map_eq_some_iff.mp h
      exact .quiet nofun rfl (service_store (by simpa using ha) hservice) fun _ _ hl => .inl hl
  | listBySub r ok =>
    split at h <;> cases h
    next f hlogin hnone =>
      refine .quiet nofun rfl hsame fun r' l hl => ?_
      cases ok with
      | false => exact .inl hl
      | true =>
        simp only [if_true] at hl
        rcases update_cases (· = some l) hl with ⟨-, hl⟩ | ⟨-, hl⟩
        · exact .inr (readFrom_of_validateLogin hl)
        · exact .inl hl
  | updateSignCount r ok =>
    split at h
    · cases h
    next l hlogin =>
    cases ok with
    | false =>
      cases h
      exact .quiet nofun rfl hsame fun _ _ hl => .inl (of_update_none hl).2
    | true =>
      cases h
      exact .update r l rfl hlogin rfl rfl fun _ _ hl => (of_update_none hl).2

structure Inv (s : State) : Prop where
  answer : ∀ r l, s.validated r = some l → (l.count, l.cloneWarning) = updateCounter l.read l.counter
  stored : ∀ r l, s.validated r = some l →
    ∃ n, storedCount s.service.store l.sub l.credID = some n ∧ (Sound s → l.read ≤ n)

theorem inv_init (clock : ℕ) (store : List Credential) : Inv (init clock store) := ⟨nofun, nofun⟩

theorem sound_update {e : Accepted} (h : t.accepted = e :: s.accepted) :
    Sound t ↔ Sound s ∧ e.replaced ≤ e.login.count ∧ Fresh e.login.counter e.login.read ∧
      Fresh e.login.counter e.replaced := by
  unfold Sound
  rw [h, List.forall_mem_cons]
  exact and_comm

theorem sound_congr (h : t.accepted = s.accepted) : Sound t ↔ Sound s := by
  unfold Sound
  rw [h]

theorem inv_step (h : step cfg s a = some t) (hs : Inv s) : Inv t := by
  cases effect_of_step h with
  | quiet notUpdate accepted store validated =>
    obtain ⟨more, hmore⟩ := store
    refine ⟨fun r l hl => ?_, fun r l hl => ?_⟩
    · rcases validated r l hl with hold | hread
      · exact hs.answer r l hold
      · exact hread.2
    · rw [hmore]
      rcases validated r l hl with hold | hread
      · obtain ⟨n, hn, hle⟩ := hs.stored r l hold
        exact ⟨n, storedCount_append hn more, fun hsound => hle ((sound_congr accepted).mp hsound)⟩
      · exact ⟨l.read, storedCount_append hread.1 more, fun _ => Nat.le_refl _⟩
  | update r l act login accepted store validated =>
    refine ⟨fun r' l' hl' => hs.answer r' l' (validated r' l' hl'), fun r' l' hl' => ?_⟩
    obtain ⟨n, hn, hle⟩ := hs.stored r' l' (validated r' l' hl')
    rw [store, storedCount_updateSignCount, hn, map_some]
    refine ⟨_, rfl, fun hsound => ?_⟩
    obtain ⟨hbefore, hgrows, -, -⟩ := (sound_update accepted).mp hsound
    have hread := hle hbefore
    split
    · next hkey =>
      rw [← hkey.1, ← hkey.2, hn] at hgrows
      exact Nat.le_trans hread hgrows
    · exact hread

theorem sound_step (hinv : Inv s) (h : step cfg s a = some t) : Sound t ↔ Sound s ∧ FreshUpdate s a := by
  cases effect_of_step h with
  | quiet notUpdate accepted store validated =>
    refine (sound_congr accepted).trans (and_iff_left ?_).symm
    exact fun r l ha => absurd ha (notUpdate r)
  | update r l act login accepted store validated =>
    subst act
    refine (sound_update accepted).trans (and_congr_right fun hsound => ?_)
    obtain ⟨n, hn, hle⟩ := hinv.stored r l login
    have hread := hle hsound
    rw [hn, getD_some]
    constructor
    · rintro ⟨-, -, hfresh⟩ r' l' ha hlogin
      cases ha
      cases login.symm.trans hlogin
      rw [hn]
      exact hfresh
    · intro hfresh
      have hnew : Fresh l.counter n := by
        have hat := hfresh r l rfl login
        rwa [hn] at hat
      have hold : Fresh l.counter l.read := hnew.of_le hread
      have hcount : l.count = l.counter :=
        congrArg Prod.fst ((hinv.answer r l login).trans (updateCounter_of_fresh hold))
      exact ⟨hcount ▸ hnew.le, hold, hnew⟩

theorem sign_counts_sound_iff {cfg : Config} {clock : ℕ} {store : List Credential} {acts : List Action} {t : State}
    (h : run (step cfg) (init clock store) acts = some t) :
    Sound t ↔ Steps (step cfg) FreshUpdate (init clock store) acts t :=
  iff_steps_of_run_of_inv (fun _ _ _ => inv_step) (fun _ _ _ => sound_step) h (inv_init clock store) nofun

def loginsOnly : Config := ⟨⟨[], fun _ _ _ => none⟩, fun _ _ => some false, 300000000000⟩

def countedKey : Credential := ⟨"alice", [1], [2], 5, "none"⟩

def assertion (challenge : String) (counter : ℕ) : Response :=
  ⟨challenge, webAuthnID "alice", [1], [2], counter, "none"⟩

def loginBy (r : ℕ) (challenge : String) (counter : ℕ) : List Action :=
  [.service (.loginBegin "alice" challenge challenge), .service (.loginFinish r challenge (assertion challenge counter)),
    .listBySub r true]

theorem growing_counters_sound : ∃ t, run (step loginsOnly) (init 0 [countedKey])
        (loginBy 0 "c1" 6 ++ [.updateSignCount 0 true] ++ loginBy 1 "c2" 7 ++ [.updateSignCount 1 true]) = some t ∧
      t.accepted.length = 2 ∧ Sound t := by
  have hrun : run (step loginsOnly) (init 0 [countedKey])
      (loginBy 0 "c1" 6 ++ [.updateSignCount 0 true] ++ loginBy 1 "c2" 7 ++ [.updateSignCount 1 true]) = some _ := rfl
  refine ⟨_, hrun, rfl, (sign_counts_sound_iff hrun).mpr ?_⟩
  refine .cons nofun rfl (.cons nofun rfl (.cons nofun rfl (.cons ?_ rfl
    (.cons nofun rfl (.cons nofun rfl (.cons nofun rfl (.cons ?_ rfl (.nil _))))))))
  · intro r l ha hl
    cases ha
    cases hl
    exact .inl (by decide)
  · intro r l ha hl
    cases ha
    cases hl
    exact .inl (by decide)

theorem stale_counters_accepted : (∃ t, run (step loginsOnly) (init 0 [countedKey])
        (loginBy 0 "c1" 7 ++ loginBy 1 "c2" 6 ++ [.updateSignCount 0 true, .updateSignCount 1 true]) = some t ∧
      t.accepted.map Accepted.replaced = [7, 5] ∧ storedCount t.service.store "alice" [1] = some 6 ∧ ¬ Sound t) ∧
    ∃ t, run (step loginsOnly) (init 0 [countedKey]) (loginBy 0 "c1" 5 ++ [.updateSignCount 0 true]) = some t ∧
      t.accepted = [⟨⟨"alice", [1], 5, 5, 5, true⟩, 5⟩] ∧ ¬ Sound t := by
  refine ⟨⟨_, rfl, rfl, rfl, fun h => ?_⟩, ⟨_, rfl, rfl, fun h => ?_⟩⟩
  · exact absurd (h _ List.mem_cons_self).1 (by decide)
  · exact absurd (h _ List.mem_cons_self).2.1 (by decide)

end NomadDev.WebAuthn.Counts
