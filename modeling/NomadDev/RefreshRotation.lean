import NomadDev.Tokens
import NomadDev.Foundation.Transition

namespace NomadDev.Rotation

open Auth Foundation.Transition Function

inductive Backend
  | memory | sqlite

def unix (t : ℕ) : ℕ := t / 1000000000

def Backend.prunes : Backend → ℕ → ℕ → Bool
  | .memory, now, exp => exp < now
  | .sqlite, now, exp => unix exp < unix now

inductive Phase
  | idle
  | verified (c : Claims)
  | checked (c : Claims)
  | signed (c : Claims)
  | rotated (c : Claims)
  | answered (c : Claims)
  | rejected (status : ℕ)

def Phase.claims : Phase → Option Claims
  | .verified c | .checked c | .signed c | .rotated c | .answered c => some c
  | _ => none

structure State where
  clock : ℕ
  revoked : String → Option ℕ
  requests : ℕ → Phase

inductive Action
  | tick (d : ℕ)
  | present (r : ℕ) (token : String)
  | lookup (r : ℕ) (ok : Bool)
  | sign (r : ℕ) (ok : Bool)
  | revoke (r : ℕ) (ok : Bool)
  | answer (r : ℕ)
  | revokeToken (c : Claims)
  | prune

variable (s : State)

def State.set (r : ℕ) (p : Phase) : State := { s with requests := update s.requests r p }

def State.write (c : Claims) : State :=
  { s with revoked := if c.jti = "" then s.revoked else update s.revoked c.jti (some c.expiresAt) }

def isRevoked (jti : String) : Bool := (s.revoked jti).isSome

def finishParse (ok : Bool) (c : Claims) : Phase :=
  match (checkRevoked (if ok then some (isRevoked s c.jti) else none) c).bind refreshKind with
  | .error _ => .rejected 401
  | .ok c => .checked c

def prune (b : Backend) (s : State) : State :=
  { s with revoked := fun jti => (s.revoked jti).filter fun exp => !b.prunes s.clock exp }

def step (v : Verifier) (b : Backend) (s : State) : Action → Option State
  | .tick d => some { s with clock := s.clock + d }
  | .present r token =>
    match s.requests r with
    | .idle =>
      match verifyClaims v s.clock token with
      | .error _ => some (s.set r (.rejected 401))
      | .ok c => some (s.set r (.verified c))
    | _ => none
  | .lookup r ok =>
    match s.requests r with
    | .verified c => some (s.set r (finishParse s ok c))
    | _ => none
  | .sign r ok =>
    match s.requests r with
    | .checked c => some (s.set r (if ok then .signed c else .rejected 500))
    | _ => none
  | .revoke r ok =>
    match s.requests r with
    | .signed c => some ((if ok then s.write c else s).set r (.rotated c))
    | _ => none
  | .answer r =>
    match s.requests r with
    | .rotated c => some (s.set r (.answered c))
    | _ => none
  | .revokeToken c => some (s.write c)
  | .prune => some (prune b s)

def init (clock : ℕ) (revoked : String → Option ℕ) : State := ⟨clock, revoked, fun _ => .idle⟩

def RedeemedOnce : Prop :=
  ∀ r r' c c', s.requests r = .answered c → s.requests r' = .answered c' → c.jti = c'.jti → c.jti ≠ "" → r = r'

section

def Phase.pastLookup : Phase → Option Claims
  | .checked c | .signed c | .rotated c | .answered c => some c
  | _ => none

def Phase.spent : Phase → Option Claims
  | .rotated c | .answered c => some c
  | _ => none

def SameExpiry (s : State) (c : Claims) : Prop :=
  ∀ r c', (s.requests r).claims = some c' → c'.jti = c.jti → c'.expiresAt = c.expiresAt

def Exclusive (v : Verifier) (s : State) : Action → Prop
  | .present _ token => ∀ c, verifyClaims v s.clock token = .ok c → SameExpiry s c
  | .revokeToken c => SameExpiry s c
  | .lookup r _ => ∀ c, s.requests r = .verified c → c.jti ≠ "" → s.clock ≤ c.expiresAt ∧
      ∀ r' c', s.requests r' = .checked c' ∨ s.requests r' = .signed c' → c'.jti ≠ c.jti
  | .revoke _ ok => ok = true
  | _ => True

structure Inv (s : State) : Prop where
  expiry : ∀ r c, (s.requests r).claims = some c → SameExpiry s c
  spent : ∀ r c, (s.requests r).spent = some c → c.jti ≠ "" → s.revoked c.jti = some c.expiresAt ∨ c.expiresAt < s.clock
  unique : ∀ r r' c c', (s.requests r).pastLookup = some c → (s.requests r').pastLookup = some c' →
    c.jti = c'.jti → c.jti ≠ "" → r = r'

variable {s s' : State} {v : Verifier} {b : Backend} {c : Claims} {r : ℕ}

theorem pastLookup_claims {p : Phase} (h : p.pastLookup = some c) : p.claims = some c := by
  cases p <;> simp_all [Phase.pastLookup, Phase.claims]

theorem pastLookup_cases {p : Phase} (h : p.pastLookup = some c) :
    (p = .checked c ∨ p = .signed c) ∨ p.spent = some c := by
  cases p <;> simp_all [Phase.pastLookup, Phase.spent]

theorem inv_init (clock : ℕ) (revoked : String → Option ℕ) : Inv (init clock revoked) := by
  refine ⟨?_, ?_, ?_⟩ <;> intros <;> simp_all [init, Phase.claims, Phase.spent, Phase.pastLookup]

theorem Inv.set (h : Inv s) (r : ℕ) (p : Phase) (hexp : ∀ c, p.claims = some c → SameExpiry s c)
    (hspent : ∀ c, p.spent = some c → c.jti ≠ "" → s.revoked c.jti = some c.expiresAt ∨ c.expiresAt < s.clock)
    (huniq : ∀ c, p.pastLookup = some c → c.jti ≠ "" →
      ∀ r' c', r' ≠ r → (s.requests r').pastLookup = some c' → c'.jti ≠ c.jti) : Inv (s.set r p) := by
  refine ⟨?_, ?_, ?_⟩
  · intro r₁ c₁ h₁ r₂ c₂ h₂ hj
    simp only [State.set, update_apply] at h₁ h₂
    split at h₁ <;> split at h₂
    · rw [h₁] at h₂
      cases h₂
      rfl
    · exact hexp c₁ h₁ r₂ c₂ h₂ hj
    · exact (hexp c₂ h₂ r₁ c₁ h₁ hj.symm).symm
    · exact h.expiry r₁ c₁ h₁ r₂ c₂ h₂ hj
  · intro r₁ c h₁
    simp only [State.set, update_apply] at h₁
    split at h₁
    · exact hspent c h₁
    · exact h.spent r₁ c h₁
  · intro r₁ r₂ c₁ c₂ h₁ h₂ hj hne
    simp only [State.set, update_apply] at h₁ h₂
    split at h₁ <;> split at h₂
    · omega
    · next hr₁ hr₂ => exact absurd hj.symm (huniq c₁ h₁ hne r₂ c₂ hr₂ h₂)
    · next hr₁ hr₂ => exact absurd hj (huniq c₂ h₂ (hj ▸ hne) r₁ c₁ hr₁ h₁)
    · exact h.unique r₁ r₂ c₁ c₂ h₁ h₂ hj hne

theorem Inv.reject (h : Inv s) (r status : ℕ) : Inv (s.set r (.rejected status)) := by
  apply h.set <;> simp [Phase.claims, Phase.spent, Phase.pastLookup]

theorem Inv.advance (h : Inv s) (hr : (s.requests r).pastLookup = some c) (p : Phase)
    (hc : p.claims = some c) (hp : p.pastLookup = some c)
    (hspent : p.spent = some c → c.jti ≠ "" → s.revoked c.jti = some c.expiresAt ∨ c.expiresAt < s.clock) :
    Inv (s.set r p) := by
  apply h.set
  · intro d hd
    rw [hc] at hd
    cases hd
    exact h.expiry r c (pastLookup_claims hr)
  · intro d hd
    have hdc : d = c := by
      have hcl : p.claims = some d := by cases p <;> simp_all [Phase.spent, Phase.claims]
      rw [hc] at hcl
      exact (Option.some.inj hcl).symm
    subst hdc
    exact hspent hd
  · intro d hd hne r' c' hr' hc' hj
    rw [hp] at hd
    cases hd
    exact hr' (h.unique r' r c' c hc' hr hj (hj ▸ hne))

theorem Inv.write (h : Inv s) {c : Claims} (hc : SameExpiry s c) : Inv (s.write c) := by
  refine ⟨h.expiry, ?_, h.unique⟩
  intro r d hd hne
  have hclaims : (s.requests r).claims = some d := by
    cases hr : s.requests r <;> simp_all [State.write, Phase.spent, Phase.claims]
  simp only [State.write]
  split
  · exact h.spent r d hd hne
  by_cases hj : d.jti = c.jti
  · left
    rw [hj, update_self, hc r d hclaims hj]
  · rw [update_of_ne hj]
    exact h.spent r d hd hne

theorem prunes_expired {now exp : ℕ} (h : b.prunes now exp = true) : exp < now := by
  cases b with
  | memory => exact of_decide_eq_true h
  | sqlite =>
    have hu : exp / 1000000000 < now / 1000000000 := of_decide_eq_true h
    omega

theorem Inv.prune (h : Inv s) : Inv (prune b s) := by
  refine ⟨h.expiry, ?_, h.unique⟩
  intro r c hc hne
  rcases h.spent r c hc hne with hr | hx
  · by_cases hp : b.prunes s.clock c.expiresAt = true
    · exact .inr (prunes_expired hp)
    · left
      simp [Rotation.prune, hr, hp]
  · exact .inr hx

theorem Inv.present (h : Inv s) (hc : SameExpiry s c) : Inv (s.set r (.verified c)) := by
  apply h.set
  · intro d hd
    cases hd
    exact hc
  · simp [Phase.spent]
  · simp [Phase.pastLookup]

theorem finishParse_cases (s : State) (ok : Bool) (c : Claims) : finishParse s ok c = .rejected 401 ∨
      finishParse s ok c = .checked c ∧ (c.jti ≠ "" → s.revoked c.jti = none) := by
  unfold finishParse
  cases hk : (checkRevoked (if ok then some (isRevoked s c.jti) else none) c).bind refreshKind with
  | error e => exact .inl rfl
  | ok d =>
    right
    obtain ⟨d', hd, hr⟩ : ∃ d', checkRevoked (if ok then some (isRevoked s c.jti) else none) c = .ok d' ∧
        refreshKind d' = .ok d := by
      cases hcr : checkRevoked (if ok then some (isRevoked s c.jti) else none) c with
      | error e => simp [hcr, Except.bind] at hk
      | ok d' => exact ⟨d', rfl, by simpa [hcr, Except.bind] using hk⟩
    obtain ⟨rfl, hlook⟩ := checkRevoked_ok hd
    obtain ⟨rfl, _⟩ := refreshKind_ok hr
    refine ⟨rfl, ?_⟩
    intro hne
    have hl := hlook hne
    split at hl
    · simpa [isRevoked] using hl
    · cases hl

theorem Inv.lookup (h : Inv s) {ok : Bool} (hr : s.requests r = .verified c)
    (hg : Exclusive v s (.lookup r ok)) : Inv (s.set r (finishParse s ok c)) := by
  rcases finishParse_cases s ok c with hf | ⟨hf, hnone⟩
  · rw [hf]
    exact h.reject r 401
  rw [hf]
  apply h.set
  · intro d hd
    cases hd
    exact h.expiry r c (by simp [hr, Phase.claims])
  · simp [Phase.spent]
  · intro d hd hne r' c' _ hc' hj
    cases hd
    obtain ⟨hclock, hno⟩ := hg c hr hne
    rcases pastLookup_cases hc' with hmid | hdone
    · exact hno r' c' hmid hj
    have hexp := h.expiry r c (by simp [hr, Phase.claims]) r' c' (pastLookup_claims hc') hj
    rcases h.spent r' c' hdone (hj ▸ hne) with hrev | hx
    · rw [hj, hnone hne] at hrev
      cases hrev
    · omega

theorem step_inv (a : Action) (hg : Exclusive v s a) (hs : step v b s a = some s') (h : Inv s) : Inv s' := by
  cases a with simp only [step] at hs
  | tick d =>
    cases hs
    refine ⟨h.expiry, ?_, h.unique⟩
    intro r c hc hne
    exact (h.spent r c hc hne).imp_right (fun hx => Nat.lt_add_right d hx)
  | present r token =>
    split at hs
    · split at hs
      · cases hs
        exact h.reject r 401
      · next c hv =>
        cases hs
        exact h.present (hg c hv)
    · cases hs
  | lookup r ok =>
    split at hs <;> cases hs
    next c hr => exact h.lookup hr hg
  | sign r ok =>
    split at hs <;> cases hs
    next c hr =>
      split
      · apply h.advance (by rw [hr]; rfl) _ rfl rfl
        simp [Phase.spent]
      · exact h.reject r 500
  | revoke r ok =>
    split at hs <;> cases hs
    next c hr =>
      have hok : ok = true := hg
      subst hok
      have hc : (s.requests r).claims = some c := by simp [hr, Phase.claims]
      have hw := h.write (h.expiry r c hc)
      apply hw.advance (c := c) (by simp [State.write, hr, Phase.pastLookup]) _ rfl rfl
      intro _ hne
      left
      simp [State.write, hne]
  | answer r =>
    split at hs <;> cases hs
    next c hr =>
      apply h.advance (by rw [hr]; rfl) _ rfl rfl
      intro _ hne
      exact h.spent r c (by simp [hr, Phase.spent]) hne
  | revokeToken c =>
    cases hs
    exact h.write hg
  | prune =>
    cases hs
    exact h.prune

theorem exclusive_run_redeemedOnce (v : Verifier) (b : Backend) (clock : ℕ) (revoked : String → Option ℕ)
    (as : List Action) (s : State) (h : Steps (step v b) (Exclusive v) (init clock revoked) as s) :
    RedeemedOnce s := by
  have hi : Inv s := h.preserves (fun s a t hg hs hi => step_inv a hg hs hi) (inv_init clock revoked)
  intro r r' c c' hr hr' hj hne
  exact hi.unique r r' c c' (by simp [hr, Phase.pastLookup]) (by simp [hr', Phase.pastLookup]) hj hne

def aliceRefresh : Claims := ⟨"alice", "s1", ["orchestrator:connect"], kindRefresh, "j1", 600000000000⟩

def aliceVerifier : Verifier where
  secrets := [[7]]
  parseWithClaims := fun _ now token =>
    if token = "t1" ∧ now < aliceRefresh.expiresAt then some aliceRefresh else none

def replayed : List Action :=
  [.present 0 "t1", .present 1 "t1", .lookup 0 true, .sign 0 true, .revoke 0 true, .answer 0, .tick 5, .prune,
    .lookup 1 true]

theorem exclusive_run_redeemedOnce_replayed :
    ∃ s, Steps (step aliceVerifier .memory) (Exclusive aliceVerifier) (init 0 fun _ => none) replayed s ∧
      s.requests 0 = .answered aliceRefresh ∧ s.requests 1 = .rejected 401 ∧ RedeemedOnce s := by
  have h : ∃ s, Steps (step aliceVerifier .memory) (Exclusive aliceVerifier) (init 0 fun _ => none) replayed s ∧
      s.requests 0 = .answered aliceRefresh ∧ s.requests 1 = .rejected 401 := by
    refine ⟨_, .cons ?_ rfl (.cons ?_ rfl (.cons ?_ rfl (.cons trivial rfl (.cons rfl rfl (.cons trivial rfl
      (.cons trivial rfl (.cons trivial rfl (.cons ?_ rfl (.nil _))))))))), rfl, rfl⟩
    · intro c _ r c' hc'
      cases hc'
    · intro c hc r c' hc' _
      cases hc
      rcases r with _ | r <;> cases hc'
      rfl
    · intro c hc _
      cases hc
      refine ⟨by decide, ?_⟩
      rintro (_ | _ | r') c' (hr' | hr') <;> cases hr'
    · intro c hc _
      cases hc
      refine ⟨by decide, ?_⟩
      rintro (_ | _ | r') c' (hr' | hr') <;> cases hr'
  obtain ⟨s, hs, hanswered, hrejected⟩ := h
  exact ⟨s, hs, hanswered, hrejected, exclusive_run_redeemedOnce _ _ _ _ _ s hs⟩

theorem racing_refresh_redeems_twice : ∃ s, run (step aliceVerifier .memory) (init 0 fun _ => none)
        [.present 0 "t1", .present 1 "t1", .lookup 0 true, .lookup 1 true, .sign 0 true, .sign 1 true,
          .revoke 0 true, .revoke 1 true, .answer 0, .answer 1] = some s ∧ ¬ RedeemedOnce s := by
  refine ⟨_, rfl, ?_⟩
  intro h
  have h01 := h 0 1 aliceRefresh aliceRefresh rfl rfl rfl (by decide)
  cases h01

end

end NomadDev.Rotation
