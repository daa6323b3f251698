import NomadDev.RefreshRotation

/-!
Instants are nanoseconds since the Unix epoch; an expiry of `none` is the zero `time.Time`.
-/

namespace NomadDev.Revocation

open Auth List
open Rotation (unix)

structure RevocationList (L : Type) where
  revoke : L → ℕ → String → Option ℕ → L
  isRevoked : L → String → Bool
  prune : L → ℕ → L × ℕ

def upsert {β : Type} (entries : List (String × β)) (jti : String) (value : β) : List (String × β) :=
  (jti, value) :: entries.filter fun e => e.1 ≠ jti

variable {β : Type} {entries : List (String × β)} {jti : String} {value : β}

theorem mem_upsert_of_ne {jti' : String} {value' : β} (hne : jti' ≠ jti) (h : (jti, value) ∈ entries) :
    (jti, value) ∈ upsert entries jti' value' :=
  mem_cons_of_mem _ (mem_filter.mpr ⟨h, by simpa using hne.symm⟩)

structure MemoryRevocationList where
  revoked : List (String × Option ℕ)

namespace MemoryRevocationList

variable (m : MemoryRevocationList)

def revoke (jti : String) (exp : Option ℕ) : MemoryRevocationList :=
  if jti = "" then m else ⟨upsert m.revoked jti exp⟩

def isRevoked (jti : String) : Bool :=
  if jti = "" then false else m.revoked.any fun e => e.1 = jti

def passed (now : ℕ) (e : String × Option ℕ) : Bool := e.2.any fun exp => exp < now

def prune (now : ℕ) : MemoryRevocationList × ℕ :=
  (⟨m.revoked.filter fun e => !passed now e⟩, m.revoked.countP (passed now))

end MemoryRevocationList

structure SQLiteRevocationList where
  rows : List (String × ℕ)

namespace SQLiteRevocationList

def hundredYears : ℕ := 100 * 365 * 24 * 3600 * 1000000000

def expUnix (now : ℕ) : Option ℕ → ℕ
  | some exp => unix exp
  | none => unix (now + hundredYears)

variable (s : SQLiteRevocationList)

def revoke (now : ℕ) (jti : String) (exp : Option ℕ) : SQLiteRevocationList :=
  if jti = "" then s else ⟨upsert s.rows jti (expUnix now exp)⟩

def isRevoked (jti : String) : Bool :=
  if jti = "" then false else s.rows.any fun e => e.1 = jti

def prune (now : ℕ) : SQLiteRevocationList × ℕ :=
  (⟨s.rows.filter fun e => !decide (e.2 < unix now)⟩, s.rows.countP fun e => e.2 < unix now)

end SQLiteRevocationList

def memory : RevocationList MemoryRevocationList where
  revoke m _ jti exp := m.revoke jti exp
  isRevoked := MemoryRevocationList.isRevoked
  prune := MemoryRevocationList.prune

def sqlite : RevocationList SQLiteRevocationList where
  revoke := SQLiteRevocationList.revoke
  isRevoked := SQLiteRevocationList.isRevoked
  prune := SQLiteRevocationList.prune

inductive Call
  | revoke (jti : String) (exp : Option ℕ)
  | prune
  | parse (token : String)

section

variable {L : Type} (r : RevocationList L)

def after (l : L) : ℕ × Call → L
  | (now, .revoke jti exp) => r.revoke l now jti exp
  | (now, .prune) => (r.prune l now).1
  | (_, .parse _) => l

def afterAll (l : L) (calls : List (ℕ × Call)) : L := calls.foldl (after r) l

def parse (v : Verifier) (l : L) (now : ℕ) (token : String) : Except AuthErr Claims :=
  parseCtx v now (fun jti => some (r.isRevoked l jti)) token

end

def jwtParser (signed : List UInt8 → String → Bool) (payload : String → Option Claims) (secret : List UInt8)
    (now : ℕ) (token : String) : Option Claims :=
  if signed secret token then (payload token).filter fun c => now < c.expiresAt else none

/-- `Recorded l jti exp`: the list holds the revocation of `jti` with the expiry `exp`. The record outlives every
prune made no later than `exp`. -/
structure Retention {L : Type} (r : RevocationList L) where
  Recorded : L → String → ℕ → Prop
  isRevoked {l : L} {jti : String} {exp : ℕ} : Recorded l jti exp → r.isRevoked l jti = true
  revoke (l : L) (now : ℕ) {jti : String} (exp : ℕ) : jti ≠ "" → Recorded (r.revoke l now jti (some exp)) jti exp
  revoke_other {l : L} {jti : String} {exp : ℕ} (now : ℕ) {jti' : String} (exp' : Option ℕ) :
    jti' ≠ jti → Recorded l jti exp → Recorded (r.revoke l now jti' exp') jti exp
  prune {l : L} {jti : String} {exp now : ℕ} : now ≤ exp → Recorded l jti exp → Recorded (r.prune l now).1 jti exp

theorem any_jti_of_mem (h : (jti, value) ∈ entries) : (entries.any fun e => e.1 = jti) = true :=
  any_eq_true.mpr ⟨_, h, by simp⟩

def memoryRetention : Retention memory where
  Recorded m jti exp := jti ≠ "" ∧ (jti, some exp) ∈ m.revoked
  isRevoked := by
    rintro m jti exp ⟨hjti, hmem⟩
    simp only [memory, MemoryRevocationList.isRevoked, if_neg hjti]
    exact any_jti_of_mem hmem
  revoke m now jti exp hjti := by
    simp only [memory, MemoryRevocationList.revoke, if_neg hjti]
    exact ⟨hjti, List.mem_cons_self⟩
  revoke_other := by
    rintro m jti exp now jti' exp' hne ⟨hjti, hmem⟩
    refine ⟨hjti, ?_⟩
    simp only [memory, MemoryRevocationList.revoke]
    split
    · exact hmem
    · exact mem_upsert_of_ne hne hmem
  prune := by
    rintro m jti exp now hle ⟨hjti, hmem⟩
    refine ⟨hjti, List.mem_filter.mpr ⟨hmem, ?_⟩⟩
    simp [MemoryRevocationList.passed, hle]

def sqliteRetention : Retention sqlite where
  Recorded s jti exp := jti ≠ "" ∧ (jti, unix exp) ∈ s.rows
  isRevoked := by
    rintro s jti exp ⟨hjti, hmem⟩
    simp only [sqlite, SQLiteRevocationList.isRevoked, if_neg hjti]
    exact any_jti_of_mem hmem
  revoke s now jti exp hjti := by
    simp only [sqlite, SQLiteRevocationList.revoke, if_neg hjti]
    exact ⟨hjti, List.mem_cons_self⟩
  revoke_other := by
    rintro s jti exp now jti' exp' hne ⟨hjti, hmem⟩
    refine ⟨hjti, ?_⟩
    simp only [sqlite, SQLiteRevocationList.revoke]
    split
    · exact hmem
    · exact mem_upsert_of_ne hne hmem
  prune := by
    rintro s jti exp now hle ⟨hjti, hmem⟩
    have hunix : unix now ≤ unix exp := Nat.div_le_div_right hle
    refine ⟨hjti, List.mem_filter.mpr ⟨hmem, ?_⟩⟩
    simp [hunix]

section Runs

variable {L : Type} {r : RevocationList L} {l : L} {jti : String} {exp : ℕ}

theorem Retention.after (ρ : Retention r) (hjti : jti ≠ "") (x : ℕ × Call)
    (hown : ∀ exp', x.2 = .revoke jti exp' → exp' = some exp) (hl : ρ.Recorded l jti exp) :
    ρ.Recorded (after r l x) jti exp ∨ exp < x.1 := by
  obtain ⟨now, call⟩ := x
  cases call with
  | revoke jti' exp' =>
    left
    by_cases hsame : jti' = jti
    · subst hsame
      obtain rfl := hown exp' rfl
      exact ρ.revoke l now exp hjti
    · exact ρ.revoke_other now exp' hsame hl
  | prune =>
    rcases Nat.lt_or_ge exp now with hlt | hle
    · exact .inr hlt
    · exact .inl (ρ.prune hle hl)
  | parse token => exact .inl hl

theorem Retention.afterAll (ρ : Retention r) (hjti : jti ≠ "") {calls : List (ℕ × Call)}
    (hown : ∀ x ∈ calls, ∀ exp', x.2 = .revoke jti exp' → exp' = some exp) (hl : ρ.Recorded l jti exp) :
    ρ.Recorded (afterAll r l calls) jti exp ∨ ∃ x ∈ calls, exp < x.1 := by
  induction calls generalizing l with
  | nil => exact .inl hl
  | cons x calls ih =>
    rcases ρ.after hjti x (hown x mem_cons_self) hl with hl' | hlt
    · rcases ih (fun y hy => hown y (mem_cons_of_mem x hy)) hl' with hend | ⟨y, hy, hlt⟩
      · exact .inl hend
      · exact .inr ⟨y, mem_cons_of_mem x hy, hlt⟩
    · exact .inr ⟨x, mem_cons_self, hlt⟩

variable {signed : List UInt8 → String → Bool} {payload : String → Option Claims} {secrets : List (List UInt8)}
  {now : ℕ} {token : String} {c d : Claims}

theorem jwtParser_eq_some {secret : List UInt8} (hpayload : payload token = some c)
    (h : jwtParser signed payload secret now token = some d) : d = c ∧ now < c.expiresAt := by
  unfold jwtParser at h
  split at h
  · rw [hpayload, Option.filter_eq_some_iff] at h
    obtain ⟨hd, hnow⟩ := h
    cases hd
    exact ⟨rfl, by simpa using hnow⟩
  · cases h

theorem verifyClaims_jwtParser (hpayload : payload token = some c)
    (h : verifyClaims (newVerifierWithSecrets (jwtParser signed payload) secrets) now token = .ok d) :
    d = c ∧ now < c.expiresAt := by
  unfold verifyClaims at h
  split at h
  · cases h
  split at h
  · cases h
  split at h
  · cases h
  next e he =>
  obtain ⟨secret, -, hparse⟩ := exists_of_findSome?_eq_some he
  split at h
  · cases h
  split at h
  · cases h
  · cases h
    exact jwtParser_eq_some hpayload hparse

theorem parse_eq_ok (hpayload : payload token = some c) (hjti : c.jti ≠ "")
    (h : parse r (newVerifierWithSecrets (jwtParser signed payload) secrets) l now token = .ok d) :
    now < c.expiresAt ∧ r.isRevoked l c.jti = false := by
  unfold parse parseCtx at h
  split at h
  · cases h
  next e he =>
  obtain ⟨rfl, hnow⟩ := verifyClaims_jwtParser hpayload he
  obtain ⟨-, hrevoked⟩ := checkRevoked_ok h
  exact ⟨hnow, by simpa using hrevoked hjti⟩

theorem Retention.parse_ne_ok (ρ : Retention r) (hpayload : payload token = some c) (hjti : c.jti ≠ "")
    {before between : List (ℕ × Call)} {revokedAt : ℕ}
    (hclock : ((before ++ (revokedAt, .revoke c.jti (some c.expiresAt)) :: between).map Prod.fst ++ [now]).Pairwise
      (· ≤ ·))
    (hown : ∀ x ∈ between, ∀ exp, x.2 = .revoke c.jti exp → exp = some c.expiresAt) (l : L) :
    parse r (newVerifierWithSecrets (jwtParser signed payload) secrets)
      (Revocation.afterAll r l (before ++ (revokedAt, .revoke c.jti (some c.expiresAt)) :: between)) now token ≠ .ok d := by
  intro haccept
  obtain ⟨hnow, habsent⟩ := parse_eq_ok hpayload hjti haccept
  rw [Revocation.afterAll, foldl_append, foldl_cons] at habsent
  rcases ρ.afterAll hjti hown (ρ.revoke _ revokedAt c.expiresAt hjti) with hrecorded | ⟨x, hx, hlt⟩
  · exact Bool.false_ne_true (habsent.symm.trans (ρ.isRevoked hrecorded))
  -- the prune that dropped the record came after the expiry, and the clock has not gone back since
  have hle : x.1 ≤ now := by
    refine (pairwise_append.mp hclock).2.2 x.1 ?_ now (mem_singleton_self now)
    exact mem_map_of_mem (mem_append_right _ (mem_cons_of_mem _ hx))
  omega

end Runs

theorem revoked_not_accepted (signed : List UInt8 → String → Bool) (payload : String → Option Claims)
    (secrets : List (List UInt8)) (token : String) (c : Claims) (hpayload : payload token = some c)
    (hjti : c.jti ≠ "") (before between : List (ℕ × Call)) (revokedAt now : ℕ)
    (hclock : ((before ++ (revokedAt, .revoke c.jti (some c.expiresAt)) :: between).map Prod.fst ++ [now]).Pairwise
      (· ≤ ·))
    (hown : ∀ x ∈ before ++ between, ∀ exp, x.2 = .revoke c.jti exp → exp = some c.expiresAt) :
    let v := newVerifierWithSecrets (jwtParser signed payload) secrets
    let calls := before ++ (revokedAt, .revoke c.jti (some c.expiresAt)) :: between
    (∀ l d, parse memory v (afterAll memory l calls) now token ≠ .ok d) ∧
      ∀ l d, parse sqlite v (afterAll sqlite l calls) now token ≠ .ok d := by
  have hown' : ∀ x ∈ between, ∀ exp, x.2 = .revoke c.jti exp → exp = some c.expiresAt :=
    fun x hx => hown x (mem_append_right _ hx)
  exact ⟨fun l _ => memoryRetention.parse_ne_ok hpayload hjti hclock hown' l,
    fun l _ => sqliteRetention.parse_ne_ok hpayload hjti hclock hown' l⟩

def aliceToken : Claims := ⟨"alice", "s1", ["user.intent"], kindAccess, "j1", 60000000000⟩

theorem revoked_not_accepted_last_second :
    let v := newVerifierWithSecrets
      (jwtParser (fun secret _ => secret = [7]) fun token => if token = "t1" then some aliceToken else none) [[7]]
    let calls : List (ℕ × Call) :=
      [(0, .parse "t1"), (5, .revoke "j1" (some 60000000000)), (7, .revoke "j2" (some 9)), (59999000000, .prune)]
    parse memory v ⟨[]⟩ 4 "t1" = .ok aliceToken ∧ (afterAll memory ⟨[]⟩ calls).revoked = [("j1", some 60000000000)] ∧
      (∀ d, parse memory v (afterAll memory ⟨[]⟩ calls) 59999999999 "t1" ≠ .ok d) ∧
      ∀ d, parse sqlite v (afterAll sqlite ⟨[]⟩ calls) 59999999999 "t1" ≠ .ok d := by
  refine ⟨by decide +kernel, by decide +kernel, ?_⟩
  have h := revoked_not_accepted (fun secret _ => secret = [7])
    (fun token => if token = "t1" then some aliceToken else none) [[7]] "t1" aliceToken rfl (by decide)
    [(0, .parse "t1")] [(7, .revoke "j2" (some 9)), (59999000000, .prune)] 5 59999999999 (by decide) (by
      intro x hx exp hexp
      simp only [cons_append, nil_append, mem_cons, not_mem_nil, or_false] at hx
      rcases hx with rfl | rfl | rfl <;> simp [aliceToken] at hexp)
  exact ⟨fun d => h.1 ⟨[]⟩ d, fun d => h.2 ⟨[]⟩ d⟩

end NomadDev.Revocation
