import Mathlib.Data.List.Basic

namespace Foundation.Scanning

open List

variable {β τ : Type}

structure Splitter (β τ : Type) where
  split : List β → Bool → Option (ℕ × τ)
  progress : ∀ {p : List β} {atEOF : Bool} {advance : ℕ} {token : τ},
    split p atEOF = some (advance, token) → 0 < advance ∧ advance ≤ p.length

namespace Splitter

variable (S : Splitter β τ)

def drainFuel (atEOF : Bool) : ℕ → List β → List τ × List β
  | 0, p => ([], p)
  | fuel + 1, p =>
    match S.split p atEOF with
    | none => ([], p)
    | some (advance, token) =>
      (token :: (drainFuel atEOF fuel (p.drop advance)).1, (drainFuel atEOF fuel (p.drop advance)).2)

def drain (atEOF : Bool) (p : List β) : List τ × List β := S.drainFuel atEOF p.length p

def scan : List β → List (List β) → List τ
  | buf, [] => (S.drain true buf).1
  | buf, r :: reads => (S.drain false (buf ++ r)).1 ++ scan (S.drain false (buf ++ r)).2 reads

theorem drain_induction (atEOF : Bool) {motive : List β → Prop} (stuck : ∀ p, S.split p atEOF = none → motive p)
    (token : ∀ p advance t, S.split p atEOF = some (advance, t) → motive (p.drop advance) → motive p) (p : List β) :
    motive p := by
  induction hn : p.length using Nat.strongRecOn generalizing p with
  | ind n ih =>
    cases hsplit : S.split p atEOF with
    | none => exact stuck p hsplit
    | some found =>
      obtain ⟨advance, t⟩ := found
      obtain ⟨hpos, hle⟩ := S.progress hsplit
      have hlt : (p.drop advance).length < n := by
        rw [length_drop]
        omega
      exact token p advance t hsplit (ih _ hlt _ rfl)

variable {S} {atEOF : Bool} {p : List β}

theorem drainFuel_of_none (h : S.split p atEOF = none) (fuel : ℕ) : S.drainFuel atEOF fuel p = ([], p) := by
  cases fuel with
  | zero => rfl
  | succ fuel => simp only [drainFuel, h]

theorem drain_of_none (h : S.split p atEOF = none) : S.drain atEOF p = ([], p) := drainFuel_of_none h p.length

theorem drainFuel_eq {fuel : ℕ} (h : p.length ≤ fuel) : S.drainFuel atEOF fuel p = S.drain atEOF p := by
  rw [drain]
  generalize hn : p.length = n at h
  replace hn : p.length ≤ n := Nat.le_of_eq hn
  induction p using S.drain_induction atEOF generalizing n fuel with
  | stuck p hnone => rw [drainFuel_of_none hnone, drainFuel_of_none hnone]
  | token p advance t hsplit ih =>
    obtain ⟨hpos, hle⟩ := S.progress hsplit
    have hdrop : (p.drop advance).length = p.length - advance := length_drop
    obtain ⟨m, rfl⟩ := Nat.exists_eq_succ_of_ne_zero (show n ≠ 0 by omega)
    obtain ⟨k, rfl⟩ := Nat.exists_eq_succ_of_ne_zero (show fuel ≠ 0 by omega)
    have hrest : S.drainFuel atEOF k (p.drop advance) = S.drainFuel atEOF m (p.drop advance) :=
      ih m (by omega) (by omega)
    simp only [drainFuel, hsplit, hrest]

theorem drain_of_some {advance : ℕ} {token : τ} (h : S.split p atEOF = some (advance, token)) :
    S.drain atEOF p = (token :: (S.drain atEOF (p.drop advance)).1, (S.drain atEOF (p.drop advance)).2) := by
  obtain ⟨hpos, hle⟩ := S.progress h
  obtain ⟨n, hn⟩ := Nat.exists_eq_succ_of_ne_zero (Nat.ne_of_gt (Nat.lt_of_lt_of_le hpos hle))
  have hdrop : (p.drop advance).length ≤ n := by
    rw [length_drop]
    omega
  rw [drain, hn]
  simp only [drainFuel, h, drainFuel_eq hdrop]

theorem split_drain : S.split (S.drain atEOF p).2 atEOF = none := by
  induction p using S.drain_induction atEOF with
  | stuck p hnone =>
    rw [drain_of_none hnone]
    exact hnone
  | token p advance t hsplit ih =>
    rw [drain_of_some hsplit]
    exact ih

section Rule

variable {Q : List β → List τ → Prop}
  (htoken : ∀ {u p : List β} {atEOF : Bool} {advance : ℕ} {token : τ} {tokens : List τ}, p <+: u →
    (atEOF = true → p = u) → S.split p atEOF = some (advance, token) → Q (u.drop advance) tokens →
    Q u (token :: tokens))
include htoken

theorem drain_rule {q : List β} {tokens : List τ} (hq : atEOF = true → q = [])
    (hrest : Q ((S.drain atEOF p).2 ++ q) tokens) : Q (p ++ q) ((S.drain atEOF p).1 ++ tokens) := by
  induction p using S.drain_induction atEOF with
  | stuck p hnone =>
    rw [drain_of_none hnone] at hrest ⊢
    exact hrest
  | token p advance t hsplit ih =>
    have hdrop : (p ++ q).drop advance = p.drop advance ++ q := drop_append_of_le_length (S.progress hsplit).2
    rw [drain_of_some hsplit] at hrest ⊢
    apply htoken (prefix_append p q) _ hsplit
    · rw [hdrop]
      exact ih hrest
    · intro heof
      rw [hq heof, append_nil]

theorem scan_rule (hend : ∀ p, S.split p true = none → Q p []) (buf : List β) (reads : List (List β)) :
    Q (buf ++ reads.flatten) (S.scan buf reads) := by
  induction reads generalizing buf with
  | nil =>
    have hlast : Q ((S.drain true buf).2 ++ []) [] := by
      rw [append_nil]
      exact hend _ split_drain
    rw [flatten_nil, scan, ← append_nil (S.drain true buf).1]
    exact drain_rule htoken (fun _ => rfl) hlast
  | cons r reads ih =>
    rw [flatten_cons, ← append_assoc]
    exact drain_rule htoken (fun h => absurd h Bool.false_ne_true) (ih _)

end Rule

theorem scan_eq_drain {I : List β → Prop}
    (hstable : ∀ {u p : List β} {x : ℕ × τ}, I u → p <+: u → S.split p false = some x → S.split u true = some x)
    (hkeep : ∀ {u : List β} {advance : ℕ} {token : τ}, I u → S.split u true = some (advance, token) →
      I (u.drop advance)) (reads : List (List β)) (h : I reads.flatten) :
    S.scan [] reads = (S.drain true reads.flatten).1 := by
  have hscan := scan_rule (S := S) (Q := fun u tokens => I u → tokens = (S.drain true u).1) ?_ ?_ [] reads
  · exact hscan h
  · intro u p atEOF advance token tokens hp heof hsplit ih hu
    have hfull : S.split u true = some (advance, token) := by
      cases atEOF with
      | false => exact hstable hu hp hsplit
      | true =>
        rw [← heof rfl]
        exact hsplit
    rw [drain_of_some hfull, ih (hkeep hu hfull)]
  · intro p hnone _
    rw [drain_of_none hnone]

end Splitter

end Foundation.Scanning
