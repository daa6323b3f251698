import NomadDev.GitHubSchema
import Mathlib.Algebra.Order.Ring.Int

/-!
Durations are in nanoseconds, in 64-bit arithmetic.
-/

namespace NomadDev.GitHub.Waits

abbrev Text : Type := List Char

def second : ℤ := 1000000000

def wrap (x : ℤ) : ℤ := x.bmod (2 ^ 64)

def leads : List String := ["retry-after", "retry after", "wait", "resets in", "resets", "reset in", "reset"]

def units : List String := ["s", "sec", "seconds", "second"]

def isSpace (c : Char) : Bool := c == ' ' || c == '\t' || c == '\n' || c == '\r' || c == Char.ofNat 12

def isWord (c : Char) : Bool := c.isAlphanum || c == '_'

def follows (word : String) (s : Text) : Option Text :=
  if word.toList.isPrefixOf (s.map foldChar) then some (s.drop word.length) else none

def unitAt (s : Text) : Bool :=
  units.any fun u => (follows u s).any fun rest =>
    (s.take u.length).getLast?.any isWord != rest.head?.any isWord

/-- Group 1 of a match of `retryAfterRE` that begins here. What follows each of the repetitions is nothing that it
could match itself, so only the longest choice of it can succeed. -/
def hintAt (s : Text) : Option Text :=
  leads.findSome? fun lead => (follows lead s).bind fun rest =>
    let counted := rest.dropWhile (!·.isDigit)
    if (rest.takeWhile (!·.isDigit)).length ≤ 16 ∧ counted.takeWhile Char.isDigit ≠ [] ∧
        unitAt ((counted.dropWhile Char.isDigit).dropWhile isSpace) = true then
      some (counted.takeWhile Char.isDigit)
    else none

def findHint (text : Text) : Option Text := text.tails.findSome? hintAt

def number (digits : Text) : ℕ := digits.foldl (fun n c => 10 * n + (c.toNat - 48)) 0

def hintSeconds (text : Text) : Option ℕ :=
  (findHint text).bind fun digits =>
    if 0 < number digits ∧ number digits < 2 ^ 63 then some (number digits) else none

def maxHint : ℤ := 5 * 60 * second

def maxBackoff : ℤ := 30 * second

def parseRetryAfter (text : Text) : ℤ :=
  match hintSeconds text with
  | none => 0
  | some secs => min (wrap (secs * second)) maxHint

def retryHintFromResult : List Text → ℤ
  | [] => 0
  | text :: rest => if 0 < parseRetryAfter text then parseRetryAfter text else retryHintFromResult rest

def jitter (draw : ℤ → ℤ) (maxAbs : ℤ) : ℤ := if maxAbs ≤ 0 then 0 else draw maxAbs

def nextBackoff (attempt : ℕ) (base hint : ℤ) (draw : ℤ → ℤ) : ℤ :=
  if 0 < hint then hint + jitter draw (hint.tdiv 4)
  else
    let d := min (wrap (base * 2 ^ (attempt - 1))) maxBackoff
    d + jitter draw (d.tdiv 4)

def rateLimitMarkers : List String :=
  ["api rate limit exceeded", "secondary rate limit", "abuse detection", "have exceeded a rate limit",
    "403 forbidden", "rate limit reset at"]

def looksLikeRateLimitText (text : Text) : Bool :=
  rateLimitMarkers.any fun marker => Event.containsText (text.map Event.lowerChar) marker.toList

structure Result where
  texts : List Text
  isError : Bool

def shouldRetryRateLimit (r : Result) : Bool := r.isError && r.texts.any looksLikeRateLimitText

inductive Reply
  | contextDone
  | transportError
  | result (r : Result)

structure Wait where
  attempt : ℕ
  texts : List Text
  duration : ℤ

section Loop

variable (base : ℤ) (draw : ℕ → ℤ → ℤ) (reply : ℕ → Reply)

def retryFrom : ℕ → ℕ → Result → Result × List Wait
  | 0, _, result => (result, [])
  | left + 1, attempt, result =>
    let wait := ⟨attempt, result.texts, nextBackoff attempt base (retryHintFromResult result.texts) (draw attempt)⟩
    match reply attempt with
    | .contextDone | .transportError => (result, [wait])
    | .result next =>
      if shouldRetryRateLimit next then
        let rest := retryFrom left (attempt + 1) next
        (rest.1, wait :: rest.2)
      else (next, [wait])

def callWithRateLimitRetry (retries : ℕ) (first : Result) : Result × List Wait :=
  if shouldRetryRateLimit first then retryFrom (if base ≤ 0 then second else base) draw reply retries 1 first
  else (first, [])

end Loop

-- `rng.Int63n` of a positive bound.
def Draws (draw : ℤ → ℤ) : Prop := ∀ bound, 0 < bound → 0 ≤ draw bound ∧ draw bound < bound

-- In whole nanoseconds: from `d` to less than 1.25 `d` + 1.
def Within (d w : ℤ) : Prop := d ≤ w ∧ 4 * w < 5 * d + 4

def firstHint : List Text → Option (ℕ × List Text)
  | [] => none
  | text :: rest =>
    match hintSeconds text with
    | some secs => some (secs, rest)
    | none => firstHint rest

def target (texts : List Text) (base : ℤ) (attempt : ℕ) : ℤ :=
  match firstHint texts with
  | some hint => min (hint.1 * second) maxHint
  | none => min (base * 2 ^ (attempt - 1)) maxBackoff

/-- The duration does not wrap, or wraps to what the cap cuts all the same; a hint that wraps to nothing positive is
passed over for those of the later texts. -/
def Fits (texts : List Text) (base : ℤ) (attempt : ℕ) : Prop :=
  match firstHint texts with
  | some hint => hint.1 * second < 2 ^ 63 ∨ maxHint ≤ wrap (hint.1 * second) ∨
      (wrap (hint.1 * second) ≤ 0 ∧ retryHintFromResult hint.2 = maxHint)
  | none => base * 2 ^ (attempt - 1) < 2 ^ 63 ∨ maxBackoff ≤ wrap (base * 2 ^ (attempt - 1))

section Arithmetic

variable {x m a t : ℤ}

theorem wrap_of_lt (h0 : 0 ≤ x) (h : x < 2 ^ 63) : wrap x = x := by
  apply Int.bmod_eq_of_le_mul_two <;> omega

theorem min_wrap_eq_iff (h0 : 0 ≤ x) (hm : m < 2 ^ 63) : min (wrap x) m = min x m ↔ x < 2 ^ 63 ∨ m ≤ wrap x := by
  by_cases hx : x < 2 ^ 63
  · rw [wrap_of_lt h0 hx]
    exact iff_of_true rfl (.inl hx)
  · have hcap : min x m = m := min_eq_right (by omega)
    rw [hcap, min_eq_right_iff, or_iff_right hx]

theorem min_wrap_le (h0 : 0 ≤ x) (hm : m < 2 ^ 63) : min (wrap x) m ≤ min x m := by
  by_cases hx : x < 2 ^ 63
  · rw [wrap_of_lt h0 hx]
  · have hcap : min x m = m := min_eq_right (by omega)
    rw [hcap]
    exact min_le_right _ _

theorem within_iff (hle : a ≤ t) (ht : 0 < t) :
    (∀ draw, Draws draw → Within t (a + jitter draw (a.tdiv 4))) ↔ a = t := by
  constructor
  · intro h
    have hzero := (h (fun _ => 0) fun bound hbound => ⟨le_refl 0, hbound⟩).1
    have hjitter : jitter (fun _ => 0) (a.tdiv 4) = 0 := ite_self _
    rw [hjitter] at hzero
    omega
  · rintro rfl draw hdraw
    rw [jitter]
    split
    next => constructor <;> omega
    next hpos =>
      have hbound := hdraw (a.tdiv 4) (not_le.mp hpos)
      have hquarter : 4 * a.tdiv 4 ≤ a := by
        rw [Int.tdiv_eq_ediv_of_nonneg ht.le]
        omega
      constructor <;> omega

end Arithmetic

def paced (attempt : ℕ) (base hint : ℤ) : ℤ :=
  if 0 < hint then hint else min (wrap (base * 2 ^ (attempt - 1))) maxBackoff

variable {texts rest : List Text} {base : ℤ} {attempt secs : ℕ}

theorem nextBackoff_eq (hint : ℤ) (draw : ℤ → ℤ) : nextBackoff attempt base hint draw =
    paced attempt base hint + jitter draw ((paced attempt base hint).tdiv 4) := by
  unfold nextBackoff paced
  split <;> rfl

theorem parseRetryAfter_le (text : Text) : parseRetryAfter text ≤ maxHint := by
  unfold parseRetryAfter
  split
  · decide
  · exact min_le_right _ _

theorem retryHint_le (texts : List Text) : retryHintFromResult texts ≤ maxHint := by
  induction texts with
  | nil => decide
  | cons text rest ih =>
    rw [retryHintFromResult]
    split
    · exact parseRetryAfter_le text
    · exact ih

theorem retryHint_of_none (h : firstHint texts = none) : retryHintFromResult texts = 0 := by
  induction texts with
  | nil => rfl
  | cons text rest ih =>
    rw [firstHint] at h
    split at h
    next => cases h
    next hnone =>
      have hparse : parseRetryAfter text = 0 := by rw [parseRetryAfter, hnone]
      rw [retryHintFromResult, hparse]
      exact ih h

theorem retryHint_of_some (h : firstHint texts = some (secs, rest)) : 0 < secs ∧ retryHintFromResult texts =
      if 0 < min (wrap (secs * second)) maxHint then min (wrap (secs * second)) maxHint
      else retryHintFromResult rest := by
  induction texts with
  | nil => cases h
  | cons text texts ih =>
    rw [firstHint] at h
    split at h
    next n hn =>
      cases h
      have hparse : parseRetryAfter text = min (wrap (secs * second)) maxHint := by rw [parseRetryAfter, hn]
      obtain ⟨digits, -, hdigits⟩ := Option.bind_eq_some_iff.mp hn
      obtain ⟨hpos, heq⟩ := Option.ite_none_right_eq_some.mp hdigits
      cases heq
      exact ⟨hpos.1, by rw [retryHintFromResult, hparse]⟩
    next hnone =>
      have hparse : parseRetryAfter text = 0 := by rw [parseRetryAfter, hnone]
      rw [retryHintFromResult, hparse]
      exact ih h

theorem caps : 0 < maxHint ∧ maxHint < 2 ^ 63 ∧ maxBackoff < maxHint := by
  unfold maxHint maxBackoff second
  omega

theorem within_of_hint (h : firstHint texts = some (secs, rest)) :
    (∀ draw, Draws draw → Within (target texts base attempt)
      (nextBackoff attempt base (retryHintFromResult texts) draw)) ↔ Fits texts base attempt := by
  obtain ⟨hsecs, hhint⟩ := retryHint_of_some h
  have hpos : 0 < secs * second := mul_pos (Int.natCast_pos.mpr hsecs) (by unfold second; omega)
  obtain ⟨hcap, hfits, hlarger⟩ := caps
  simp only [nextBackoff_eq, target, Fits, h, hhint]
  by_cases hwrap : 0 < wrap (secs * second)
  · have hmin : 0 < min (wrap (secs * second)) maxHint := lt_min hwrap hcap
    rw [if_pos hmin, paced, if_pos hmin, within_iff (min_wrap_le hpos.le hfits) (lt_min hpos hcap),
      min_wrap_eq_iff hpos.le hfits]
    exact or_congr_right (or_iff_left fun hnot => absurd hwrap (not_lt.mpr hnot.1)).symm
  · -- The product wrapped, so that the cap is what was asked for.
    have hbig : ¬ secs * second < 2 ^ 63 := fun hlt => hwrap ((wrap_of_lt hpos.le hlt).symm ▸ hpos)
    have hmin : ¬ 0 < min (wrap (secs * second)) maxHint := fun hlt => hwrap (lt_min_iff.mp hlt).1
    have htarget : min (secs * second) maxHint = maxHint := min_eq_right (by omega)
    have hrest := retryHint_le rest
    have hle : paced attempt base (retryHintFromResult rest) ≤ maxHint := by
      unfold paced
      split
      · exact hrest
      · exact (min_le_right _ _).trans hlarger.le
    rw [if_neg hmin, htarget, within_iff hle hcap, or_iff_right hbig]
    have hnot : ¬ maxHint ≤ wrap (secs * second) := fun hle => hwrap (hcap.trans_le hle)
    rw [or_iff_right hnot, and_iff_right (not_lt.mp hwrap)]
    unfold paced
    split
    next => exact Iff.rfl
    next hzero =>
      have hlow : min (wrap (base * 2 ^ (attempt - 1))) maxBackoff ≤ maxBackoff := min_le_right _ _
      constructor <;> intro heq <;> omega

theorem within_of_no_hint (hbase : 0 < base) (h : firstHint texts = none) :
    (∀ draw, Draws draw → Within (target texts base attempt)
      (nextBackoff attempt base (retryHintFromResult texts) draw)) ↔ Fits texts base attempt := by
  have hpos : 0 < base * 2 ^ (attempt - 1) := mul_pos hbase (pow_pos (by decide) _)
  have hcap : 0 < maxBackoff ∧ maxBackoff < 2 ^ 63 := by
    unfold maxBackoff second
    omega
  simp only [nextBackoff_eq, target, Fits, h, retryHint_of_none h, paced, lt_self_iff_false, if_false]
  rw [within_iff (min_wrap_le hpos.le hcap.2) (lt_min hpos hcap.1), min_wrap_eq_iff hpos.le hcap.2]

def Wait.Computed (base : ℤ) (draw : ℕ → ℤ → ℤ) (w : Wait) : Prop :=
  1 ≤ w.attempt ∧ w.duration = nextBackoff w.attempt base (retryHintFromResult w.texts) (draw w.attempt)

theorem computed_retryFrom (base : ℤ) (draw : ℕ → ℤ → ℤ) (reply : ℕ → Reply) (left : ℕ) {attempt : ℕ}
    (hattempt : 1 ≤ attempt) (result : Result) :
    ∀ w ∈ (retryFrom base draw reply left attempt result).2, w.Computed base draw := by
  induction left generalizing attempt result with
  | zero => exact List.forall_mem_nil _
  | succ left ih =>
    rw [retryFrom]
    dsimp only
    split
    · exact List.forall_mem_singleton.mpr ⟨hattempt, rfl⟩
    · exact List.forall_mem_singleton.mpr ⟨hattempt, rfl⟩
    next next _ =>
      split
      · exact List.forall_mem_cons.mpr ⟨⟨hattempt, rfl⟩, ih (Nat.le_succ_of_le hattempt) next⟩
      · exact List.forall_mem_singleton.mpr ⟨hattempt, rfl⟩

theorem waits_within_iff (hbase : 0 < base) :
    (∀ retries draw reply first, ∀ w ∈ (callWithRateLimitRetry base draw reply retries first).2, w.Computed base draw) ∧
    ∀ texts attempt, (∀ draw, Draws draw → Within (target texts base attempt)
      (nextBackoff attempt base (retryHintFromResult texts) draw)) ↔ Fits texts base attempt := by
  constructor
  · intro retries draw reply first
    rw [callWithRateLimitRetry, if_neg (not_le.mpr hbase)]
    split
    · exact computed_retryFrom base draw reply retries (Nat.le_refl 1) first
    · exact List.forall_mem_nil _
  · intro texts attempt
    cases h : firstHint texts with
    | none => exact within_of_no_hint hbase h
    | some hint => exact within_of_hint h

def shortHint : List Text := ["Secondary rate limit, retry after 7 s".toList]

theorem waits_within_short : Within (target shortHint second 1) (nextBackoff 1 second (retryHintFromResult shortHint)
    fun _ => 0) := by
  have hhint : firstHint shortHint = some (7, []) := by decide +kernel
  refine ((waits_within_iff (by unfold second; omega)).2 shortHint 1).mpr ?_ _ fun bound hbound => ⟨le_refl 0, hbound⟩
  rw [Fits, hhint]
  exact .inl (by decide +kernel)

theorem long_hint_not_waited : target ["wait 9300000000 s".toList] second 1 = maxHint ∧
      nextBackoff 1 second (retryHintFromResult ["wait 9300000000 s".toList]) (fun _ => 0) = second ∧
      target [] second 35 = maxBackoff ∧ nextBackoff 35 second (retryHintFromResult []) (fun _ => 0) < 0 := by
  decide +kernel

end NomadDev.GitHub.Waits
