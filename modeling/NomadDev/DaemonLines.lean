import Mathlib.Data.Int.Notation
import NomadDev.Foundation.LossMarks
import NomadDev.Foundation.PointUpdate
import NomadDev.Foundation.Transition
import NomadDev.Foundation.Utf8

namespace NomadDev.DaemonLogs

open Foundation.LossMarks Foundation.PointUpdate Foundation.Transition Function List

def daemonLineCap : ℕ := 16 * 1024

def daemonChanBuf : ℕ := 256

inductive Pipe
  | stdout | stderr
  deriving DecidableEq

inductive Reason
  | none | lineCap | bufferOverflow | exited | killed
  deriving DecidableEq

structure LogLine where
  stream : Option Pipe
  data : List UInt8
  closed : Bool
  exitCode : ℤ
  reason : Reason
  deriving DecidableEq

def dropCR (b : List UInt8) : List UInt8 := if b.getLast? = some 13 then b.dropLast else b

def split (max : ℕ) (data : List UInt8) (atEOF : Bool) : Option (ℕ × List UInt8 × Bool) :=
  if atEOF && data.isEmpty then none
  else if (data.idxOf? 10).any (· ≤ max) then some (data.idxOf 10 + 1, dropCR (data.take (data.idxOf 10)), false)
  else if max ≤ data.length then some (max, data.take max, true)
  else if atEOF then some (data.length, dropCR data, false)
  else none

/-- `unread` is what the scanner has buffered; `marking` is the place in `sendLine` between the line's send that failed
and the marker's, and `scanned` counts the lines so far. -/
structure Scanner where
  unread : List UInt8
  (atEOF overflowed marking : Bool)
  scanned : ℕ

structure Queued where
  line : LogLine
  index : ℕ

structure SystemLogEvent where
  stream : Option Pipe
  seq : ℕ
  line : List UInt8
  closed : Bool
  exitCode : ℤ
  reason : Reason

/-- `frames` are the events the client has got, each with the number of its line; `handled` is what the streaming
goroutine has taken from the channel and whether it got through. -/
structure State where
  scanners : Pipe → Scanner
  lines : List Queued
  closed : Bool
  seq : Option Pipe → ℕ
  frames : List (SystemLogEvent × ℕ)
  handled : List (Queued × Bool)

def init : State where
  scanners := fun _ => ⟨[], false, false, false, 0⟩
  lines := []
  closed := false
  seq := fun _ => 0
  frames := []
  handled := []

inductive Action
  | read (p : Pipe) (bytes : List UInt8)
  | eof (p : Pipe)
  | scan (p : Pipe)
  | mark (p : Pipe)
  | terminal (exitCode : ℤ) (stopped sent : Bool)
  | stream (built sent : Bool)

namespace State

def set (s : State) (p : Pipe) (sc : Scanner) : State := { s with scanners := update s.scanners p sc }

def HasRoom (s : State) : Prop := s.lines.length < daemonChanBuf

instance (s : State) : Decidable s.HasRoom := inferInstanceAs (Decidable (_ < _))

def push (s : State) (q : Queued) : State := { s with lines := s.lines ++ [q] }

end State

def lineOf (p : Pipe) (token : List UInt8) (capped : Bool) : LogLine :=
  ⟨some p, token, false, 0, if capped then .lineCap else .none⟩

def markerOf (p : Pipe) : LogLine := ⟨some p, [], false, 0, .bufferOverflow⟩

variable (s : State)

def sendLine (p : Pipe) (sc : Scanner) (ll : LogLine) : State :=
  let sc' := { sc with scanned := sc.scanned + 1 }
  if s.HasRoom then (s.push ⟨ll, sc.scanned⟩).set p { sc' with overflowed := false }
  else if sc.overflowed then s.set p sc'
  else s.set p { sc' with overflowed := true, marking := true }

def Scanner.Done (sc : Scanner) : Prop := sc.atEOF = true ∧ sc.unread = [] ∧ sc.marking = false

instance (sc : Scanner) : Decidable sc.Done := inferInstanceAs (Decidable (_ ∧ _ ∧ _))

def systemLogEvent (seq : ℕ) (ll : LogLine) : SystemLogEvent :=
  ⟨ll.stream, seq, Foundation.Utf8.toValid ll.data, ll.closed, ll.exitCode, ll.reason⟩

def step : Action → Option State
  | .read p bytes =>
    if (s.scanners p).atEOF then none
    else some (s.set p { s.scanners p with unread := (s.scanners p).unread ++ bytes })
  | .eof p => some (s.set p { s.scanners p with atEOF := true })
  | .scan p =>
    if (s.scanners p).marking then none
    else match split daemonLineCap (s.scanners p).unread (s.scanners p).atEOF with
      | some (advance, token, capped) =>
        some (sendLine s p { s.scanners p with unread := (s.scanners p).unread.drop advance } (lineOf p token capped))
      | none => none
  | .mark p =>
    if (s.scanners p).marking then
      some ((if s.HasRoom then s.push ⟨markerOf p, 0⟩ else s).set p { s.scanners p with marking := false })
    else none
  | .terminal exitCode stopped sent =>
    if (s.scanners .stdout).Done ∧ (s.scanners .stderr).Done ∧ s.closed = false then
      if sent then
        if s.HasRoom then
          some { s.push ⟨⟨none, [], true, exitCode, if stopped then .killed else .exited⟩, 0⟩ with closed := true }
        else none
      else some { s with closed := true }
    else none
  | .stream built sent =>
    match s.lines with
    | q :: rest =>
      some { s with
        lines := rest
        seq := update s.seq q.line.stream (s.seq q.line.stream + 1)
        frames :=
          if built && sent then s.frames ++ [(systemLogEvent (s.seq q.line.stream) q.line, q.index)] else s.frames
        handled := s.handled ++ [(q, built && sent)] }
    | [] => none

def itemOf (reason : Reason) (index : ℕ) : Item := if reason = .bufferOverflow then .marker else .line index

def Queued.item (q : Queued) : Item := itemOf q.line.reason q.index

def framesOf (p : Pipe) (frames : List (SystemLogEvent × ℕ)) : List Frame :=
  (frames.filter fun f => f.1.stream = some p).map fun f => ⟨f.1.seq, itemOf f.1.reason f.2⟩

def LossSeen : Prop := ∀ p, Explained .start (framesOf p s.frames)

def MarkerFits : Action → Prop
  | .mark _ => s.HasRoom
  | _ => True

instance (s : State) : (a : Action) → Decidable (MarkerFits s a)
  | .mark _ => inferInstanceAs (Decidable s.HasRoom)
  | .read _ _ => inferInstanceAs (Decidable True)
  | .eof _ => inferInstanceAs (Decidable True)
  | .scan _ => inferInstanceAs (Decidable True)
  | .terminal _ _ _ => inferInstanceAs (Decidable True)
  | .stream _ _ => inferInstanceAs (Decidable True)

section

variable {s t : State} {p : Pipe} {q : Queued} {sc : Scanner} {a : Action}

def itemsOf (p : Pipe) (qs : List Queued) : List Item := (qs.filter fun q => q.line.stream = some p).map Queued.item

def handledOf (p : Pipe) (hs : List (Queued × Bool)) : List (Item × Bool) :=
  (hs.filter fun h => h.1.line.stream = some p).map fun h => (h.1.item, h.2)

theorem itemsOf_append (qs rs : List Queued) : itemsOf p (qs ++ rs) = itemsOf p qs ++ itemsOf p rs := by
  simp [itemsOf]

theorem itemsOf_singleton (q : Queued) : itemsOf p [q] = if q.line.stream = some p then [q.item] else [] := by
  by_cases h : q.line.stream = some p
  · simp [itemsOf, h]
  · simp [itemsOf, h]

theorem map_handledOf (hs : List (Queued × Bool)) : (handledOf p hs).map Prod.fst = itemsOf p (hs.map Prod.fst) := by
  simp [handledOf, itemsOf, filter_map, Function.comp_def]

def passed (s : State) (p : Pipe) : List Item := itemsOf p (s.handled.map Prod.fst ++ s.lines)

def markOf (s : State) (p : Pipe) : Mark := (passed s p).foldl Mark.after .start

theorem passed_set (sc : Scanner) (r : Pipe) : passed (s.set p sc) r = passed s r := rfl

theorem passed_push (q : Queued) :
    passed (s.push q) p = passed s p ++ if q.line.stream = some p then [q.item] else [] := by
  rw [passed, State.push, ← append_assoc, itemsOf_append, itemsOf_singleton]
  rfl

structure Counted (s : State) : Prop where
  seq : ∀ p, s.seq (some p) = (handledOf p s.handled).length
  frames : ∀ p, framesOf p s.frames = delivered 0 (handledOf p s.handled)

theorem counted_init : Counted init where
  seq := fun _ => rfl
  frames := fun _ => rfl

theorem handledOf_append (hs ks : List (Queued × Bool)) :
    handledOf p (hs ++ ks) = handledOf p hs ++ handledOf p ks := by
  simp [handledOf]

theorem Counted.stream (hc : Counted s) {rest : List Queued} (hl : s.lines = q :: rest) {built sent : Bool}
    (h : step s (.stream built sent) = some t) : Counted t := by
  simp only [step, hl, Option.some.injEq] at h
  subst h
  constructor
  · intro p
    rw [handledOf_append, length_append, ← hc.seq]
    by_cases hq : q.line.stream = some p
    · simp [handledOf, hq]
    · simp [handledOf, hq, update_of_ne (Ne.symm hq)]
  · intro p
    rw [handledOf_append, delivered_append, Nat.zero_add, ← hc.frames, ← hc.seq]
    by_cases hq : q.line.stream = some p
    · cases hb : built && sent with
      | true => simp [framesOf, handledOf, hq, delivered, systemLogEvent, Queued.item]
      | false => simp [framesOf, handledOf, hq, delivered]
    · cases hb : built && sent with
      | true => simp [framesOf, handledOf, hq, delivered, systemLogEvent]
      | false => simp [framesOf, handledOf, hq, delivered]

structure Marked (s : State) : Prop where
  chain : ∀ p, Chain .start (passed s p)
  clear : ∀ p, (s.scanners p).overflowed = false →
    (s.scanners p).marking = false ∧ (markOf s p).next = (s.scanners p).scanned
  warned : ∀ p, (s.scanners p).overflowed = true → (s.scanners p).marking = false → (markOf s p).marked = true

theorem marked_init : Marked init where
  chain := fun _ => trivial
  clear := fun _ _ => ⟨rfl, rfl⟩
  warned := by simp [init]

def Tallies (m : Mark) (sc : Scanner) : Prop :=
  (sc.overflowed = false → sc.marking = false ∧ m.next = sc.scanned) ∧
    (sc.overflowed = true → sc.marking = false → m.marked = true)

theorem Marked.tallies (hm : Marked s) (p : Pipe) : Tallies (markOf s p) (s.scanners p) := ⟨hm.clear p, hm.warned p⟩

theorem marked_of_tallies (hc : ∀ p, Chain .start (passed s p)) (ht : ∀ p, Tallies (markOf s p) (s.scanners p)) :
    Marked s := ⟨hc, fun p => (ht p).1, fun p => (ht p).2⟩

theorem Marked.set (hm : Marked s) (ht : Tallies (markOf s p) sc) : Marked (s.set p sc) := by
  apply marked_of_tallies
  · exact hm.chain
  · exact update_of_forall (P := fun p sc => Tallies (markOf s p) sc) ht fun q _ => hm.tallies q

theorem Marked.push (hm : Marked s) (hq : q.line.stream = some p) (ha : (markOf s p).Allows q.item)
    (ht : Tallies ((markOf s p).after q.item) sc) : Marked ((s.push q).set p sc) := by
  have hpassed : ∀ r, passed ((s.push q).set p sc) r = passed s r ++ if q.line.stream = some r then [q.item] else [] :=
    fun r => (passed_set sc r).trans (passed_push q)
  have hmark : ∀ r, markOf ((s.push q).set p sc) r = if r = p then (markOf s p).after q.item else markOf s r := by
    intro r
    rw [markOf, hpassed, hq]
    by_cases hr : r = p
    · subst hr
      simp [markOf]
    · simp [markOf, hr, Ne.symm hr]
  apply marked_of_tallies
  · intro r
    rw [hpassed, hq]
    by_cases hr : r = p
    · subst hr
      rw [if_pos rfl]
      exact chain_snoc (hm.chain r) ha
    · rw [if_neg (by simpa using Ne.symm hr), append_nil]
      exact hm.chain r
  · intro r
    rw [hmark]
    refine update_of_forall (P := fun r sc => Tallies (if r = p then (markOf s p).after q.item else markOf s r) sc)
      ?_ ?_ r
    · rw [if_pos rfl]
      exact ht
    · intro r hr
      rw [if_neg hr]
      exact hm.tallies r

theorem lineOf_item (p : Pipe) (token : List UInt8) (capped : Bool) (n : ℕ) :
    (⟨lineOf p token capped, n⟩ : Queued).item = .line n := by
  cases capped <;> rfl

theorem Marked.sendLine (hm : Marked s) {token : List UInt8} {capped : Bool}
    (ho : sc.overflowed = (s.scanners p).overflowed) (hk : sc.marking = false) (hk' : (s.scanners p).marking = false)
    (hn : sc.scanned = (s.scanners p).scanned) : Marked (sendLine s p sc (lineOf p token capped)) := by
  have hcl := hm.clear p
  have hwa := hm.warned p
  unfold DaemonLogs.sendLine
  split
  · apply hm.push rfl
    · rw [lineOf_item]
      cases hov : (s.scanners p).overflowed with
      | false => exact .inl (hn.trans (hcl hov).2.symm)
      | true => exact .inr (hwa hov hk')
    · rw [lineOf_item]
      refine ⟨fun _ => ⟨hk, rfl⟩, ?_⟩
      nofun
  · split
    · next hov =>
      apply hm.set
      refine ⟨?_, fun _ _ => hwa (ho ▸ hov) hk'⟩
      intro h
      cases hov.symm.trans h
    · apply hm.set
      constructor
      · nofun
      · nofun

theorem Marked.mark (hm : Marked s) (hr : s.HasRoom) (hk : (s.scanners p).marking = true) :
    Marked ((if s.HasRoom then s.push ⟨markerOf p, 0⟩ else s).set p { s.scanners p with marking := false }) := by
  rw [if_pos hr]
  apply hm.push rfl
  · trivial
  · refine ⟨?_, fun _ _ => rfl⟩
    intro ho
    cases hk.symm.trans (hm.clear p ho).1

theorem Marked.same (hm : Marked s) (hp : ∀ p, passed t p = passed s p) (hs : t.scanners = s.scanners) : Marked t := by
  apply marked_of_tallies
  · intro p
    rw [hp]
    exact hm.chain p
  · intro p
    rw [markOf, hp, hs]
    exact hm.tallies p

theorem marked_step (hok : MarkerFits s a) (h : step s a = some t) (hm : Marked s) : Marked t := by
  cases a with
  | read p bytes =>
    obtain ⟨-, h⟩ := Option.ite_none_left_eq_some.mp h
    cases h
    exact hm.set (hm.tallies p)
  | eof p =>
    cases h
    exact hm.set (hm.tallies p)
  | scan p =>
    obtain ⟨hk, h⟩ := Option.ite_none_left_eq_some.mp h
    rw [Bool.not_eq_true] at hk
    split at h <;> cases h
    exact hm.sendLine rfl hk hk rfl
  | mark p =>
    obtain ⟨hk, h⟩ := Option.ite_none_right_eq_some.mp h
    cases h
    exact hm.mark hok hk
  | terminal exitCode stopped sent =>
    obtain ⟨-, h⟩ := Option.ite_none_right_eq_some.mp h
    split at h
    · obtain ⟨-, h⟩ := Option.ite_none_right_eq_some.mp h
      cases h
      refine hm.same (fun p => ?_) rfl
      change passed (s.push _) p = passed s p
      rw [passed_push, if_neg (by simp), append_nil]
    · cases h
      exact hm.same (fun _ => rfl) rfl
  | stream built sent =>
    cases hl : s.lines with
    | nil => simp [step, hl] at h
    | cons q rest =>
      simp only [step, hl, Option.some.injEq] at h
      subst h
      refine hm.same (fun p => ?_) rfl
      simp [passed, hl]

theorem counted_step (h : step s a = some t) (hc : Counted s) : Counted t := by
  cases a with
  | read p bytes =>
    obtain ⟨-, h⟩ := Option.ite_none_left_eq_some.mp h
    cases h
    exact { hc with }
  | eof p =>
    cases h
    exact { hc with }
  | scan p =>
    obtain ⟨-, h⟩ := Option.ite_none_left_eq_some.mp h
    split at h <;> cases h
    unfold sendLine
    split
    · exact { hc with }
    · split
      · exact { hc with }
      · exact { hc with }
  | mark p =>
    obtain ⟨-, h⟩ := Option.ite_none_right_eq_some.mp h
    cases h
    split
    · exact { hc with }
    · exact { hc with }
  | terminal exitCode stopped sent =>
    obtain ⟨-, h⟩ := Option.ite_none_right_eq_some.mp h
    split at h
    · obtain ⟨-, h⟩ := Option.ite_none_right_eq_some.mp h
      cases h
      exact { hc with }
    · cases h
      exact { hc with }
  | stream built sent =>
    cases hl : s.lines with
    | nil => simp [step, hl] at h
    | cons q rest => exact hc.stream hl h

end

theorem losses_seen {acts : List Action} {s : State} (h : Steps step MarkerFits init acts s) : LossSeen s := by
  have hm : Marked s := h.preserves (fun _ _ _ => marked_step) marked_init
  have hc : Counted s := h.preserves (fun _ _ _ _ => counted_step) counted_init
  intro p
  rw [hc.frames p]
  apply explained_delivered (m := .start)
  · rw [map_handledOf]
    have hall := hm.chain p
    rw [passed, itemsOf_append] at hall
    exact chain_left hall
  · exact Nat.le_refl 0
  · intro _
    exact .inl rfl

def filled (n k : ℕ) : State :=
  { init with
    scanners := update init.scanners .stdout ⟨List.replicate k 10, false, false, false, n⟩
    lines := (List.range n).map fun i => ⟨lineOf .stdout [] false, i⟩ }

theorem split_newlines (k : ℕ) : split daemonLineCap (List.replicate (k + 1) 10) false = some (1, [], false) := by
  simp [split, replicate_succ, List.idxOf?, List.findIdx?_cons, dropCR]

theorem step_filled {n k : ℕ} (h : n < daemonChanBuf) :
    step (filled n (k + 1)) (.scan .stdout) = some (filled (n + 1) k) := by
  have hroom : (filled n (k + 1)).HasRoom := by simpa [filled, State.HasRoom] using h
  have hsplit : split daemonLineCap ((filled n (k + 1)).scanners .stdout).unread
      ((filled n (k + 1)).scanners .stdout).atEOF = some (1, [], false) := split_newlines k
  simp only [step, hsplit, sendLine, if_pos hroom]
  simp [filled, State.push, State.set, range_succ, replicate_succ]

section

variable {f : State → Action → Option State}
  (hf : ∀ a, a = .scan .stdout ∨ (∃ b, a = .read .stdout b) → (f · a) = (step · a))

include hf

theorem run_filled (n k : ℕ) (h : n ≤ daemonChanBuf) (rest : List Action) :
    run f (filled 0 (n + k)) (List.replicate n (.scan .stdout) ++ rest) = run f (filled n k) rest := by
  induction n generalizing k rest with
  | zero => simp
  | succ n ih =>
    have hsum : n + 1 + k = n + (k + 1) := by omega
    have hscan : f (filled n (k + 1)) (.scan .stdout) = some (filled (n + 1) k) :=
      (congrFun (hf _ (.inl rfl)) _).trans (step_filled (by omega))
    rw [replicate_succ', append_assoc, hsum, ih (k + 1) (by omega), singleton_append, run, hscan]
    rfl

theorem run_filling (n k : ℕ) (h : n ≤ daemonChanBuf) (rest : List Action) :
    run f init (.read .stdout (List.replicate (n + k) 10) :: (List.replicate n (.scan .stdout) ++ rest)) =
      run f (filled n k) rest := by
  have hread : f init (.read .stdout (List.replicate (n + k) 10)) = some (filled 0 (n + k)) :=
    congrFun (hf _ (.inr ⟨_, rfl⟩)) _
  rw [run, hread]
  exact run_filled hf n k h rest

end

def filling : List Action :=
  .read .stdout (List.replicate (daemonChanBuf + 2) 10) :: List.replicate daemonChanBuf (.scan .stdout)

def drained : List Action := List.replicate daemonChanBuf (.stream true true)

theorem losses_seen_marked : ∃ s, Steps step MarkerFits init
        (filling ++
          ([.scan .stdout, .stream true true, .mark .stdout, .stream true true, .scan .stdout] ++ drained)) s ∧
      s.frames.length = 258 ∧ LossSeen s := by
  obtain ⟨s, hs, hlen⟩ : ∃ s, run (checked step MarkerFits) (filled daemonChanBuf 2) ([.scan .stdout,
      .stream true true, .mark .stdout, .stream true true, .scan .stdout] ++ drained) = some s ∧ s.frames.length = 258 :=
    exists_run_of_any (by decide +kernel)
  have hsame : ∀ a, a = .scan .stdout ∨ (∃ b, a = .read .stdout b) →
      (checked step MarkerFits · a) = (step · a) := by
    rintro a (rfl | ⟨b, rfl⟩) <;> rfl
  have hsteps := steps_of_checked ((run_filling hsame daemonChanBuf 2 (Nat.le_refl _) _).trans hs)
  exact ⟨s, hsteps, hlen, losses_seen hsteps⟩

theorem lost_line_unseen :
    ∃ s, run step init (filling ++ ([.scan .stdout, .mark .stdout, .stream true true, .scan .stdout] ++ drained)) =
        some s ∧
      (framesOf .stdout s.frames).drop 255 = [⟨255, .line 255⟩, ⟨256, .line 257⟩] ∧ ¬ LossSeen s := by
  obtain ⟨s, hs, hlast, hno⟩ : ∃ s, run step (filled daemonChanBuf 2) ([.scan .stdout, .mark .stdout,
      .stream true true, .scan .stdout] ++ drained) = some s ∧
        (framesOf .stdout s.frames).drop 255 = [⟨255, .line 255⟩, ⟨256, .line 257⟩] ∧
        ¬ Explained .start (framesOf .stdout s.frames) := exists_run_of_any (by decide +kernel)
  exact ⟨s, (run_filling (fun _ _ => rfl) daemonChanBuf 2 (Nat.le_refl _) _).trans hs, hlast,
    fun hseen => hno (hseen .stdout)⟩

end NomadDev.DaemonLogs
