import NomadDev.Foundation.Lines
import NomadDev.Foundation.Transition

/-!
`Log` writes under the sink's lock, and `Reopen` holds it from the close of the old file to the open of the new one.
-/

namespace NomadDev.Audit

open Foundation.Lines Foundation.Transition Function List

abbrev Bytes : Type := List UInt8

def newline : UInt8 := 10

structure Event (β : Type) where
  time : Option ℤ
  fields : β

/-- `json.Marshal` of an event whose time is set. It writes no newline. -/
structure Marshal (β : Type) where
  encode : ℤ → β → Option Bytes
  one_line : ∀ {time fields b}, encode time fields = some b → newline ∉ b

-- The code does not keep what was logged while the sink held a file: the line of each event, if it has one.
structure File where
  content : Bytes
  logged : List (Option Bytes)

structure State where
  files : ℕ → File
  path : Option ℕ
  (next fd : ℕ)
  isOpen : Bool

inductive Action (β : Type)
  | log (e : Event β) (now : ℤ)
  | reopen (opens : Bool)
  | move (file : Option ℕ)

def Event.line {β : Type} (m : Marshal β) (e : Event β) (now : ℤ) : Option Bytes := m.encode (e.time.getD now) e.fields

def File.log (f : File) (isOpen : Bool) (line : Option Bytes) : File where
  content := match line with
    | some b => if isOpen then f.content ++ (b ++ [newline]) else f.content
    | none => f.content
  logged := f.logged ++ [line]

-- `O_CREATE` makes an empty file where the path leads to none.
def State.openPath (s : State) : State :=
  match s.path with
  | some file => { s with fd := file, isOpen := true }
  | none => { s with path := some s.next, next := s.next + 1, fd := s.next, isOpen := true }

variable {β : Type} (m : Marshal β)

def step (s : State) : Action β → Option State
  | .log e now => some { s with files := update s.files s.fd ((s.files s.fd).log s.isOpen (e.line m now)) }
  | .reopen opens => some (if opens then s.openPath else { s with isOpen := false })
  | .move file => if file.all (· < s.next) then some { s with path := file } else none

def opened (contents : ℕ → Bytes) (path : Option ℕ) (next : ℕ) : State :=
  State.openPath ⟨fun i => ⟨contents i, []⟩, path, next, 0, false⟩

def lines (b : Bytes) : List (Option Bytes) := (completed newline b).map some

def File.Recorded (old : Bytes) (f : File) : Prop := lines f.content = lines old ++ f.logged

def Recorded (contents : ℕ → Bytes) (s : State) : Prop := ∀ i, (s.files i).Recorded (contents i)

def Writable (s : State) : Action β → Prop
  | .log e now =>
    s.isOpen = true ∧ (e.line m now).isSome = true ∧ fragment newline (s.files s.fd).content = []
  | _ => True

section Files

variable {old b : Bytes} {f : File} {isOpen : Bool} {line : Option Bytes}

theorem lines_append_line (hb : newline ∉ b) (old : Bytes) :
    lines (old ++ (b ++ [newline])) = lines old ++ [some (fragment newline old ++ b)] := by
  have hline : newline ∉ fragment newline old ++ b := by
    rw [mem_append, not_or]
    exact ⟨not_mem_fragment old, hb⟩
  rw [lines, completed_append, ← append_assoc, completed_line hline, map_append]
  rfl

def File.Bounded (old : Bytes) (f : File) : Prop := (lines f.content).length ≤ (lines old).length + f.logged.length

theorem log_unwritten (h : isOpen = false ∨ line = none) : f.log isOpen line = ⟨f.content, f.logged ++ [line]⟩ := by
  rcases h with rfl | rfl
  · cases line <;> rfl
  · rfl

theorem log_written : f.log true (some b) = ⟨f.content ++ (b ++ [newline]), f.logged ++ [some b]⟩ := rfl

theorem log_cases (isOpen : Bool) (line : Option Bytes) :
    (isOpen = false ∨ line = none) ∨ isOpen = true ∧ ∃ b, line = some b := by
  cases isOpen with
  | false => exact .inl (.inl rfl)
  | true =>
    cases line with
    | none => exact .inl (.inr rfl)
    | some b => exact .inr ⟨rfl, b, rfl⟩

theorem File.Bounded.log (h : f.Bounded old) (hline : ∀ b, line = some b → newline ∉ b) :
    (f.log isOpen line).Bounded old := by
  unfold File.Bounded at h ⊢
  rcases log_cases isOpen line with hlost | ⟨rfl, b, rfl⟩
  · simp only [log_unwritten hlost, length_append, length_singleton]
    omega
  · simp only [log_written, lines_append_line (hline b rfl), length_append, length_singleton]
    omega

theorem recorded_log_iff (h : f.Bounded old) (hline : ∀ b, line = some b → newline ∉ b) :
    (f.log isOpen line).Recorded old ↔
      f.Recorded old ∧ isOpen = true ∧ line.isSome = true ∧ fragment newline f.content = [] := by
  unfold File.Recorded
  rcases log_cases isOpen line with hlost | ⟨rfl, b, rfl⟩
  · apply iff_of_false
    · intro heq
      have hlength := congrArg List.length heq
      unfold File.Bounded at h
      simp only [log_unwritten hlost, length_append, length_singleton] at hlength
      omega
    · rintro ⟨-, rfl, hsome, -⟩
      rcases hlost with hclosed | rfl
      · cases hclosed
      · cases hsome
  · rw [log_written, lines_append_line (hline b rfl), ← append_assoc, append_singleton_inj]
    simp

end Files

variable {m} {contents : ℕ → Bytes} {s : State}

theorem files_openPath (s : State) : s.openPath.files = s.files := by
  unfold State.openPath
  split
  · rfl
  · rfl

theorem files_step {a : Action β} {t : State} (hstep : step m s a = some t) :
    (∃ e now, a = .log e now ∧ t.files = update s.files s.fd ((s.files s.fd).log s.isOpen (e.line m now))) ∨
      t.files = s.files ∧ Writable m s a := by
  cases a with
  | log e now =>
    cases hstep
    exact .inl ⟨e, now, rfl, rfl⟩
  | reopen opens =>
    cases hstep
    refine .inr ⟨?_, trivial⟩
    split
    · exact files_openPath s
    · rfl
  | move file =>
    obtain ⟨-, ⟨⟩⟩ := Option.ite_none_right_eq_some.mp hstep
    exact .inr ⟨rfl, trivial⟩

theorem line_no_newline (e : Event β) (now : ℤ) (b : Bytes) (h : e.line m now = some b) : newline ∉ b := m.one_line h

theorem bounded_step (s : State) (a : Action β) (t : State) (hstep : step m s a = some t)
    (h : ∀ i, (s.files i).Bounded (contents i)) : ∀ i, (t.files i).Bounded (contents i) := by
  rcases files_step hstep with ⟨e, now, -, hfiles⟩ | ⟨hfiles, -⟩
  · rw [hfiles, forall_update_iff s.files fun i f => f.Bounded (contents i)]
    exact ⟨(h s.fd).log (line_no_newline e now), fun i _ => h i⟩
  · rw [hfiles]
    exact h

theorem recorded_step (s : State) (a : Action β) (t : State) (h : ∀ i, (s.files i).Bounded (contents i))
    (hstep : step m s a = some t) : Recorded contents t ↔ Recorded contents s ∧ Writable m s a := by
  rcases files_step hstep with ⟨e, now, rfl, hfiles⟩ | ⟨hfiles, hwritable⟩
  · rw [Recorded, hfiles, forall_update_iff s.files fun i f => f.Recorded (contents i),
      recorded_log_iff (h s.fd) (line_no_newline e now)]
    constructor
    · rintro ⟨⟨hfd, hwritable⟩, hother⟩
      refine ⟨fun i => ?_, hwritable⟩
      by_cases hi : i = s.fd
      · rw [hi]
        exact hfd
      · exact hother i hi
    · rintro ⟨hall, hwritable⟩
      exact ⟨⟨hall s.fd, hwritable⟩, fun i _ => hall i⟩
  · rw [Recorded, hfiles]
    exact (and_iff_left hwritable).symm

theorem events_recorded_iff (path : Option ℕ) (next : ℕ) {acts : List (Action β)}
    (hrun : run (step m) (opened contents path next) acts = some s) :
    Recorded contents s ↔ Steps (step m) (Writable m) (opened contents path next) acts s := by
  have hfiles : (opened contents path next).files = fun i => ⟨contents i, []⟩ := files_openPath _
  apply iff_steps_of_run_of_inv bounded_step recorded_step hrun
  · intro i
    rw [hfiles]
    exact Nat.le_refl _
  · intro i
    rw [hfiles]
    exact (append_nil _).symm

def plain : Marshal Bytes where
  encode _ b := if newline ∈ b then none else some b
  one_line := by
    intro time fields b h
    obtain ⟨hb, ⟨⟩⟩ := Option.ite_none_left_eq_some.mp h
    exact hb

def rotation (opens : Bool) : List (Action Bytes) :=
  [.log ⟨none, [97]⟩ 0, .move none, .reopen opens, .log ⟨none, [98]⟩ 1]

theorem events_recorded_rotation :
    ∃ s, run (step plain) (opened (fun _ => []) none 0) (rotation true) = some s ∧ Recorded (fun _ => []) s := by
  refine ⟨_, rfl, (events_recorded_iff none 0 (show run (step plain) _ (rotation true) = some _ from rfl)).mpr ?_⟩
  exact .cons ⟨rfl, rfl, rfl⟩ rfl (.cons trivial rfl (.cons trivial rfl (.cons ⟨rfl, rfl, rfl⟩ rfl (.nil _))))

theorem failed_reopen_loses_event : ∃ s, run (step plain) (opened (fun _ => []) none 0) (rotation false) = some s ∧
      (s.files 0).content = [97, newline] ∧ (s.files 0).logged = [some [97], some [98]] ∧
      ¬Recorded (fun _ => []) s := by
  refine ⟨_, rfl, by decide, by decide, fun h => ?_⟩
  exact absurd (h 0) (by unfold File.Recorded; decide)

end NomadDev.Audit
