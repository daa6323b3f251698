import NomadDev.CommandStreams
import NomadDev.Foundation.AssocMap
import NomadDev.Foundation.PointUpdate
import Mathlib.Algebra.Order.BigOperators.Group.List
import Mathlib.Algebra.Order.Ring.Nat

namespace NomadDev.Pins

open Foundation Foundation.AssocMap Function

abbrev Bytes : Type := List UInt8

def maxPinnedFileBytes : ℕ := 256 * 1024

def maxPinnedSessionBytes : ℕ := 1024 * 1024

def maxPinnedFilesPerSID : ℕ := 32

structure Files where
  entries : List (String × Bytes)
  keyed : Keyed entries

namespace Files

def empty : Files := ⟨[], List.nodup_nil⟩

def put (s : Files) (path : String) (content : Bytes) : Files :=
  ⟨AssocMap.put s.entries path content, keyed_put s.keyed path content⟩

def erase (s : Files) (path : String) : Files := ⟨AssocMap.erase s.entries path, keyed_erase s.keyed path⟩

def bytes (s : Files) : ℕ := (s.entries.map fun f => f.2.length).sum

def bytesBeside (s : Files) (path : String) : ℕ := (s.erase path).bytes

end Files

inductive PinErr
  | fileTooLarge (path : String) (size limit : ℕ)
  | tooManyFiles (count limit : ℕ)
  | sessionTooLarge (path : String) (total limit : ℕ)

structure ReferenceBuffer where
  files : String → Option Files

namespace ReferenceBuffer

def new : ReferenceBuffer := ⟨fun _ => none⟩

variable (b : ReferenceBuffer)

def session (sid : String) : Files := (b.files sid).getD .empty

def set (sid : String) (s : Option Files) : ReferenceBuffer := ⟨update b.files sid s⟩

def aggregate (path : String) : ℕ → List (String × Bytes) → ℕ
  | total, [] => total
  | total, (p, c) :: rest => aggregate path (if p ≠ path then total + c.length else total) rest

def pin (sid path : String) (content : Bytes) : ReferenceBuffer × Option PinErr :=
  if content.length > maxPinnedFileBytes then
    (b, some (.fileTooLarge path content.length maxPinnedFileBytes))
  else
    let sess := b.session sid
    if get sess.entries path = none ∧ sess.entries.length ≥ maxPinnedFilesPerSID then
      (b, some (.tooManyFiles sess.entries.length maxPinnedFilesPerSID))
    else
      let total := aggregate path content.length sess.entries
      if total > maxPinnedSessionBytes then (b, some (.sessionTooLarge path total maxPinnedSessionBytes))
      else (b.set sid (some (sess.put path content)), none)

def unpin (sid path : String) : ReferenceBuffer × Bool :=
  match get (b.session sid).entries path with
  | none => (b, false)
  | some _ =>
    let rest := (b.session sid).erase path
    (b.set sid (if rest.entries.length = 0 then none else some rest), true)

def reset (sid : String) : ReferenceBuffer := b.set sid none

theorem aggregate_eq (path : String) (total : ℕ) (entries : List (String × Bytes)) :
    aggregate path total entries = total + ((AssocMap.erase entries path).map fun f => f.2.length).sum := by
  induction entries generalizing total with
  | nil => rfl
  | cons f rest ih =>
    obtain ⟨p, c⟩ := f
    rw [aggregate, ih]
    by_cases hp : p = path
    · simp [AssocMap.erase, hp]
    · simp [AssocMap.erase, hp, Nat.add_assoc]

theorem session_set_self (b : ReferenceBuffer) (sid : String) (s : Option Files) :
    (b.set sid s).session sid = s.getD .empty := by
  simp [session, set]

theorem files_set_of_ne (b : ReferenceBuffer) {sid other : String} (h : other ≠ sid) (s : Option Files) :
    (b.set sid s).files other = b.files other :=
  update_of_ne h _ _

structure Accepts (s : Files) (path : String) (content : Bytes) : Prop where
  file : content.length ≤ maxPinnedFileBytes
  count : (get s.entries path).isSome ∨ s.entries.length < maxPinnedFilesPerSID
  total : content.length + s.bytesBeside path ≤ maxPinnedSessionBytes

theorem pin_cases (b : ReferenceBuffer) (sid path : String) (content : Bytes) : Accepts (b.session sid) path content ∧
        b.pin sid path content = (b.set sid (some ((b.session sid).put path content)), none) ∨
      ¬ Accepts (b.session sid) path content ∧ ∃ err, b.pin sid path content = (b, some err) := by
  unfold pin
  by_cases hfile : content.length > maxPinnedFileBytes
  · rw [if_pos hfile]
    exact .inr ⟨fun h => absurd h.file (Nat.not_le.mpr hfile), _, rfl⟩
  rw [if_neg hfile]
  dsimp only
  by_cases hcount : get (b.session sid).entries path = none ∧ (b.session sid).entries.length ≥ maxPinnedFilesPerSID
  · rw [if_pos hcount]
    refine .inr ⟨fun h => ?_, _, rfl⟩
    rcases h.count with hsome | hlt
    · rw [hcount.1] at hsome
      cases hsome
    · exact absurd hlt (Nat.not_lt.mpr hcount.2)
  · rw [if_neg hcount]
    have htotal : aggregate path content.length (b.session sid).entries =
        content.length + (b.session sid).bytesBeside path := aggregate_eq _ _ _
    rw [htotal]
    by_cases hover : content.length + (b.session sid).bytesBeside path > maxPinnedSessionBytes
    · rw [if_pos hover]
      exact .inr ⟨fun h => absurd h.total (Nat.not_le.mpr hover), _, rfl⟩
    rw [if_neg hover]
    refine .inl ⟨⟨Nat.not_lt.mp hfile, ?_, Nat.not_lt.mp hover⟩, rfl⟩
    cases hget : get (b.session sid).entries path with
    | some old => exact .inl rfl
    | none => exact .inr (Nat.not_le.mp fun hge => hcount ⟨hget, hge⟩)

end ReferenceBuffer

structure WithinCaps (s : Files) : Prop where
  count : s.entries.length ≤ maxPinnedFilesPerSID
  file : ∀ f ∈ s.entries, f.2.length ≤ maxPinnedFileBytes
  total : s.bytes ≤ maxPinnedSessionBytes

namespace WithinCaps

theorem empty : WithinCaps .empty := ⟨Nat.zero_le _, fun _ h => absurd h List.not_mem_nil, Nat.zero_le _⟩

variable {s : Files}

theorem erase (h : WithinCaps s) (path : String) : WithinCaps (s.erase path) where
  count := (List.length_filter_le _ _).trans h.count
  file := fun f hf => h.file f (List.mem_of_mem_filter hf)
  total := (List.Sublist.sum_le_sum (List.filter_sublist.map _) fun _ _ => Nat.zero_le _).trans h.total

theorem put (h : WithinCaps s) {path : String} {content : Bytes} (ha : ReferenceBuffer.Accepts s path content) :
    WithinCaps (s.put path content) where
  count := by
    have hlen : (s.put path content).entries.length = (AssocMap.erase s.entries path).length + 1 := rfl
    rw [hlen]
    rcases ha.count with hsome | hlt
    · obtain ⟨old, hold⟩ := Option.isSome_iff_exists.mp hsome
      exact (length_erase_lt hold).trans_le h.count
    · exact Nat.succ_le_of_lt ((List.length_filter_le _ _).trans_lt hlt)
  file := by
    intro f hf
    rcases List.mem_cons.mp hf with rfl | hf
    · exact ha.file
    · exact h.file f (List.mem_of_mem_filter hf)
  total := ha.total

end WithinCaps

inductive Op
  | pin (sid path : String) (content : Bytes)
  | unpin (sid path : String)
  | reset (sid : String)

def Op.sid : Op → String
  | .pin sid _ _ => sid
  | .unpin sid _ => sid
  | .reset sid => sid

namespace ReferenceBuffer

def apply (b : ReferenceBuffer) : Op → ReferenceBuffer
  | .pin sid path content => (b.pin sid path content).1
  | .unpin sid path => (b.unpin sid path).1
  | .reset sid => b.reset sid

variable {b : ReferenceBuffer} {sid path : String} {content : Bytes}

theorem apply_eq_set (b : ReferenceBuffer) (op : Op) :
    b.apply op = b ∨ ∃ s, (WithinCaps (b.session op.sid) → WithinCaps (s.getD .empty)) ∧
      b.apply op = b.set op.sid s := by
  cases op with
  | pin sid path content =>
    rcases b.pin_cases sid path content with ⟨ha, hpin⟩ | ⟨-, err, hpin⟩
    · exact .inr ⟨some _, fun h => h.put ha, congrArg Prod.fst hpin⟩
    · exact .inl (congrArg Prod.fst hpin)
  | unpin sid path =>
    cases hget : get (b.session sid).entries path with
    | none => exact .inl (by simp only [apply, unpin, hget])
    | some old =>
      refine .inr ⟨_, fun h => ?_, by simp only [apply, unpin, hget]; rfl⟩
      split
      · exact .empty
      · exact h.erase path
  | reset sid => exact .inr ⟨none, fun _ => .empty, rfl⟩

theorem files_apply_of_ne (b : ReferenceBuffer) (op : Op) (hsid : sid ≠ op.sid) :
    (b.apply op).files sid = b.files sid := by
  rcases b.apply_eq_set op with hsame | ⟨s, -, hset⟩
  · rw [hsame]
  · rw [hset, files_set_of_ne b hsid]

theorem apply_withinCaps (h : ∀ sid, WithinCaps (b.session sid)) (op : Op) (sid : String) :
    WithinCaps ((b.apply op).session sid) := by
  by_cases hsid : sid = op.sid
  · rcases b.apply_eq_set op with hsame | ⟨s, hs, hset⟩
    · rw [hsame]
      exact h sid
    · rw [hset, hsid, session_set_self]
      exact hs (h op.sid)
  · rw [session, b.files_apply_of_ne op hsid]
    exact h sid

theorem foldl_withinCaps (h : ∀ sid, WithinCaps (b.session sid)) (ops : List Op) (sid : String) :
    WithinCaps ((ops.foldl apply b).session sid) := by
  induction ops generalizing b with
  | nil => exact h sid
  | cons op ops ih => exact ih (apply_withinCaps h op)

theorem pin_of_accepted (h : (b.pin sid path content).2 = none) :
    (b.pin sid path content).1.session sid = (b.session sid).put path content := by
  rcases b.pin_cases sid path content with ⟨-, hpin⟩ | ⟨-, err, hpin⟩
  · rw [hpin]
    exact session_set_self b sid _
  · rw [hpin] at h
    cases h

theorem pin_accepted_iff (b : ReferenceBuffer) (sid path : String) (content : Bytes) :
    (b.pin sid path content).2 = none ↔ Accepts (b.session sid) path content := by
  rcases b.pin_cases sid path content with ⟨ha, hpin⟩ | ⟨hna, err, hpin⟩
  · rw [hpin]
    exact iff_of_true rfl ha
  · rw [hpin]
    exact iff_of_false (fun h => nomatch h) hna

theorem pin_of_refused {err : PinErr} (h : (b.pin sid path content).2 = some err) : (b.pin sid path content).1 = b := by
  rcases b.pin_cases sid path content with ⟨-, hpin⟩ | ⟨-, err', hpin⟩
  · rw [hpin] at h
    cases h
  · rw [hpin]

theorem referenceBuffer_sound (ops : List Op) : (∀ sid, WithinCaps ((ops.foldl apply new).session sid)) ∧
    (∀ sid path content err, ((ops.foldl apply new).pin sid path content).2 = some err →
      ((ops.foldl apply new).pin sid path content).1 = ops.foldl apply new) ∧
    (∀ sid path content, ((ops.foldl apply new).pin sid path content).2 = none ↔
      Accepts ((ops.foldl apply new).session sid) path content) ∧
    (∀ sid path content, ((ops.foldl apply new).pin sid path content).2 = none →
      (((ops.foldl apply new).pin sid path content).1.session sid).bytes =
          content.length + ((ops.foldl apply new).session sid).bytesBeside path ∧
        ∀ other, get (((ops.foldl apply new).pin sid path content).1.session sid).entries other =
          if other = path then some content else get ((ops.foldl apply new).session sid).entries other) ∧
    ∀ op sid, sid ≠ op.sid → ((ops.foldl apply new).apply op).files sid = (ops.foldl apply new).files sid := by
  refine ⟨foldl_withinCaps (b := new) (fun _ => .empty) ops, fun sid path content err => pin_of_refused,
    fun sid path content => pin_accepted_iff _ sid path content, ?_, fun op sid => files_apply_of_ne _ op⟩
  intro sid path content haccepted
  rw [pin_of_accepted haccepted]
  refine ⟨rfl, fun other => ?_⟩
  split
  next hother =>
    rw [hother]
    exact get_put_self _ path content
  next hother => exact get_put_of_ne _ content hother

end ReferenceBuffer

end NomadDev.Pins
