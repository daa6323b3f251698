import Mathlib.Data.List.Basic

namespace Foundation.UnifiedDiff

open List

variable {L : Type*}

inductive Mark
  | context | removed | added
  deriving DecidableEq

structure Hunk (L : Type*) where
  (oldStart oldCount newStart newCount : ℕ)
  rows : List (Mark × L)

def listed (p : Mark → Bool) (rows : List (Mark × L)) : List L := (rows.filter fun r => p r.1).map Prod.snd

namespace Hunk

def old (h : Hunk L) : List L := listed (· ≠ .added) h.rows

def new (h : Hunk L) : List L := listed (· ≠ .removed) h.rows

def apply [DecidableEq L] (h : Hunk L) (lines : List L) : Option (List L) :=
  let before := lines.take (h.oldStart - 1)
  let rest := lines.drop (h.oldStart - 1)
  if before.length + 1 = h.oldStart ∧ h.old <+: rest then some (before ++ h.new ++ rest.drop h.old.length) else none

structure Correct [DecidableEq L] (h : Hunk L) (lines lines' : List L) : Prop where
  oldCount : h.oldCount = h.old.length
  newCount : h.newCount = h.new.length
  applies : h.apply lines = some lines'
  newStart : h.new <+: lines'.drop (h.newStart - 1)

end Hunk

def marked (m : Mark) (lines : List L) : List (Mark × L) := lines.map fun l => (m, l)

def editHunk (n : ℕ) (before removed added after : List L) : Hunk L :=
  let lead := before.drop (before.length - n)
  let trail := after.take n
  { oldStart := before.length - n + 1
    oldCount := lead.length + removed.length + trail.length
    newStart := before.length - n + 1
    newCount := lead.length + added.length + trail.length
    rows := marked .context lead ++ marked .removed removed ++ marked .added added ++ marked .context trail }

theorem listed_append (p : Mark → Bool) (xs ys : List (Mark × L)) :
    listed p (xs ++ ys) = listed p xs ++ listed p ys := by
  rw [listed, filter_append, map_append]
  rfl

theorem listed_marked (p : Mark → Bool) (m : Mark) (lines : List L) :
    listed p (marked m lines) = if p m then lines else [] := by
  rw [listed, marked, filter_map, map_map]
  split
  next h => simp [Function.comp_def, h]
  next h => simp [Function.comp_def, h]

section Edit

variable (n : ℕ) (before removed added after : List L)

theorem editHunk_old : (editHunk n before removed added after).old =
    before.drop (before.length - n) ++ removed ++ after.take n := by
  simp [Hunk.old, editHunk, listed_append, listed_marked]

theorem editHunk_new : (editHunk n before removed added after).new =
    before.drop (before.length - n) ++ added ++ after.take n := by
  simp [Hunk.new, editHunk, listed_append, listed_marked]

theorem editHunk_correct [DecidableEq L] :
    (editHunk n before removed added after).Correct (before ++ removed ++ after) (before ++ added ++ after) := by
  have hle : before.length - n ≤ before.length := Nat.sub_le _ _
  have htake : ∀ mid : List L, (before ++ mid ++ after).take (before.length - n) = before.take (before.length - n) := by
    intro mid
    rw [append_assoc, take_append_of_le_length hle]
  have hdrop : ∀ mid : List L, (before ++ mid ++ after).drop (before.length - n) =
      before.drop (before.length - n) ++ mid ++ after.take n ++ after.drop n := by
    intro mid
    rw [append_assoc, drop_append_of_le_length hle, append_assoc _ _ (after.drop n), take_append_drop, append_assoc]
  constructor
  · rw [editHunk_old]
    simp [editHunk, Nat.add_assoc]
  · rw [editHunk_new]
    simp [editHunk, Nat.add_assoc]
  · have hstart : (editHunk n before removed added after).oldStart - 1 = before.length - n := rfl
    have hlen : (before.take (before.length - n)).length + 1 = (editHunk n before removed added after).oldStart := by
      rw [length_take_of_le hle]
      rfl
    simp only [Hunk.apply, hstart, htake, hdrop, ← editHunk_old n before removed added after]
    rw [if_pos ⟨hlen, prefix_append _ _⟩, drop_left, editHunk_new, append_assoc, ← hdrop added,
      ← htake added, take_append_drop]
  · have hstart : (editHunk n before removed added after).newStart - 1 = before.length - n := rfl
    rw [hstart, hdrop added, editHunk_new]
    exact prefix_append _ _

end Edit

end Foundation.UnifiedDiff
