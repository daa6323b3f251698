import Mathlib.Algebra.BigOperators.Group.List.Basic
import Mathlib.Algebra.Order.Group.Nat

namespace NomadDev.Session

open List

inductive EventType
  | hello | clientHello | ack | ping | pong | error | sessionStale | sessionReplaced
  | commandRequest | commandChunk | commandResult | sandboxHeartbeat
  | userIntent | assistantChunk | assistantThinking | assistantMessage
  | toolApprovalRequest | toolApprovalGranted | toolApprovalDenied
  | userCommand | systemErrorReport | workerUpdate | systemLogEvent
  deriving DecidableEq, Repr

-- Ids are positions in minting order, which is the order the ULID strings compare in.
structure Envelope where
  id : ℕ
  type : EventType
  deriving DecidableEq, Repr

structure Entry where
  env : Envelope
  size : ℕ
  deriving DecidableEq, Repr

def totalSize : List Entry → ℕ
  | [] => 0
  | e :: items => e.size + totalSize items

@[simp] theorem totalSize_nil : totalSize [] = 0 := rfl

@[simp] theorem totalSize_cons (e : Entry) (items : List Entry) :
    totalSize (e :: items) = e.size + totalSize items := rfl

@[simp] theorem totalSize_append (xs ys : List Entry) : totalSize (xs ++ ys) = totalSize xs + totalSize ys := by
  induction xs with
  | nil => simp
  | cons e xs ih =>
    rw [cons_append, totalSize_cons, totalSize_cons, ih]
    omega

structure RingBuffer where
  (cap maxBytes bytes : ℕ)
  items : List Entry
  cap_pos : 1 ≤ cap
  maxBytes_pos : 1 ≤ maxBytes
  bytes_eq : bytes = totalSize items

def newRingBuffer (cap maxBytes : ℕ) : RingBuffer where
  cap := max cap 1
  maxBytes := max maxBytes 1
  bytes := 0
  items := []
  cap_pos := le_max_right _ _
  maxBytes_pos := le_max_right _ _
  bytes_eq := rfl

def evict (cap maxBytes : ℕ) : ℕ → List Entry → ℕ × List Entry
  | bytes, e :: f :: rest =>
    if cap < (e :: f :: rest).length ∨ maxBytes < bytes then
      evict cap maxBytes (bytes - e.size) (f :: rest)
    else (bytes, e :: f :: rest)
  | bytes, items => (bytes, items)

theorem evict_suffix (cap maxBytes bytes : ℕ) (items : List Entry) : (evict cap maxBytes bytes items).2 <:+ items := by
  induction items generalizing bytes with
  | nil => simp [evict]
  | cons e rest ih =>
    cases rest with
    | nil => simp [evict]
    | cons f rest =>
      rw [evict]
      split
      · exact (ih _).trans (suffix_cons _ _)
      · exact suffix_rfl

theorem evict_bytes (cap maxBytes bytes : ℕ) (items : List Entry) (h : bytes = totalSize items) :
    (evict cap maxBytes bytes items).1 = totalSize (evict cap maxBytes bytes items).2 := by
  induction items generalizing bytes with
  | nil => simpa [evict] using h
  | cons e rest ih =>
    cases rest with
    | nil => simpa [evict] using h
    | cons f rest =>
      rw [evict]
      split
      · apply ih
        rw [h, totalSize_cons e]
        omega
      · exact h

variable {items : List Entry} {b : RingBuffer} {lastID : ℕ}

theorem evict_ne_nil (cap maxBytes bytes : ℕ) (h : items ≠ []) : (evict cap maxBytes bytes items).2 ≠ [] := by
  induction items generalizing bytes with
  | nil => exact absurd rfl h
  | cons e rest ih =>
    cases rest with
    | nil => simp [evict]
    | cons f rest =>
      rw [evict]
      split
      · exact ih _ (cons_ne_nil f rest)
      · exact cons_ne_nil _ _

namespace RingBuffer

def push (b : RingBuffer) (env : Envelope) (size : ℕ) : RingBuffer where
  cap := b.cap
  maxBytes := b.maxBytes
  bytes := (evict b.cap b.maxBytes (b.bytes + size) (b.items ++ [⟨env, size⟩])).1
  items := (evict b.cap b.maxBytes (b.bytes + size) (b.items ++ [⟨env, size⟩])).2
  cap_pos := b.cap_pos
  maxBytes_pos := b.maxBytes_pos
  bytes_eq := evict_bytes _ _ _ _ (by simp [b.bytes_eq])

def tailAfter (lastID : ℕ) : List Entry → Option (List Envelope)
  | [] => none
  | e :: rest => if e.env.id = lastID then some (rest.map Entry.env) else tailAfter lastID rest

def since (b : RingBuffer) (lastID : Option ℕ) : Option (List Envelope) :=
  match lastID with
  | none => some []
  | some lastID =>
    match b.items.head?, b.items.getLast? with
    | some first, some last =>
      if lastID < first.env.id then none
      else if last.env.id < lastID then none
      else tailAfter lastID b.items
    | _, _ => none

theorem mem_push {env : Envelope} {size : ℕ} {e : Entry} (h : e ∈ (b.push env size).items) :
    e ∈ b.items ∨ e = ⟨env, size⟩ := by
  have hm := (evict_suffix _ _ _ _).subset h
  simpa using hm

variable {out : List Envelope} {x : Envelope}

theorem mem_tailAfter (h : tailAfter lastID items = some out) (hx : x ∈ out) : ∃ e ∈ items, e.env = x := by
  induction items with
  | nil => cases h
  | cons e rest ih =>
    rw [tailAfter] at h
    split at h
    · cases h
      obtain ⟨f, hf, rfl⟩ := mem_map.mp hx
      exact ⟨f, mem_cons_of_mem _ hf, rfl⟩
    · obtain ⟨f, hf, he⟩ := ih h
      exact ⟨f, mem_cons_of_mem _ hf, he⟩

theorem mem_since {lastID : Option ℕ} (h : b.since lastID = some out) (hx : x ∈ out) : ∃ e ∈ b.items, e.env = x := by
  simp only [since] at h
  split at h
  · cases h
    simp at hx
  split at h
  · split at h
    · cases h
    · split at h
      · cases h
      · exact mem_tailAfter h hx
  · cases h

theorem push_eq_concat (b : RingBuffer) (env : Envelope) (size : ℕ) :
    ∃ kept, kept <:+ b.items ∧ (b.push env size).items = kept ++ [⟨env, size⟩] := by
  have hne : (b.push env size).items ≠ [] := evict_ne_nil _ _ _ (append_ne_nil_of_right_ne_nil _ (by simp))
  have hsuf : (b.push env size).items <:+ b.items ++ [⟨env, size⟩] := evict_suffix _ _ _ _
  rcases suffix_concat_iff.mp hsuf with hnil | ⟨kept, hitems, hkept⟩
  · exact absurd hnil hne
  · exact ⟨kept, hkept, hitems⟩

theorem mem_push_self (b : RingBuffer) (env : Envelope) (size : ℕ) : ⟨env, size⟩ ∈ (b.push env size).items := by
  obtain ⟨kept, -, hitems⟩ := b.push_eq_concat env size
  rw [hitems]
  exact mem_concat_self

theorem tailAfter_isSome_iff : (tailAfter lastID items).isSome ↔ ∃ e ∈ items, e.env.id = lastID := by
  induction items with
  | nil => simp [tailAfter]
  | cons e rest ih =>
    rw [tailAfter]
    by_cases he : e.env.id = lastID
    · simp [he]
    · simp [he, ih]

theorem tailAfter_append {before rest : List Entry} (h : ∀ e ∈ before, e.env.id ≠ lastID) :
    tailAfter lastID (before ++ rest) = tailAfter lastID rest := by
  induction before with
  | nil => rfl
  | cons e before ih =>
    rw [cons_append, tailAfter, if_neg (h e mem_cons_self)]
    exact ih fun x hx => h x (mem_cons_of_mem e hx)

def InRange (b : RingBuffer) (lastID : ℕ) : Prop :=
  (∀ e, b.items.head? = some e → e.env.id ≤ lastID) ∧ ∀ e, b.items.getLast? = some e → lastID ≤ e.env.id

theorem since_isSome_iff : (b.since (some lastID)).isSome ↔ (∃ e ∈ b.items, e.env.id = lastID) ∧ b.InRange lastID := by
  unfold since InRange
  cases hhead : b.items.head? with
  | none =>
    rw [List.head?_eq_none_iff] at hhead
    simp [hhead]
  | some first =>
    cases hlast : b.items.getLast? with
    | none =>
      rw [List.getLast?_eq_none_iff] at hlast
      simp [hlast] at hhead
    | some last =>
      dsimp only
      by_cases hlow : lastID < first.env.id
      · simp [hlow]
      by_cases hhigh : last.env.id < lastID
      · simp [hhigh]
      · rw [if_neg hlow, if_neg hhigh, tailAfter_isSome_iff]
        simp [not_lt.mp hlow, not_lt.mp hhigh]

theorem since_eq_tailAfter (h : b.InRange lastID) : b.since (some lastID) = tailAfter lastID b.items := by
  unfold since
  cases hhead : b.items.head? with
  | none =>
    rw [List.head?_eq_none_iff.mp hhead]
    rfl
  | some first =>
    cases hlast : b.items.getLast? with
    | none =>
      rw [List.getLast?_eq_none_iff.mp hlast]
      rfl
    | some last =>
      have hlow := h.1 first hhead
      have hhigh := h.2 last hlast
      dsimp only
      rw [if_neg (by omega), if_neg (by omega)]

end RingBuffer

end NomadDev.Session
