import NomadDev.Compaction

namespace NomadDev.History

open Function List

variable {β σ : Type}

inductive StoreCall (β : Type)
  | append (t : Turn β)
  | reset (sid : String)
  | loadWindow (sid : String) (n : ℤ)

inductive Reply (β : Type)
  | appended (result : Except String ℕ)
  | done
  | window (rows : List (ℕ × Role × β))

def Turn.seen (t : Turn β) : ℕ × Role × β := (t.idx, t.role, t.parts)

def memoryCall (m : MemoryStore β) : StoreCall β → MemoryStore β × Reply β
  | .append t =>
    match m.append t with
    | .ok (m', idx) => (m', .appended (.ok idx))
    | .error e => (m, .appended (.error e))
  | .reset sid => (m.reset sid, .done)
  | .loadWindow sid n => (m, .window ((m.loadWindow sid n).map Turn.seen))

def sqliteCall (s : SQLiteStore β) : StoreCall β → SQLiteStore β × Reply β
  | .append t =>
    match s.append t with
    | .ok (s', idx) => (s', .appended (.ok idx))
    | .error e => (s, .appended (.error e))
  | .reset sid => (s.reset sid, .done)
  | .loadWindow sid n => (s, .window ((s.loadWindow sid n).map Turn.seen))

def replies (call : σ → StoreCall β → σ × Reply β) : σ → List (StoreCall β) → List (Reply β)
  | _, [] => []
  | s, c :: rest => (call s c).2 :: replies call (call s c).1 rest

def emptyMemory (β : Type) : MemoryStore β := ⟨fun _ => []⟩

def lengthsAfter (len : String → ℕ) : StoreCall β → String → ℕ
  | .append t => if t.sid = "" then len else update len t.sid (len t.sid + 1)
  | .reset sid => update len sid 0
  | .loadWindow _ _ => len

def Covered : (String → ℕ) → List (StoreCall β) → Prop
  | _, [] => True
  | len, .loadWindow sid n :: rest => (n ≤ 0 → len sid ≤ 1 <<< 30) ∧ Covered len rest
  | len, .append t :: rest => Covered (lengthsAfter len (.append t : StoreCall β)) rest
  | len, .reset sid :: rest => Covered (lengthsAfter len (.reset sid : StoreCall β)) rest

structure Agree (m : MemoryStore β) (s : SQLiteStore β) : Prop where
  rows : ∀ sid, s.rows sid = m.rows sid
  positions : ∀ sid, (m.rows sid).map Turn.idx = List.range (m.rows sid).length

theorem agree_empty : Agree (emptyMemory β) (emptyStore β) := ⟨fun _ => rfl, fun _ => rfl⟩

theorem foldr_max_range (n m : ℕ) : (List.range n).foldr (fun i top => max (i + 1) top) m = max n m := by
  induction n generalizing m with
  | zero => exact (Nat.zero_max m).symm
  | succ n ih =>
    rw [range_succ, foldr_append, foldr_cons, foldr_nil, ih]
    omega

theorem nextIdx_of_positions {rows : List (Turn β)} (h : rows.map Turn.idx = List.range rows.length) :
    nextIdx rows = rows.length := by
  have hfold : nextIdx rows = (rows.map Turn.idx).foldr (fun i top => max (i + 1) top) 0 := by
    rw [foldr_map, nextIdx]
  rw [hfold, h, foldr_max_range, Nat.max_zero]

section Calls

variable {m : MemoryStore β} {s : SQLiteStore β}

theorem rows_reset_eq (sid other : String) : (s.reset sid).rows other = if other = sid then [] else s.rows other := by
  unfold SQLiteStore.rows SQLiteStore.reset
  rw [filter_filter]
  split
  next h =>
    subst h
    apply filter_eq_nil_iff.mpr
    intro t _
    simp
  next h =>
    apply filter_congr
    intro t _
    by_cases ht : t.sid = other
    · simp [ht, h]
    · simp [ht]

theorem memoryCall_append {t : Turn β} (h : t.sid ≠ "") : memoryCall m (.append t) =
      (⟨update m.rows t.sid (m.rows t.sid ++ [{ t with idx := (m.rows t.sid).length }])⟩,
        .appended (.ok (m.rows t.sid).length)) := by
  simp only [memoryCall, MemoryStore.append, if_neg h]

theorem sqliteCall_append {t : Turn β} (h : t.sid ≠ "") :
    sqliteCall s (.append t) = (s.insert t, .appended (.ok (nextIdx (s.rows t.sid)))) := by
  simp only [sqliteCall, SQLiteStore.append, if_neg h]

theorem Agree.append (h : Agree m s) (t : Turn β) : (memoryCall m (.append t)).2 = (sqliteCall s (.append t)).2 ∧
      Agree (memoryCall m (.append t)).1 (sqliteCall s (.append t)).1 := by
  by_cases hsid : t.sid = ""
  · simp only [memoryCall, sqliteCall, MemoryStore.append, SQLiteStore.append, if_pos hsid]
    exact ⟨trivial, h⟩
  have hnext : nextIdx (s.rows t.sid) = (m.rows t.sid).length := by
    rw [h.rows]
    exact nextIdx_of_positions (h.positions t.sid)
  rw [memoryCall_append hsid, sqliteCall_append hsid, hnext]
  refine ⟨rfl, fun sid => ?_, fun sid => ?_⟩
  · dsimp only
    rw [SQLiteStore.rows_insert, update_apply]
    split
    next he => rw [he, hnext, h.rows]
    next => exact h.rows sid
  · dsimp only
    rw [update_apply]
    split
    · rw [map_append, h.positions, length_append, length_singleton, range_succ]
      rfl
    · exact h.positions sid

theorem Agree.reset (h : Agree m s) (sid : String) : Agree (m.reset sid) (s.reset sid) := by
  refine ⟨fun other => ?_, fun other => ?_⟩
  · rw [rows_reset_eq, MemoryStore.reset, h.rows]
    exact (update_apply ..).symm
  · rw [MemoryStore.reset]
    dsimp only
    rw [update_apply]
    split
    · rfl
    · exact h.positions other

theorem loadWindow_all {n : ℤ} (hn : n ≤ 0) (sid : String) : s.loadWindow sid n = lastN (1 <<< 30) (s.rows sid) := by
  rw [SQLiteStore.loadWindow, if_pos hn, mergeSort_newestFirst (s.rows_increasing sid), take_reverse,
    reverse_reverse, lastN]

theorem lastN_eq_self_iff {γ : Type} {n : ℕ} {rows : List γ} : lastN n rows = rows ↔ rows.length ≤ n := by
  constructor
  · intro h
    have hlen := congrArg List.length h
    rw [lastN, length_drop] at hlen
    omega
  · intro h
    rw [lastN, Nat.sub_eq_zero_of_le h, drop_zero]

theorem Agree.window_iff (h : Agree m s) (sid : String) (n : ℤ) :
    (m.loadWindow sid n).map Turn.seen = (s.loadWindow sid n).map Turn.seen ↔
      (n ≤ 0 → (m.rows sid).length ≤ 1 <<< 30) := by
  by_cases hn : n ≤ 0
  · rw [loadWindow_all hn, h.rows, MemoryStore.loadWindow, if_pos (.inl hn)]
    refine ⟨fun heq _ => ?_, fun hlen => by rw [lastN_eq_self_iff.mpr (hlen hn)]⟩
    have hcount := congrArg List.length heq
    rw [length_map, length_map, lastN, length_drop] at hcount
    omega
  · have hpos : 0 < n := by omega
    rw [MemoryStore.loadWindow_eq m sid hpos, SQLiteStore.loadWindow_eq s sid hpos, h.rows]
    exact iff_of_true rfl fun hle => absurd hle hn

theorem lengths_append (t : Turn β) : (fun sid => ((memoryCall m (.append t)).1.rows sid).length) =
      lengthsAfter (fun sid => (m.rows sid).length) (.append t : StoreCall β) := by
  by_cases hsid : t.sid = ""
  · simp only [memoryCall, MemoryStore.append, lengthsAfter, if_pos hsid]
  rw [memoryCall_append hsid, lengthsAfter, if_neg hsid]
  funext sid
  dsimp only
  rw [update_apply, update_apply]
  split
  · exact length_append
  · rfl

theorem lengths_reset (sid : String) : (fun other => ((m.reset sid).rows other).length) =
      lengthsAfter (fun other => (m.rows other).length) (.reset sid : StoreCall β) := by
  funext other
  rw [MemoryStore.reset, lengthsAfter]
  dsimp only
  rw [update_apply, update_apply]
  split <;> rfl

theorem replies_eq_iff_covered (h : Agree m s) (calls : List (StoreCall β)) :
    replies memoryCall m calls = replies sqliteCall s calls ↔ Covered (fun sid => (m.rows sid).length) calls := by
  induction calls generalizing m s with
  | nil => exact iff_of_true rfl trivial
  | cons c rest ih =>
    rw [replies, replies, List.cons.injEq]
    cases c with
    | append t =>
      obtain ⟨hreply, hagree⟩ := h.append t
      rw [and_iff_right hreply, ih hagree, Covered, lengths_append]
    | reset sid =>
      rw [Covered, ← lengths_reset]
      exact (and_iff_right rfl).trans (ih (h.reset sid))
    | loadWindow sid n =>
      rw [Covered]
      exact and_congr ((Reply.window.injEq _ _).to_iff.trans (h.window_iff sid n)) (ih h)

end Calls

theorem store_replies_eq_iff (calls : List (StoreCall β)) :
    replies memoryCall (emptyMemory β) calls = replies sqliteCall (emptyStore β) calls ↔ Covered (fun _ => 0) calls :=
  replies_eq_iff_covered agree_empty calls

theorem covered_replicate_append {t : Turn β} (ht : t.sid ≠ "") (count : ℕ) (len : String → ℕ)
    (rest : List (StoreCall β)) :
    Covered len (List.replicate count (.append t) ++ rest) ↔ Covered (update len t.sid (len t.sid + count)) rest := by
  induction count generalizing len with
  | zero => rw [replicate_zero, nil_append, Nat.add_zero, update_eq_self]
  | succ count ih =>
    rw [replicate_succ, cons_append, Covered, lengthsAfter, if_neg ht, ih, update_self,
      update_idem, Nat.add_assoc, Nat.add_comm 1]

def hello : Turn String := ⟨"s1", 0, .user, "hello"⟩

def longThread (count : ℕ) : List (StoreCall String) := List.replicate count (.append hello) ++ [.loadWindow "s1" 0]

theorem covered_longThread (count : ℕ) : Covered (fun _ => 0) (longThread count) ↔ count ≤ 1 <<< 30 := by
  have hsid : hello.sid ≠ "" := by decide
  rw [longThread, covered_replicate_append hsid, Covered, Covered, and_true, forall_prop_of_true le_rfl, Nat.zero_add]
  exact iff_of_eq (congrArg (· ≤ 1 <<< 30) (update_self ..))

theorem longThread_replies_eq_iff (count : ℕ) : replies memoryCall (emptyMemory String) (longThread count) =
      replies sqliteCall (emptyStore String) (longThread count) ↔ count ≤ 1 <<< 30 :=
  (replies_eq_iff_covered agree_empty _).trans (covered_longThread count)

theorem longThread_replies_ne : replies memoryCall (emptyMemory String) (longThread (1 <<< 30 + 1)) ≠
      replies sqliteCall (emptyStore String) (longThread (1 <<< 30 + 1)) :=
  (longThread_replies_eq_iff (1 <<< 30 + 1)).not.mpr (Nat.not_succ_le_self _)

end NomadDev.History
