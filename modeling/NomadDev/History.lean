import Mathlib.Data.List.Sort

namespace NomadDev.History

open List

inductive Role
  | user | assistant | toolCall | toolResult | systemSummary
  deriving DecidableEq

variable {β σ γ : Type} {n : ℕ} {xs ys : List γ}

structure Turn (β : Type) where
  sid : String
  idx : ℕ
  role : Role
  parts : β

def Turn.row (t : Turn β) : Role × β := (t.role, t.parts)

def errInvalidTurn : String := "history: invalid turn"

def lastN {γ : Type} (n : ℕ) (rows : List γ) : List γ := rows.drop (rows.length - n)

theorem lastN_append (h : n ≤ ys.length) : lastN n (xs ++ ys) = lastN n ys := by
  have hlen : xs.length ≤ (xs ++ ys).length - n := by
    rw [length_append]
    omega
  have hdrop : (xs ++ ys).length - n - xs.length = ys.length - n := by
    rw [length_append]
    omega
  rw [lastN, drop_append, drop_eq_nil_of_le hlen, hdrop, nil_append, lastN]

theorem mem_lastN_append {x : γ} (h : ys.length < n) : x ∈ lastN n (xs ++ x :: ys) := by
  rw [lastN, drop_append]
  apply mem_append_right
  have hzero : (xs ++ x :: ys).length - n - xs.length = 0 := by
    rw [length_append, length_cons]
    omega
  rw [hzero]
  exact mem_cons_self

theorem map_lastN {δ : Type} (f : γ → δ) (n : ℕ) (rows : List γ) : (lastN n rows).map f = lastN n (rows.map f) := by
  rw [lastN, lastN, map_drop, length_map]

structure Backend (σ β : Type) where
  append : σ → Turn β → Except String (σ × ℕ)
  loadWindow : σ → String → ℤ → List (Turn β)
  thread : σ → String → List (Role × β)
  append_invalid : ∀ s t, t.sid = "" → append s t = .error errInvalidTurn
  append_ok : ∀ s t, t.sid ≠ "" → ∃ s' idx, append s t = .ok (s', idx) ∧
    ∀ sid, thread s' sid = if sid = t.sid then thread s sid ++ [t.row] else thread s sid
  window : ∀ s sid n, 0 < n → (loadWindow s sid n).map Turn.row = lastN n.toNat (thread s sid)

structure MemoryStore (β : Type) where
  rows : String → List (Turn β)

def MemoryStore.append (m : MemoryStore β) (t : Turn β) : Except String (MemoryStore β × ℕ) :=
  if t.sid = "" then .error errInvalidTurn
  else
    let rows := m.rows t.sid
    .ok (⟨Function.update m.rows t.sid (rows ++ [{ t with idx := rows.length }])⟩, rows.length)

def MemoryStore.loadWindow (m : MemoryStore β) (sid : String) (n : ℤ) : List (Turn β) :=
  let rows := m.rows sid
  if n ≤ 0 ∨ rows.length ≤ n then rows else rows.drop (rows.length - n.toNat)

theorem MemoryStore.loadWindow_eq (m : MemoryStore β) (sid : String) {n : ℤ} (hn : 0 < n) :
    m.loadWindow sid n = lastN n.toNat (m.rows sid) := by
  simp only [MemoryStore.loadWindow, lastN]
  split
  · have hle : (m.rows sid).length - n.toNat = 0 := by omega
    rw [hle, drop_zero]
  · rfl

def memoryBackend (β : Type) : Backend (MemoryStore β) β where
  append := MemoryStore.append
  loadWindow := MemoryStore.loadWindow
  thread := fun m sid => (m.rows sid).map Turn.row
  append_invalid := by
    intro m t h
    simp [MemoryStore.append, h]
  append_ok := by
    intro m t h
    refine ⟨_, _, if_neg h, ?_⟩
    intro sid
    simp only [Function.update_apply]
    split
    · next hsid => simp [hsid, Turn.row]
    · rfl
  window := by
    intro m sid n hn
    rw [MemoryStore.loadWindow_eq m sid hn, map_lastN]

structure SQLiteStore (β : Type) where
  table : List (Turn β)
  increasing : table.Pairwise fun a b => a.sid = b.sid → a.idx < b.idx

variable (s : SQLiteStore β)

def SQLiteStore.rows (sid : String) : List (Turn β) := s.table.filter fun t => t.sid == sid

def nextIdx (rows : List (Turn β)) : ℕ := rows.foldr (fun t m => max (t.idx + 1) m) 0

variable {rows : List (Turn β)}

theorem idx_lt_nextIdx {t : Turn β} (h : t ∈ rows) : t.idx < nextIdx rows := by
  induction rows with
  | nil => cases h
  | cons u rows ih =>
    have hmax : nextIdx (u :: rows) = max (u.idx + 1) (nextIdx rows) := rfl
    rw [hmax]
    rcases mem_cons.mp h with rfl | h
    · omega
    · have := ih h
      omega

def SQLiteStore.insert (t : Turn β) : SQLiteStore β where
  table := s.table ++ [{ t with idx := nextIdx (s.rows t.sid) }]
  increasing := by
    apply List.pairwise_append.mpr
    refine ⟨s.increasing, List.pairwise_singleton .., ?_⟩
    intro a ha b hb hsid
    cases List.mem_singleton.mp hb
    apply idx_lt_nextIdx
    exact List.mem_filter.mpr ⟨ha, beq_iff_eq.mpr hsid⟩

def SQLiteStore.append (t : Turn β) : Except String (SQLiteStore β × ℕ) :=
  if t.sid = "" then .error errInvalidTurn else .ok (s.insert t, nextIdx (s.rows t.sid))

def newestFirst (a b : Turn β) : Bool := b.idx ≤ a.idx

def SQLiteStore.loadWindow (sid : String) (n : ℤ) : List (Turn β) :=
  let limit := if n ≤ 0 then 1 <<< 30 else n.toNat
  (((s.rows sid).mergeSort newestFirst).take limit).reverse

theorem SQLiteStore.rows_increasing (s : SQLiteStore β) (sid : String) :
    (s.rows sid).Pairwise fun a b => a.idx < b.idx := by
  have hsub : (s.rows sid).Pairwise fun a b => a.sid = b.sid → a.idx < b.idx :=
    s.increasing.sublist filter_sublist
  apply hsub.imp_of_mem
  intro a b ha hb h
  have hsa : a.sid = sid := beq_iff_eq.mp (mem_filter.mp ha).2
  have hsb : b.sid = sid := beq_iff_eq.mp (mem_filter.mp hb).2
  exact h (hsa.trans hsb.symm)

theorem idx_injective (h : rows.Pairwise fun a b => a.idx < b.idx) {a b : Turn β} (ha : a ∈ rows) (hb : b ∈ rows)
    (hidx : a.idx = b.idx) : a = b := by
  induction rows with
  | nil => cases ha
  | cons u rows ih =>
    obtain ⟨hu, hrest⟩ := pairwise_cons.mp h
    rcases mem_cons.mp ha with hau | har
    · rcases mem_cons.mp hb with hbu | hbr
      · rw [hau, hbu]
      · have hlt := hu b hbr
        rw [hau] at hidx
        omega
    · rcases mem_cons.mp hb with hbu | hbr
      · have hlt := hu a har
        rw [hbu] at hidx
        omega
      · exact ih hrest har hbr

theorem mergeSort_newestFirst (h : rows.Pairwise fun a b => a.idx < b.idx) :
    rows.mergeSort newestFirst = rows.reverse := by
  have hsorted : (rows.mergeSort newestFirst).Pairwise fun a b => newestFirst a b = true := by
    apply pairwise_mergeSort
    · intro a b c hab hbc
      simp only [newestFirst, decide_eq_true_eq] at hab hbc ⊢
      omega
    · intro a b
      simp only [newestFirst, Bool.or_eq_true, decide_eq_true_eq]
      omega
  have hrev : rows.reverse.Pairwise fun a b => newestFirst a b = true := by
    apply pairwise_reverse.mpr
    apply h.imp
    intro a b hab
    simp only [newestFirst, decide_eq_true_eq]
    omega
  have hperm := (mergeSort_perm rows newestFirst).trans (reverse_perm rows).symm
  apply List.Perm.eq_of_pairwise ?_ hsorted hrev hperm
  intro a b ha hb hab hba
  simp only [newestFirst, decide_eq_true_eq] at hab hba
  apply idx_injective h ((mergeSort_perm rows newestFirst).mem_iff.mp ha) (mem_reverse.mp hb)
  omega

theorem SQLiteStore.loadWindow_eq (s : SQLiteStore β) (sid : String) {n : ℤ} (hn : 0 < n) :
    s.loadWindow sid n = lastN n.toNat (s.rows sid) := by
  have hpos : ¬ n ≤ 0 := by omega
  simp only [SQLiteStore.loadWindow, hpos, if_false]
  rw [mergeSort_newestFirst (s.rows_increasing sid), take_reverse, reverse_reverse, lastN]

theorem SQLiteStore.rows_insert (t : Turn β) (sid : String) : (s.insert t).rows sid =
      if sid = t.sid then s.rows sid ++ [{ t with idx := nextIdx (s.rows sid) }] else s.rows sid := by
  unfold SQLiteStore.rows SQLiteStore.insert
  rw [filter_append]
  split
  next h =>
    subst h
    rw [filter_cons_of_pos (by simp), filter_nil]
    rfl
  next h => rw [filter_cons_of_neg (by simpa using fun he => h he.symm), filter_nil, append_nil]

def sqliteBackend (β : Type) : Backend (SQLiteStore β) β where
  append := SQLiteStore.append
  loadWindow := SQLiteStore.loadWindow
  thread := fun s sid => (s.rows sid).map Turn.row
  append_invalid := by
    intro s t h
    simp [SQLiteStore.append, h]
  append_ok := by
    intro s t h
    refine ⟨_, _, if_neg h, ?_⟩
    intro sid
    rw [SQLiteStore.rows_insert]
    split
    · rw [map_append]
      rfl
    · rfl
  window := by
    intro s sid n hn
    rw [SQLiteStore.loadWindow_eq s sid hn, map_lastN]

def MemoryStore.reset (m : MemoryStore β) (sid : String) : MemoryStore β := ⟨Function.update m.rows sid []⟩

def SQLiteStore.reset (s : SQLiteStore β) (sid : String) : SQLiteStore β :=
  ⟨s.table.filter fun t => t.sid != sid, s.increasing.filter _⟩

def Backend.appendAll (b : Backend σ β) : σ → List (Turn β) → σ
  | s, [] => s
  | s, t :: ts =>
    match b.append s t with
    | .ok (s', _) => b.appendAll s' ts
    | .error _ => b.appendAll s ts

theorem Backend.thread_appendAll (b : Backend σ β) (s : σ) (ts : List (Turn β)) {sid : String} (hsid : sid ≠ "") :
    b.thread (b.appendAll s ts) sid = b.thread s sid ++ (ts.filter fun t => t.sid == sid).map Turn.row := by
  induction ts generalizing s with
  | nil => simp [Backend.appendAll]
  | cons t ts ih =>
    by_cases ht : t.sid = ""
    · have hne : ¬ t.sid = sid := fun he => hsid (he.symm.trans ht)
      rw [Backend.appendAll, b.append_invalid s t ht]
      simp only [ih]
      rw [filter_cons_of_neg (by simpa using hne)]
    · obtain ⟨s', idx, happ, hthread⟩ := b.append_ok s t ht
      rw [Backend.appendAll, happ]
      simp only [ih, hthread]
      by_cases he : sid = t.sid
      · simp [he]
      · have hne : ¬ t.sid = sid := fun h => he h.symm
        simp [he, hne]

end NomadDev.History
