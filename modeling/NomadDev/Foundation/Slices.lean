import Mathlib.Data.List.Nodup
import Mathlib.Data.List.Range

namespace Foundation.Slices

open Function

variable {α : Type}

abbrev Addr := ℕ × ℕ

structure Slice where
  (arr off len cap : ℕ)
  deriving DecidableEq, Inhabited

structure Heap (α : Type) where
  cell : Addr → α
  next : ℕ

namespace Slice

variable (s : Slice)

def addr (i : ℕ) : Addr := (s.arr, s.off + i)

def addrs : List Addr := (List.range s.len).map s.addr

def take (n : ℕ) : Slice := { s with len := n }

def drop (n : ℕ) : Slice := ⟨s.arr, s.off + n, s.len - n, s.cap - n⟩

structure Ok (next : ℕ) (s : Slice) : Prop where
  len_le : s.len ≤ s.cap
  arr_lt : s.cap ≠ 0 → s.arr < next

instance (next : ℕ) (s : Slice) : Decidable (s.Ok next) :=
  decidable_of_iff (s.len ≤ s.cap ∧ (s.cap ≠ 0 → s.arr < next)) ⟨fun h => ⟨h.1, h.2⟩, fun h => ⟨h.1, h.2⟩⟩

def Clear (cells : List Addr) : Prop :=
  s.len < s.cap → ∀ a ∈ cells, a.1 = s.arr → a.2 < s.off + s.len

def Apart (s t : Slice) : Prop := s.cap = 0 ∨ t.cap = 0 ∨ s.arr ≠ t.arr

variable {s t : Slice} {a : Addr} {i j next : ℕ}

theorem mem_addrs : a ∈ s.addrs ↔ ∃ i < s.len, s.addr i = a := by
  simp [addrs]

theorem addr_mem (h : i < s.len) : s.addr i ∈ s.addrs := mem_addrs.mpr ⟨i, h, rfl⟩

theorem addr_inj : s.addr i = s.addr j ↔ i = j := by
  simp [addr]

theorem nodup_addrs (s : Slice) : s.addrs.Nodup := List.nodup_range.map fun _ _ h => addr_inj.mp h

theorem Ok.mono {next' : ℕ} (h : s.Ok next) (hle : next ≤ next') : s.Ok next' :=
  ⟨h.len_le, fun hcap => Nat.lt_of_lt_of_le (h.arr_lt hcap) hle⟩

theorem ok_default (next : ℕ) : (default : Slice).Ok next := ⟨Nat.le_refl 0, fun h => absurd rfl h⟩

theorem Ok.addr_lt (h : s.Ok next) (ha : a ∈ s.addrs) : a.1 < next := by
  obtain ⟨i, hi, rfl⟩ := mem_addrs.mp ha
  have hlen := h.len_le
  exact h.arr_lt (by omega)

theorem Ok.drop (h : s.Ok next) (n : ℕ) : (s.drop n).Ok next := by
  have hlen := h.len_le
  refine ⟨?_, fun hcap => h.arr_lt ?_⟩ <;> simp only [Slice.drop] at * <;> omega

theorem clear_default (cells : List Addr) : (default : Slice).Clear cells := fun h => absurd h (Nat.lt_irrefl 0)

theorem clear_self (s : Slice) : s.Clear s.addrs := by
  intro _ a ha _
  obtain ⟨i, hi, rfl⟩ := mem_addrs.mp ha
  simp only [addr]
  omega

theorem clear_flatMap {β : Type} {l : List β} {f : β → List Addr} (h : ∀ b ∈ l, s.Clear (f b)) :
    s.Clear (l.flatMap f) := by
  intro hroom a ha
  obtain ⟨b, hb, ha⟩ := List.mem_flatMap.mp ha
  exact h b hb hroom a ha

theorem Clear.drop {cells : List Addr} (h : s.Clear cells) {n : ℕ} (hn : n ≤ s.len) : (s.drop n).Clear cells := by
  intro hroom a ha harr
  simp only [Slice.drop] at hroom harr ⊢
  have hlt := h (by omega) a ha harr
  omega

theorem Apart.symm (h : s.Apart t) : t.Apart s := by
  rcases h with hs | ht | harr
  · exact .inr (.inl hs)
  · exact .inl ht
  · exact .inr (.inr harr.symm)

theorem apart_default (s : Slice) : (default : Slice).Apart s := .inl rfl

theorem Apart.drop (h : s.Apart t) (n : ℕ) : (s.drop n).Apart t := by
  rcases h with hs | ht | harr
  · exact .inl (by simp [Slice.drop, hs])
  · exact .inr (.inl ht)
  · exact .inr (.inr harr)

theorem Apart.addr_ne (h : s.Apart t) (hs : s.Ok next) (ht : t.Ok next) (hi : i < s.len) (hj : j < t.len) :
    s.addr i ≠ t.addr j := by
  have hlen := hs.len_le
  have hlen' := ht.len_le
  rcases h with hcap | hcap | harr
  · omega
  · omega
  · exact fun heq => harr (congrArg Prod.fst heq)

theorem Apart.clear (h : s.Apart t) (ht : t.Ok next) : s.Clear t.addrs := by
  intro hroom a ha harr
  obtain ⟨i, hi, rfl⟩ := mem_addrs.mp ha
  have hlen := ht.len_le
  rcases h with hcap | hcap | hne
  · omega
  · omega
  · exact absurd harr.symm hne

end Slice

namespace Heap

def empty [Inhabited α] : Heap α := ⟨fun _ => default, 0⟩

def read (h : Heap α) (s : Slice) : List α := s.addrs.map h.cell

def write (h : Heap α) (a : Addr) (v : α) : Heap α := { h with cell := update h.cell a v }

def writeFrom (h : Heap α) (arr start : ℕ) (vs : List α) : Heap α :=
  { h with cell := fun a => if a.1 = arr ∧ start ≤ a.2 then vs.getD (a.2 - start) (h.cell a) else h.cell a }

def append (grow : ℕ → ℕ → ℕ) (h : Heap α) (s : Slice) (vs : List α) : Heap α × Slice :=
  if s.len + vs.length ≤ s.cap then (h.writeFrom s.arr (s.off + s.len) vs, { s with len := s.len + vs.length })
  else
    let all := h.read s ++ vs
    ({ h.writeFrom h.next 0 all with next := h.next + 1 },
      ⟨h.next, 0, all.length, max all.length (grow s.cap all.length)⟩)

def delete (grow : ℕ → ℕ → ℕ) (h : Heap α) (s : Slice) (i : ℕ) : Heap α × Slice :=
  h.append grow (s.take i) ((h.read s).drop (i + 1))

def Spares (h : Heap α) (s : Slice) (vs : List α) (cells : List Addr) : Prop :=
  s.len + vs.length ≤ s.cap → ∀ i v, vs[i]? = some v → s.addr (s.len + i) ∈ cells → h.cell (s.addr (s.len + i)) = v

section Read

variable {h h' : Heap α} {s : Slice} {a b : Addr} {v : α} {vs : List α} {i arr start : ℕ}

@[simp] theorem length_read : (h.read s).length = s.len := by
  simp [read, Slice.addrs]

theorem read_getElem? (hi : i < s.len) : (h.read s)[i]? = some (h.cell (s.addr i)) := by
  simp [read, Slice.addrs, hi]

theorem read_eq_iff : h'.read s = h.read s ↔ ∀ a ∈ s.addrs, h'.cell a = h.cell a := List.map_inj_left

theorem write_cell_self : (h.write a v).cell a = v := update_self ..

theorem write_cell_of_ne (hab : b ≠ a) : (h.write a v).cell b = h.cell b := update_of_ne hab ..

theorem write_cell_eq : h.write a (h.cell a) = h := congrArg (Heap.mk · h.next) (update_eq_self a h.cell)

theorem forall_cell_write {P : α → Prop} (hcell : ∀ a, P (h.cell a)) (hv : P v) (b : Addr) :
    P ((h.write a v).cell b) := by
  by_cases hb : b = a
  · rw [hb, write_cell_self]
    exact hv
  · rw [write_cell_of_ne hb]
    exact hcell b

theorem write_same_iff {β : Type} (f : α → β) {cells : List Addr} :
    (∀ b ∈ cells, f ((h.write a v).cell b) = f (h.cell b)) ↔ (a ∈ cells → f v = f (h.cell a)) := by
  constructor
  · intro hsame ha
    rw [← hsame a ha, write_cell_self]
  · intro hv b hb
    by_cases hba : b = a
    · rw [hba, write_cell_self]
      exact hv (hba ▸ hb)
    · rw [write_cell_of_ne hba]

theorem writeFrom_cell_at (hi : vs[i]? = some v) : (h.writeFrom arr start vs).cell (arr, start + i) = v := by
  simp [writeFrom, List.getD, hi]

theorem writeFrom_cell_of (hne : ∀ i < vs.length, a ≠ (arr, start + i)) :
    (h.writeFrom arr start vs).cell a = h.cell a := by
  by_cases ha : a.1 = arr ∧ start ≤ a.2
  · have hlen : vs.length ≤ a.2 - start := by
      by_contra hlt
      refine hne (a.2 - start) (Nat.lt_of_not_le hlt) (Prod.ext ha.1 ?_)
      simp only
      omega
    simp [writeFrom, ha, List.getD, List.getElem?_eq_none hlen]
  · simp [writeFrom, ha]

end Read

section Append

variable {grow : ℕ → ℕ → ℕ} {h : Heap α} {s t : Slice} {a : Addr} {v : α} {vs : List α} {i : ℕ} {cells : List Addr}

theorem append_of_room (hroom : s.len + vs.length ≤ s.cap) :
    h.append grow s vs = (h.writeFrom s.arr (s.off + s.len) vs, { s with len := s.len + vs.length }) := if_pos hroom

theorem append_of_full (hfull : ¬ s.len + vs.length ≤ s.cap) :
    h.append grow s vs = ({ h.writeFrom h.next 0 (h.read s ++ vs) with next := h.next + 1 },
      ⟨h.next, 0, (h.read s ++ vs).length, max (h.read s ++ vs).length (grow s.cap (h.read s ++ vs).length)⟩) :=
  if_neg hfull

@[simp] theorem append_len : (h.append grow s vs).2.len = s.len + vs.length := by
  by_cases hroom : s.len + vs.length ≤ s.cap
  · rw [append_of_room hroom]
  · rw [append_of_full hroom]
    simp

theorem next_le_append : h.next ≤ (h.append grow s vs).1.next := by
  by_cases hroom : s.len + vs.length ≤ s.cap
  · rw [append_of_room hroom]
    exact Nat.le_refl _
  · rw [append_of_full hroom]
    exact Nat.le_succ _

theorem append_cell_old (hi : i < s.len) :
    (h.append grow s vs).1.cell ((h.append grow s vs).2.addr i) = h.cell (s.addr i) := by
  by_cases hroom : s.len + vs.length ≤ s.cap
  · rw [append_of_room hroom]
    refine writeFrom_cell_of fun j _ heq => ?_
    have hplace : s.off + i = s.off + s.len + j := congrArg Prod.snd heq
    omega
  · rw [append_of_full hroom]
    refine writeFrom_cell_at ?_
    rw [List.getElem?_append_left (by simpa using hi), read_getElem? hi]

theorem append_cell_new (hi : vs[i]? = some v) :
    (h.append grow s vs).1.cell ((h.append grow s vs).2.addr (s.len + i)) = v := by
  by_cases hroom : s.len + vs.length ≤ s.cap
  · rw [append_of_room hroom]
    show (h.writeFrom s.arr (s.off + s.len) vs).cell (s.arr, s.off + (s.len + i)) = v
    rw [← Nat.add_assoc]
    exact writeFrom_cell_at hi
  · rw [append_of_full hroom]
    refine writeFrom_cell_at ?_
    rw [List.getElem?_append_right (by simp)]
    simpa using hi

theorem read_append : (h.append grow s vs).1.read (h.append grow s vs).2 = h.read s ++ vs := by
  refine List.ext_getElem? fun i => ?_
  by_cases hi : i < s.len
  · rw [read_getElem? (by rw [append_len]; omega), append_cell_old hi, List.getElem?_append_left (by simpa using hi),
      read_getElem? hi]
  rw [List.getElem?_append_right (by simpa using hi), length_read]
  by_cases hv : i - s.len < vs.length
  · have hnew : vs[i - s.len]? = some vs[i - s.len] := List.getElem?_eq_getElem hv
    have hcell : (h.append grow s vs).1.cell ((h.append grow s vs).2.addr (s.len + (i - s.len))) = _ :=
      append_cell_new hnew
    rw [Nat.add_sub_of_le (Nat.le_of_not_lt hi)] at hcell
    rw [read_getElem? (by rw [append_len]; omega), hcell, hnew]
  · rw [List.getElem?_eq_none (by rw [length_read, append_len]; omega), List.getElem?_eq_none (by omega)]

theorem append_ok (hok : s.Ok h.next) : (h.append grow s vs).2.Ok (h.append grow s vs).1.next := by
  by_cases hroom : s.len + vs.length ≤ s.cap
  · rw [append_of_room hroom]
    exact ⟨hroom, hok.arr_lt⟩
  · rw [append_of_full hroom]
    exact ⟨Nat.le_max_left _ _, fun _ => Nat.lt_succ_self _⟩

theorem append_cell_of (ha : a.1 < h.next) (hbehind : s.len < s.cap → a.1 = s.arr → a.2 < s.off + s.len) :
    (h.append grow s vs).1.cell a = h.cell a := by
  by_cases hroom : s.len + vs.length ≤ s.cap
  · rw [append_of_room hroom]
    refine writeFrom_cell_of fun i hi heq => ?_
    subst heq
    have hlt := hbehind (by omega) rfl
    simp only at hlt
    omega
  · rw [append_of_full hroom]
    refine writeFrom_cell_of fun i _ heq => ?_
    rw [heq] at ha
    exact Nat.lt_irrefl _ ha

theorem append_cell_of_clear (hclear : s.Clear cells) (hcells : ∀ a ∈ cells, a.1 < h.next) :
    ∀ a ∈ cells, (h.append grow s vs).1.cell a = h.cell a :=
  fun a ha => append_cell_of (hcells a ha) fun hroom => hclear hroom a ha

theorem append_clear (hclear : s.Clear cells) (hcells : ∀ a ∈ cells, a.1 < h.next) :
    (h.append grow s vs).2.Clear cells := by
  intro hlt a ha harr
  by_cases hroom : s.len + vs.length ≤ s.cap
  · rw [append_of_room hroom] at hlt harr ⊢
    simp only at hlt harr ⊢
    have hbehind := hclear (by omega) a ha harr
    omega
  · rw [append_of_full hroom] at harr
    have hnext := hcells a ha
    rw [harr] at hnext
    exact absurd hnext (Nat.lt_irrefl _)

theorem append_apart (hapart : s.Apart t) (ht : t.Ok h.next) : (h.append grow s vs).2.Apart t := by
  by_cases hroom : s.len + vs.length ≤ s.cap
  · rw [append_of_room hroom]
    exact hapart
  · rw [append_of_full hroom]
    by_cases hcap : t.cap = 0
    · exact .inr (.inl hcap)
    · exact .inr (.inr (Nat.ne_of_gt (ht.arr_lt hcap)))

theorem forall_cell_append {P : α → Prop} (hcell : ∀ a, P (h.cell a)) (hvs : ∀ v ∈ vs, P v) (a : Addr) :
    P ((h.append grow s vs).1.cell a) := by
  have hfrom : ∀ {arr start : ℕ} {ws : List α}, (∀ w ∈ ws, P w) → P ((h.writeFrom arr start ws).cell a) := by
    intro arr start ws hws
    simp only [writeFrom]
    split
    · rw [List.getD]
      cases hget : ws[a.2 - start]? with
      | none => exact hcell a
      | some w => exact hws w (List.mem_of_getElem? hget)
    · exact hcell a
  by_cases hroom : s.len + vs.length ≤ s.cap
  · rw [append_of_room hroom]
    exact hfrom hvs
  rw [append_of_full hroom]
  refine hfrom fun w hw => ?_
  rcases List.mem_append.mp hw with hw | hw
  · obtain ⟨b, -, rfl⟩ := List.mem_map.mp hw
    exact hcell b
  · exact hvs w hw

theorem append_same_iff (hcells : ∀ a ∈ cells, a.1 < h.next) :
    (∀ a ∈ cells, (h.append grow s vs).1.cell a = h.cell a) ↔ h.Spares s vs cells := by
  by_cases hroom : s.len + vs.length ≤ s.cap
  · rw [append_of_room hroom]
    have haddr : ∀ i, s.addr (s.len + i) = (s.arr, s.off + s.len + i) := fun i =>
      Prod.ext rfl (Nat.add_assoc ..).symm
    constructor
    · intro hsame _ i v hi ha
      rw [← hsame _ ha, haddr]
      exact writeFrom_cell_at hi
    · intro hspares a ha
      by_cases hwritten : ∃ i < vs.length, a = (s.arr, s.off + s.len + i)
      · obtain ⟨i, hi, rfl⟩ := hwritten
        have hget := List.getElem?_eq_getElem hi
        rw [writeFrom_cell_at hget, ← haddr]
        exact (hspares hroom i _ hget (by rwa [haddr])).symm
      · refine writeFrom_cell_of fun i hi heq => hwritten ⟨i, hi, heq⟩
  · refine iff_of_true (fun a ha => ?_) fun h => absurd h hroom
    rw [append_of_full hroom]
    refine writeFrom_cell_of fun i _ heq => ?_
    have hnext := hcells a ha
    rw [heq] at hnext
    exact Nat.lt_irrefl _ hnext

end Append

section Cut

variable {h : Heap α} {s : Slice} {n : ℕ}

theorem read_drop : h.read (s.drop n) = (h.read s).drop n := by
  refine List.ext_getElem? fun i => ?_
  rw [List.getElem?_drop]
  by_cases hi : i < s.len - n
  · rw [read_getElem? hi, read_getElem? (by omega)]
    simp [Slice.addr, Slice.drop, Nat.add_assoc]
  · rw [List.getElem?_eq_none (by simpa [Slice.drop] using hi), List.getElem?_eq_none (by rw [length_read]; omega)]

theorem read_delete (grow : ℕ → ℕ → ℕ) {i : ℕ} (hi : i < s.len) :
    (h.delete grow s i).1.read (h.delete grow s i).2 = (h.read s).eraseIdx i := by
  have htake : h.read (s.take i) = (h.read s).take i := by
    have haddrs : (s.take i).addrs = s.addrs.take i := by
      rw [Slice.addrs, Slice.addrs, ← List.map_take, List.take_range, Nat.min_eq_left (Nat.le_of_lt hi)]
      rfl
    rw [read, read, haddrs, List.map_take]
  rw [delete, read_append, htake, List.eraseIdx_eq_take_drop_succ]

theorem delete_ok {grow : ℕ → ℕ → ℕ} {i : ℕ} (hok : s.Ok h.next) (hi : i < s.len) :
    (h.delete grow s i).2.Ok (h.delete grow s i).1.next :=
  append_ok ⟨Nat.le_of_lt (Nat.lt_of_lt_of_le hi hok.len_le), hok.arr_lt⟩

end Cut

end Heap

end Foundation.Slices
