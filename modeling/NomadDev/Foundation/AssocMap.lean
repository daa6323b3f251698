import Mathlib.Data.List.Nodup

namespace Foundation.AssocMap

variable {κ β : Type} [DecidableEq κ] {m : List (κ × β)} {k : κ} {v : β}

def get (m : List (κ × β)) (k : κ) : Option β := (m.find? fun p => p.1 = k).map Prod.snd

def Keyed (m : List (κ × β)) : Prop := (m.map Prod.fst).Nodup

theorem mem_of_get (h : get m k = some v) : (k, v) ∈ m := by
  obtain ⟨⟨k', v'⟩, hfind, rfl⟩ := Option.map_eq_some_iff.mp h
  have hk : k' = k := by simpa using List.find?_some hfind
  rw [← hk]
  exact List.mem_of_find?_eq_some hfind

theorem get_of_mem (hm : Keyed m) (h : (k, v) ∈ m) : get m k = some v := by
  induction m with
  | nil => cases h
  | cons p m ih =>
    obtain ⟨hp, hm⟩ := List.nodup_cons.mp hm
    rcases List.mem_cons.mp h with rfl | h
    · simp [get]
    have hne : p.1 ≠ k := by
      rintro rfl
      exact hp (List.mem_map.mpr ⟨(p.1, v), h, rfl⟩)
    rw [get, List.find?_cons_of_neg (by simpa using hne)]
    exact ih hm h

theorem keyed_cons (hm : Keyed m) (h : get m k = none) : Keyed ((k, v) :: m) := by
  refine List.nodup_cons.mpr ⟨fun hk => ?_, hm⟩
  obtain ⟨⟨k', v'⟩, hmem, rfl⟩ := List.mem_map.mp hk
  exact nomatch h.symm.trans (get_of_mem hm hmem)

omit [DecidableEq κ] in
theorem keyed_filter (hm : Keyed m) (p : κ × β → Bool) : Keyed (m.filter p) :=
  hm.sublist (List.filter_sublist.map Prod.fst)

def erase (m : List (κ × β)) (k : κ) : List (κ × β) := m.filter fun p => p.1 ≠ k

def put (m : List (κ × β)) (k : κ) (v : β) : List (κ × β) := (k, v) :: erase m k

theorem keyed_erase (hm : Keyed m) (k : κ) : Keyed (erase m k) := keyed_filter hm _

theorem get_erase_self (m : List (κ × β)) (k : κ) : get (erase m k) k = none := by
  rw [get, Option.map_eq_none_iff, List.find?_eq_none]
  intro p hp
  simpa using (List.mem_filter.mp hp).2

theorem get_erase_of_ne {j : κ} (m : List (κ × β)) (h : j ≠ k) : get (erase m k) j = get m j := by
  rw [get, get, erase, List.find?_filter]
  congr 2
  funext p
  by_cases hp : p.1 = j
  · simp [hp, h]
  · simp [hp]

theorem keyed_put (hm : Keyed m) (k : κ) (v : β) : Keyed (put m k v) :=
  keyed_cons (keyed_erase hm k) (get_erase_self m k)

theorem get_put_self (m : List (κ × β)) (k : κ) (v : β) : get (put m k v) k = some v := by simp [get, put]

theorem get_put_of_ne {j : κ} (m : List (κ × β)) (v : β) (h : j ≠ k) : get (put m k v) j = get m j := by
  rw [← get_erase_of_ne m h, get, put, List.find?_cons_of_neg (by simpa using h.symm)]
  rfl

theorem length_erase_lt (h : get m k = some v) : (erase m k).length < m.length := by
  refine List.length_filter_lt_length_iff_exists.mpr ⟨(k, v), mem_of_get h, ?_⟩
  simp

end Foundation.AssocMap
