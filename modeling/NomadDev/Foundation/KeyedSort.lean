import Mathlib.Data.List.Sort

namespace Foundation.KeyedSort

variable {α κ : Type*} [LinearOrder κ] (key : α → κ)

def sortBy (l : List α) : List α := l.insertionSort fun a b => key a ≤ key b

theorem sortBy_perm (l : List α) : (sortBy key l).Perm l := List.perm_insertionSort _ l

theorem sortBy_sorted (l : List α) : (sortBy key l).Pairwise fun a b => key a ≤ key b := by
  have : Std.Total fun a b : α => key a ≤ key b := ⟨fun a b => le_total (key a) (key b)⟩
  have : IsTrans α fun a b => key a ≤ key b := ⟨fun _ _ _ => le_trans⟩
  exact List.pairwise_insertionSort _ l

variable {key} {l : List α}

theorem nodup_of_increasing (h : l.Pairwise fun a b => key a < key b) : (l.map key).Nodup :=
  List.pairwise_map.mpr (h.imp ne_of_lt)

theorem sortBy_eq {sorted : List α} (hperm : sorted.Perm l) (h : sorted.Pairwise fun a b => key a < key b) :
    sortBy key l = sorted := by
  have hsame := (sortBy_perm key l).trans hperm.symm
  apply List.Perm.eq_of_pairwise ?_ (sortBy_sorted key l) (h.imp le_of_lt) hsame
  intro a b ha hb hab hba
  exact List.inj_on_of_nodup_map (nodup_of_increasing h) (hsame.subset ha) hb (le_antisymm hab hba)

theorem sortBy_increasing (h : (l.map key).Nodup) : (sortBy key l).Pairwise fun a b => key a < key b := by
  have hne : (sortBy key l).Pairwise fun a b => key a ≠ key b :=
    List.pairwise_map.mp (((sortBy_perm key l).map key).nodup_iff.mpr h)
  exact hne.imp₂ (fun _ _ hne hle => lt_of_le_of_ne hle hne) (sortBy_sorted key l)

theorem filter_sortBy (h : (l.map key).Nodup) (p : α → Bool) : (sortBy key l).filter p = sortBy key (l.filter p) := by
  symm
  apply sortBy_eq ((sortBy_perm key l).filter p)
  exact (sortBy_increasing h).filter p

end Foundation.KeyedSort
