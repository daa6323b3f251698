import NomadDev.SessionStore

namespace NomadDev.SessionDB

open Foundation.Window List
open NomadDev.Session (Envelope Entry RingBuffer newRingBuffer evict totalSize)

variable {B : Type} {bufferSize maxBytes cap : ℕ}

def Fits (cap maxBytes : ℕ) (xs : List Entry) : Prop := xs.length ≤ cap ∧ totalSize xs ≤ maxBytes

instance (cap maxBytes : ℕ) : DecidablePred (Fits cap maxBytes) := fun xs =>
  inferInstanceAs (Decidable (xs.length ≤ cap ∧ totalSize xs ≤ maxBytes))

theorem fits_of_concat (xs : List Entry) (x : Entry) (h : Fits cap maxBytes (xs ++ [x])) : Fits cap maxBytes xs := by
  obtain ⟨hlen, hsize⟩ := h
  rw [length_append] at hlen
  rw [Session.totalSize_append] at hsize
  exact ⟨by omega, by omega⟩

theorem evict_eq_window (cap maxBytes : ℕ) (items : List Entry) :
    (evict cap maxBytes (totalSize items) items).2 = window (Fits cap maxBytes) items := by
  induction items with
  | nil => rfl
  | cons e rest ih =>
    cases rest with
    | nil => rfl
    | cons f rest =>
      rw [evict, window]
      by_cases hf : Fits cap maxBytes (e :: f :: rest)
      · rw [if_pos hf, if_neg]
        obtain ⟨hlen, hsize⟩ := hf
        omega
      · have hover : cap < (e :: f :: rest).length ∨ maxBytes < totalSize (e :: f :: rest) := by
          by_contra hnot
          exact hf ⟨by omega, by omega⟩
        rw [if_neg hf, if_pos hover, Session.totalSize_cons, Nat.add_sub_cancel_left]
        exact ih

theorem push_items (b : RingBuffer) (e : Entry) :
    (b.push e.env e.size).items = window (Fits b.cap b.maxBytes) (b.items ++ [e]) := by
  have hbytes : b.bytes + e.size = totalSize (b.items ++ [e]) := by
    rw [b.bytes_eq, Session.totalSize_append]
    rfl
  change (evict b.cap b.maxBytes (b.bytes + e.size) (b.items ++ [e])).2 = _
  rw [hbytes, evict_eq_window]

theorem pushAll_bounds (b : RingBuffer) (entries : List Entry) :
    (pushAll b entries).cap = b.cap ∧ (pushAll b entries).maxBytes = b.maxBytes := by
  induction entries generalizing b with
  | nil => exact ⟨rfl, rfl⟩
  | cons e entries ih => exact ih (b.push e.env e.size)

theorem pushAll_items (b : RingBuffer) (past entries : List Entry)
    (hb : b.items = window (Fits b.cap b.maxBytes) past) :
    (pushAll b entries).items = window (Fits b.cap b.maxBytes) (past ++ entries) := by
  induction entries generalizing b past with
  | nil => rw [append_nil, pushAll, hb]
  | cons e entries ih =>
    have hpush : (b.push e.env e.size).items = window (Fits b.cap b.maxBytes) (past ++ [e]) := by
      rw [push_items, hb, window_concat fits_of_concat]
    have hrest := ih (b.push e.env e.size) (past ++ [e]) hpush
    rw [append_assoc] at hrest
    exact hrest

theorem window_length_le (hcap : 1 ≤ cap) (xs : List Entry) : (window (Fits cap maxBytes) xs).length ≤ cap := by
  rcases fits_window (Fits cap maxBytes) xs with h | h
  · exact h.1
  · exact h.trans hcap

theorem window_drop_append (maxBytes : ℕ) (hcap : 1 ≤ cap) (xs ys : List Entry) (k : ℕ)
    (hk : k = 0 ∨ cap + k ≤ xs.length) :
    window (Fits cap maxBytes) (xs.drop k ++ ys) = window (Fits cap maxBytes) (xs ++ ys) := by
  rcases hk with rfl | hk
  · rfl
  have hlong : cap ≤ (xs.drop k ++ ys).length := by
    rw [length_append, length_drop]
    omega
  have hsuf : xs.drop k ++ ys <:+ xs ++ ys :=
    (suffix_append_inj_of_length_eq rfl).mpr ⟨drop_suffix k xs, rfl⟩
  apply window_of_suffix _ hsuf
  · exact suffix_of_suffix_length_le (window_suffix _ _) hsuf ((window_length_le hcap _).trans hlong)
  · intro hnil
    rw [hnil, length_nil] at hlong
    omega

variable (codec : Codec B)

def encodeFrom : ℕ → List Entry → List (Row B)
  | _, [] => []
  | base, e :: entries => ⟨base, codec.marshal e.env, e.size⟩ :: encodeFrom (base + 1) entries

theorem encodeFrom_append (base : ℕ) (xs ys : List Entry) :
    encodeFrom codec base (xs ++ ys) = encodeFrom codec base xs ++ encodeFrom codec (base + xs.length) ys := by
  induction xs generalizing base with
  | nil => rfl
  | cons e xs ih =>
    rw [cons_append, encodeFrom, encodeFrom, ih, cons_append, length_cons, Nat.add_assoc, Nat.add_comm 1]

variable {base : ℕ} {xs entries : List Entry} {rows : List (Row B)}

theorem nextIdx_encodeFrom (hne : xs ≠ []) : nextIdx (encodeFrom codec base xs) = base + xs.length := by
  induction xs generalizing base with
  | nil => exact absurd rfl hne
  | cons e xs ih =>
    by_cases hx : xs = []
    · rw [hx]
      rfl
    · rw [encodeFrom, nextIdx, ih hx, length_cons]
      change max (base + 1) _ = _
      omega

structure Logged (rows : List (Row B)) (base : ℕ) (entries : List Entry) : Prop where
  rows_eq : rows = encodeFrom codec base entries
  base_eq : entries = [] → base = 0

theorem Logged.nextIdx_eq (h : Logged codec rows base entries) : nextIdx rows = base + entries.length := by
  rw [h.rows_eq]
  by_cases hne : entries = []
  · rw [h.base_eq hne, hne]
    rfl
  · exact nextIdx_encodeFrom codec hne

theorem Logged.concat (h : Logged codec rows base entries) (e : Entry) :
    Logged codec (rows ++ [⟨nextIdx rows, codec.marshal e.env, e.size⟩]) base (entries ++ [e]) := by
  constructor
  · rw [h.nextIdx_eq, encodeFrom_append, h.rows_eq]
    rfl
  · intro hnil
    exact absurd hnil (append_ne_nil_of_right_ne_nil _ (cons_ne_nil e []))

theorem map_decodeRow_encodeFrom (base : ℕ) (xs : List Entry) :
    (encodeFrom codec base xs).map (decodeRow codec) = xs.map some := by
  induction xs generalizing base with
  | nil => rfl
  | cons e xs ih =>
    rw [encodeFrom, map_cons, map_cons, ih, decodeRow, codec.unmarshal_marshal]
    rfl

theorem mapM_eq_some_of_map {α β : Type} {f : α → Option β} {rows : List α} {xs : List β}
    (h : rows.map f = xs.map some) : rows.mapM f = some xs := by
  induction rows generalizing xs with
  | nil =>
    cases xs with
    | nil => rfl
    | cons _ _ => cases h
  | cons r rows ih =>
    cases xs with
    | nil => cases h
    | cons x xs =>
      obtain ⟨hr, hrest⟩ := List.cons.inj h
      rw [mapM_cons, hr, ih hrest]
      rfl

variable (bufferSize) in
theorem Logged.loadRows_eq (h : Logged codec rows base xs) :
    loadRows codec bufferSize rows = some (xs.drop (xs.length - bufferSize)) := by
  have hmap : ((encodeFrom codec base xs).reverse.take bufferSize).map (decodeRow codec) =
      (xs.reverse.take bufferSize).map some := by
    rw [map_take, map_reverse, map_decodeRow_encodeFrom, ← map_reverse, ← map_take]
  rw [loadRows, h.rows_eq, mapM_eq_some_of_map hmap, Option.map_some, take_reverse, reverse_reverse]

theorem filter_encodeFrom (c base : ℕ) (xs : List Entry) : (encodeFrom codec base xs).filter (fun r => c ≤ r.idx) =
      encodeFrom codec (base + (c - base)) (xs.drop (c - base)) := by
  induction xs generalizing base with
  | nil =>
    rw [drop_nil]
    rfl
  | cons e xs ih =>
    by_cases hc : c ≤ base
    · have hk : c - base = 0 := Nat.sub_eq_zero_of_le hc
      have hk' : c - (base + 1) = 0 := Nat.sub_eq_zero_of_le (Nat.le_succ_of_le hc)
      rw [encodeFrom, filter_cons_of_pos (by simpa using hc), ih, hk, hk']
      rfl
    · obtain ⟨k, hk⟩ : ∃ k, c - base = k + 1 := ⟨c - base - 1, by omega⟩
      have hk' : c - (base + 1) = k := by omega
      rw [encodeFrom, filter_cons_of_neg (by simpa using hc), ih, hk, hk', drop_succ_cons, Nat.add_assoc,
        Nat.add_comm 1]

theorem Logged.pruned {next : ℕ} (h : Logged codec rows base xs) (hnext : next < base + xs.length) (hn : 1 ≤ bufferSize) :
    ∃ k, Logged codec (pruned bufferSize rows next) (base + k) (xs.drop k) ∧
      (k = 0 ∨ bufferSize + k ≤ xs.length) := by
  unfold SessionDB.pruned
  split
  · have hk : next - 2 * bufferSize - base = 0 ∨ bufferSize + (next - 2 * bufferSize - base) ≤ xs.length := by omega
    refine ⟨next - 2 * bufferSize - base, ⟨?_, ?_⟩, hk⟩
    · rw [h.rows_eq, filter_encodeFrom]
    · intro hnil
      have hlen := drop_eq_nil_iff.mp hnil
      have hbase := h.base_eq
      rcases hk with hk | hk
      · rw [hk] at hlen ⊢
        exact hbase (length_eq_zero_iff.mp (Nat.le_zero.mp hlen))
      · omega
  · exact ⟨0, h, .inl rfl⟩

end NomadDev.SessionDB
