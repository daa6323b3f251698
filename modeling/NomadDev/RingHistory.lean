import NomadDev.SessionLog
import NomadDev.Foundation.PointUpdate

namespace NomadDev.Session

open Foundation.Window Foundation.Transition Foundation.PointUpdate Function List
open SessionDB (Fits pushAll)

section Pushes

variable {cap maxBytes : ℕ}

theorem fits_of_suffix (xs ys : List Entry) (h : ys <:+ xs) (hxs : Fits cap maxBytes xs) : Fits cap maxBytes ys := by
  obtain ⟨dropped, rfl⟩ := h
  obtain ⟨hlen, hsize⟩ := hxs
  rw [length_append] at hlen
  rw [totalSize_append] at hsize
  exact ⟨by omega, by omega⟩

theorem fits_singleton_iff (hcap : 1 ≤ cap) (e : Entry) : Fits cap maxBytes [e] ↔ e.size ≤ maxBytes := by
  constructor
  · rintro ⟨-, hsize⟩
    exact hsize
  · exact fun hsize => ⟨hcap, hsize⟩

theorem pushAll_newRingBuffer (hcap : 1 ≤ cap) (hbytes : 1 ≤ maxBytes) (pushes : List Entry) :
    (pushAll (newRingBuffer cap maxBytes) pushes).items = window (Fits cap maxBytes) pushes := by
  have hitems := SessionDB.pushAll_items (newRingBuffer cap maxBytes) [] pushes rfl
  have hlimits : (newRingBuffer cap maxBytes).cap = cap ∧ (newRingBuffer cap maxBytes).maxBytes = maxBytes :=
    ⟨max_eq_left hcap, max_eq_left hbytes⟩
  rw [hlimits.1, hlimits.2] at hitems
  exact hitems

theorem buffer_holds_longest_tail (hcap : 1 ≤ cap) (hbytes : 1 ≤ maxBytes) (pushes : List Entry) :
    ((∀ e, pushes.getLast? = some e → e.size ≤ maxBytes) →
      IsLongest (Fits cap maxBytes) pushes (pushAll (newRingBuffer cap maxBytes) pushes).items) ∧
    (∀ e, pushes.getLast? = some e → maxBytes < e.size →
      (pushAll (newRingBuffer cap maxBytes) pushes).items = [e]) ∧
    (pushAll (newRingBuffer cap maxBytes) pushes).bytes =
      totalSize (pushAll (newRingBuffer cap maxBytes) pushes).items ∧
    (pushes ≠ [] → (pushAll (newRingBuffer cap maxBytes) pushes).items ≠ []) := by
  have hitems := pushAll_newRingBuffer hcap hbytes pushes
  refine ⟨?_, ?_, RingBuffer.bytes_eq _, ?_⟩
  · intro hlast
    rw [hitems]
    apply isLongest_window
    rcases eq_nil_or_concat pushes with rfl | ⟨earlier, e, rfl⟩
    · exact ⟨Nat.zero_le cap, Nat.zero_le maxBytes⟩
    · rw [concat_eq_append] at hlast ⊢
      exact fits_window_concat ((fits_singleton_iff hcap e).mpr (hlast e List.getLast?_concat)) earlier
  · intro e he hover
    obtain ⟨earlier, rfl⟩ := List.getLast?_eq_some_iff.mp he
    have hnot : ¬ Fits cap maxBytes [e] := fun hfits => absurd ((fits_singleton_iff hcap e).mp hfits) (by omega)
    rw [hitems, window_concat_of_not_fits fits_of_suffix hnot]
  · intro hne
    rw [hitems]
    exact window_ne_nil hne

theorem buffer_holds_last_two : (pushAll (newRingBuffer 10 5) [⟨⟨0, .ack⟩, 2⟩, ⟨⟨1, .ack⟩, 2⟩, ⟨⟨2, .ack⟩, 2⟩]).items =
      [⟨⟨1, .ack⟩, 2⟩, ⟨⟨2, .ack⟩, 2⟩] ∧
    IsLongest (Fits 10 5) [⟨⟨0, .ack⟩, 2⟩, ⟨⟨1, .ack⟩, 2⟩, ⟨⟨2, .ack⟩, 2⟩]
      (pushAll (newRingBuffer 10 5) [⟨⟨0, .ack⟩, 2⟩, ⟨⟨1, .ack⟩, 2⟩, ⟨⟨2, .ack⟩, 2⟩]).items := by
  refine ⟨by decide, (buffer_holds_longest_tail (by decide) (by decide) _).1 ?_⟩
  rintro e he
  cases he
  decide

end Pushes

section Emitters

variable {E : Type}

/-- An emitter holds in hand the envelope it has minted and not yet appended; `log` has every entry appended so far, in
the order of the appends. -/
structure Emission (E : Type) where
  nextID : ℕ
  inHand : E → Option Envelope
  buffer : RingBuffer
  log : List Entry

inductive Emit (E : Type)
  | mint (e : E) (type : EventType)
  | append (e : E) (size : ℕ)

def newEmission (cap maxBytes : ℕ) : Emission E := ⟨0, fun _ => none, newRingBuffer cap maxBytes, []⟩

structure Emission.Minted (s : Emission E) : Prop where
  suffix : s.buffer.items <:+ s.log
  distinct : (s.log.map (·.env.id)).Nodup
  logged : ∀ x ∈ s.log, x.env.id < s.nextID
  held : ∀ e env, s.inHand e = some env → env.id < s.nextID ∧ ∀ x ∈ s.log, x.env.id ≠ env.id
  apart : ∀ e f env env', s.inHand e = some env → s.inHand f = some env' → env.id = env'.id → e = f

theorem minted_newEmission (cap maxBytes : ℕ) : (newEmission cap maxBytes : Emission E).Minted where
  suffix := suffix_rfl
  distinct := nodup_nil
  logged := fun _ hx => absurd hx not_mem_nil
  held := fun _ _ h => nomatch h
  apart := fun _ _ _ _ h => nomatch h

structure Emission.Answers (s : Emission E) : Prop where
  held : ∀ before x after, s.log = before ++ x :: after → x ∈ s.buffer.items →
    s.buffer.since (some x.env.id) = some (after.map Entry.env)
  unknown : ∀ id, (∀ x ∈ s.buffer.items, x.env.id ≠ id) → s.buffer.since (some id) = none

def Emission.Sorted (s : Emission E) : Prop := s.buffer.items.Pairwise fun x y => x.env.id < y.env.id

variable {s t : Emission E} {x : Entry} {a : Emit E}

theorem Emission.Minted.since_eq (h : s.Minted) {before after : List Entry}
    (hlog : s.log = before ++ x :: after) (hx : x ∈ s.buffer.items) (hrange : s.buffer.InRange x.env.id) :
    s.buffer.since (some x.env.id) = some (after.map Entry.env) := by
  obtain ⟨dropped, hdropped⟩ := h.suffix
  have hapart : ∀ y ∈ dropped, y.env.id ≠ x.env.id := by
    intro y hy
    have hdistinct := h.distinct
    rw [← hdropped, map_append] at hdistinct
    exact (nodup_append.mp hdistinct).2.2 _ (mem_map_of_mem hy) _ (mem_map_of_mem hx)
  have hbefore : ∀ y ∈ before, y.env.id ≠ x.env.id := by
    intro y hy
    have hdistinct := h.distinct
    rw [hlog, map_append] at hdistinct
    exact (nodup_append.mp hdistinct).2.2 _ (mem_map_of_mem hy) _ mem_cons_self
  calc s.buffer.since (some x.env.id)
      = RingBuffer.tailAfter x.env.id s.buffer.items := RingBuffer.since_eq_tailAfter hrange
    _ = RingBuffer.tailAfter x.env.id s.log := by rw [← hdropped, RingBuffer.tailAfter_append hapart]
    _ = RingBuffer.tailAfter x.env.id (x :: after) := by rw [hlog, RingBuffer.tailAfter_append hbefore]
    _ = some (after.map Entry.env) := by rw [RingBuffer.tailAfter, if_pos rfl]

theorem since_eq_none {b : RingBuffer} {id : ℕ} (h : ∀ x ∈ b.items, x.env.id ≠ id) : b.since (some id) = none := by
  rw [← Option.not_isSome_iff_eq_none, RingBuffer.since_isSome_iff]
  rintro ⟨⟨x, hx, hid⟩, -⟩
  exact h x hx hid

theorem inRange_of_sorted {b : RingBuffer} (h : b.items.Pairwise fun x y => x.env.id < y.env.id)
    (hx : x ∈ b.items) : b.InRange x.env.id := by
  constructor
  · intro first hfirst
    obtain ⟨rest, hitems⟩ := List.head?_eq_some_iff.mp hfirst
    rw [hitems] at h hx
    rcases mem_cons.mp hx with rfl | hx
    · exact le_rfl
    · exact ((pairwise_cons.mp h).1 x hx).le
  · intro last hlast
    obtain ⟨kept, hitems⟩ := List.getLast?_eq_some_iff.mp hlast
    rw [hitems] at h hx
    rcases mem_append.mp hx with hx | hx
    · exact ((pairwise_append.mp h).2.2 x hx last mem_cons_self).le
    · rw [mem_singleton.mp hx]

theorem Emission.Minted.answers_of_sorted (h : s.Minted) (hsorted : s.Sorted) : s.Answers where
  held := fun _ _ _ hlog hx => h.since_eq hlog hx (inRange_of_sorted hsorted hx)
  unknown := fun _ => since_eq_none

theorem Emission.Answers.inRange (h : s.Answers) (hs : s.Minted)
    (hx : x ∈ s.buffer.items) : s.buffer.InRange x.env.id := by
  obtain ⟨before, after, hlog⟩ := append_of_mem (hs.suffix.subset hx)
  have hsome : (s.buffer.since (some x.env.id)).isSome = true := by rw [h.held before x after hlog hx]; rfl
  exact (RingBuffer.since_isSome_iff.mp hsome).2

variable [DecidableEq E]

def emit (s : Emission E) : Emit E → Option (Emission E)
  | .mint e type =>
    match s.inHand e with
    | some _ => none
    | none => some { s with
        nextID := s.nextID + 1
        inHand := update s.inHand e (some ⟨s.nextID, type⟩) }
  | .append e size =>
    match s.inHand e with
    | none => none
    | some env => some { s with
        inHand := update s.inHand e none
        buffer := s.buffer.push env size
        log := s.log ++ [⟨env, size⟩] }

theorem emit_cases (h : emit s a = some t) : (∃ e type, a = .mint e type ∧ s.inHand e = none ∧
      t = ⟨s.nextID + 1, update s.inHand e (some ⟨s.nextID, type⟩), s.buffer, s.log⟩) ∨
    ∃ e size env, a = .append e size ∧ s.inHand e = some env ∧
      t = ⟨s.nextID, update s.inHand e none, s.buffer.push env size, s.log ++ [⟨env, size⟩]⟩ := by
  cases a with
  | mint e type =>
    cases hhand : s.inHand e with
    | some env => simp [emit, hhand] at h
    | none =>
      simp only [emit, hhand, Option.some.injEq] at h
      exact .inl ⟨e, type, rfl, hhand, h.symm⟩
  | append e size =>
    cases hhand : s.inHand e with
    | none => simp [emit, hhand] at h
    | some env =>
      simp only [emit, hhand, Option.some.injEq] at h
      exact .inr ⟨e, size, env, rfl, hhand, h.symm⟩

theorem Emission.Minted.emit (h : s.Minted) (hstep : emit s a = some t) : t.Minted := by
  rcases emit_cases hstep with ⟨e, type, rfl, hhand, rfl⟩ | ⟨e, size, env, rfl, hhand, rfl⟩
  · refine ⟨h.suffix, h.distinct, fun x hx => Nat.lt_succ_of_lt (h.logged x hx), ?_, ?_⟩
    · intro f env hf
      rcases of_update_some hf with ⟨-, rfl⟩ | ⟨-, hf⟩
      · exact ⟨Nat.lt_succ_self _, fun x hx => (h.logged x hx).ne⟩
      · exact ⟨Nat.lt_succ_of_lt (h.held f env hf).1, (h.held f env hf).2⟩
    · intro f g env env' hf hg hid
      rcases of_update_some hf with ⟨hfe, rfl⟩ | ⟨-, hf'⟩ <;> rcases of_update_some hg with ⟨hge, rfl⟩ | ⟨-, hg'⟩
      · rw [hfe, hge]
      · exact absurd hid (h.held g env' hg').1.ne'
      · exact absurd hid (h.held f env hf').1.ne
      · exact h.apart f g env env' hf' hg' hid
  · obtain ⟨hlt, hnew⟩ := h.held e env hhand
    obtain ⟨kept, hkept, hitems⟩ := s.buffer.push_eq_concat env size
    refine ⟨?_, ?_, ?_, ?_, ?_⟩
    · rw [hitems]
      exact (suffix_append_inj_of_length_eq rfl).mpr ⟨hkept.trans h.suffix, rfl⟩
    · rw [map_append, map_singleton, nodup_append]
      refine ⟨h.distinct, pairwise_singleton _ _, ?_⟩
      intro id hid id' hid'
      obtain ⟨x, hx, rfl⟩ := mem_map.mp hid
      rw [mem_singleton.mp hid']
      exact hnew x hx
    · intro x hx
      rcases mem_append.mp hx with hx | hx
      · exact h.logged x hx
      · rw [mem_singleton.mp hx]
        exact hlt
    · intro f env' hf
      obtain ⟨hne, hf⟩ := of_update_none hf
      refine ⟨(h.held f env' hf).1, fun x hx => ?_⟩
      rcases mem_append.mp hx with hx | hx
      · exact (h.held f env' hf).2 x hx
      · rw [mem_singleton.mp hx]
        exact fun hid => hne (h.apart f e env' env hf hhand hid.symm)
    · intro f g env' env'' hf hg
      exact h.apart f g env' env'' (of_update_none hf).2 (of_update_none hg).2

def InOrder (s : Emission E) : Emit E → Prop
  | .mint _ _ => True
  | .append e size => ∀ env ∈ s.inHand e, ∀ x ∈ (s.buffer.push env size).items, x.env.id ≤ env.id

instance (s : Emission E) : (a : Emit E) → Decidable (InOrder s a)
  | .mint _ _ => inferInstanceAs (Decidable True)
  | .append e size => inferInstanceAs
      (Decidable (∀ env ∈ s.inHand e, ∀ x ∈ (s.buffer.push env size).items, x.env.id ≤ env.id))

theorem emit_sorted (hs : s.Minted ∧ s.Sorted) (ha : InOrder s a)
    (hstep : emit s a = some t) : t.Minted ∧ t.Sorted := by
  refine ⟨hs.1.emit hstep, ?_⟩
  rcases emit_cases hstep with ⟨e, type, rfl, hhand, rfl⟩ | ⟨e, size, env, rfl, hhand, rfl⟩
  · exact hs.2
  have hle := ha env hhand
  obtain ⟨kept, hkept, hitems⟩ := s.buffer.push_eq_concat env size
  rw [Emission.Sorted, hitems, pairwise_append]
  refine ⟨hs.2.sublist hkept.sublist, pairwise_singleton _ _, ?_⟩
  intro x hx y hy
  rw [mem_singleton.mp hy]
  have hne := (hs.1.held e env hhand).2 x (hs.1.suffix.subset (hkept.subset hx))
  have hxle := hle x (by rw [hitems]; exact mem_append_left _ hx)
  exact lt_of_le_of_ne hxle hne

theorem emit_answers_iff (hs : s.Minted ∧ s.Sorted) (hstep : emit s a = some t) : t.Answers ↔ InOrder s a := by
  constructor
  · intro ht
    rcases emit_cases hstep with ⟨e, type, rfl, hhand, rfl⟩ | ⟨e, size, env, rfl, hhand, rfl⟩
    · trivial
    intro env' henv x hx
    cases hhand.symm.trans henv
    obtain ⟨kept, -, hitems⟩ := s.buffer.push_eq_concat env size
    have hlast : (s.buffer.push env size).items.getLast? = some ⟨env, size⟩ := by
      rw [hitems, List.getLast?_concat]
    exact (ht.inRange (hs.1.emit hstep) hx).2 _ hlast
  · intro ha
    obtain ⟨ht, hsorted⟩ := emit_sorted hs ha hstep
    exact ht.answers_of_sorted hsorted

theorem eventsSince_answers_iff {cap maxBytes : ℕ} {as : List (Emit E)} {t : Emission E}
    (h : run emit (newEmission cap maxBytes) as = some t) :
    Throughout emit Emission.Answers (newEmission cap maxBytes : Emission E) as ↔
      Steps emit InOrder (newEmission cap maxBytes) as t := by
  have hinit : (newEmission cap maxBytes : Emission E).Minted ∧ (newEmission cap maxBytes : Emission E).Sorted :=
    ⟨minted_newEmission cap maxBytes, List.Pairwise.nil⟩
  exact throughout_iff_steps_of_kept (fun s a t hs ha hstep => emit_sorted hs ha hstep)
    (fun s a t hs hstep => emit_answers_iff hs hstep) h hinit (hinit.1.answers_of_sorted hinit.2)

def orderly : List (Emit Bool) := [.mint false .ack, .mint true .pong, .append false 1, .append true 1]

theorem eventsSince_answers_orderly : ∃ t : Emission Bool, run emit (newEmission 4 100) orderly = some t ∧
    Throughout emit Emission.Answers (newEmission 4 100 : Emission Bool) orderly := by
  have hrun : (run (checked emit InOrder) (newEmission 4 100 : Emission Bool) orderly).isSome = true := by
    decide +kernel
  obtain ⟨t, ht⟩ := Option.isSome_iff_exists.mp hrun
  have hsteps := steps_of_checked ht
  exact ⟨t, hsteps.run_eq, (eventsSince_answers_iff hsteps.run_eq).mpr hsteps⟩

def overtaken : List (Emit Bool) := [.mint false .ack, .mint true .pong, .append true 1, .append false 1]

theorem held_ids_answered_stale : ∃ t : Emission Bool, run emit (newEmission 4 100) overtaken = some t ∧
    t.buffer.items.map (·.env.id) = [1, 0] ∧ t.buffer.since (some 1) = none ∧ t.buffer.since (some 0) = none ∧
    ¬ t.Answers := by
  refine ⟨_, rfl, by decide +kernel, by decide +kernel, by decide +kernel, fun h => ?_⟩
  have hstale := h.held [] ⟨⟨1, .pong⟩, 1⟩ [⟨⟨0, .ack⟩, 1⟩] rfl (by decide +kernel)
  exact absurd hstale (by decide +kernel)

end Emitters

end NomadDev.Session
