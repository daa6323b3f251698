import NomadDev.HistoryReset
import NomadDev.Foundation.KeyedSort

namespace NomadDev.History.Resets

open Middleware Foundation.Transition Foundation.KeyedSort Function List

variable {β : Type}

def Row.idx (r : Row β) : ℕ := r.turn.idx

def Row.key (r : Row β) : String × ℕ := (r.turn.sid, r.turn.idx)

def Keyed (table : List (Row β)) : Prop := (table.map Row.key).Nodup

def start (table : List (Row β)) : State β := { init with table := table }

def Action.goroutine : Action β → ℕ
  | .append g _ => g
  | .compact g _ => g
  | .lock g => g
  | .selectNext g _ => g
  | .insert g _ => g
  | .load g _ => g
  | .summarize g _ => g
  | .replaceWithSummary g _ => g
  | .reset _ _ => 0

def Action.isReset : Action β → Bool
  | .reset .. => true
  | _ => false

def stepBy (k : ℕ → Compactor β) (s : State β) (a : Action β) : Option (State β) := step (k a.goroutine) s a

def Call.session : Call β → Option String
  | .appending t => some t.sid
  | .numbered t => some t.sid
  | .compacting sid => some sid
  | .summarizing sid _ _ => some sid
  | .writing sid _ _ _ => some sid
  | _ => none

def Call.chosen : Call β → List (Row β)
  | .summarizing _ oldest rest => oldest :: rest
  | .writing _ oldest rest _ => oldest :: rest
  | _ => []

def State.window (s : State β) (sid : String) : List (Row β) := sortBy Row.idx (s.thread sid)

inductive CompactResult
  | failed
  | collapsed (n : ℕ)

def compactReturns (k : Compactor β) (s : State β) : Action β → Option (ℕ × CompactResult)
  | .compact g _ => if k.wordThreshold ≤ 0 ∨ k.summarizer.isNone then some (g, .collapsed 0) else none
  | .load g ok =>
    match s.calls g with
    | .compacting sid =>
      if ok then if (victims k (s.loadCompactionRows sid)).isEmpty then some (g, .collapsed 0) else none
      else some (g, .failed)
    | _ => none
  | .summarize g answer =>
    match s.calls g, answer with
    | .summarizing .., .error _ => some (g, .failed)
    | _, _ => none
  | .replaceWithSummary g ok =>
    match s.calls g with
    | .writing _ _ rest _ => some (g, if ok then .collapsed (rest.length + 1) else .failed)
    | _ => none
  | _ => none

def handedOut (s : State β) : Action β → List (String × ℕ)
  | .insert g ok =>
    match s.calls g with
    | .numbered t => if ok ∧ s.taken t = false then [(t.sid, t.idx)] else []
    | _ => []
  | _ => []

def collapseRow (chosen : List ℕ) (summary : Row β) (r : Row β) : Option (Row β) :=
  if r.idx ∈ chosen then if r.idx = summary.idx then some summary else none else some r

def Collapse (sid : String) (rows rows' : List (Row β)) (n : ℕ) : Prop :=
  n = (rows.filter fun r => spoken r.turn).length / 2 ∧
    ∃ oldest rest summary, (rows.filter fun r => spoken r.turn).take n = oldest :: rest ∧
      rows' = rows.filterMap (collapseRow ((oldest :: rest).map Row.idx)
        ⟨⟨sid, oldest.turn.idx, .systemSummary, summary⟩, (oldest :: rest).flatMap Row.sources⟩)

section Rows

variable {s t : State β} {sid : String} {r : Row β} {rows : List (Row β)} {n : ℕ}

theorem mem_thread : r ∈ s.thread sid ↔ r ∈ s.table ∧ r.turn.sid = sid := by
  rw [State.thread, mem_filter, decide_eq_true_eq]

theorem nextIdx_congr (h : t.thread sid = s.thread sid) : t.nextIdx sid = s.nextIdx sid := by
  rw [State.nextIdx, h, ← State.nextIdx]

theorem loadCompactionRows_congr (h : t.thread sid = s.thread sid) :
    t.loadCompactionRows sid = s.loadCompactionRows sid := by
  rw [State.loadCompactionRows, h, ← State.loadCompactionRows]

theorem foldl_max_le {m : ℕ} :
    rows.foldl (fun next r => max next (r.turn.idx + 1)) m ≤ n ↔ m ≤ n ∧ ∀ r ∈ rows, r.turn.idx < n := by
  induction rows generalizing m with
  | nil => simp
  | cons r rows ih => rw [foldl_cons, ih, forall_mem_cons, Nat.max_le, Nat.succ_le_iff, and_assoc]

theorem nextIdx_le : s.nextIdx sid ≤ n ↔ ∀ r ∈ s.thread sid, r.turn.idx < n :=
  foldl_max_le.trans (and_iff_right (Nat.zero_le n))

theorem lt_nextIdx (h : r ∈ s.thread sid) : r.turn.idx < s.nextIdx sid := nextIdx_le.mp le_rfl r h

theorem Keyed.thread (h : Keyed s.table) (sid : String) : ((s.thread sid).map Row.idx).Nodup := by
  have hkeys : ((s.thread sid).map Row.key).Nodup := h.sublist (filter_sublist.map Row.key)
  have hpairs : (s.thread sid).map Row.key = ((s.thread sid).map Row.idx).map fun i => (sid, i) := by
    rw [map_map]
    apply map_congr_left
    intro r hr
    exact congrArg (·, r.turn.idx) (mem_thread.mp hr).2
  rw [hpairs] at hkeys
  exact hkeys.of_map _

theorem loadCompactionRows_eq (h : Keyed s.table) :
    s.loadCompactionRows sid = (s.window sid).filter fun r => spoken r.turn :=
  (filter_sortBy (h.thread sid) _).symm

theorem victims_eq {k : Compactor β} (h : victims k rows ≠ []) :
    2 ≤ rows.length ∧ victims k rows = rows.take (rows.length / 2) := by
  unfold victims at h ⊢
  split at h
  · exact absurd rfl h
  next hmany =>
    rw [if_neg hmany]
    exact ⟨Nat.le_of_not_lt fun hfew => hmany (.inl hfew), rfl⟩

end Rows

structure Sees (k : ℕ → Compactor β) (s : State β) (g : ℕ) (call : Call β) : Prop where
  holds : ∀ sid, call.session = some sid → s.holder sid = some g
  numbered : ∀ t, call = .numbered t → t.idx = s.nextIdx t.sid
  chosen : ∀ sid, call.session = some sid → call.chosen ≠ [] → call.chosen = victims (k g) (s.loadCompactionRows sid)

structure Inv (k : ℕ → Compactor β) (s : State β) : Prop where
  keyed : Keyed s.table
  sees : ∀ g, Sees k s g (s.calls g)

theorem sees_of_session_none {k : ℕ → Compactor β} {s : State β} {g : ℕ} {call : Call β} (h : call.session = none) :
    Sees k s g call where
  holds := fun _ hs => absurd (h.symm.trans hs) nofun
  numbered := by
    rintro t rfl
    cases h
  chosen := fun _ hs => absurd (h.symm.trans hs) nofun

theorem inv_start (k : ℕ → Compactor β) {table : List (Row β)} (h : Keyed table) : Inv k (start table) :=
  ⟨h, fun _ => sees_of_session_none rfl⟩

section Steps

variable {k : ℕ → Compactor β} {s t u : State β} {a : Action β} {g : ℕ} {sid other : String} {call : Call β}
  {turn : Turn β}

theorem Inv.move (h : Inv k s) {holder : String → Option ℕ} (hself : Sees k { s with holder := holder } g call)
    (hothers : ∀ g' sid, g' ≠ g → s.holder sid = some g' → holder sid = some g') :
    Inv k { s with holder := holder, calls := update s.calls g call } := by
  refine ⟨h.keyed, (Function.forall_update_iff s.calls _).mpr ⟨?_, fun g' hg => ?_⟩⟩
  · exact ⟨hself.holds, hself.numbered, hself.chosen⟩
  · have hsees := h.sees g'
    exact ⟨fun sid hs => hothers g' sid hg (hsees.holds sid hs), hsees.numbered, hsees.chosen⟩

theorem Inv.goto (h : Inv k s) (hsees : Sees k s g call) : Inv k (s.goto g call) :=
  h.move hsees fun _ _ _ => id

theorem Inv.acquire (h : Inv k s) (ht : s.acquire g sid call = some t) (hsession : call.session = some sid)
    (hnumbered : ∀ t, call ≠ .numbered t) (hchosen : call.chosen = []) : Inv k t := by
  unfold State.acquire at ht
  split at ht <;> cases ht
  next hfree =>
    apply h.move
    · refine ⟨?_, fun t hcall => absurd hcall (hnumbered t), fun _ _ hne => absurd hchosen hne⟩
      intro sid' hs
      cases hsession.symm.trans hs
      exact update_self ..
    · intro g' sid' _ hholder
      have hne : sid' ≠ sid := by
        rintro rfl
        cases hfree.symm.trans hholder
      exact (update_of_ne hne ..).trans hholder

theorem Inv.leave (h : Inv k s) (hsession : (s.calls g).session = some sid) : Inv k (s.leave g sid) := by
  apply h.move (sees_of_session_none rfl)
  intro g' sid' hg hholder
  have hne : sid' ≠ sid := by
    rintro rfl
    cases ((h.sees g).holds sid' hsession).symm.trans hholder
    exact hg rfl
  exact (update_of_ne hne ..).trans hholder

theorem Inv.rewrite (h : Inv k s) {table : List (Row β)} {stored : ℕ} (hfree : s.holder sid = none)
    (hkeyed : Keyed table) (hothers : ∀ other, other ≠ sid → { s with table := table }.thread other = s.thread other) :
    Inv k { s with table := table, stored := stored } := by
  have hheld : ∀ g sid', (s.calls g).session = some sid' → { s with table := table }.thread sid' = s.thread sid' := by
    intro g sid' hsession
    apply hothers
    rintro rfl
    cases hfree.symm.trans ((h.sees g).holds sid' hsession)
  refine ⟨hkeyed, fun g => ⟨(h.sees g).holds, ?_, ?_⟩⟩
  · intro t hcall
    have hsession : (s.calls g).session = some t.sid := congrArg Call.session hcall
    exact ((h.sees g).numbered t hcall).trans (nextIdx_congr (hheld g t.sid hsession)).symm
  · intro sid' hsession hne
    exact ((h.sees g).chosen sid' hsession hne).trans
      (congrArg (victims (k g)) (loadCompactionRows_congr (hheld g sid' hsession)).symm)

theorem keyed_put (h : Keyed s.table) (hfree : s.taken turn = false) : Keyed (s.put turn).table := by
  rw [Keyed, State.put, map_append]
  apply nodup_append.mpr
  refine ⟨h, nodup_singleton _, ?_⟩
  rintro _ hold _ hnew rfl
  obtain ⟨r, hr, hkey⟩ := mem_map.mp hold
  obtain ⟨hsid, hidx⟩ := Prod.mk.inj (hkey.trans (mem_singleton.mp hnew))
  exact Bool.false_ne_true (hfree.symm.trans
    (any_eq_true.mpr ⟨r, mem_thread.mpr ⟨hr, hsid⟩, decide_eq_true hidx⟩))

theorem thread_put (h : other ≠ turn.sid) : (s.put turn).thread other = s.thread other := by
  rw [State.thread, State.put, filter_append, filter_singleton]
  simp [State.thread, h.symm]

variable {oldest : Row β} {rest : List (Row β)} {summary : β} {chosen : List ℕ}

theorem keyed_replace (h : Keyed s.table) : Keyed (s.replace sid oldest rest summary).table := by
  rw [Keyed, State.replace, map_append]
  apply nodup_append.mpr
  refine ⟨h.sublist (filter_sublist.map Row.key), nodup_singleton _, ?_⟩
  rintro _ hold _ hnew rfl
  obtain ⟨r, hr, hkey⟩ := mem_map.mp hold
  obtain ⟨hsid, hidx⟩ := Prod.mk.inj (hkey.trans (mem_singleton.mp hnew))
  have hkept := of_decide_eq_true (mem_filter.mp hr).2
  refine hkept ⟨hsid, ?_⟩
  rw [hidx]
  exact mem_cons_self

theorem thread_replace_of_ne (h : other ≠ sid) : (s.replace sid oldest rest summary).thread other = s.thread other := by
  rw [State.thread, State.replace, filter_append, filter_filter]
  rw [filter_cons_of_neg (by simpa using h.symm), filter_nil, append_nil, State.thread]
  apply filter_congr
  intro r _
  by_cases hr : r.turn.sid = other
  · have hne : r.turn.sid ≠ sid := hr ▸ h
    simp [hr, h]
  · simp [hr]

theorem thread_replace : (s.replace sid oldest rest summary).thread sid =
      (s.thread sid).filter (fun r => r.idx ∉ (oldest :: rest).map Row.idx) ++
        [⟨⟨sid, oldest.turn.idx, .systemSummary, summary⟩, (oldest :: rest).flatMap Row.sources⟩] := by
  rw [State.thread, State.replace, filter_append, filter_filter]
  congr 1
  · rw [State.thread, filter_filter]
    apply filter_congr
    intro r _
    by_cases hr : r.turn.sid = sid
    · simp [hr, Row.idx]
    · simp [hr]
  · rw [filter_cons_of_pos (by simp), filter_nil]

inductive Moved (k : ℕ → Compactor β) (s : State β) (g : ℕ) (t : State β) : Prop
  | stay (after : t = s)
  | goto (call : Call β) (sees : Sees k s g (s.calls g) → Sees k s g call) (after : t = s.goto g call)
  | acquire (sid : String) (call : Call β) (after : s.acquire g sid call = some t) (session : call.session = some sid)
      (numbered : ∀ t, call ≠ .numbered t) (chosen : call.chosen = [])
  | leave (sid : String) (session : (s.calls g).session = some sid) (after : t = s.leave g sid)
  | put (turn : Turn β) (calls : s.calls g = .numbered turn) (free : s.taken turn = false)
      (after : t = (s.put turn).leave g turn.sid)
  | back (sid : String) (oldest : Row β) (rest : List (Row β)) (summary : β)
      (calls : s.calls g = .writing sid oldest rest summary)
      (after : t = (s.replace sid oldest rest summary).leave g sid)

theorem moved_of_step (ha : a.isReset = false) (h : stepBy k s a = some t) : Moved k s a.goroutine t := by
  cases a with simp only [stepBy, step] at h
  | append | compact =>
    split at h <;> cases h
    split
    · exact .stay rfl
    · exact .goto _ (fun _ => sees_of_session_none rfl) rfl
  | lock g =>
    split at h
    · exact .acquire _ _ h rfl (fun _ hf => by cases hf) rfl
    · exact .acquire _ _ h rfl (fun _ hf => by cases hf) rfl
    · cases h
  | selectNext g ok =>
    split at h <;> cases h
    next turn hcall =>
      split
      · refine .goto _ (fun hsees => ?_) rfl
        simp only [Action.goroutine, hcall] at hsees
        refine ⟨hsees.holds, ?_, fun _ _ hne => absurd rfl hne⟩
        rintro _ ⟨⟩
        rfl
      · exact .leave turn.sid (congrArg Call.session hcall) rfl
  | insert g ok =>
    split at h <;> cases h
    next turn hcall =>
      split
      next hok => exact .put turn hcall hok.2 rfl
      next => exact .leave turn.sid (congrArg Call.session hcall) rfl
  | load g ok =>
    split at h
    next sid hcall =>
      split at h <;> cases h
      next oldest rest hvictims =>
        refine .goto _ (fun hsees => ?_) rfl
        simp only [Action.goroutine, hcall] at hsees
        refine ⟨hsees.holds, (fun _ hf => by cases hf), ?_⟩
        rintro _ ⟨⟩ _
        exact hvictims.symm
      next => exact .leave sid (congrArg Call.session hcall) rfl
    next => cases h
  | summarize g answer =>
    split at h
    next sid oldest rest hcall =>
      split at h <;> cases h
      · refine .goto _ (fun hsees => ?_) rfl
        simp only [Action.goroutine, hcall] at hsees
        exact ⟨hsees.holds, (fun _ hf => by cases hf), hsees.chosen⟩
      · exact .leave sid (congrArg Call.session hcall) rfl
    next => cases h
  | replaceWithSummary g ok =>
    split at h <;> cases h
    next sid oldest rest summary hcall =>
      split
      · exact .back sid oldest rest summary hcall rfl
      · exact .leave sid (congrArg Call.session hcall) rfl
  | reset sid ok => cases ha

theorem inv_step (hs : Inv k s) (ha : a.isReset = false) (h : stepBy k s a = some t) : Inv k t := by
  cases moved_of_step ha h with
  | stay after => exact after ▸ hs
  | goto call sees after => exact after ▸ hs.goto (sees (hs.sees _))
  | acquire sid call after session numbered chosen => exact hs.acquire after session numbered chosen
  | leave sid session after => exact after ▸ hs.leave session
  | put turn calls free after =>
    subst after
    exact (hs.leave (congrArg Call.session calls)).rewrite (update_self ..) (keyed_put hs.keyed free)
      fun _ hne => thread_put hne
  | back sid oldest rest summary calls after =>
    subst after
    exact (hs.leave (congrArg Call.session calls)).rewrite (update_self ..) (keyed_replace hs.keyed)
      fun _ hne => thread_replace_of_ne hne

theorem Inv.writing (hs : Inv k s) (hcall : s.calls g = .writing sid oldest rest summary) :
    oldest :: rest = (s.loadCompactionRows sid).take ((s.loadCompactionRows sid).length / 2) ∧
      (s.loadCompactionRows sid).drop ((s.loadCompactionRows sid).length / 2) ≠ [] := by
  have hsees := hs.sees g
  rw [hcall] at hsees
  have hchosen := hsees.chosen sid rfl (cons_ne_nil _ _)
  obtain ⟨hmany, hhalf⟩ := victims_eq fun hnil => cons_ne_nil oldest rest (hchosen.trans hnil)
  refine ⟨hchosen.trans hhalf, ?_⟩
  apply ne_nil_of_length_pos
  rw [length_drop]
  omega

theorem Inv.nextIdx_replace (hs : Inv k s) (hcall : s.calls g = .writing sid oldest rest summary) :
    s.nextIdx sid ≤ (s.replace sid oldest rest summary).nextIdx sid := by
  obtain ⟨hhalf, hlater⟩ := hs.writing hcall
  obtain ⟨newest, hnewest⟩ := exists_mem_of_ne_nil _ hlater
  have hsorted := sortBy_increasing (hs.keyed.thread sid)
  have hrows : (s.loadCompactionRows sid).Pairwise fun a b => a.idx < b.idx := by
    rw [loadCompactionRows_eq hs.keyed]
    exact hsorted.filter _
  rw [← take_append_drop ((s.loadCompactionRows sid).length / 2) (s.loadCompactionRows sid), ← hhalf] at hrows
  have hnewer : ∀ v ∈ oldest :: rest, v.idx < newest.idx :=
    fun v hv => (pairwise_append.mp hrows).2.2 v hv _ hnewest
  have hkept : newest ∈ (s.replace sid oldest rest summary).thread sid := by
    have hthread : newest ∈ s.thread sid :=
      mem_of_mem_filter ((mem_insertionSort _).mp (mem_of_mem_drop hnewest))
    rw [thread_replace]
    apply mem_append_left
    refine mem_filter.mpr ⟨hthread, decide_eq_true ?_⟩
    intro hvictim
    obtain ⟨v, hv, hidx⟩ := mem_map.mp hvictim
    exact absurd hidx (hnewer v hv).ne
  apply nextIdx_le.mpr
  intro r hr
  by_cases hvictim : r.idx ∈ (oldest :: rest).map Row.idx
  · obtain ⟨v, hv, hidx⟩ := mem_map.mp hvictim
    calc r.idx = v.idx := hidx.symm
      _ < newest.idx := hnewer v hv
      _ < _ := lt_nextIdx hkept
  · apply lt_nextIdx
    rw [thread_replace]
    exact mem_append_left _ (mem_filter.mpr ⟨hr, decide_eq_true hvictim⟩)

theorem table_acquire (h : s.acquire g sid call = some t) : t.table = s.table := by
  unfold State.acquire at h
  split at h <;> cases h
  rfl

theorem nextIdx_le_step (hs : Inv k s) (ha : a.isReset = false) (h : stepBy k s a = some t) (sid : String) :
    s.nextIdx sid ≤ t.nextIdx sid := by
  cases moved_of_step ha h with
  | stay after => rw [after]
  | goto call sees after => rw [after]; rfl
  | acquire sid' call after session numbered chosen =>
    exact (nextIdx_congr (by rw [State.thread, table_acquire after, State.thread])).ge
  | leave sid' session after => rw [after]; rfl
  | put turn calls free after =>
    apply nextIdx_le.mpr
    intro r hr
    obtain ⟨hmem, hsid⟩ := mem_thread.mp hr
    apply lt_nextIdx
    rw [mem_thread, after]
    exact ⟨mem_append_left _ hmem, hsid⟩
  | back sid' oldest rest summary calls after =>
    have hthread : t.thread sid = (s.replace sid' oldest rest summary).thread sid := by rw [after]; rfl
    rw [nextIdx_congr hthread]
    by_cases hsid : sid = sid'
    · subst hsid
      exact hs.nextIdx_replace calls
    · exact (nextIdx_congr (thread_replace_of_ne hsid)).ge

theorem handedOut_new (hs : Inv k s) (h : stepBy k s a = some t) :
    (handedOut s a).Nodup ∧ ∀ o ∈ handedOut s a, ¬o.2 < s.nextIdx o.1 ∧ o.2 < t.nextIdx o.1 := by
  cases a with
  | insert g ok =>
    simp only [stepBy, step] at h
    split at h
    next turn hcall =>
      simp only [handedOut, hcall]
      cases h
      by_cases hok : ok = true ∧ s.taken turn = false
      · rw [if_pos hok, if_pos hok]
        refine ⟨nodup_singleton _, fun o ho => ?_⟩
        obtain rfl := mem_singleton.mp ho
        refine ⟨((hs.sees g).numbered turn hcall).ge.not_gt, ?_⟩
        have hmem : (⟨turn, [s.stored]⟩ : Row β) ∈ ((s.put turn).leave g turn.sid).thread turn.sid :=
          mem_thread.mpr ⟨mem_append_right _ (mem_singleton_self _), rfl⟩
        exact lt_nextIdx hmem
      · rw [if_neg hok]
        exact ⟨nodup_nil, fun o ho => absurd ho not_mem_nil⟩
    next => cases h
  | _ => exact ⟨nodup_nil, fun o ho => absurd ho not_mem_nil⟩

theorem filterMap_collapseRow_perm {rows : List (Row β)} {summary r : Row β} (hnodup : (rows.map Row.idx).Nodup)
    (hr : r ∈ rows) (hidx : r.idx = summary.idx) (hchosen : summary.idx ∈ chosen) :
    (rows.filterMap (collapseRow chosen summary)).Perm ((rows.filter fun r => r.idx ∉ chosen) ++ [summary]) := by
  have hother : ∀ rows : List (Row β), (∀ r ∈ rows, r.idx ≠ summary.idx) →
      rows.filterMap (collapseRow chosen summary) = rows.filter fun r => r.idx ∉ chosen := by
    intro rows hne
    rw [← filterMap_eq_filter]
    apply filterMap_congr
    intro r hr
    by_cases hmem : r.idx ∈ chosen
    · simp [collapseRow, Option.guard, hmem, hne r hr]
    · simp [collapseRow, Option.guard, hmem]
  obtain ⟨before, after, rfl⟩ := append_of_mem hr
  rw [map_append, map_cons, nodup_middle, nodup_cons, ← map_append] at hnodup
  have hne : ∀ r' ∈ before ++ after, r'.idx ≠ summary.idx := fun r' hr' heq =>
    hnodup.1 (mem_map.mpr ⟨r', hr', heq.trans hidx.symm⟩)
  obtain ⟨hbefore, hafter⟩ := forall_mem_append.mp hne
  have hself : collapseRow chosen summary r = some summary := by
    rw [collapseRow, hidx, if_pos hchosen, if_pos rfl]
  rw [filterMap_append, filterMap_cons_some hself, hother before hbefore, hother after hafter,
    filter_append, filter_cons_of_neg (by simpa [hidx] using hchosen), append_assoc]
  exact (perm_append_singleton summary _).symm.append_left _

theorem collapseRow_idx {summary r r' : Row β} (h : collapseRow chosen summary r = some r') : r'.idx = r.idx := by
  unfold collapseRow at h
  split at h
  · split at h
    next heq =>
      cases h
      exact heq.symm
    next => cases h
  · cases h
    rfl

theorem Inv.window_replace (hs : Inv k s) (hcall : s.calls g = .writing sid oldest rest summary) :
    Collapse sid (s.window sid) ((s.replace sid oldest rest summary).window sid) (rest.length + 1) := by
  obtain ⟨hhalf, -⟩ := hs.writing hcall
  have holdest : oldest ∈ s.thread sid := by
    have hmem : oldest ∈ s.loadCompactionRows sid := mem_of_mem_take (hhalf ▸ mem_cons_self)
    exact mem_of_mem_filter ((mem_insertionSort _).mp hmem)
  rw [loadCompactionRows_eq hs.keyed] at hhalf
  have hlen : rest.length + 1 = ((s.window sid).filter fun r => spoken r.turn).length / 2 := by
    have hcount := congrArg List.length hhalf
    rw [length_take, length_cons] at hcount
    omega
  refine ⟨hlen, oldest, rest, summary, ?_, ?_⟩
  · rw [hlen]
    exact hhalf.symm
  · apply sortBy_eq
    · rw [thread_replace]
      exact ((sortBy_perm Row.idx (s.thread sid)).filterMap _).trans
        (filterMap_collapseRow_perm (hs.keyed.thread sid) holdest rfl mem_cons_self)
    · apply pairwise_filterMap.mpr
      refine (sortBy_increasing (hs.keyed.thread sid)).imp ?_
      intro a b hab a' ha' b' hb'
      rw [collapseRow_idx ha', collapseRow_idx hb']
      exact hab

theorem table_step (ha : a.isReset = false) (h : stepBy k s a = some t) :
    t.table = s.table ∨ ∃ g sid, (s.calls g).session = some sid ∧ t.calls g = .idle ∧
      ∀ other, other ≠ sid → t.thread other = s.thread other := by
  cases moved_of_step ha h with
  | stay after => exact .inl (by rw [after])
  | goto call sees after => exact .inl (by rw [after]; rfl)
  | acquire sid call after session numbered chosen => exact .inl (table_acquire after)
  | leave sid session after => exact .inl (by rw [after]; rfl)
  | put turn calls free after =>
    subst after
    exact .inr ⟨_, turn.sid, congrArg Call.session calls, update_self .., fun _ hne => thread_put hne⟩
  | back sid oldest rest summary calls after =>
    subst after
    exact .inr ⟨_, sid, congrArg Call.session calls, update_self .., fun _ hne => thread_replace_of_ne hne⟩

theorem thread_step (hs : Inv k s) (ha : a.isReset = false) (h : stepBy k s a = some t)
    (hbefore : (s.calls g).session = some sid) (hafter : (t.calls g).session = some sid) :
    t.thread sid = s.thread sid := by
  rcases table_step ha h with htable | ⟨g', sid', hsession, hidle, hothers⟩
  · rw [State.thread, htable, ← State.thread]
  apply hothers
  rintro rfl
  have hsame := ((hs.sees g).holds sid hbefore).symm.trans ((hs.sees g').holds sid hsession)
  cases hsame
  rw [hidle] at hafter
  cases hafter

theorem Inv.thread_steps {acts : List (Action β)} (hs : Inv k s)
    (h : Steps (stepBy k) (fun v b => b.isReset = false ∧ (v.calls g).session = some sid) s acts t)
    (hlast : (t.calls g).session = some sid) : Inv k t ∧ t.thread sid = s.thread sid := by
  induction h with
  | nil s => exact ⟨hs, rfl⟩
  | @cons s u t a acts hok hst hrest ih =>
    have hu := inv_step hs hok.1 hst
    have hheld : (u.calls g).session = some sid := by
      cases hrest with
      | nil => exact hlast
      | cons hok' => exact hok'.2
    obtain ⟨ht, hthread⟩ := ih hu hlast
    exact ⟨ht, hthread.trans (thread_step hs hok.1 hst hok.2 hheld)⟩

theorem compactReturns_cases {r : CompactResult} (h : stepBy k s a = some t)
    (hreturns : compactReturns (k a.goroutine) s a = some (g, r)) :
    t.table = s.table ∧ (∀ n, 0 < n → r ≠ .collapsed n) ∨
      ∃ sid oldest rest summary, s.calls g = .writing sid oldest rest summary ∧ r = .collapsed (rest.length + 1) ∧
        t.table = (s.replace sid oldest rest summary).table := by
  cases a with
  | compact g' sid =>
    obtain ⟨hoff, hr⟩ := Option.ite_none_right_eq_some.mp hreturns
    cases hr
    simp only [stepBy, step] at h
    split at h <;> cases h
    exact .inl ⟨by rw [if_pos hoff], fun n hn hr => by cases hr; exact absurd hn (Nat.lt_irrefl 0)⟩
  | load g' ok =>
    simp only [stepBy, step] at h
    simp only [compactReturns] at hreturns
    split at h
    next sid hcall =>
      rw [hcall] at hreturns
      have htable : t.table = s.table := by split at h <;> cases h <;> rfl
      refine .inl ⟨htable, ?_⟩
      rintro n hn rfl
      dsimp only at hreturns
      split at hreturns
      · obtain ⟨-, hr⟩ := Option.ite_none_right_eq_some.mp hreturns
        cases hr
        exact Nat.lt_irrefl 0 hn
      · cases hreturns
    next => cases h
  | summarize g' answer =>
    simp only [stepBy, step] at h
    simp only [compactReturns] at hreturns
    split at hreturns <;> cases hreturns
    next hcall =>
      rw [hcall] at h
      cases h
      exact .inl ⟨rfl, fun _ _ hr => by cases hr⟩
  | replaceWithSummary g' ok =>
    simp only [stepBy, step] at h
    simp only [compactReturns] at hreturns
    split at h
    next sid oldest rest summary hcall =>
      rw [hcall] at hreturns
      cases hreturns
      cases h
      cases ok with
      | true => exact .inr ⟨sid, oldest, rest, summary, hcall, rfl, rfl⟩
      | false => exact .inl ⟨rfl, fun _ _ hr => by cases hr⟩
    next => cases h
  | _ => cases hreturns

end Steps

theorem compact_replaces_half (k : ℕ → Compactor β) {table : List (Row β)} (hkey : Keyed table) {acts : List (Action β)}
    {s : State β} (hrun : Steps (stepBy k) (fun _ a => a.isReset = false) (start table) acts s) :
    Keyed s.table ∧ (outputs (stepBy k) handedOut (start table) acts).Nodup ∧
      (∀ a u g r, stepBy k s a = some u → compactReturns (k a.goroutine) s a = some (g, r) →
        r = .failed ∨ r = .collapsed 0 → u.table = s.table) ∧
      ∀ g sid later t a u r, s.calls g = .compacting sid →
        Steps (stepBy k) (fun v b => b.isReset = false ∧ (v.calls g).session = some sid) s later t →
        (t.calls g).session = some sid → stepBy k t a = some u →
        compactReturns (k a.goroutine) t a = some (g, r) →
        t.thread sid = s.thread sid ∧ ∀ n, 0 < n → r = .collapsed n →
          Collapse sid (s.window sid) (u.window sid) n ∧ ∀ other, other ≠ sid → u.thread other = t.thread other := by
  have hinv : Inv k s := hrun.preserves (fun _ _ _ hok hst hs => inv_step hs hok hst) (inv_start k hkey)
  refine ⟨hinv.keyed, ?_, ?_, ?_⟩
  · have hkeep : ∀ v a w (o : String × ℕ), a.isReset = false → stepBy k v a = some w → Inv k v →
        o.2 < v.nextIdx o.1 → o.2 < w.nextIdx o.1 :=
      fun v a w o hok hst hv hold => hold.trans_le (nextIdx_le_step hv hok hst o.1)
    exact (hrun.nodup_outputs (fun _ _ _ hok hst hs => inv_step hs hok hst) hkeep
      (fun _ _ _ _ hst hs => handedOut_new hs hst) (inv_start k hkey)).1
  · intro a u g r hst hreturns hr
    rcases compactReturns_cases hst hreturns with ⟨htable, -⟩ | ⟨_, _, _, _, -, rfl, -⟩
    · exact htable
    · rcases hr with hr | hr <;> cases hr
  · intro g sid later t a u r hcall hlater hlast hst hreturns
    obtain ⟨ht, hthread⟩ := hinv.thread_steps hlater hlast
    refine ⟨hthread, ?_⟩
    rintro n hn rfl
    rcases compactReturns_cases hst hreturns with ⟨-, hzero⟩ | ⟨sid', oldest, rest, summary, hwriting, hr, htable⟩
    · exact absurd rfl (hzero n hn)
    obtain rfl : n = rest.length + 1 := by cases hr; rfl
    obtain rfl : sid' = sid := by
      rw [hwriting] at hlast
      exact Option.some.inj hlast
    have hthreads : ∀ other, u.thread other = (t.replace sid' oldest rest summary).thread other := by
      intro other
      rw [State.thread, htable, ← State.thread]
    have hbefore : t.window sid' = s.window sid' := congrArg (sortBy Row.idx) hthread
    have hafter : u.window sid' = (t.replace sid' oldest rest summary).window sid' :=
      congrArg (sortBy Row.idx) (hthreads sid')
    rw [← hbefore, hafter]
    exact ⟨ht.window_replace hwriting, fun other hne => (hthreads other).trans (thread_replace_of_ne hne)⟩

def exchangeThenLock : List (Action Json) := exchange ++ [.compact 1 "s1", .lock 1]

theorem compact_replaces_half_exchange :
    ∃ s u : State Json, run (stepBy fun _ => tabs) (start []) exchangeThenLock = some s ∧
      run (stepBy fun _ => tabs) s [.load 1 true, .summarize 1 (.ok "wants tabs"), .replaceWithSummary 1 true] = some u ∧
      Collapse "s1" (s.window "s1") (u.window "s1") 1 := by
  have hrun : run (stepBy fun _ => tabs) (start []) exchangeThenLock = some _ := rfl
  have hsteps : Steps (stepBy fun _ => tabs) (fun _ a => a.isReset = false) (start []) exchangeThenLock _ :=
    steps_of_run_of_forall hrun (by decide)
  have hempty : Keyed ([] : List (Row Json)) := nodup_nil
  obtain ⟨-, -, -, hcompact⟩ := compact_replaces_half (fun _ => tabs) hempty hsteps
  refine ⟨_, _, hrun, rfl, ?_⟩
  exact ((hcompact 1 "s1" [.load 1 true, .summarize 1 (.ok "wants tabs")] _ (.replaceWithSummary 1 true) _ _ rfl
    (.cons ⟨rfl, rfl⟩ rfl (.cons ⟨rfl, rfl⟩ rfl (.nil _))) rfl rfl rfl).2 1 Nat.one_pos rfl).1

end NomadDev.History.Resets
