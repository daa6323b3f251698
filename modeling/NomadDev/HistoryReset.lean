import NomadDev.Compaction
import NomadDev.FirstRequest

/-!
The turns are numbered as they are stored, and a row carries the numbers of the turns its content derives from.
-/

namespace NomadDev.History.Resets

open Foundation.Transition Function List

variable {β : Type}

structure Row (β : Type) where
  turn : Turn β
  sources : List ℕ

inductive Call (β : Type)
  | idle
  | append (t : Turn β)
  | appending (t : Turn β)
  | numbered (t : Turn β)
  | compact (sid : String)
  | compacting (sid : String)
  | summarizing (sid : String) (oldest : Row β) (rest : List (Row β))
  | writing (sid : String) (oldest : Row β) (rest : List (Row β)) (summary : β)

structure State (β : Type) where
  table : List (Row β)
  holder : String → Option ℕ
  calls : ℕ → Call β
  stored : ℕ
  resetAt : String → ℕ

inductive Action (β : Type)
  | append (g : ℕ) (t : Turn β)
  | compact (g : ℕ) (sid : String)
  | lock (g : ℕ)
  | selectNext (g : ℕ) (ok : Bool)
  | insert (g : ℕ) (ok : Bool)
  | load (g : ℕ) (ok : Bool)
  | summarize (g : ℕ) (answer : Except String String)
  | replaceWithSummary (g : ℕ) (ok : Bool)
  | reset (sid : String) (ok : Bool)

def init : State β := ⟨[], fun _ => none, fun _ => .idle, 0, fun _ => 0⟩

namespace State

variable (s : State β)

def goto (g : ℕ) (call : Call β) : State β := { s with calls := update s.calls g call }

def acquire (g : ℕ) (sid : String) (call : Call β) : Option (State β) :=
  if s.holder sid = none then some ({ s with holder := update s.holder sid (some g) }.goto g call) else none

def leave (g : ℕ) (sid : String) : State β :=
  { s with holder := update s.holder sid none }.goto g .idle

def thread (sid : String) : List (Row β) := s.table.filter fun r => r.turn.sid = sid

def nextIdx (sid : String) : ℕ := (s.thread sid).foldl (fun next r => max next (r.turn.idx + 1)) 0

def taken (t : Turn β) : Bool := (s.thread t.sid).any fun r => r.turn.idx = t.idx

def put (t : Turn β) : State β :=
  { s with table := s.table ++ [⟨t, [s.stored]⟩], stored := s.stored + 1 }

def loadCompactionRows (sid : String) : List (Row β) :=
  ((s.thread sid).filter fun r => spoken r.turn).insertionSort fun a b => a.turn.idx ≤ b.turn.idx

def replace (sid : String) (oldest : Row β) (rest : List (Row β)) (summary : β) : State β :=
  let victims := oldest :: rest
  { s with table := (s.table.filter fun r => ¬ (r.turn.sid = sid ∧ r.turn.idx ∈ victims.map fun v => v.turn.idx)) ++
      [⟨⟨sid, oldest.turn.idx, .systemSummary, summary⟩, victims.flatMap Row.sources⟩] }

def reset (sid : String) : State β :=
  { s with
    table := s.table.filter fun r => r.turn.sid ≠ sid
    resetAt := update s.resetAt sid s.stored }

end State

def victims (k : Compactor β) (rows : List (Row β)) : List (Row β) :=
  if rows.length < 2 ∨ (totalWords (rows.map fun r => compactionRow k r.turn) : ℤ) < k.wordThreshold then []
  else rows.take (rows.length / 2)

def step (k : Compactor β) (s : State β) : Action β → Option (State β)
  | .append g t =>
    match s.calls g with
    | .idle => some (if t.sid = "" then s else s.goto g (.append t))
    | _ => none
  | .compact g sid =>
    match s.calls g with
    | .idle => some (if k.wordThreshold ≤ 0 ∨ k.summarizer.isNone then s else s.goto g (.compact sid))
    | _ => none
  | .lock g =>
    match s.calls g with
    | .append t => s.acquire g t.sid (.appending t)
    | .compact sid => s.acquire g sid (.compacting sid)
    | _ => none
  | .selectNext g ok =>
    match s.calls g with
    | .appending t => some (if ok then s.goto g (.numbered { t with idx := s.nextIdx t.sid }) else s.leave g t.sid)
    | _ => none
  | .insert g ok =>
    match s.calls g with
    | .numbered t => some (if ok ∧ s.taken t = false then (s.put t).leave g t.sid else s.leave g t.sid)
    | _ => none
  | .load g ok =>
    match s.calls g with
    | .compacting sid =>
      match ok, victims k (s.loadCompactionRows sid) with
      | true, oldest :: rest => some (s.goto g (.summarizing sid oldest rest))
      | _, _ => some (s.leave g sid)
    | _ => none
  | .summarize g answer =>
    match s.calls g with
    | .summarizing sid oldest rest =>
      match answer with
      | .ok text => some (s.goto g (.writing sid oldest rest (marshalText k.codec text)))
      | .error _ => some (s.leave g sid)
    | _ => none
  | .replaceWithSummary g ok =>
    match s.calls g with
    | .writing sid oldest rest summary =>
      some (if ok then (s.replace sid oldest rest summary).leave g sid else s.leave g sid)
    | _ => none
  | .reset sid ok => some (if ok then s.reset sid else s)

def Clean (s : State β) : Prop := ∀ r ∈ s.table, ∀ n ∈ r.sources, s.resetAt r.turn.sid ≤ n

def WritesBackFresh (s : State β) (a : Action β) : Prop :=
  ∀ g sid oldest rest summary, a = .replaceWithSummary g true → s.calls g = .writing sid oldest rest summary →
    ∀ v ∈ oldest :: rest, ∀ n ∈ v.sources, s.resetAt sid ≤ n

inductive Effect (s : State β) (a : Action β) (t : State β) : Prop
  | keep (table : t.table = s.table) (stored : t.stored = s.stored) (resetAt : t.resetAt = s.resetAt)
      (notBack : ∀ g sid oldest rest summary, a = .replaceWithSummary g true →
        s.calls g ≠ .writing sid oldest rest summary)
  | put (turn : Turn β) (table : t.table = s.table ++ [⟨turn, [s.stored]⟩]) (stored : t.stored = s.stored + 1)
      (resetAt : t.resetAt = s.resetAt) (notBack : ∀ g, a ≠ .replaceWithSummary g true)
  | back (g : ℕ) (sid : String) (oldest : Row β) (rest : List (Row β)) (summary : β)
      (writing : s.calls g = .writing sid oldest rest summary) (act : a = .replaceWithSummary g true)
      (table : t.table = (s.replace sid oldest rest summary).table) (stored : t.stored = s.stored)
      (resetAt : t.resetAt = s.resetAt)
  | reset (sid : String) (act : a = .reset sid true) (after : t = s.reset sid)

variable {s t : State β} {a : Action β} {k : Compactor β}

theorem effect_of_acquire {g : ℕ} {sid : String} {call : Call β}
    (h : s.acquire g sid call = some t) (ha : ∀ g, a ≠ .replaceWithSummary g true) : Effect s a t := by
  unfold State.acquire at h
  split at h <;> cases h
  exact .keep rfl rfl rfl fun g _ _ _ _ heq => absurd heq (ha g)

theorem effect_of_step (h : step k s a = some t) : Effect s a t := by
  cases a with simp only [step] at h
  | append | compact | selectNext =>
    split at h <;> cases h
    split <;> exact .keep rfl rfl rfl nofun
  | lock g =>
    split at h
    · exact effect_of_acquire h nofun
    · exact effect_of_acquire h nofun
    · cases h
  | insert g ok =>
    split at h <;> cases h
    next turn _ =>
      split
      · exact .put turn rfl rfl rfl nofun
      · exact .keep rfl rfl rfl nofun
  | load | summarize =>
    split at h
    · split at h
      · cases h
        exact .keep rfl rfl rfl nofun
      · cases h
        exact .keep rfl rfl rfl nofun
    · cases h
  | replaceWithSummary g ok =>
    split at h <;> cases h
    next sid oldest rest summary hcall =>
      cases ok with
      | true => exact .back g sid oldest rest summary hcall rfl rfl rfl rfl
      | false => exact .keep rfl rfl rfl nofun
  | reset sid ok =>
    cases h
    cases ok with
    | true => exact .reset sid rfl rfl
    | false => exact .keep rfl rfl rfl nofun

def Counted (s : State β) : Prop := ∀ sid, s.resetAt sid ≤ s.stored

theorem counted_step (h : step k s a = some t) (hs : Counted s) : Counted t := by
  intro sid
  cases effect_of_step h with
  | keep _ stored resetAt _ =>
    rw [stored, resetAt]
    exact hs sid
  | put _ _ stored resetAt _ =>
    rw [stored, resetAt]
    exact (hs sid).trans (Nat.le_succ _)
  | back _ _ _ _ _ _ _ _ stored resetAt =>
    rw [stored, resetAt]
    exact hs sid
  | reset sid' _ after =>
    subst after
    by_cases hsid : sid = sid'
    · subst hsid
      exact (update_self sid _ _).le
    · exact (update_of_ne hsid _ _).le.trans (hs sid)

theorem clean_replace_iff (hs : Clean s) (sid : String) (oldest : Row β) (rest : List (Row β)) (summary : β) :
    Clean (s.replace sid oldest rest summary) ↔ ∀ v ∈ oldest :: rest, ∀ n ∈ v.sources, s.resetAt sid ≤ n := by
  constructor
  · intro h v hv n hn
    exact h _ (mem_append_right _ mem_cons_self) n (mem_flatMap.mpr ⟨v, hv, hn⟩)
  · intro h r hr n hn
    rcases mem_append.mp hr with hr | hr
    · exact hs r (mem_of_mem_filter hr) n hn
    · obtain rfl := mem_singleton.mp hr
      obtain ⟨v, hv, hv'⟩ := mem_flatMap.mp hn
      exact h v hv n hv'

theorem clean_reset (hs : Clean s) (sid : String) : Clean (s.reset sid) := by
  intro r hr n hn
  obtain ⟨hmem, hother⟩ := mem_filter.mp hr
  have hne : r.turn.sid ≠ sid := of_decide_eq_true hother
  exact (update_of_ne hne _ _).le.trans (hs r hmem n hn)

theorem clean_congr (htable : t.table = s.table) (hreset : t.resetAt = s.resetAt) : Clean t ↔ Clean s := by
  unfold Clean
  rw [htable, hreset]

theorem clean_step (hcount : Counted s) (hs : Clean s) (h : step k s a = some t) : Clean t ↔ WritesBackFresh s a := by
  cases effect_of_step h with
  | keep table stored resetAt notBack =>
    refine iff_of_true ((clean_congr table resetAt).mpr hs) ?_
    intro g sid oldest rest summary ha hcall
    exact absurd hcall (notBack g sid oldest rest summary ha)
  | put turn table stored resetAt notBack =>
    refine iff_of_true ?_ fun g _ _ _ _ ha => absurd ha (notBack g)
    intro r hr n hn
    rw [table] at hr
    rw [resetAt]
    rcases mem_append.mp hr with hr | hr
    · exact hs r hr n hn
    · obtain rfl := mem_singleton.mp hr
      obtain rfl := mem_singleton.mp hn
      exact hcount _
  | back g sid oldest rest summary writing act table stored resetAt =>
    subst act
    refine (clean_congr table (show t.resetAt = (s.replace sid oldest rest summary).resetAt from resetAt)).trans ?_
    refine (clean_replace_iff hs sid oldest rest summary).trans ⟨fun hfresh => ?_, fun hfresh => ?_⟩
    · intro g' sid' oldest' rest' summary' ha hcall
      cases ha
      cases writing.symm.trans hcall
      exact hfresh
    · exact hfresh g sid oldest rest summary rfl writing
  | reset sid act after =>
    subst act after
    exact iff_of_true (clean_reset hs sid) nofun

theorem reset_clean_iff {k : Compactor β} {acts : List (Action β)} {t : State β} (h : run (step k) init acts = some t) :
    Throughout (step k) Clean init acts ↔ Steps (step k) WritesBackFresh init acts t :=
  throughout_iff_steps (fun _ _ _ => counted_step) (fun _ _ _ => clean_step) h (fun _ => le_rfl)
    fun _ hr => absurd hr not_mem_nil

open Middleware

def tabs : Compactor Json := ⟨treeCodec, fun _ => "", 3, some fun _ => .ok "wants tabs"⟩

def spokenTurn (role : Role) (text : String) : Turn Json := ⟨"s1", 0, role, .obj [("text", .str text)]⟩

def appends (g : ℕ) (t : Turn Json) : List (Action Json) := [.append g t, .lock g, .selectNext g true, .insert g true]

def exchange : List (Action Json) := appends 0 (spokenTurn .user "use tabs please") ++ appends 0 (spokenTurn .assistant "noted")

def compacted : List (Action Json) :=
  exchange ++ [.compact 1 "s1", .lock 1, .load 1 true, .summarize 1 (.ok "wants tabs"), .replaceWithSummary 1 true]

def compactedThenReset : List (Action Json) := compacted ++ [.reset "s1" true]

def resetDuringCompaction : List (Action Json) :=
  exchange ++ [.compact 1 "s1", .lock 1, .load 1 true, .reset "s1" true, .summarize 1 (.ok "wants tabs"),
    .replaceWithSummary 1 true]

theorem compactedThenReset_clean :
    ∃ t, run (step tabs) init compactedThenReset = some t ∧ Throughout (step tabs) Clean init compactedThenReset := by
  have hrun : run (step tabs) init compactedThenReset = some _ := rfl
  refine ⟨_, hrun, (reset_clean_iff hrun).mpr ?_⟩
  refine .cons nofun rfl (.cons nofun rfl (.cons nofun rfl (.cons nofun rfl (.cons nofun rfl (.cons nofun rfl
    (.cons nofun rfl (.cons nofun rfl (.cons nofun rfl (.cons nofun rfl (.cons nofun rfl (.cons nofun rfl
      (.cons ?_ rfl (.cons nofun rfl (.nil _))))))))))))))
  intro g sid oldest rest summary ha hcall v hv n hn
  cases ha
  exact Nat.zero_le n

theorem resetDuringCompaction_not_clean : ∃ t, run (step tabs) init resetDuringCompaction = some t ∧ ¬ Clean t := by
  refine exists_run_of_any_imp (P := fun t : State Json => ∃ r ∈ t.table, ∃ n ∈ r.sources, n < t.resetAt r.turn.sid)
    (by decide +kernel) ?_
  rintro t ⟨r, hr, n, hn, hlt⟩ hclean
  exact absurd (hclean r hr n hn) (Nat.not_le.mpr hlt)

end NomadDev.History.Resets
