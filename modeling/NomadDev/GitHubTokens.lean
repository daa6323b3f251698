import NomadDev.GitHubClient

namespace NomadDev.GitHub.Tokens

open Option

abbrev Mapping : Type := String → Option String

structure Look where
  stat : Option ℤ
  read : Option (List UInt8)

structure Cache where
  lastMod : ℤ
  cached : Option Mapping

structure Call where
  sub : String
  look : Look

variable (parse : List UInt8 → Option (Option Mapping)) (path : String)

def Cache.load (c : Cache) (f : Look) : Cache × Option Mapping :=
  if path = "" then (c, none)
  else match f.stat with
    | none => (c, none)
    | some mod =>
      if c.cached.isSome ∧ mod = c.lastMod then (c, c.cached)
      else match f.read.bind parse with
        | none => (c, none)
        | some parsed => (⟨mod, parsed⟩, some (parsed.getD fun _ => none))

def Cache.token (c : Cache) (fallback : Option String) (call : Call) : Cache × Option String :=
  if call.sub = "" then (c, fallback)
  else
    let (c, tokens) := c.load parse path call.look
    (c, PerUserTokenSource.token ⟨tokens, fallback⟩ call.sub)

def Cache.loaded (c : Cache) (call : Call) : Option Cache :=
  if call.sub = "" ∨ path = "" then none
  else call.look.stat.bind fun mod =>
    if c.cached.isSome ∧ mod = c.lastMod then none else (call.look.read.bind parse).map (⟨mod, ·⟩)

def Cache.after (c : Cache) (calls : List Call) : Cache :=
  calls.foldl (fun c call => (c.token parse path none call).1) c

def Cache.lastLoaded : Cache → List Call → Option Cache
  | _, [] => none
  | c, call :: calls => (lastLoaded (c.token parse path none call).1 calls).or (c.loaded parse path call)

variable {parse path}

theorem token_cache (c : Cache) (fallback : Option String) (call : Call) :
    (c.token parse path fallback call).1 = (c.loaded parse path call).getD c := by
  unfold Cache.token Cache.loaded Cache.load
  by_cases hsub : call.sub = ""
  · simp [hsub]
  by_cases hpath : path = ""
  · simp [hsub, hpath]
  cases hstat : call.look.stat with
  | none => simp [hsub, hpath]
  | some mod =>
    by_cases hhit : c.cached.isSome ∧ mod = c.lastMod
    · simp [hsub, hpath, hhit]
    · cases hread : call.look.read.bind parse <;> simp [hsub, hpath, hhit]

theorem after_eq (c : Cache) (calls : List Call) :
    c.after parse path calls = (c.lastLoaded parse path calls).getD c := by
  induction calls generalizing c with
  | nil => rfl
  | cons call calls ih =>
    rw [Cache.lastLoaded, Cache.after, List.foldl_cons, ← Cache.after, ih, token_cache, getD_or]

theorem path_ne_of_lastLoaded {c d : Cache} {calls : List Call} (h : c.lastLoaded parse path calls = some d) :
    path ≠ "" := by
  induction calls generalizing c with
  | nil => cases h
  | cons call calls ih =>
    rcases or_eq_some_iff.mp h with hlater | ⟨-, hnow⟩
    · exact ih hlater
    · obtain ⟨hne, -⟩ := ite_none_left_eq_some.mp hnow
      exact (not_or.mp hne).2

def newSource : Cache := ⟨0, none⟩

theorem cached_token_iff {calls : List Call} {mod : ℤ} {tokens : Mapping}
    (hlast : newSource.lastLoaded parse path calls = some ⟨mod, some tokens⟩) {sub tok : String}
    (hsub : tokens sub = some tok) {f : Look} (hbad : f.stat = none ∨ f.read.bind parse = none) :
    (∀ fallback, ((newSource.after parse path calls).token parse path fallback ⟨sub, f⟩).2 = some tok) ↔
      f.stat = some mod ∧ sub ≠ "" ∧ tok ≠ "" := by
  have hpath := path_ne_of_lastLoaded hlast
  rw [after_eq, hlast, getD_some]
  by_cases hempty : sub = ""
  · refine iff_of_false (fun h => ?_) fun h => h.2.1 hempty
    have hnone := h none
    simp [Cache.token, hempty] at hnone
  by_cases hstat : f.stat = some mod
  · simp only [Cache.token, hempty, if_false, Cache.load, hpath, hstat, isSome_some, and_self, if_true,
      PerUserTokenSource.token, hsub, ne_eq, not_false_eq_true, true_and]
    by_cases htok : tok = ""
    · refine iff_of_false (fun h => ?_) fun h => h htok
      have hnone := h none
      rw [if_pos htok] at hnone
      cases hnone
    · exact iff_of_true (fun fallback => if_neg htok) htok
  · refine iff_of_false (fun h => ?_) fun h => hstat h.1
    have hnone := h none
    have hload : (Cache.load parse path ⟨mod, some tokens⟩ f).2 = none := by
      unfold Cache.load
      rw [if_neg hpath]
      split
      · rfl
      next other hother =>
        have hmiss : other ≠ mod := fun heq => hstat (heq ▸ hother)
        rw [if_neg fun hhit => hmiss hhit.2]
        rcases hbad with hnostat | hunread
        · cases hnostat.symm.trans hother
        · rw [hunread]
    simp [Cache.token, hempty, PerUserTokenSource.token, hload] at hnone

theorem read_of_lastLoaded {c d : Cache} {calls : List Call} (h : c.lastLoaded parse path calls = some d) :
    ∃ call ∈ calls, call.look.read.bind parse = some d.cached := by
  induction calls generalizing c with
  | nil => cases h
  | cons call calls ih =>
    rcases or_eq_some_iff.mp h with hlater | ⟨-, hnow⟩
    · obtain ⟨reader, hmem, hread⟩ := ih hlater
      exact ⟨reader, .tail call hmem, hread⟩
    · simp only [Cache.loaded, ite_none_left_eq_some, bind_eq_some_iff, map_eq_some_iff] at hnow
      obtain ⟨-, mod, -, -, parsed, hread, rfl⟩ := hnow
      exact ⟨call, .head calls, bind_eq_some_iff.mpr hread⟩

theorem token_cases {c c' : Cache} {fallback found : Option String} {call : Call}
    (h : c.token parse path fallback call = (c', found)) :
    found = fallback ∨ ∃ tokens, c'.cached = some tokens ∧ found = tokens call.sub := by
  unfold Cache.token Cache.load PerUserTokenSource.token getD at h
  grind

theorem token_own_or_fallback (calls : List Call) (call : Call) (fallback : Option String) :
    ((newSource.after parse path calls).token parse path fallback call).2 = fallback ∨
      ∃ reader ∈ calls ++ [call], ∃ tokens, reader.look.read.bind parse = some (some tokens) ∧
        ((newSource.after parse path calls).token parse path fallback call).2 = tokens call.sub := by
  refine (token_cases rfl).imp_right ?_
  rintro ⟨tokens, hcached, htoken⟩
  have hafter : (newSource.after parse path (calls ++ [call])).cached = some tokens := by
    rwa [Cache.after, List.foldl_concat, token_cache, ← token_cache _ fallback, ← Cache.after]
  rw [after_eq] at hafter
  cases hlast : newSource.lastLoaded parse path (calls ++ [call]) with
  | none =>
    rw [hlast] at hafter
    cases hafter
  | some d =>
    rw [hlast] at hafter
    obtain ⟨reader, hmem, hread⟩ := read_of_lastLoaded hlast
    exact ⟨reader, hmem, tokens, hread.trans (congrArg some hafter), htoken⟩

def oneUser (raw : List UInt8) : Option (Option Mapping) :=
  if raw = [1] then some (some fun sub => if sub = "alice" then some "ghp_a" else none) else none

def firstLoad : List Call := [⟨"alice", some 5, some [1]⟩]

theorem cached_token_unreadable :
    ((newSource.after oneUser "tokens.json" firstLoad).token oneUser "tokens.json" (some "ghp_shared")
      ⟨"alice", some 5, none⟩).2 = some "ghp_a" :=
  (cached_token_iff (show newSource.lastLoaded oneUser "tokens.json" firstLoad = some ⟨5, some _⟩ from rfl) rfl
    (.inr rfl)).mpr ⟨rfl, show "alice" ≠ "" by decide, show "ghp_a" ≠ "" by decide⟩ (some "ghp_shared")

theorem edited_file_falls_back :
    ((newSource.after oneUser "tokens.json" firstLoad).token oneUser "tokens.json" none ⟨"alice", some 5, some [1]⟩).2 =
        some "ghp_a" ∧
      ((newSource.after oneUser "tokens.json" firstLoad).token oneUser "tokens.json" (some "ghp_shared")
        ⟨"alice", some 6, some [2]⟩).2 = some "ghp_shared" :=
  ⟨rfl, rfl⟩

end NomadDev.GitHub.Tokens
