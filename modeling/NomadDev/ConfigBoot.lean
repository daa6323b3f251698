import NomadDev.ConfigLoad
import NomadDev.Foundation.AssocMap

namespace NomadDev.Settings

open Function Foundation Option

variable {lib : Parsers} {e live : Env} {ov merged merged' : Overrides} {body : PutBody} {s : Setting}
  {changes : List (String × String)} {changed : List String} {key value : String} {n : ℕ} {files : Files}

def PutBody.Writes (body : PutBody) (key value : String) : Prop :=
  (key, value) ∈ body.changes ∧ ¬ ((lookup key).any Setting.secret = true ∧ value = "")

theorem writable_ok {envVar : String} (h : writable envVar = .ok s) : lookup envVar = some s := by
  unfold writable at h
  split at h
  · cases h
  · rename_i t ht
    split at h <;> cases h
    exact ht

theorem applyReset_ok {reset : List String} (h : applyReset merged reset = .ok merged') (key : String) :
    merged' key = if key ∈ reset then none else merged key := by
  induction reset generalizing merged with
  | nil =>
    cases h
    simp
  | cons envVar rest ih =>
    simp only [applyReset] at h
    split at h
    · cases h
    rw [ih h]
    by_cases hk : key = envVar
    · subst hk
      simp
    · simp [hk]

theorem applyChanges_frame (h : applyChanges lib merged changes = .ok (merged', changed))
    (hno : ∀ value, (key, value) ∈ changes → (lookup key).any Setting.secret = true ∧ value = "") :
    merged' key = merged key := by
  induction changes generalizing merged changed with
  | nil =>
    cases h
    rfl
  | cons c rest ih =>
    obtain ⟨envVar, value⟩ := c
    have hrest : ∀ v, (key, v) ∈ rest → (lookup key).any Setting.secret = true ∧ v = "" :=
      fun v hv => hno v (List.mem_cons_of_mem _ hv)
    simp only [applyChanges] at h
    split at h
    · cases h
    rename_i s hs
    split at h
    · exact ih h hrest
    rename_i hskip
    split at h
    · cases h
    split at h
    · cases h
    rename_i hrec
    cases h
    rw [ih hrec hrest]
    apply update_of_ne
    rintro rfl
    obtain ⟨hsecret, rfl⟩ := hno value List.mem_cons_self
    rw [writable_ok hs] at hsecret
    exact hskip (by simpa using hsecret)

theorem applyChanges_set (h : applyChanges lib merged changes = .ok (merged', changed))
    (hd : (changes.map Prod.fst).Nodup) (hmem : (key, value) ∈ changes)
    (hw : ¬ ((lookup key).any Setting.secret = true ∧ value = "")) :
    merged' key = some value ∧ ∃ s, lookup key = some s ∧ checkValue lib s key value = none := by
  induction changes generalizing merged changed with
  | nil => cases hmem
  | cons c rest ih =>
    obtain ⟨envVar, v⟩ := c
    obtain ⟨hfresh, hd⟩ := List.nodup_cons.mp hd
    simp only [applyChanges] at h
    split at h
    · cases h
    rename_i s hs
    have hlookup := writable_ok hs
    rcases List.mem_cons.mp hmem with heq | hmem
    · cases heq
      rw [if_neg (by simpa [hlookup] using hw)] at h
      split at h
      · cases h
      rename_i hcheck
      split at h
      · cases h
      rename_i hrec
      cases h
      refine ⟨?_, s, hlookup, hcheck⟩
      rw [applyChanges_frame hrec fun v hv => absurd (List.mem_map_of_mem hv) hfresh]
      exact update_self ..
    · split at h
      · exact ih h hd hmem
      split at h
      · cases h
      split at h
      · cases h
      · rename_i hrec
        cases h
        exact ih hrec hd hmem

section

variable (h : planPut lib live ov body = .ok (merged, n))
include h

theorem planPut_ok : ∃ cleared changed, applyReset ov body.reset = .ok cleared ∧
      applyChanges lib cleared body.changes = .ok (merged, changed) ∧
        validateConfigCrossFields lib live merged = none := by
  unfold planPut at h
  split at h
  · cases h
  rename_i cleared hreset
  split at h
  · cases h
  rename_i hchanges
  split at h
  · cases h
  · rename_i hcross
    cases h
    exact ⟨cleared, _, hreset, hchanges, hcross⟩

theorem planPut_writes (hw : body.Writes key value) :
    merged key = some value ∧ ∃ s, lookup key = some s ∧ checkValue lib s key value = none := by
  obtain ⟨cleared, changed, -, hchanges, -⟩ := planPut_ok h
  exact applyChanges_set hchanges body.distinct hw.1 hw.2

theorem planPut_frame (hno : ∀ value, ¬ body.Writes key value) :
    merged key = if key ∈ body.reset then none else ov key := by
  obtain ⟨cleared, changed, hreset, hchanges, -⟩ := planPut_ok h
  have hframe : merged key = cleared key := by
    apply applyChanges_frame hchanges
    intro value hv
    by_contra hskip
    exact hno value ⟨hv, hskip⟩
  exact hframe.trans (applyReset_ok hreset key)

end

theorem getenv_of_pinned (h : e.get key = some value) (ov : Overrides) : (applyOverride e ov).getenv key = value := by
  simp [applyOverride, Env.getenv, overrideGet, h]

theorem getenv_of_free (h : e.get key = none) (ov : Overrides) :
    (applyOverride e ov).getenv key = ((ov key).filter (settable key)).getD "" := by
  simp [applyOverride, Env.getenv, overrideGet, h]

theorem getenv_of_agree {ov' : Overrides} (h : ov key = ov' key) :
    (applyOverride e ov).getenv key = (applyOverride e ov').getenv key := by
  simp [applyOverride, Env.getenv, overrideGet, h]

structure Bootable (lib : Parsers) (env : Env) : Prop where
  secret : ∃ b, loadSecret lib (env.getenv keySecret) = .ok b
  prev : ∃ bs, loadPrevSecrets lib (env.getenv keyPrevSecrets) = .ok bs
  ping : 0 < envDuration lib env keyPingInterval (30 * second)

theorem load_eq_ok_iff {cfg : Config} : load lib e files = .ok cfg ↔
      loadSecret lib ((bootEnv e files).getenv keySecret) = .ok cfg.jwtSecret ∧
        loadPrevSecrets lib ((bootEnv e files).getenv keyPrevSecrets) = .ok cfg.jwtPrevSecrets ∧
          cfg.accessTTL = envDuration lib (bootEnv e files) keyAccessTTL hour ∧
            cfg.refreshTTL = envDuration lib (bootEnv e files) keyRefreshTTL (720 * hour) ∧
              cfg.pingInterval = envDuration lib (bootEnv e files) keyPingInterval (30 * second) := by
  unfold load
  constructor
  · intro h
    dsimp only at h
    split at h
    · cases h
    rename_i secret hsecret
    split at h
    · cases h
    · rename_i prev hprev
      cases h
      exact ⟨hsecret, hprev, rfl, rfl, rfl⟩
  · rintro ⟨hsecret, hprev, haccess, hrefresh, hping⟩
    simp only [hsecret, hprev, ← haccess, ← hrefresh, ← hping]

theorem load_ok_iff : (∃ cfg, load lib e files = .ok cfg ∧ 0 < cfg.pingInterval) ↔ Bootable lib (bootEnv e files) := by
  constructor
  · rintro ⟨cfg, hload, hping⟩
    obtain ⟨hsecret, hprev, -, -, heq⟩ := load_eq_ok_iff.mp hload
    exact ⟨⟨_, hsecret⟩, ⟨_, hprev⟩, heq ▸ hping⟩
  · rintro ⟨⟨secret, hsecret⟩, ⟨prev, hprev⟩, hping⟩
    exact ⟨⟨secret, prev, _, _, _⟩, load_eq_ok_iff.mpr ⟨hsecret, hprev, rfl, rfl, rfl⟩, hping⟩

theorem loadSecret_empty : loadSecret lib "" = .error errMissingSecret := if_pos rfl

theorem validate_duration {raw : String} (htype : s.type = .duration) (h : s.validate lib raw = none) :
    ∃ d, lib.parseDuration raw = some d ∧ s.checkInt d = none := by
  unfold Setting.validate at h
  rw [htype] at h
  dsimp only at h
  split at h
  · cases h
  · rename_i d hd
    exact ⟨d, hd, h⟩

theorem lookup_pingInterval :
    lookup keyPingInterval = some ((setting "NOMADDEV_PING_INTERVAL" .duration "30s").atLeast 0) := by
  decide

structure SafePut (lib : Parsers) (e : Env) (body : PutBody) : Prop where
  secret : e.get keySecret = none →
    (∀ value, body.Writes keySecret value → settable keySecret value = true) ∧
      (keySecret ∈ body.reset → ∃ value, body.Writes keySecret value)
  prev : e.get keyPrevSecrets = none → ∀ value, body.Writes keyPrevSecrets value →
    settable keyPrevSecrets value = true → ∃ bs, loadPrevSecrets lib value = .ok bs
  ping : e.get keyPingInterval = none → ∀ value, body.Writes keyPingInterval value →
    settable keyPingInterval value = true → lib.parseDuration value ≠ some 0

section Plan

variable {live : Env} {n : ℕ} (h : planPut lib live ov body = .ok (merged, n)) {value : String}

include h

theorem put_value_iff {P : String → Prop} {key : String} (hold : P ((applyOverride e ov).getenv key)) :
    P ((applyOverride e merged).getenv key) ↔
      (e.get key = none →
        (∀ value, body.Writes key value → P (if settable key value = true then value else "")) ∧
          (key ∈ body.reset → (∀ value, ¬ body.Writes key value) → P "")) := by
  cases hpin : e.get key with
  | some v =>
    rw [getenv_of_pinned hpin] at hold ⊢
    exact iff_of_true hold nofun
  | none =>
    rw [forall_prop_of_true rfl]
    by_cases hwrites : ∃ value, body.Writes key value
    · obtain ⟨value, hw⟩ := hwrites
      have hkey := (planPut_writes h hw).1
      have hone : ∀ other, body.Writes key other → other = value := by
        intro other hother
        cases hkey.symm.trans (planPut_writes h hother).1
        rfl
      have hget : (applyOverride e merged).getenv key = if settable key value = true then value else "" := by
        rw [getenv_of_free hpin, hkey, filter_some]
        split <;> rfl
      rw [hget]
      constructor
      · intro hP
        refine ⟨fun other hother => ?_, fun _ hno => absurd hw (hno value)⟩
        rwa [hone other hother]
      · intro hsafe
        exact hsafe.1 value hw
    · have hno := not_exists.mp hwrites
      have hkey := planPut_frame h hno
      by_cases hreset : key ∈ body.reset
      · rw [if_pos hreset] at hkey
        rw [getenv_of_free hpin, hkey, filter_none, getD_none]
        constructor
        · intro hP
          exact ⟨fun value hw => absurd hw (hno value), fun _ _ => hP⟩
        · intro hsafe
          exact hsafe.2 hreset hno
      · rw [if_neg hreset] at hkey
        rw [getenv_of_agree hkey]
        exact iff_of_true hold ⟨fun value hw => absurd hw (hno value), fun hr => absurd hr hreset⟩

theorem secret_checked (hw : body.Writes keySecret value) : ∃ b, loadSecret lib value = .ok b := by
  obtain ⟨-, s, -, hcheck⟩ := planPut_writes h hw
  unfold checkValue at hcheck
  split at hcheck
  · cases hcheck
  rw [if_pos rfl] at hcheck
  split at hcheck
  · cases hcheck
  · rename_i b hb
    exact ⟨b, hb⟩

theorem ping_checked (hw : body.Writes keyPingInterval value) : ∃ d, lib.parseDuration value = some d ∧ 0 ≤ d := by
  obtain ⟨-, s, hs, hcheck⟩ := planPut_writes h hw
  rw [lookup_pingInterval] at hs
  cases hs
  unfold checkValue at hcheck
  split at hcheck
  · cases hcheck
  rename_i hvalid
  obtain ⟨d, hd, hbounds⟩ := validate_duration rfl hvalid
  refine ⟨d, hd, ?_⟩
  by_contra hneg
  simp [Setting.checkInt, Setting.checkBounds, Setting.atLeast, Int.not_le.mp hneg] at hbounds

theorem secret_boots_iff (hold : ∃ b, loadSecret lib ((applyOverride e ov).getenv keySecret) = .ok b) :
    (∃ b, loadSecret lib ((applyOverride e merged).getenv keySecret) = .ok b) ↔
      (e.get keySecret = none → (∀ value, body.Writes keySecret value → settable keySecret value = true) ∧
        (keySecret ∈ body.reset → ∃ value, body.Writes keySecret value)) := by
  have hempty : ¬ ∃ b, loadSecret lib "" = .ok b := by
    rintro ⟨b, hb⟩
    cases loadSecret_empty.symm.trans hb
  refine (put_value_iff (P := fun raw => ∃ b, loadSecret lib raw = .ok b) h hold).trans (imp_congr_right fun _ => ?_)
  refine and_congr (forall₂_congr fun value hw => ?_) (imp_congr_right fun _ => ?_)
  · by_cases hset : settable keySecret value = true
    · rw [if_pos hset]
      exact iff_of_true (secret_checked h hw) hset
    · rw [if_neg hset]
      exact iff_of_false hempty hset
  · rw [← not_exists]
    constructor
    · intro himp
      by_contra hno
      exact hempty (himp hno)
    · intro hw hno
      exact absurd hw hno

theorem prev_boots_iff (hold : ∃ bs, loadPrevSecrets lib ((applyOverride e ov).getenv keyPrevSecrets) = .ok bs) :
    (∃ bs, loadPrevSecrets lib ((applyOverride e merged).getenv keyPrevSecrets) = .ok bs) ↔
      (e.get keyPrevSecrets = none → ∀ value, body.Writes keyPrevSecrets value →
        settable keyPrevSecrets value = true → ∃ bs, loadPrevSecrets lib value = .ok bs) := by
  refine (put_value_iff (P := fun raw => ∃ bs, loadPrevSecrets lib raw = .ok bs) h hold).trans
    (imp_congr_right fun _ => ?_)
  have hempty : ∃ bs, loadPrevSecrets lib "" = .ok bs := ⟨[], rfl⟩
  constructor
  · intro hsafe value hw hset
    have hvalue := hsafe.1 value hw
    rwa [if_pos hset] at hvalue
  · intro hsafe
    refine ⟨fun value hw => ?_, fun _ _ => hempty⟩
    split
    · exact hsafe value hw ‹_›
    · exact hempty

theorem ping_boots_iff (hold : 0 < envDuration lib (applyOverride e ov) keyPingInterval (30 * second)) :
    0 < envDuration lib (applyOverride e merged) keyPingInterval (30 * second) ↔
      (e.get keyPingInterval = none → ∀ value, body.Writes keyPingInterval value →
        settable keyPingInterval value = true → lib.parseDuration value ≠ some 0) := by
  let P : String → Prop := fun raw =>
    0 < if raw = "" then 30 * second else (lib.parseDuration raw).getD (30 * second)
  have hempty : P "" := by
    change (0 : ℤ) < 30 * second
    decide
  have hvalue : ∀ value, body.Writes keyPingInterval value → (P value ↔ lib.parseDuration value ≠ some 0) := by
    intro value hw
    obtain ⟨d, hd, hpos⟩ := ping_checked h hw
    have hne : value ≠ "" := by
      rintro rfl
      cases lib.parseDuration_empty.symm.trans hd
    change 0 < (if value = "" then _ else _) ↔ _
    rw [if_neg hne, hd, getD_some]
    simp only [ne_eq, Option.some.injEq]
    omega
  refine (put_value_iff (P := P) h hold).trans (imp_congr_right fun _ => ?_)
  constructor
  · intro hsafe value hw hset
    have hP := hsafe.1 value hw
    rw [if_pos hset] at hP
    exact (hvalue value hw).mp hP
  · intro hsafe
    refine ⟨fun value hw => ?_, fun _ _ => hempty⟩
    split
    · exact (hvalue value hw).mpr (hsafe value hw ‹_›)
    · exact hempty

theorem bootable_put_iff (hold : Bootable lib (applyOverride e ov)) :
    Bootable lib (applyOverride e merged) ↔ SafePut lib e body := by
  constructor
  · intro hnew
    exact ⟨(secret_boots_iff h hold.secret).mp hnew.secret, (prev_boots_iff h hold.prev).mp hnew.prev,
      (ping_boots_iff h hold.ping).mp hnew.ping⟩
  · intro hsafe
    exact ⟨(secret_boots_iff h hold.secret).mpr hsafe.secret, (prev_boots_iff h hold.prev).mpr hsafe.prev,
      (ping_boots_iff h hold.ping).mpr hsafe.ping⟩

end Plan

theorem loadPut_eq_ok_iff {srv : Running} {r : PutRequest} {ov : Overrides} : loadPut srv files r = .ok (body, ov) ↔
    r.authorized = none ∧ r.body = .ok body ∧ ¬ (body.changes = [] ∧ body.reset = []) ∧ files srv.path = .ok ov := by
  unfold loadPut
  constructor
  · intro h
    split at h
    · cases h
    · cases h
    rename_i hauth hbody
    split at h
    · cases h
    · rename_i hempty
      split at h <;> cases h
      exact ⟨hauth, hbody, hempty, ‹_›⟩
  · rintro ⟨hauth, hbody, hempty, hfile⟩
    simp only [hauth, hbody, if_neg hempty, hfile]

theorem handleConfigPut_ok {srv : Running} {files' : Files} {r : PutRequest}
    (h : handleConfigPut lib srv files r = (.ok n, files')) :
    ∃ body ov merged, r.body = .ok body ∧ files srv.path = .ok ov ∧
      planPut lib srv.live ov body = .ok (merged, n) ∧ files' = update files srv.path (.ok merged) := by
  unfold handleConfigPut writePut at h
  split at h
  · cases h
  rename_i body ov hload
  obtain ⟨-, hbody, -, hov⟩ := loadPut_eq_ok_iff.mp hload
  split at h
  · cases h
  · rename_i merged applied hplan
    split at h <;> cases h
    exact ⟨body, ov, merged, hbody, hov, hplan, rfl⟩

theorem next_start_boots_iff {files₀ files files' : Files} {r : PutRequest} {n : ℕ} {cfg : Config}
    (hload : load lib e files = .ok cfg) (hping : 0 < cfg.pingInterval) (hbody : r.body = .ok body)
    (hput : handleConfigPut lib (running e files₀) files r = (.ok n, files')) :
    (∃ cfg', load lib e files' = .ok cfg' ∧ 0 < cfg'.pingInterval) ↔
      ((running e files₀).path = overridePath e → SafePut lib e body) := by
  have hold : Bootable lib (bootEnv e files) := load_ok_iff.mp ⟨cfg, hload, hping⟩
  obtain ⟨body', ov, merged, hbody', hov, hplan, rfl⟩ := handleConfigPut_ok hput
  cases hbody.symm.trans hbody'
  rw [load_ok_iff]
  by_cases hpath : (running e files₀).path = overridePath e
  · rw [forall_prop_of_true hpath]
    rw [hpath] at hov
    unfold bootEnv at hold ⊢
    rw [hov] at hold
    rw [hpath, update_self]
    exact bootable_put_iff hplan hold
  · refine iff_of_true ?_ fun heq => absurd heq hpath
    unfold bootEnv at hold ⊢
    rwa [update_of_ne (Ne.symm hpath)]

def sampleSecret : String := "0123456789abcdef0123456789abcdef"

def pinnedSecret (key : String) : Option String := if key = keySecret then some sampleSecret else none

theorem settable_pinnedSecret (key value : String) (h : pinnedSecret key = some value) : settable key value = true := by
  unfold pinnedSecret at h
  split at h <;> cases h
  subst key
  decide

def secretEnv : Env := ⟨pinnedSecret, settable_pinnedSecret⟩

def noOverrides : Files := fun _ => .ok fun _ => none

def putOne (key value : String) : PutRequest := ⟨none, .ok ⟨[(key, value)], [], List.pairwise_singleton _ key⟩, none⟩

def putFile (key value : String) : Files :=
  update noOverrides defaultOverridePath (.ok (update (fun _ => none) key (some value)))

theorem load_sample : load plainParsers secretEnv noOverrides =
    .ok ⟨sampleSecret.toUTF8.toList, [], hour, 720 * hour, 30 * second⟩ :=
  rfl

theorem next_start_boots_slower_ping :
    ∃ cfg, load plainParsers secretEnv (putFile keyPingInterval "45s") = .ok cfg ∧ 0 < cfg.pingInterval := by
  have hput : handleConfigPut plainParsers (running secretEnv noOverrides) noOverrides
      (putOne keyPingInterval "45s") = (.ok 1, putFile keyPingInterval "45s") := rfl
  refine (next_start_boots_iff load_sample (by decide) rfl hput).mpr fun _ => ?_
  constructor
  · nofun
  · rintro - value ⟨hmem, -⟩
    simp [keyPrevSecrets, keyPingInterval] at hmem
  · rintro - value ⟨hmem, -⟩ -
    cases List.mem_singleton.mp hmem
    decide

theorem zero_ping_accepted : (∃ cfg, load plainParsers secretEnv noOverrides = .ok cfg ∧ 0 < cfg.pingInterval) ∧
      handleConfigPut plainParsers (running secretEnv noOverrides) noOverrides (putOne keyPingInterval "0s") =
        (.ok 1, putFile keyPingInterval "0s") ∧
          ¬ ∃ cfg, load plainParsers secretEnv (putFile keyPingInterval "0s") = .ok cfg ∧ 0 < cfg.pingInterval := by
  refine ⟨⟨_, load_sample, by decide⟩, rfl, ?_⟩
  rw [load_ok_iff]
  intro hboot
  have hzero : envDuration plainParsers (bootEnv secretEnv (putFile keyPingInterval "0s")) keyPingInterval
      (30 * second) = 0 := by decide
  have hping := hboot.ping
  rw [hzero] at hping
  exact absurd hping (by decide)

def PutBody.written (body : PutBody) : List (String × String) :=
  body.changes.filter fun c => !((lookup c.1).any Setting.secret && c.2 == "")

def PutBody.resetLast (body : PutBody) (ov : Overrides) : Overrides :=
  fun key => if key ∈ body.reset then none else (AssocMap.get body.written key).or (ov key)

theorem mem_written : (key, value) ∈ body.written ↔ body.Writes key value := by
  simp [PutBody.written, PutBody.Writes, List.mem_filter, imp_iff_not_or]

theorem get_written (hw : body.Writes key value) : AssocMap.get body.written key = some value :=
  AssocMap.get_of_mem (AssocMap.keyed_filter body.distinct _) (mem_written.mpr hw)

theorem get_written_none (hno : ∀ value, ¬ body.Writes key value) : AssocMap.get body.written key = none := by
  rw [eq_none_iff_forall_not_mem]
  intro value hget
  exact hno value (mem_written.mp (AssocMap.mem_of_get hget))

theorem put_resets_last_iff {srv : Running} {files files' : Files} {r : PutRequest} {n : ℕ}
    (h : handleConfigPut lib srv files r = (.ok n, files')) :
    ∃ body ov merged, r.body = .ok body ∧ files srv.path = .ok ov ∧ files' = update files srv.path (.ok merged) ∧
      (∀ key ∉ body.reset, (∀ value, (key, value) ∉ body.changes) → merged key = ov key) ∧
      (merged = body.resetLast ov ↔ ∀ key value, body.Writes key value → key ∉ body.reset) := by
  obtain ⟨body, ov, merged, hbody, hov, hplan, hfiles⟩ := handleConfigPut_ok h
  refine ⟨body, ov, merged, hbody, hov, hfiles, ?_, ?_, ?_⟩
  · intro key hreset hno
    rw [planPut_frame hplan fun value hw => hno value hw.1, if_neg hreset]
  · intro heq key value hw hreset
    have hkey := congrFun heq key
    rw [(planPut_writes hplan hw).1, PutBody.resetLast, if_pos hreset] at hkey
    cases hkey
  · intro hapart
    funext key
    rw [PutBody.resetLast]
    by_cases hwrites : ∃ value, body.Writes key value
    · obtain ⟨value, hw⟩ := hwrites
      rw [(planPut_writes hplan hw).1, if_neg (hapart key value hw), get_written hw, some_or]
    · have hno := not_exists.mp hwrites
      rw [planPut_frame hplan hno, get_written_none hno, none_or]

theorem put_resets_last_slower_ping :
    ∃ merged, putFile keyPingInterval "45s" = update noOverrides defaultOverridePath (.ok merged) ∧
      merged keyAccessTTL = none := by
  have hput : handleConfigPut plainParsers (running secretEnv noOverrides) noOverrides
      (putOne keyPingInterval "45s") = (.ok 1, putFile keyPingInterval "45s") := rfl
  obtain ⟨body, ov, merged, hbody, hov, hfiles, hframe, -⟩ := put_resets_last_iff hput
  cases hbody
  cases hov
  refine ⟨merged, hfiles, hframe keyAccessTTL List.not_mem_nil fun value hmem => ?_⟩
  simp [keyAccessTTL, keyPingInterval] at hmem

def putOver : PutRequest :=
  ⟨none, .ok ⟨[(keyPingInterval, "45s")], [keyPingInterval], List.pairwise_singleton _ keyPingInterval⟩, none⟩

theorem changed_key_outlives_reset : handleConfigPut plainParsers (running secretEnv noOverrides) noOverrides putOver =
      (.ok 2, update noOverrides defaultOverridePath
        (.ok (update (update (fun _ => none) keyPingInterval none) keyPingInterval (some "45s")))) ∧
    ∀ body, putOver.body = .ok body → body.resetLast (fun _ => none) keyPingInterval = none := by
  refine ⟨rfl, ?_⟩
  rintro body ⟨⟩
  rfl

end NomadDev.Settings
