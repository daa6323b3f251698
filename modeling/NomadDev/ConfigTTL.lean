import NomadDev.ConfigBoot

namespace NomadDev.Settings

open Function Option

variable {lib : Parsers} {e : Env} {files : Files} {key value : String} {d fallback : ℤ} {ov : Overrides}

def TTLOrdered (lib : Parsers) (e : Env) : Prop :=
  ∀ (files₀ files files' : Files) (r : PutRequest) (n : ℕ) (cfg₀ cfg : Config), load lib e files₀ = .ok cfg₀ →
    handleConfigPut lib (running e files₀) files r = (.ok n, files') → load lib e files' = .ok cfg →
      cfg.accessTTL < cfg.refreshTTL

def PinnedTTLs (lib : Parsers) (e : Env) : Prop :=
  ∃ access refresh a b, e.get keyAccessTTL = some access ∧ e.get keyRefreshTTL = some refresh ∧
    lib.parseDuration access = some a ∧ lib.parseDuration refresh = some b ∧ a < b

theorem load_of_secrets {secret : List UInt8} {prev : List (List UInt8)}
    (hsecret : loadSecret lib ((bootEnv e files).getenv keySecret) = .ok secret)
    (hprev : loadPrevSecrets lib ((bootEnv e files).getenv keyPrevSecrets) = .ok prev) :
    ∃ cfg, load lib e files = .ok cfg :=
  ⟨⟨secret, prev, _, _, _⟩, load_eq_ok_iff.mpr ⟨hsecret, hprev, rfl, rfl, rfl⟩⟩

theorem envDuration_of_parsed {raw : String} (hget : e.getenv key = raw) (hraw : lib.parseDuration raw = some d) :
    envDuration lib e key fallback = d := by
  have hne : raw ≠ "" := by
    rintro rfl
    cases lib.parseDuration_empty.symm.trans hraw
  unfold envDuration
  rw [hget, if_neg hne, hraw, getD_some]

theorem bootEnv_get_of_pinned (h : e.get key = some value) : (bootEnv e files).getenv key = value := by
  unfold bootEnv
  split
  · exact getenv_of_pinned h _
  · simp [Env.getenv, h]

theorem TTLOrdered.of_pinned (h : PinnedTTLs lib e) : TTLOrdered lib e := by
  obtain ⟨access, refresh, a, b, haccess, hrefresh, ha, hb, hlt⟩ := h
  intro _ _ files' _ _ _ cfg _ _ hload
  obtain ⟨-, -, hcfga, hcfgb, -⟩ := load_eq_ok_iff.mp hload
  rw [hcfga, hcfgb, envDuration_of_parsed (bootEnv_get_of_pinned haccess) ha,
    envDuration_of_parsed (bootEnv_get_of_pinned hrefresh) hb]
  exact hlt

def logLevelKey : String := "NOMADDEV_LOG_LEVEL"

def ttlFile (base : Overrides) (access refresh : String) : Overrides := fun key =>
  if key = keyAccessTTL then some access
  else if key = keyRefreshTTL then some refresh
  else if key = keySecret ∨ key = keyPrevSecrets then base key
  else none

theorem put_logLevel_ok {base : Overrides} {access refresh : String} (hskip : access = "" ∨ refresh = "")
    (srv : Running) :
    handleConfigPut lib srv (fun _ => .ok (ttlFile base access refresh)) (putOne logLevelKey "info") =
      (.ok 1, update (fun _ => .ok (ttlFile base access refresh)) srv.path
        (.ok (update (ttlFile base access refresh) logLevelKey (some "info")))) := by
  have hcross : validateConfigCrossFields lib srv.live
      (update (ttlFile base access refresh) logLevelKey (some "info")) = none := by
    unfold validateConfigCrossFields
    have ha : resolveConfigValue srv.live (update (ttlFile base access refresh) logLevelKey (some "info"))
        keyAccessTTL = access := rfl
    have hr : resolveConfigValue srv.live (update (ttlFile base access refresh) logLevelKey (some "info"))
        keyRefreshTTL = refresh := rfl
    rw [ha, hr]
    rcases hskip with rfl | rfl
    · rw [lib.parseDuration_empty]
    · rw [lib.parseDuration_empty]
      cases lib.parseDuration access <;> rfl
  have happly : applyChanges lib (ttlFile base access refresh) [(logLevelKey, "info")] =
      .ok (update (ttlFile base access refresh) logLevelKey (some "info"), [logLevelKey]) := rfl
  have hload : loadPut srv (fun _ => .ok (ttlFile base access refresh)) (putOne logLevelKey "info") =
      .ok (⟨[(logLevelKey, "info")], [], List.pairwise_singleton _ _⟩, ttlFile base access refresh) := rfl
  simp only [handleConfigPut, hload, writePut, planPut, applyReset, happly, hcross]
  rfl

theorem bootEnv_getenv (e : Env) (files : Files) :
    ∃ base, ∀ key, (bootEnv e files).getenv key = (applyOverride e base).getenv key := by
  unfold bootEnv
  split
  · rename_i ov _
    exact ⟨ov, fun _ => rfl⟩
  · refine ⟨fun _ => none, fun key => ?_⟩
    cases hkey : e.get key with
    | none => rw [getenv_of_free hkey, Env.getenv, hkey, filter_none]
    | some value => rw [getenv_of_pinned hkey, Env.getenv, hkey, getD_some]

theorem bootEnv_put_logLevel {path : String} (hkey : key ≠ logLevelKey) :
    (bootEnv e (update (fun _ => .ok ov) path (.ok (update ov logLevelKey (some "info"))))).getenv
      key = (applyOverride e ov).getenv key := by
  unfold bootEnv
  by_cases hpath : overridePath e = path
  · rw [hpath, update_self]
    exact getenv_of_agree (update_of_ne hkey _ _)
  · rw [update_of_ne hpath]

theorem envDuration_congr {e' : Env} (h : e.getenv key = e'.getenv key) (fallback : ℤ) :
    envDuration lib e key fallback = envDuration lib e' key fallback := by
  unfold envDuration
  rw [h]

theorem TTLOrdered.file {cfg : Config} (hall : TTLOrdered lib e) (hstart : load lib e files = .ok cfg)
    (access refresh : String) (hskip : access = "" ∨ refresh = "") :
    ∃ ov, ov keyAccessTTL = some access ∧ ov keyRefreshTTL = some refresh ∧
      envDuration lib (applyOverride e ov) keyAccessTTL hour <
        envDuration lib (applyOverride e ov) keyRefreshTTL (720 * hour) := by
  obtain ⟨base, hbase⟩ := bootEnv_getenv e files
  obtain ⟨hsecret, hprev, -⟩ := load_eq_ok_iff.mp hstart
  rw [hbase] at hsecret hprev
  let ov := ttlFile base access refresh
  have hboot : ∃ cfg, load lib e (fun _ => .ok ov) = .ok cfg := load_of_secrets hsecret hprev
  obtain ⟨cfg₀, hboot⟩ := hboot
  have hput : handleConfigPut lib (running e fun _ => .ok ov) (fun _ => .ok ov) (putOne logLevelKey "info") = _ :=
    put_logLevel_ok hskip _
  obtain ⟨cfg₁, hnext⟩ : ∃ cfg, load lib e (update (fun _ => .ok ov) (running e fun _ => .ok ov).path
      (.ok (update ov logLevelKey (some "info")))) = .ok cfg := by
    apply load_of_secrets
    · rw [bootEnv_put_logLevel (by decide)]
      exact hsecret
    · rw [bootEnv_put_logLevel (by decide)]
      exact hprev
  have hlt := hall _ _ _ _ _ _ _ hboot hput hnext
  obtain ⟨-, -, haccess, hrefresh, -⟩ := load_eq_ok_iff.mp hnext
  rw [haccess, hrefresh, envDuration_congr (bootEnv_put_logLevel (by decide)),
    envDuration_congr (bootEnv_put_logLevel (by decide))] at hlt
  exact ⟨ov, rfl, rfl, hlt⟩

theorem settable_value {key' : String} (hkey : settable key' "" = true) (h : settable key value = true) :
    settable key' value = true := by
  unfold settable at *
  rw [Bool.and_eq_true] at *
  exact ⟨hkey.1, h.2⟩

theorem envDuration_of_file (hfree : e.get key = none) (hov : ov key = some value) (hset : settable key value = true)
    (hd : lib.parseDuration value = some d) : envDuration lib (applyOverride e ov) key fallback = d := by
  apply envDuration_of_parsed _ hd
  rw [getenv_of_free hfree, hov, filter_some, if_pos hset, getD_some]

theorem envDuration_of_empty (hfree : e.get key = none) (hov : ov key = some "") :
    envDuration lib (applyOverride e ov) key fallback = fallback := by
  unfold envDuration
  apply if_pos
  rw [getenv_of_free hfree, hov, filter_some]
  split <;> rfl

theorem ttl_ordered_iff {cfg : Config} (hstart : load lib e files = .ok cfg)
    (haccess : ∀ raw, e.get keyAccessTTL = some raw → (lib.parseDuration raw).isSome)
    (hrefresh : ∀ raw, e.get keyRefreshTTL = some raw → (lib.parseDuration raw).isSome) :
    TTLOrdered lib e ↔ PinnedTTLs lib e := by
  refine ⟨fun hall => ?_, TTLOrdered.of_pinned⟩
  cases ha : e.get keyAccessTTL with
  | none =>
    cases hb : e.get keyRefreshTTL with
    | none =>
      obtain ⟨ov, hova, hovb, hlt⟩ := hall.file hstart "" "0s" (.inl rfl)
      rw [envDuration_of_empty ha hova, envDuration_of_file hb hovb (by decide) lib.parseDuration_zero] at hlt
      exact absurd hlt (by decide)
    | some refresh =>
      obtain ⟨b, hb'⟩ := isSome_iff_exists.mp (hrefresh refresh hb)
      obtain ⟨ov, hova, -, hlt⟩ := hall.file hstart refresh "" (.inr rfl)
      rw [envDuration_of_file ha hova (settable_value (by decide) (e.settable_get _ _ hb)) hb',
        envDuration_of_parsed (getenv_of_pinned hb ov) hb'] at hlt
      exact absurd hlt (Int.lt_irrefl b)
  | some access =>
    obtain ⟨a, ha'⟩ := isSome_iff_exists.mp (haccess access ha)
    cases hb : e.get keyRefreshTTL with
    | none =>
      obtain ⟨ov, -, hovb, hlt⟩ := hall.file hstart "" access (.inl rfl)
      rw [envDuration_of_parsed (getenv_of_pinned ha ov) ha',
        envDuration_of_file hb hovb (settable_value (by decide) (e.settable_get _ _ ha)) ha'] at hlt
      exact absurd hlt (Int.lt_irrefl a)
    | some refresh =>
      obtain ⟨b, hb'⟩ := isSome_iff_exists.mp (hrefresh refresh hb)
      obtain ⟨ov, -, -, hlt⟩ := hall.file hstart "" "" (.inl rfl)
      rw [envDuration_of_parsed (getenv_of_pinned ha ov) ha', envDuration_of_parsed (getenv_of_pinned hb ov) hb'] at hlt
      exact ⟨access, refresh, a, b, ha, hb, ha', hb', hlt⟩

def pinnedOrder (key : String) : Option String :=
  if key = keySecret then some sampleSecret
  else if key = keyAccessTTL then some "1h"
  else if key = keyRefreshTTL then some "2h"
  else none

theorem settable_pinnedOrder (key value : String) (h : pinnedOrder key = some value) : settable key value = true := by
  unfold pinnedOrder at h
  split at h
  · cases h
    subst key
    decide
  · split at h
    · cases h
      subst key
      decide
    · split at h
      · cases h
        subst key
        decide
      · cases h

theorem ttl_ordered_one_two : TTLOrdered plainParsers ⟨pinnedOrder, settable_pinnedOrder⟩ := by
  have hstart : load plainParsers ⟨pinnedOrder, settable_pinnedOrder⟩ noOverrides =
      .ok ⟨sampleSecret.toUTF8.toList, [], hour, 2 * hour, 30 * second⟩ := rfl
  refine (ttl_ordered_iff hstart ?_ ?_).mpr ⟨"1h", "2h", hour, 2 * hour, rfl, rfl, rfl, rfl, by decide⟩
  · rintro raw ⟨⟩
    rfl
  · rintro raw ⟨⟩
    rfl

def longRefresh : Files := putFile keyRefreshTTL "1000h"

def resetRefresh : PutRequest :=
  ⟨none, .ok ⟨[(keyAccessTTL, "800h")], [keyRefreshTTL], List.pairwise_singleton _ keyAccessTTL⟩, none⟩

theorem reset_refresh_inverts : ∃ files' cfg₀ cfg, load plainParsers secretEnv longRefresh = .ok cfg₀ ∧
      handleConfigPut plainParsers (running secretEnv longRefresh) longRefresh resetRefresh = (.ok 2, files') ∧
        load plainParsers secretEnv files' = .ok cfg ∧ cfg.refreshTTL < cfg.accessTTL :=
  ⟨_, ⟨sampleSecret.toUTF8.toList, [], hour, 1000 * hour, 30 * second⟩,
    ⟨sampleSecret.toUTF8.toList, [], 800 * hour, 720 * hour, 30 * second⟩, rfl, rfl, rfl, by decide⟩

end NomadDev.Settings
