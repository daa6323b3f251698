import Mathlib.Data.List.Basic
import Mathlib.Data.Int.Notation

namespace NomadDev.Dbutil

variable {Stmt D : Type}

structure Migration (Stmt : Type) where
  version : ℤ
  stmts : List Stmt

structure Database (D : Type) where
  userVersion : ℤ
  content : D
  deriving DecidableEq

inductive TxErr
  | begin
  | stmt (i : ℕ)
  | setUserVersion
  | commit
  deriving DecidableEq

inductive MigrateErr
  | badVersion (i : ℕ) (got : ℤ)
  | readUserVersion
  | schemaTooNew (current highest : ℤ)
  | migration (version : ℤ) (err : TxErr)

inductive CommitFault
  | lost | taken

structure TxFaults where
  begin : Bool
  stmt : ℕ → Bool
  setUserVersion : Bool
  commit : Option CommitFault

def TxFaults.none : TxFaults := ⟨false, fun _ => false, false, .none⟩

structure Faults where
  readUserVersion : Bool
  tx : ℤ → TxFaults

section Model

variable (effect : Stmt → D → D)

def execStmts (fails : ℕ → Bool) : ℕ → List Stmt → D → Except TxErr D
  | _, [], content => .ok content
  | i, stmt :: rest, content =>
    if fails i then .error (.stmt i) else execStmts fails (i + 1) rest (effect stmt content)

def applyOne (f : TxFaults) (db : Database D) (m : Migration Stmt) : Database D × Option TxErr :=
  if f.begin then (db, some .begin)
  else match execStmts effect f.stmt 0 m.stmts db.content with
    | .error err => (db, some err)
    | .ok content =>
      if f.setUserVersion then (db, some .setUserVersion)
      else match f.commit with
        | none => (⟨m.version, content⟩, none)
        | some .lost => (db, some .commit)
        | some .taken => (⟨m.version, content⟩, some .commit)

def applyPending (f : ℤ → TxFaults) (current : ℤ) : Database D → List (Migration Stmt) → Database D × Option MigrateErr
  | db, [] => (db, none)
  | db, m :: rest =>
    if m.version ≤ current then applyPending f current db rest
    else match applyOne effect (f m.version) db m with
      | (db, some err) => (db, some (.migration m.version err))
      | (db, none) => applyPending f current db rest

def checkVersions : ℕ → List (Migration Stmt) → Option MigrateErr
  | _, [] => none
  | i, m :: rest => if m.version ≠ i + 1 then some (.badVersion i m.version) else checkVersions (i + 1) rest

def migrate (migs : List (Migration Stmt)) (f : Faults) (db : Database D) : Database D × Option MigrateErr :=
  match migs with
  | [] => (db, none)
  | m :: rest =>
    match checkVersions 0 (m :: rest) with
    | some err => (db, some err)
    | none =>
      if f.readUserVersion then (db, some .readUserVersion)
      else
        let current := db.userVersion
        let highest := ((m :: rest).getLast (List.cons_ne_nil m rest)).version
        if current > highest then (db, some (.schemaTooNew current highest))
        else if current = highest then (db, none)
        else applyPending effect f.tx current db (m :: rest)

def applied (base : D) (migs : List (Migration Stmt)) : D :=
  migs.foldl (fun content m => m.stmts.foldl (fun content stmt => effect stmt content) content) base

structure AtVersion (base : D) (migs : List (Migration Stmt)) (w : ℕ) (db : Database D) : Prop where
  version : db.userVersion = w
  known : w ≤ migs.length
  content : db.content = applied effect base (migs.take w)

end Model

def Contiguous (migs : List (Migration Stmt)) : Prop :=
  ∀ (i : ℕ) (m : Migration Stmt), migs[i]? = some m → m.version = i + 1

variable {effect : Stmt → D → D} {migs : List (Migration Stmt)}

theorem execStmts_ok {fails : ℕ → Bool} {i : ℕ} {stmts : List Stmt} {content content' : D}
    (h : execStmts effect fails i stmts content = .ok content') :
    content' = stmts.foldl (fun content stmt => effect stmt content) content := by
  induction stmts generalizing i content with
  | nil => exact (Except.ok.inj h).symm
  | cons stmt rest ih =>
    rw [execStmts] at h
    split at h
    · cases h
    · exact ih h

theorem applyOne_cases (effect : Stmt → D → D) (f : TxFaults) (db : Database D) (m : Migration Stmt) :
    (applyOne effect f db m).1 = ⟨m.version, m.stmts.foldl (fun content stmt => effect stmt content) db.content⟩ ∨
      (applyOne effect f db m).1 = db ∧ ∃ err, (applyOne effect f db m).2 = some err := by
  unfold applyOne
  split
  · exact .inr ⟨rfl, _, rfl⟩
  split
  next => exact .inr ⟨rfl, _, rfl⟩
  next content hexec =>
    split
    · exact .inr ⟨rfl, _, rfl⟩
    rw [← execStmts_ok hexec]
    split
    next => exact .inl rfl
    next => exact .inr ⟨rfl, _, rfl⟩
    next => exact .inl rfl

theorem applied_take_succ (effect : Stmt → D → D) (base : D) {w : ℕ} {m : Migration Stmt} (h : migs[w]? = some m) :
    applied effect base (migs.take (w + 1)) =
      m.stmts.foldl (fun content stmt => effect stmt content) (applied effect base (migs.take w)) := by
  rw [List.take_add_one, h, applied, List.foldl_append]
  rfl

section Loop

variable {base : D} {migs rest : List (Migration Stmt)} {f : ℤ → TxFaults} {db : Database D} {w : ℕ}

theorem AtVersion.succ {m : Migration Stmt} (h : AtVersion effect base migs w db) (hm : migs[w]? = some m)
    (hversion : m.version = w + 1) : AtVersion effect base migs (w + 1)
      ⟨m.version, m.stmts.foldl (fun content stmt => effect stmt content) db.content⟩ where
  version := by simpa using hversion
  known := (List.getElem?_eq_some_iff.mp hm).1
  content := by rw [applied_take_succ effect base hm, h.content]

theorem applyPending_atVersion (hmigs : Contiguous migs) {v k : ℕ} (hrest : migs.drop k = rest) (hw : w = max k v)
    (hv : v ≤ migs.length) (hk : k ≤ migs.length) (h : AtVersion effect base migs w db) :
    ∃ w', w ≤ w' ∧ AtVersion effect base migs w' (applyPending effect f v db rest).1 ∧
      ((applyPending effect f v db rest).2 = none → w' = migs.length) := by
  induction rest generalizing k w db with
  | nil =>
    have hend : migs.length ≤ k := List.drop_eq_nil_iff.mp hrest
    exact ⟨w, Nat.le_refl w, h, fun _ => by omega⟩
  | cons m rest ih =>
    have hm : migs[k]? = some m := by
      rw [← List.head?_drop, hrest]
      rfl
    have hlt : k < migs.length := (List.getElem?_eq_some_iff.mp hm).1
    have hnext : migs.drop (k + 1) = rest := by rw [← List.drop_drop, hrest, List.drop_one, List.tail_cons]
    have hversion : m.version = k + 1 := hmigs k m hm
    rw [applyPending]
    by_cases hskip : m.version ≤ v
    · rw [if_pos hskip]
      exact ih hnext (by omega) hlt h
    rw [if_neg hskip]
    have hwk : w = k := by omega
    subst hwk
    rcases applyOne_cases effect (f m.version) db m with htaken | ⟨hsame, err, herr⟩
    · have hsucc := h.succ hm hversion
      rw [← htaken] at hsucc
      cases hone : applyOne effect (f m.version) db m with
      | mk db' err =>
        rw [hone] at hsucc
        cases err with
        | some err => exact ⟨w + 1, Nat.le_succ w, hsucc, fun hnone => nomatch hnone⟩
        | none =>
          obtain ⟨w', hle, hat, hdone⟩ := ih hnext (by omega) hlt hsucc
          exact ⟨w', Nat.le_of_succ_le hle, hat, hdone⟩
    · cases hone : applyOne effect (f m.version) db m with
      | mk db' err' =>
        rw [hone] at hsame herr
        cases hsame
        cases herr
        exact ⟨w, Nat.le_refl w, h, fun hnone => nomatch hnone⟩

theorem checkVersions_eq_none {i : ℕ} (h : ∀ (j : ℕ) (m : Migration Stmt), rest[j]? = some m → m.version = i + j + 1) :
    checkVersions i rest = none := by
  induction rest generalizing i with
  | nil => rfl
  | cons m rest ih =>
    have hm : m.version = i + 1 := by simpa using h 0 m rfl
    rw [checkVersions, if_neg (not_not_intro hm)]
    refine ih fun j m' hm' => ?_
    have hlater := h (j + 1) m' hm'
    push_cast at hlater ⊢
    omega

section

variable (hmigs : Contiguous migs)
include hmigs

theorem Contiguous.checkVersions : checkVersions 0 migs = none :=
  checkVersions_eq_none fun j m hm => by simpa using hmigs j m hm

theorem Contiguous.getLast_version (hne : migs ≠ []) : (migs.getLast hne).version = migs.length := by
  have hpos : 0 < migs.length := List.length_pos_iff.mpr hne
  have hlast : migs[migs.length - 1]? = some (migs.getLast hne) := by
    rw [← List.getLast?_eq_getElem?, List.getLast?_eq_some_getLast hne]
  rw [hmigs _ _ hlast]
  omega

theorem migrate_eq (hne : migs ≠ []) (g : Faults) (db : Database D) : migrate effect migs g db =
      if g.readUserVersion then (db, some .readUserVersion)
      else if db.userVersion > migs.length then (db, some (.schemaTooNew db.userVersion migs.length))
      else if db.userVersion = migs.length then (db, none)
      else applyPending effect g.tx db.userVersion db migs := by
  cases migs with
  | nil => exact absurd rfl hne
  | cons m rest =>
    rw [migrate, hmigs.checkVersions]
    simp only [hmigs.getLast_version hne]

theorem migrate_atVersion (g : Faults) (h : AtVersion effect base migs w db) :
    ∃ w', w ≤ w' ∧ AtVersion effect base migs w' (migrate effect migs g db).1 ∧
      ((migrate effect migs g db).2 = none → w' = migs.length) := by
  by_cases hne : migs = []
  · subst hne
    exact ⟨w, Nat.le_refl w, h, fun _ => Nat.le_zero.mp h.known⟩
  have hnew : ¬ db.userVersion > migs.length := by
    rw [h.version]
    have := h.known
    omega
  rw [migrate_eq hmigs hne, if_neg hnew]
  split
  · exact ⟨w, Nat.le_refl w, h, fun hnone => nomatch hnone⟩
  split
  next hcurrent =>
    refine ⟨w, Nat.le_refl w, h, fun _ => ?_⟩
    have := h.version.symm.trans hcurrent
    omega
  next =>
    rw [h.version]
    exact applyPending_atVersion hmigs (List.drop_zero) (by omega) h.known (Nat.zero_le _) h

theorem migrate_tooNew (g : Faults) (hnew : db.userVersion > migs.length) :
    (migrate effect migs g db).1 = db ∧ ((migrate effect migs g db).2 = none ↔ migs = []) := by
  by_cases hne : migs = []
  · subst hne
    exact ⟨rfl, iff_of_true rfl rfl⟩
  · rw [migrate_eq hmigs hne, if_pos hnew]
    split
    · exact ⟨rfl, iff_of_false (fun hnone => nomatch hnone) hne⟩
    · exact ⟨rfl, iff_of_false (fun hnone => nomatch hnone) hne⟩

end

end Loop

def migrateAll (effect : Stmt → D → D) (migs : List (Migration Stmt)) (db : Database D) (calls : List Faults) :
    Database D :=
  calls.foldl (fun db g => (migrate effect migs g db).1) db

theorem migrateAll_atVersion {base : D} {db : Database D} (hmigs : Contiguous migs) {v : ℕ}
    (h : AtVersion effect base migs v db) (calls : List Faults) :
    ∃ w, v ≤ w ∧ AtVersion effect base migs w (migrateAll effect migs db calls) := by
  induction calls generalizing db v with
  | nil => exact ⟨v, Nat.le_refl v, h⟩
  | cons g calls ih =>
    obtain ⟨w, hle, hat, -⟩ := migrate_atVersion hmigs g h
    obtain ⟨w', hle', hat'⟩ := ih hat
    exact ⟨w', Nat.le_trans hle hle', hat'⟩

theorem migrate_sound (effect : Stmt → D → D) (base : D) {migs : List (Migration Stmt)} (hmigs : Contiguous migs) :
    (∀ (v : ℕ) (db : Database D), AtVersion effect base migs v db → ∀ calls : List Faults,
      ∃ w, v ≤ w ∧ AtVersion effect base migs w (migrateAll effect migs db calls) ∧ ∀ g : Faults,
        ∃ w', w ≤ w' ∧ AtVersion effect base migs w' (migrate effect migs g (migrateAll effect migs db calls)).1 ∧
          ((migrate effect migs g (migrateAll effect migs db calls)).2 = none → w' = migs.length)) ∧
    ∀ (db : Database D) (g : Faults), db.userVersion > migs.length →
      (migrate effect migs g db).1 = db ∧ ((migrate effect migs g db).2 = none ↔ migs = []) := by
  refine ⟨fun v db h calls => ?_, fun db g => migrate_tooNew hmigs g⟩
  obtain ⟨w, hle, hat⟩ := migrateAll_atVersion hmigs h calls
  exact ⟨w, hle, hat, fun g => migrate_atVersion hmigs g hat⟩

def twoTables : List (Migration String) := [⟨1, ["turns", "turns_idx"]⟩, ⟨2, ["summaries"]⟩]

def create (name : String) (tables : List String) : List String := tables ++ [name]

theorem contiguous_twoTables : Contiguous twoTables := by
  rintro (_ | _ | i) m h
  · cases h
    rfl
  · cases h
    rfl
  · cases h

def brokenIndex : Faults := ⟨false, fun v => if v = 1 then { TxFaults.none with stmt := fun i => i == 1 } else .none⟩

def lostAnswer : Faults := ⟨false, fun v => if v = 2 then { TxFaults.none with commit := some .taken } else .none⟩

theorem migrate_sound_twoTables : migrateAll create twoTables ⟨0, []⟩ [brokenIndex] = ⟨0, []⟩ ∧
    migrateAll create twoTables ⟨0, []⟩ [brokenIndex, lostAnswer] = ⟨2, ["turns", "turns_idx", "summaries"]⟩ ∧
    ∃ w, 0 ≤ w ∧ AtVersion create [] twoTables w (migrateAll create twoTables ⟨0, []⟩ [brokenIndex, lostAnswer]) := by
  have hstart : AtVersion create [] twoTables 0 ⟨0, []⟩ := ⟨rfl, by decide, rfl⟩
  obtain ⟨w, hle, hat, -⟩ := (migrate_sound create [] contiguous_twoTables).1 0 _ hstart [brokenIndex, lostAnswer]
  exact ⟨by decide +kernel, by decide +kernel, w, hle, hat⟩

theorem newer_database_not_refused :
    Contiguous ([] : List (Migration String)) ∧ (1 : ℤ) > ([] : List (Migration String)).length ∧
    migrate create [] ⟨false, fun _ => .none⟩ ⟨1, ["turns"]⟩ = (⟨1, ["turns"]⟩, none) :=
  ⟨fun _ _ h => (by simp at h), by decide, rfl⟩

end NomadDev.Dbutil
