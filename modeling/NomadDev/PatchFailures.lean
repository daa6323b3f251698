import NomadDev.PatchVerify
import NomadDev.PatchEdits

namespace NomadDev.Dispatcher

open Fsops Commands Foundation.FileTree Foundation.PathText Function

def emitChunkBytes : ℕ := 16 * 1024

def emitBytesResult (done : ℕ → Option ExecErr) (data : Bytes) : List ExecChunk :=
  match emitPieces .stdout done 0 (slicesAux emitChunkBytes data.length data) with
  | (sent, some err) => sent ++ [exitChunk (-1) err]
  | (sent, none) => sent ++ [⟨.exit, [], 0, none⟩]

def emitJSONResult (lib : Lib) (marshalErr : ExecErr) (done : ℕ → Option ExecErr) (result : ApplyCodePatchResult) :
    List ExecChunk :=
  match lib.marshal result with
  | none => [exitChunk (-1) marshalErr]
  | some body => emitBytesResult done body

section Dispatch

variable (e : Engine) (sid : Bytes) (lib : Lib) (marshalErr : ExecErr) (env : Env) (runner : Bool) (d : Disk)
  (args : Args) (writeFileMaxBytes : ℕ)

def runApplyCodePatch : Outcome :=
  match e.applyCodePatchInner sid d args writeFileMaxBytes with
  | (d', .error err) => ⟨[exitChunk (-1) (lib.patchErr err)], d', none, []⟩
  | (d', .ok applied) => ⟨emitJSONResult lib marshalErr env.bodyDone applied.result, d', none, []⟩

def dispatchApplyCodePatch : Except ExecErr Outcome :=
  if verifyCommand args = [] then .ok (runApplyCodePatch e sid lib marshalErr env d args writeFileMaxBytes)
  else if runner = false then .error (.badRequest "verify_command requires sandbox runner")
  else .ok (applyCodePatchWithVerify e sid lib env d args writeFileMaxBytes)

def diskAfter : Disk :=
  match dispatchApplyCodePatch e sid lib marshalErr env runner d args writeFileMaxBytes with
  | .error _ => d
  | .ok o => o.disk

def PatchFails : Prop :=
  verifyCommand args ≠ [] ∧ runner = false ∨ ∃ err, (e.applyCodePatchInner sid d args writeFileMaxBytes).2 = .error err

def CutShort : Prop :=
  (verifyCommand args = [] ∨ runner = true) ∧
    ∃ plan, (e.computeApplyCodePatch sid d args writeFileMaxBytes).2 = .ok plan ∧
      d.writable plan.resolved = true ∧ d.room < plan.newContent.length ∧ plan.newContent.take d.room ≠ plan.original

end Dispatch

def KeepsFiles (d d' : Disk) : Prop :=
  ∀ file, d.tree.node file = some .file → d'.tree.node file = some .file ∧ d'.content file = d.content file

structure SameFiles (d d' : Disk) : Prop where
  file : ∀ q, d'.tree.node q = some .file ↔ d.tree.node q = some .file
  content : d'.content = d.content
  writable : d'.writable = d.writable
  room : d'.room = d.room

variable {d d' : Disk}

theorem SameFiles.keeps (h : SameFiles d d') : KeepsFiles d d' :=
  fun q hq => ⟨(h.file q).mpr hq, congrFun h.content q⟩

theorem sameFiles_refl (d : Disk) : SameFiles d d := ⟨fun _ => Iff.rfl, rfl, rfl, rfl⟩

theorem makeRoot_sameFiles {e : Engine} {sid : Bytes} (h : e.makeRoot sid d = some d') : SameFiles d d' := by
  unfold Engine.makeRoot at h
  split at h
  next =>
    cases h
    exact sameFiles_refl d
  next =>
    obtain ⟨tree, htree, rfl⟩ := Option.map_eq_some_iff.mp h
    exact ⟨mkdirAll_node_file htree, rfl, rfl, rfl⟩

theorem store_keeps_iff {made : Disk} (hsame : SameFiles d made) {real : List Name} {data : Bytes}
    (hfile : d.tree.node real = some .file) :
    KeepsFiles d (made.store real data) ↔ data.take d.room = d.content real := by
  have hself : (made.store real data).content real = data.take made.room := update_self ..
  rw [hsame.room] at hself
  constructor
  · intro hkeeps
    exact hself.symm.trans (hkeeps real hfile).2
  · intro hdata file hf
    refine ⟨(hsame.file file).mpr hf, ?_⟩
    by_cases heq : file = real
    · rw [heq, hself, hdata]
    · exact (update_of_ne heq ..).trans (congrFun hsame.content file)

section Apply

variable {e : Engine} {sid : Bytes} {d : Disk} {args : Args} {maxBytes : ℕ} {plan : ApplyCodePatchPlan}

theorem resolveSafe_sameFiles (rel : Bytes) : SameFiles d (e.resolveSafe sid d rel).1 := by
  unfold Engine.resolveSafe
  split
  next => exact sameFiles_refl d
  next hmake =>
    split
    next => exact makeRoot_sameFiles hmake
    next => exact makeRoot_sameFiles hmake

theorem computeApplyCodePatch_sameFiles : SameFiles d (e.computeApplyCodePatch sid d args maxBytes).1 := by
  unfold Engine.computeApplyCodePatch
  split
  next => exact sameFiles_refl d
  next path _ =>
    split
    next => exact sameFiles_refl d
    next =>
      split
      next => exact sameFiles_refl d
      next =>
        have hres : SameFiles d (e.resolveSafe sid d path).1 := resolveSafe_sameFiles path
        split
        next heq =>
          rw [heq] at hres
          exact hres
        next heq =>
          rw [heq] at hres
          exact hres

theorem readFile_of_file {real : List Name} (h : d.tree.node real = some .file) :
    readFile d real = .ok (d.content real) := by
  have hw : walk d.tree linkLimit [] (real.map .name) = some (.found real) :=
    walk_of_walks (.ends (segment_plain (.inr h))) (Nat.zero_le linkLimit)
  simp [readFile, hw, h]

theorem planned_file (h : (e.computeApplyCodePatch sid d args maxBytes).2 = .ok plan) :
    (e.computeApplyCodePatch sid d args maxBytes).1.tree.node plan.resolved = some .file ∧
      d.tree.node plan.resolved = some .file ∧ d.content plan.resolved = plan.original := by
  have hsame : SameFiles d (e.computeApplyCodePatch sid d args maxBytes).1 := computeApplyCodePatch_sameFiles
  obtain ⟨_, _, _, _, _, _, _, _, _, _, _, hfile, hplan⟩ := computeApplyCodePatch_ok (Prod.ext rfl h)
  refine ⟨hfile, (hsame.file _).mp hfile, ?_⟩
  have hread := (readAndPlan_ok hplan).2
  rw [readFile_of_file hfile, hsame.content] at hread
  exact Except.ok.inj hread

theorem applyCodePatchInner_of_error {err : PatchErr}
    (h : (e.computeApplyCodePatch sid d args maxBytes).2 = .error err) :
    e.applyCodePatchInner sid d args maxBytes = ((e.computeApplyCodePatch sid d args maxBytes).1, .error err) := by
  have hcompute : e.computeApplyCodePatch sid d args maxBytes =
      ((e.computeApplyCodePatch sid d args maxBytes).1, .error err) := Prod.ext rfl h
  rw [Engine.applyCodePatchInner, hcompute]

theorem applyCodePatchInner_of_plan (h : (e.computeApplyCodePatch sid d args maxBytes).2 = .ok plan) :
    let made := (e.computeApplyCodePatch sid d args maxBytes).1
    e.applyCodePatchInner sid d args maxBytes = if d.writable plan.resolved = false then (made, .error .openWrite)
      else if plan.newContent.length ≤ d.room then
        (made.store plan.resolved plan.newContent,
          .ok ⟨plan.original, plan.resolved, plan.path, plan.newContent.length, plan.lineNumber, plan.unifiedDiff⟩)
      else (made.store plan.resolved plan.newContent, .error .write) := by
  intro made
  have hsame : SameFiles d made := computeApplyCodePatch_sameFiles
  have hcompute : e.computeApplyCodePatch sid d args maxBytes = (made, .ok plan) := Prod.ext rfl h
  have hopen : openTrunc made plan.resolved = if d.writable plan.resolved = true then some plan.resolved else none := by
    rw [← hsame.writable]
    exact openTrunc_of_file (planned_file h).1
  rw [Engine.applyCodePatchInner, hcompute]
  cases hw : d.writable plan.resolved with
  | false => simp [hopen, hw]
  | true => simp [hopen, hw, hsame.room]

theorem applyCodePatchInner_keeps_iff : ((∃ err, (e.applyCodePatchInner sid d args maxBytes).2 = .error err) →
      KeepsFiles d (e.applyCodePatchInner sid d args maxBytes).1) ↔
    ¬∃ plan, (e.computeApplyCodePatch sid d args maxBytes).2 = .ok plan ∧ d.writable plan.resolved = true ∧
      d.room < plan.newContent.length ∧ plan.newContent.take d.room ≠ plan.original := by
  have hsame : SameFiles d (e.computeApplyCodePatch sid d args maxBytes).1 := computeApplyCodePatch_sameFiles
  cases hc : (e.computeApplyCodePatch sid d args maxBytes).2 with
  | error err =>
    rw [applyCodePatchInner_of_error hc]
    refine iff_of_true (fun _ => hsame.keeps) ?_
    rintro ⟨plan, hplan, -⟩
    cases hplan
  | ok plan =>
    obtain ⟨-, hfile, horig⟩ := planned_file hc
    rw [applyCodePatchInner_of_plan hc]
    by_cases hw : d.writable plan.resolved = false
    · rw [if_pos hw]
      refine iff_of_true (fun _ => hsame.keeps) ?_
      rintro ⟨_, hplan, hopens, -⟩
      cases hplan
      cases hw.symm.trans hopens
    · rw [if_neg hw]
      by_cases hroom : plan.newContent.length ≤ d.room
      · rw [if_pos hroom]
        refine iff_of_true (fun ⟨_, herr⟩ => nomatch herr) ?_
        rintro ⟨_, hplan, -, hshort, -⟩
        cases hplan
        omega
      · rw [if_neg hroom]
        have hkeeps :
            KeepsFiles d ((e.computeApplyCodePatch sid d args maxBytes).1.store plan.resolved plan.newContent) ↔
              plan.newContent.take d.room = d.content plan.resolved := store_keeps_iff hsame hfile
        rw [horig] at hkeeps
        constructor
        · rintro hatomic ⟨_, hplan, -, -, hcut⟩
          cases hplan
          exact hcut (hkeeps.mp (hatomic ⟨_, rfl⟩))
        · intro hnot _
          apply hkeeps.mpr
          by_contra hcut
          exact hnot ⟨plan, rfl, eq_true_of_ne_false hw, Nat.lt_of_not_le hroom, hcut⟩

end Apply

section Failure

variable {e : Engine} {sid : Bytes} {lib : Lib} {marshalErr : ExecErr} {env : Env} {runner : Bool} {d : Disk}
  {args : Args} {maxBytes : ℕ}

theorem diskAfter_of_refused (hverify : verifyCommand args ≠ []) (hrunner : runner = false) :
    diskAfter e sid lib marshalErr env runner d args maxBytes = d := by
  rw [diskAfter, dispatchApplyCodePatch, if_neg hverify, if_pos hrunner]

theorem diskAfter_of_error (hreach : verifyCommand args = [] ∨ runner = true) {err : PatchErr}
    (h : (e.applyCodePatchInner sid d args maxBytes).2 = .error err) :
    diskAfter e sid lib marshalErr env runner d args maxBytes = (e.applyCodePatchInner sid d args maxBytes).1 := by
  have hinner : e.applyCodePatchInner sid d args maxBytes =
      ((e.applyCodePatchInner sid d args maxBytes).1, .error err) := Prod.ext rfl h
  have hrun : (runApplyCodePatch e sid lib marshalErr env d args maxBytes).disk =
      (e.applyCodePatchInner sid d args maxBytes).1 := by
    rw [runApplyCodePatch, hinner]
  have hverified : (applyCodePatchWithVerify e sid lib env d args maxBytes).disk =
      (e.applyCodePatchInner sid d args maxBytes).1 := by
    rw [applyCodePatchWithVerify, hinner]
  rw [diskAfter, dispatchApplyCodePatch]
  by_cases hv : verifyCommand args = []
  · rw [if_pos hv]
    exact hrun
  · have hrunner : ¬runner = false := by simp [hreach.resolve_left hv]
    rw [if_neg hv, if_neg hrunner]
    exact hverified

end Failure

theorem failed_patch_keeps_files_iff (e : Engine) (sid : Bytes) (lib : Lib) (marshalErr : ExecErr) (env : Env)
    (runner : Bool) (d : Disk) (args : Args) (maxBytes : ℕ) :
    (PatchFails e sid runner d args maxBytes →
        KeepsFiles d (diskAfter e sid lib marshalErr env runner d args maxBytes)) ↔
      ¬CutShort e sid runner d args maxBytes := by
  by_cases hreach : verifyCommand args = [] ∨ runner = true
  · rw [CutShort, and_iff_right hreach, ← applyCodePatchInner_keeps_iff]
    constructor
    · rintro hatomic ⟨err, herr⟩
      rw [← diskAfter_of_error hreach herr]
      exact hatomic (.inr ⟨err, herr⟩)
    · rintro hatomic (⟨hverify, hrunner⟩ | ⟨err, herr⟩)
      · rw [diskAfter_of_refused hverify hrunner]
        exact (sameFiles_refl d).keeps
      · rw [diskAfter_of_error hreach herr]
        exact hatomic ⟨err, herr⟩
  · obtain ⟨hverify, hrunner⟩ := not_or.mp hreach
    refine iff_of_true (fun _ => ?_) fun hcut => hreach hcut.1
    rw [diskAfter_of_refused hverify (eq_false_of_ne_true hrunner)]
    exact (sameFiles_refl d).keeps

def fullDisk : Disk := { reportDisk "old text" with room := 2 }

def shortened : Disk :=
  diskAfter demoEngine [] demoLib .canceled ⟨fun _ => none, .ok []⟩ false fullDisk (reportPatch "old" "new") 0

theorem cut_short_patch_loses_file : PatchFails demoEngine [] false fullDisk (reportPatch "old" "new") 0 ∧
      readFile fullDisk [ws, report] = .ok (utf8 "old text") ∧ readFile shortened [ws, report] = .ok (utf8 "ne") ∧
      CutShort demoEngine [] false fullDisk (reportPatch "old" "new") 0 := by
  refine ⟨.inr ⟨.write, rfl⟩, rfl, rfl, .inl rfl, _, rfl, rfl, ?_, ?_⟩
  · decide +kernel
  · decide +kernel

end NomadDev.Dispatcher
