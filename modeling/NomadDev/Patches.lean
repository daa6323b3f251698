import NomadDev.SessionDirs

namespace NomadDev.Fsops

open Foundation.FileTree Foundation.PathText

structure Disk where
  tree : FileSystem
  content : List Name → Bytes
  writable : List Name → Bool
  room : ℕ

def linkLimit : ℕ := 40

inductive ReadErr
  | notExist | other
  deriving DecidableEq

variable (d : Disk)

def readFile (path : List Name) : Except ReadErr Bytes :=
  match walk d.tree linkLimit [] (path.map .name) with
  | some (.found real) => if d.tree.node real = some .file then .ok (d.content real) else .error .other
  | some (.missing ..) => .error .notExist
  | _ => .error .other

def isDir (path : List Name) : Bool := stat d.tree linkLimit path == some .dir

def openTrunc (path : List Name) : Option (List Name) :=
  match openFile linkLimit d.tree false path with
  | some real => if d.tree.node real = some .file ∧ d.writable real = true then some real else none
  | none => none

def Disk.store (real : List Name) (data : Bytes) : Disk :=
  { d with content := Function.update d.content real (data.take d.room) }

inductive Arg
  | str (s : Bytes)
  | num (n : ℤ)
  | other

abbrev Args : Type := String → Option Arg

inductive PatchErr
  | missing (key : String)
  | notNonEmptyString (key : String)
  | notString (key : String)
  | mkdir
  | resolve (e : ResolveErr)
  | notExist (path : Bytes)
  | read
  | directory (path : Bytes)
  | notFound (path : Bytes)
  | ambiguous (count : ℕ) (path : Bytes)
  | tooLarge (maxBytes : ℕ)
  | openWrite
  | write
  deriving DecidableEq

variable (args : Args)

def argString (key : String) : Except PatchErr Bytes :=
  match args key with
  | none => .error (.missing key)
  | some (.str s) => if s = [] then .error (.notNonEmptyString key) else .ok s
  | some _ => .error (.notNonEmptyString key)

def argStringAllowEmpty (key : String) : Except PatchErr Bytes :=
  match args key with
  | none => .error (.missing key)
  | some (.str s) => .ok s
  | some _ => .error (.notString key)

-- `args[key].(string)`, which is empty where the value is no string.
def stringArg (key : String) : Bytes :=
  match args key with
  | some (.str s) => s
  | _ => []

def verifyCommand : Bytes := stringArg args "verify_command"

-- `strings.Index` and, with `skip` bytes of the last match still to pass over, `strings.Count`.
def index (search : Bytes) : Bytes → Option ℕ
  | [] => if search = [] then some 0 else none
  | c :: cs => if search.isPrefixOf (c :: cs) then some 0 else (index search cs).map (· + 1)

def countFrom (search : Bytes) : ℕ → Bytes → ℕ
  | _, [] => 0
  | skip + 1, _ :: cs => countFrom search skip cs
  | 0, c :: cs =>
    if search.isPrefixOf (c :: cs) then countFrom search (search.length - 1) cs + 1 else countFrom search 0 cs

def newline : UInt8 := 10

def utf8 (s : String) : Bytes := s.toUTF8.data.toList

def diffRows (sign : String) (lines : List Bytes) (first stop : ℕ) : Bytes :=
  ((lines.drop first).take (stop - first)).flatMap fun line => utf8 sign ++ line ++ [newline]

def renderUnifiedDiff (path before after : Bytes) (idx searchLen replaceLen : ℕ) : Bytes :=
  let beforeLines := before.splitOn newline
  let afterLines := after.splitOn newline
  let firstLine := (before.take idx).count newline
  let lastLine := (before.take (idx + searchLen)).count newline
  let afterLast := (after.take (idx + replaceLen)).count newline
  let startCtx := firstLine - 3
  let endCtxBefore := min (lastLine + 3) (beforeLines.length - 1)
  let endCtxAfter := min (afterLast + 3) (afterLines.length - 1)
  utf8 "--- a/" ++ path ++ utf8 "\n+++ b/" ++ path ++
    utf8 ("\n@@ -" ++ toString (startCtx + 1) ++ "," ++ toString (endCtxBefore - startCtx + 1) ++ " +" ++
      toString (startCtx + 1) ++ "," ++ toString (endCtxAfter - startCtx + 1) ++ " @@\n") ++
    diffRows " " beforeLines startCtx firstLine ++ diffRows "-" beforeLines firstLine (lastLine + 1) ++
    diffRows "+" afterLines firstLine (afterLast + 1) ++ diffRows " " afterLines (afterLast + 1) (endCtxAfter + 1)

structure ApplyCodePatchPlan where
  resolved : List Name
  (path original newContent : Bytes)
  lineNumber : ℕ
  unifiedDiff : Bytes

def defaultWriteFileMaxBytes : ℕ := 4 * 1024 * 1024

def writeCap (writeFileMaxBytes : ℕ) : ℕ :=
  if 0 < writeFileMaxBytes then writeFileMaxBytes else defaultWriteFileMaxBytes

def planEdit (path : Bytes) (resolved : List Name) (raw search replace : Bytes) (writeFileMaxBytes : ℕ) :
    Except PatchErr ApplyCodePatchPlan :=
  let count := countFrom search 0 raw
  let idx := (index search raw).getD 0
  let newContent := raw.take idx ++ replace ++ raw.drop (idx + search.length)
  if count = 0 then .error (.notFound path)
  else if 1 < count then .error (.ambiguous count path)
  else if writeCap writeFileMaxBytes < newContent.length then .error (.tooLarge (writeCap writeFileMaxBytes))
  else .ok {
    resolved, path, original := raw, newContent
    lineNumber := 1 + (raw.take idx).count newline
    unifiedDiff := renderUnifiedDiff path raw newContent idx search.length replace.length }

def readAndPlan (path : Bytes) (resolved : List Name) (search replace : Bytes) (writeFileMaxBytes : ℕ) :
    Except PatchErr ApplyCodePatchPlan :=
  match readFile d resolved with
  | .error .notExist => .error (.notExist path)
  | .error .other => .error .read
  | .ok raw =>
    if isDir d resolved then .error (.directory path)
    else planEdit path resolved raw search replace writeFileMaxBytes

variable (e : Engine)

-- The half of `rootForCtx` that makes the session's directory on first use.
def Engine.makeRoot (sid : Bytes) (d : Disk) : Option Disk :=
  if !e.perSession || sanitizeSID sid == [] then some d
  else (mkdirAll d.tree linkLimit (e.rootForCtx sid)).map fun tree => { d with tree }

def Engine.resolveSafe (e : Engine) (sid : Bytes) (d : Disk) (rel : Bytes) : Disk × Except PatchErr (List Name) :=
  match e.makeRoot sid d with
  | none => (d, .error .mkdir)
  | some d' =>
    match Fsops.resolveSafe d'.tree (e.rootForCtx sid) (chars rel) with
    | .error err => (d', .error (.resolve err))
    | .ok resolved => (d', .ok resolved)

def Engine.computeApplyCodePatch (sid : Bytes) (d : Disk) (args : Args) (writeFileMaxBytes : ℕ) :
    Disk × Except PatchErr ApplyCodePatchPlan :=
  match argString args "file_path" with
  | .error err => (d, .error err)
  | .ok path =>
    match argString args "search_string" with
    | .error err => (d, .error err)
    | .ok search =>
      match argStringAllowEmpty args "replace_string" with
      | .error err => (d, .error err)
      | .ok replace =>
        match e.resolveSafe sid d path with
        | (d', .error err) => (d', .error err)
        | (d', .ok resolved) => (d', readAndPlan d' path resolved search replace writeFileMaxBytes)

structure ApplyCodePatchPreview where
  path : Bytes
  lineNumber : ℕ
  unifiedDiff : Bytes

def ApplyCodePatchPlan.preview (plan : ApplyCodePatchPlan) : ApplyCodePatchPreview :=
  ⟨plan.path, plan.lineNumber, plan.unifiedDiff⟩

def Engine.previewApplyCodePatch (sid : Bytes) (d : Disk) (args : Args) : Except PatchErr ApplyCodePatchPreview :=
  (e.computeApplyCodePatch sid d args 0).2.map (·.preview)

structure ApplyCodePatchResult where
  path : Bytes
  (bytesWritten lineNumber : ℕ)
  unifiedDiff : Bytes
  deriving DecidableEq

structure Applied where
  snapshot : Bytes
  resolvedPath : List Name
  result : ApplyCodePatchResult

def Engine.applyCodePatchInner (sid : Bytes) (d : Disk) (args : Args) (writeFileMaxBytes : ℕ) :
    Disk × Except PatchErr Applied :=
  match e.computeApplyCodePatch sid d args writeFileMaxBytes with
  | (d', .error err) => (d', .error err)
  | (d', .ok plan) =>
    match openTrunc d' plan.resolved with
    | none => (d', .error .openWrite)
    | some real =>
      if plan.newContent.length ≤ d'.room then
        (d'.store real plan.newContent,
          .ok ⟨plan.original, plan.resolved, plan.path, plan.newContent.length, plan.lineNumber, plan.unifiedDiff⟩)
      else (d'.store real plan.newContent, .error .write)

inductive RestoreErr
  | mkdir | outside | openWrite | write
  deriving DecidableEq

def restoreTarget (fs : FileSystem) (resolvedPath : List Name) : List Name :=
  match evalSymlinks fs resolvedPath with
  | .ok real => real
  | .error _ => resolvedPath

def Engine.restoreFile (sid : Bytes) (d : Disk) (resolvedPath : List Name) (snapshot : Bytes) :
    Disk × Option RestoreErr :=
  match e.makeRoot sid d with
  | none => (d, some .mkdir)
  | some d' =>
    if withinRoot (e.rootForCtx sid) (restoreTarget d'.tree resolvedPath) = false then (d', some .outside)
    else match openTrunc d' resolvedPath with
      | none => (d', some .openWrite)
      | some file =>
        (d'.store file snapshot, if snapshot.length ≤ d'.room then none else some .write)

variable {d d' : Disk} {path real resolved : List Name} {e : Engine} {raw sid search replace : Bytes} {maxBytes : ℕ}
  {plan : ApplyCodePatchPlan} {args : Args}

theorem openTrunc_eq_some (h : openTrunc d path = some real) :
    openFile linkLimit d.tree false path = some real ∧ d.tree.node real = some .file ∧ d.writable real = true := by
  unfold openTrunc at h
  split at h
  next q hq =>
    split at h <;> cases h
    next hn => exact ⟨hq, hn⟩
  next => cases h

theorem openTrunc_of_file (hf : d.tree.node real = some .file) :
    openTrunc d real = if d.writable real = true then some real else none := by
  simp [openTrunc, openFile_real (.inr hf), hf]

theorem readFile_store {data : Bytes} (h : openTrunc d path = some real)
    (hroom : data.length ≤ d.room) : readFile (d.store real data) path = .ok data := by
  obtain ⟨ho, hf, _⟩ := openTrunc_eq_some h
  have hw : walk d.tree linkLimit [] (path.map .name) = some (.found real) := by
    unfold openFile at ho
    split at ho
    next hw =>
      cases ho
      exact hw
    next => simp at ho
    next => cases ho
  simp [readFile, Disk.store, hw, hf, List.take_of_length_le hroom]

theorem restoreFile_reads {snapshot : Bytes} (h : e.restoreFile sid d path snapshot = (d', none)) :
    readFile d' path = .ok snapshot := by
  unfold Engine.restoreFile at h
  split at h
  next => cases h
  next made hmade =>
    split at h
    next => cases h
    next =>
      split at h
      next => cases h
      next file hfile =>
        obtain ⟨hd, he⟩ := Prod.mk.inj h
        split at he
        next hroom =>
          rw [← hd]
          exact readFile_store hfile hroom
        next => cases he

theorem planEdit_ok {path : Bytes} (h : planEdit path resolved raw search replace maxBytes = .ok plan) :
    countFrom search 0 raw = 1 ∧ plan.resolved = resolved ∧ plan.original = raw ∧ plan.path = path ∧
      plan.newContent = raw.take ((index search raw).getD 0) ++ replace ++
        raw.drop ((index search raw).getD 0 + search.length) ∧
      plan.unifiedDiff =
        renderUnifiedDiff path raw plan.newContent ((index search raw).getD 0) search.length replace.length := by
  simp only [planEdit] at h
  split at h
  next => cases h
  next hzero =>
    split at h
    next => cases h
    next hmany =>
      split at h <;> cases h
      next => exact ⟨by omega, rfl, rfl, rfl, rfl, rfl⟩

theorem readAndPlan_reads {path : Bytes} (h : readAndPlan d path resolved search replace maxBytes = .ok plan) :
    ∃ raw, readFile d resolved = .ok raw ∧ planEdit path resolved raw search replace maxBytes = .ok plan := by
  unfold readAndPlan at h
  split at h
  next => cases h
  next => cases h
  next raw hraw =>
    split at h
    next => cases h
    next => exact ⟨raw, hraw, h⟩

theorem readAndPlan_ok {path : Bytes} (h : readAndPlan d path resolved search replace maxBytes = .ok plan) :
    plan.resolved = resolved ∧ readFile d resolved = .ok plan.original := by
  obtain ⟨raw, hraw, hedit⟩ := readAndPlan_reads h
  obtain ⟨-, hres, horig, -⟩ := planEdit_ok hedit
  exact ⟨hres, horig ▸ hraw⟩

theorem readFile_ok (h : readFile d path = .ok raw) :
    ∃ k real, Walks d.tree [] (path.map .name) k (.found real) ∧ d.tree.node real = some .file := by
  unfold readFile at h
  split at h
  next real hw =>
    split at h
    next hf =>
      obtain ⟨k, _, hk⟩ := walks_of_walk hw
      exact ⟨k, real, hk, hf⟩
    next => cases h
  next => cases h
  next => cases h

theorem resolveSafe_ok {rel : Bytes} (h : e.resolveSafe sid d rel = (d', .ok resolved)) :
    e.makeRoot sid d = some d' ∧ ∃ cleaned, cleanRel (chars rel) = .ok cleaned ∧
      resolveCandidate d'.tree (e.rootForCtx sid) (e.rootForCtx sid ++ cleaned) = .ok resolved := by
  unfold Engine.resolveSafe at h
  split at h
  next => cases h
  next made hmade =>
    split at h <;> cases h
    next hres =>
      refine ⟨hmade, ?_⟩
      unfold resolveSafe at hres
      split at hres
      next => cases hres
      next cleaned hrel => exact ⟨cleaned, hrel, hres⟩

theorem resolveCandidate_readable {root candidate p : List Name}
    (h : resolveCandidate d.tree root candidate = .ok p) (hread : readFile d p = .ok raw) :
    evalSymlinks d.tree candidate = .ok p ∧ withinRoot root p = true ∧ d.tree.node p = some .file := by
  obtain ⟨k, real, hk, hf⟩ := readFile_ok hread
  rcases resolveCandidate_ok h with ⟨he, hw⟩ | ⟨he, rfl, _⟩
  · refine ⟨he, hw, ?_⟩
    have hself : Walks d.tree [] (p.map .name) 0 (.found p) := .ends (segment_plain (evalSymlinks_real he))
    cases (hk.unique hself).2
    exact hf
  · obtain ⟨j, dir, a, rest, hj⟩ := evalSymlinks_notExist he
    cases (hk.unique hj).2

theorem computeApplyCodePatch_ok (h : e.computeApplyCodePatch sid d args maxBytes = (d', .ok plan)) :
    ∃ path rel search replace, argString args "file_path" = .ok path ∧ argString args "search_string" = .ok search ∧
      argStringAllowEmpty args "replace_string" = .ok replace ∧ cleanRel (chars path) = .ok rel ∧
      e.makeRoot sid d = some d' ∧ evalSymlinks d'.tree (e.rootForCtx sid ++ rel) = .ok plan.resolved ∧
      withinRoot (e.rootForCtx sid) plan.resolved = true ∧ d'.tree.node plan.resolved = some .file ∧
      readAndPlan d' path plan.resolved search replace maxBytes = .ok plan := by
  unfold Engine.computeApplyCodePatch at h
  split at h
  next => cases h
  next path hpath =>
    split at h
    next => cases h
    next search hsearch =>
      split at h
      next => cases h
      next replace hreplace =>
        split at h
        next => cases h
        next made resolved hres =>
          obtain ⟨rfl, hplan⟩ := Prod.mk.inj h
          obtain ⟨hpr, hread⟩ := readAndPlan_ok hplan
          obtain ⟨hmake, rel, hrel, hcand⟩ := resolveSafe_ok hres
          obtain ⟨heval, hwithin, hfile⟩ := resolveCandidate_readable hcand hread
          rw [hpr]
          exact ⟨path, rel, search, replace, hpath, hsearch, hreplace, hrel, hmake, heval, hwithin, hfile, hplan⟩

theorem computeApplyCodePatch_of_resolved {path : Bytes} {rel : List Name}
    (hpath : argString args "file_path" = .ok path) (hsearch : argString args "search_string" = .ok search)
    (hreplace : argStringAllowEmpty args "replace_string" = .ok replace) (hrel : cleanRel (chars path) = .ok rel)
    (hmake : e.makeRoot sid d = some d) (heval : evalSymlinks d.tree (e.rootForCtx sid ++ rel) = .ok resolved)
    (hwithin : withinRoot (e.rootForCtx sid) resolved = true) :
    e.computeApplyCodePatch sid d args maxBytes = (d, readAndPlan d path resolved search replace maxBytes) := by
  have hres : e.resolveSafe sid d path = (d, .ok resolved) := by
    simp [Engine.resolveSafe, hmake, resolveSafe, hrel, resolveCandidate, heval, hwithin]
  simp [Engine.computeApplyCodePatch, hpath, hsearch, hreplace, hres]

theorem applyCodePatchInner_ok {applied : Applied} (h : e.applyCodePatchInner sid d args maxBytes = (d', .ok applied)) :
    ∃ made, e.makeRoot sid d = some made ∧ readFile made applied.resolvedPath = .ok applied.snapshot := by
  unfold Engine.applyCodePatchInner at h
  split at h
  next => cases h
  next made plan hc =>
    split at h
    next => cases h
    next =>
      split at h <;> cases h
      next =>
        obtain ⟨_, _, _, _, _, _, _, _, hmake, _, _, _, hplan⟩ := computeApplyCodePatch_ok hc
        exact ⟨made, hmake, (readAndPlan_ok hplan).2⟩

def demoPatch : Args := fun key =>
  if key = "file_path" then some (.str (utf8 "report"))
  else if key = "search_string" then some (.str [97])
  else if key = "replace_string" then some (.str [98])
  else none

def demoDisk (tree : FileSystem) : Disk := ⟨tree, fun _ => [97], fun _ => true, 100⟩

end NomadDev.Fsops
