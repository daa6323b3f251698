import NomadDev.Patches
import NomadDev.CommandStreams

namespace NomadDev.Dispatcher

open Fsops Commands Foundation.PathText

/-- One thing the verify run does. With a chunk comes the branch the dispatcher's `select` takes for it: `ctx.Done()`
with the context's error, or the send. -/
inductive VerifyEvent
  | writes (d : Disk)
  | chunk (c : ExecChunk) (done : Option ExecErr)

/-- `bodyDone` is the branch taken for each piece of the edit's JSON; `exec` is what `Sandbox.Exec` returns, with all
the run does up to the closing of its channel. -/
structure Env where
  bodyDone : ℕ → Option ExecErr
  exec : Except ExecErr (List VerifyEvent)

-- `encoding/json`, and the error values as they read on the wire.
structure Lib where
  marshal : ApplyCodePatchResult → Option Bytes
  patchErr : PatchErr → ExecErr
  execErrText : ExecErr → Bytes
  restoreErrText : RestoreErr → Bytes

def applyVerifyChunkBytes : ℕ := 16 * 1024

def stdoutChunk (data : Bytes) : ExecChunk := ⟨.stdout, data, 0, none⟩
def stderrChunk (data : Bytes) : ExecChunk := ⟨.stderr, data, 0, none⟩
def exitChunk (code : ℤ) (err : ExecErr) : ExecChunk := ⟨.exit, [], code, some err⟩

def bodyPieces (lib : Lib) (result : ApplyCodePatchResult) : List Bytes :=
  match lib.marshal result with
  | some body => slicesAux applyVerifyChunkBytes body.length body
  | none => []

-- The loops that send a text piece by piece; `done` is the branch the `select` takes for each.
def emitPieces (stream : ChunkStream) (done : ℕ → Option ExecErr) :
    ℕ → List Bytes → List ExecChunk × Option ExecErr
  | _, [] => ([], none)
  | i, piece :: rest =>
    match done i with
    | some err => ([], some err)
    | none =>
      (⟨stream, piece, 0, none⟩ :: (emitPieces stream done (i + 1) rest).1, (emitPieces stream done (i + 1) rest).2)

/-- What the loop over the run's channel comes to: the chunks it forwarded, the workspace when it is left, the last exit
chunk, and, where it was left for `ctx.Done()`, what the run still does. -/
structure Streamed where
  sent : List ExecChunk
  disk : Disk
  exit : Option ExecChunk
  abandoned : Option (ExecErr × List VerifyEvent)

def streamVerify : Disk → Option ExecChunk → List VerifyEvent → Streamed
  | d, exit, [] => ⟨[], d, exit, none⟩
  | _, exit, .writes d :: rest => streamVerify d exit rest
  | d, exit, .chunk c done :: rest =>
    if c.stream = .exit then streamVerify d (some c) rest
    else match done with
      | some err => ⟨[], d, exit, some (err, rest)⟩
      | none => { streamVerify d exit rest with sent := c :: (streamVerify d exit rest).sent }

def VerifyEvent.disk? : VerifyEvent → Option Disk
  | .writes d => some d
  | .chunk _ _ => none

/-- `restore` is the result of `RestoreFile` where it was called; `late` is the workspace as the verify run leaves it
after the dispatcher has closed its channel. -/
structure Outcome where
  out : List ExecChunk
  disk : Disk
  restore : Option (Option RestoreErr)
  late : List Disk

def rollbackText (lib : Lib) (path : Bytes) : Option RestoreErr → Bytes
  | none => utf8 "; rolled back " ++ path ++ utf8 "\n"
  | some rerr => utf8 "; rollback ALSO failed: " ++ lib.restoreErrText rerr ++ utf8 "\n"

section Verify

variable (e : Engine) (sid : Bytes) (lib : Lib) (env : Env) (applied : Applied)

def rollBack (sent : List ExecChunk) (d : Disk) (last : Option RestoreErr → List ExecChunk) (late : List Disk) :
    Outcome :=
  let r := e.restoreFile sid d applied.resolvedPath applied.snapshot
  ⟨sent ++ last r.2, r.1, some r.2, late⟩

def afterStream (sent : List ExecChunk) (s : Streamed) : Outcome :=
  match s.abandoned with
  | some (err, rest) =>
    rollBack e sid applied (sent ++ s.sent) s.disk (fun _ => [exitChunk (-1) err]) (rest.filterMap VerifyEvent.disk?)
  | none =>
    match s.exit with
    | none =>
      rollBack e sid applied (sent ++ s.sent) s.disk (fun _ =>
        [stderrChunk (utf8 "verify_command runner closed without exit; rolled back " ++ applied.result.path ++
            utf8 "\n"),
          exitChunk (-1) (.other "verify_command: runner closed without exit chunk")]) []
    | some verifyExit =>
      if verifyExit.err ≠ none ∨ verifyExit.exitCode ≠ 0 then
        rollBack e sid applied (sent ++ s.sent) s.disk (fun rerr =>
          [stderrChunk (utf8 ("\nverify_command failed (exit=" ++ toString verifyExit.exitCode ++ ")") ++
              rollbackText lib applied.result.path rerr), verifyExit]) []
      else ⟨sent ++ s.sent ++ [verifyExit], s.disk, none, []⟩

def verifyApplied (d : Disk) : Outcome :=
  let body := emitPieces .stdout env.bodyDone 0 (bodyPieces lib applied.result)
  match body.2 with
  | some err => rollBack e sid applied body.1 d (fun _ => [exitChunk (-1) err]) []
  | none =>
    match env.exec with
    | .error verr =>
      rollBack e sid applied body.1 d (fun rerr =>
        [stderrChunk (utf8 "verify_command dispatch failed: " ++ lib.execErrText verr ++
            rollbackText lib applied.result.path rerr), exitChunk (-1) verr]) []
    | .ok events => afterStream e sid lib applied body.1 (streamVerify d none events)

end Verify

def applyCodePatchWithVerify (e : Engine) (sid : Bytes) (lib : Lib) (env : Env) (d : Disk) (args : Args)
    (writeFileMaxBytes : ℕ) : Outcome :=
  match e.applyCodePatchInner sid d args writeFileMaxBytes with
  | (d', .error err) => ⟨[exitChunk (-1) (lib.patchErr err)], d', none, []⟩
  | (d', .ok applied) => verifyApplied e sid lib env applied d'

def ExitsClean (c : ExecChunk) : Prop := c.err = none ∧ c.exitCode = 0

def Exits (o : Outcome) (made : Disk) : Prop :=
  ∃ sent last, o.out = sent ++ [last] ∧ (∀ c ∈ sent, c.stream ≠ .exit) ∧ last.stream = .exit ∧
    (ExitsClean last → o.restore = none ∧ o.disk = made ∧ o.late = []) ∧ (¬ ExitsClean last → o.restore ≠ none)

def Restored (o : Outcome) (path : List Name) (snapshot : Bytes) : Prop :=
  ∀ d ∈ o.disk :: o.late, readFile d path = .ok snapshot

def made (d : Disk) (events : List VerifyEvent) : Disk := ((events.filterMap VerifyEvent.disk?).getLast?).getD d

def lateWrites : List VerifyEvent → List Disk
  | [] => []
  | .writes _ :: rest => lateWrites rest
  | .chunk c done :: rest =>
    if c.stream ≠ .exit ∧ done ≠ none then rest.filterMap VerifyEvent.disk? else lateWrites rest

def Quiet (lib : Lib) (env : Env) (applied : Applied) : Prop :=
  ∀ events, env.exec = .ok events → (∀ i < (bodyPieces lib applied.result).length, env.bodyDone i = none) →
    ∀ d ∈ lateWrites events, readFile d applied.resolvedPath = .ok applied.snapshot

theorem emitPieces_stream (stream : ChunkStream) (done : ℕ → Option ExecErr) (i : ℕ) (pieces : List Bytes) :
    ∀ c ∈ (emitPieces stream done i pieces).1, c.stream = stream := by
  induction pieces generalizing i with
  | nil => simp [emitPieces]
  | cons piece rest ih =>
    unfold emitPieces
    split
    next => simp
    next => exact List.forall_mem_cons.mpr ⟨rfl, ih (i + 1)⟩

theorem emitPieces_done_iff (stream : ChunkStream) (done : ℕ → Option ExecErr) (i : ℕ) (pieces : List Bytes) :
    (emitPieces stream done i pieces).2 = none ↔ ∀ j < pieces.length, done (i + j) = none := by
  induction pieces generalizing i with
  | nil => simp [emitPieces]
  | cons piece rest ih =>
    unfold emitPieces
    split
    next err herr =>
      refine iff_of_false (by simp) fun h => ?_
      cases (h 0 (by simp)).symm.trans herr
    next hnone =>
      rw [ih (i + 1)]
      constructor
      · intro h j hj
        cases j with
        | zero => exact hnone
        | succ j => exact (congrArg done (by omega)).trans (h j (by simpa using hj))
      · intro h j hj
        exact (congrArg done (by omega)).trans (h (j + 1) (by simpa using hj))

theorem made_cons_writes (d d' : Disk) (rest : List VerifyEvent) : made d (.writes d' :: rest) = made d' rest := by
  simp [made, VerifyEvent.disk?, List.getLast?_cons]

theorem made_cons_chunk (d : Disk) (c : ExecChunk) (done : Option ExecErr) (rest : List VerifyEvent) :
    made d (.chunk c done :: rest) = made d rest := by
  simp [made, VerifyEvent.disk?]

theorem streamVerify_sent (events : List VerifyEvent) (d : Disk) (exit : Option ExecChunk) :
    ∀ c ∈ (streamVerify d exit events).sent, c.stream ≠ .exit := by
  induction events generalizing d exit with
  | nil => simp [streamVerify]
  | cons ev rest ih =>
    cases ev with
    | writes d' => exact ih d' exit
    | chunk c done =>
      unfold streamVerify
      split
      next => exact ih d (some c)
      next hc =>
        split
        next => simp
        next => exact List.forall_mem_cons.mpr ⟨hc, ih d exit⟩

theorem streamVerify_exit (events : List VerifyEvent) (d : Disk) {exit : Option ExecChunk}
    (hexit : ∀ x ∈ exit, x.stream = .exit) : ∀ x ∈ (streamVerify d exit events).exit, x.stream = .exit := by
  induction events generalizing d exit with
  | nil => exact hexit
  | cons ev rest ih =>
    cases ev with
    | writes d' => exact ih d' hexit
    | chunk c done =>
      unfold streamVerify
      split
      next hc => exact ih d (by simpa using hc)
      next =>
        split
        next => exact hexit
        next => exact ih d hexit

theorem streamVerify_abandoned (events : List VerifyEvent) (d : Disk) (exit : Option ExecChunk) :
    ((streamVerify d exit events).abandoned = none ∧ (streamVerify d exit events).disk = made d events ∧
      lateWrites events = []) ∨
    ∃ err rest, (streamVerify d exit events).abandoned = some (err, rest) ∧
      lateWrites events = rest.filterMap VerifyEvent.disk? := by
  induction events generalizing d exit with
  | nil => exact .inl ⟨rfl, rfl, rfl⟩
  | cons ev rest ih =>
    cases ev with
    | writes d' =>
      rw [made_cons_writes]
      exact ih d' exit
    | chunk c done =>
      rw [made_cons_chunk]
      unfold streamVerify lateWrites
      split
      next hc =>
        rw [if_neg (by simp [hc])]
        exact ih d (some c)
      next hc =>
        split
        next err =>
          rw [if_pos ⟨hc, by simp⟩]
          exact .inr ⟨err, rest, rfl, rfl⟩
        next =>
          rw [if_neg (by simp)]
          exact ih d exit

variable {sent : List ExecChunk} {d : Disk}

section Settle

variable {e : Engine} {sid : Bytes} {lib : Lib} {env : Env} {applied : Applied}
  {last : Option RestoreErr → List ExecChunk} {late : List Disk}

def FailsAtEnd (chunks : List ExecChunk) : Prop :=
  ∃ pre x, chunks = pre ++ [x] ∧ (∀ c ∈ pre, c.stream ≠ .exit) ∧ x.stream = .exit ∧ ¬ ExitsClean x

theorem rollBack_exits {final : Disk} (hsent : ∀ c ∈ sent, c.stream ≠ .exit) (hlast : ∀ rerr, FailsAtEnd (last rerr)) :
    Exits (rollBack e sid applied sent d last late) final := by
  obtain ⟨pre, x, hx, hpre, hexit, hclean⟩ :=
    hlast (e.restoreFile sid d applied.resolvedPath applied.snapshot).2
  refine ⟨sent ++ pre, x, ?_, List.forall_mem_append.mpr ⟨hsent, hpre⟩, hexit, fun hc => absurd hc hclean, ?_⟩
  · simp only [rollBack, hx, List.append_assoc]
  · simp [rollBack]

theorem rollBack_restored_iff (h : (rollBack e sid applied sent d last late).restore = some none) :
    Restored (rollBack e sid applied sent d last late) applied.resolvedPath applied.snapshot ↔
      ∀ t ∈ late, readFile t applied.resolvedPath = .ok applied.snapshot := by
  have hr : e.restoreFile sid d applied.resolvedPath applied.snapshot =
      ((e.restoreFile sid d applied.resolvedPath applied.snapshot).1, none) := Prod.ext rfl (Option.some.inj h)
  rw [Restored, List.forall_mem_cons]
  exact and_iff_right (restoreFile_reads hr)

theorem exitChunk_not_clean (code : ℤ) (err : ExecErr) : ¬ ExitsClean (exitChunk code err) := by
  simp [ExitsClean, exitChunk]

def Env.made (env : Env) (d : Disk) : Disk :=
  match env.exec with
  | .ok events => Dispatcher.made d events
  | .error _ => d

theorem failsAtEnd_exit (code : ℤ) (err : ExecErr) : FailsAtEnd [exitChunk code err] :=
  ⟨[], _, rfl, by simp, rfl, exitChunk_not_clean code err⟩

theorem failsAtEnd_stderr {data : Bytes} {x : ExecChunk} (hx : x.stream = .exit) (hclean : ¬ ExitsClean x) :
    FailsAtEnd [stderrChunk data, x] :=
  ⟨[_], x, rfl, by simp [stderrChunk], hx, hclean⟩

theorem afterStream_exits (hsent : ∀ c ∈ sent, c.stream ≠ .exit) (d : Disk) (events : List VerifyEvent) :
    Exits (afterStream e sid lib applied sent (streamVerify d none events)) (made d events) := by
  have hall : ∀ c ∈ sent ++ (streamVerify d none events).sent, c.stream ≠ .exit :=
    List.forall_mem_append.mpr ⟨hsent, streamVerify_sent events d none⟩
  rcases streamVerify_abandoned events d none with ⟨hend, hdisk, _⟩ | ⟨err, rest, hend, _⟩
  · cases hx : (streamVerify d none events).exit with
    | none =>
      simp only [afterStream, hend, hx]
      exact rollBack_exits hall fun _ => failsAtEnd_stderr rfl (exitChunk_not_clean _ _)
    | some x =>
      have hxe : x.stream = .exit := streamVerify_exit events d (by simp) x hx
      simp only [afterStream, hend, hx]
      split
      next hbad =>
        refine rollBack_exits hall fun _ => failsAtEnd_stderr hxe ?_
        rintro ⟨herr, hcode⟩
        rcases hbad with h | h
        · exact h herr
        · exact h hcode
      next hgood =>
        simp only [not_or, ne_eq, not_not] at hgood
        exact ⟨_, x, rfl, hall, hxe, fun _ => ⟨rfl, hdisk, rfl⟩, fun hc => absurd hgood hc⟩
  · simp only [afterStream, hend]
    exact rollBack_exits hall fun _ => failsAtEnd_exit _ _

theorem afterStream_restored_iff {events : List VerifyEvent}
    (h : (afterStream e sid lib applied sent (streamVerify d none events)).restore = some none) :
    Restored (afterStream e sid lib applied sent (streamVerify d none events)) applied.resolvedPath applied.snapshot ↔
      ∀ t ∈ lateWrites events, readFile t applied.resolvedPath = .ok applied.snapshot := by
  rcases streamVerify_abandoned events d none with ⟨hend, _, hlate⟩ | ⟨err, rest, hend, hlate⟩
  · rw [hlate]
    cases hx : (streamVerify d none events).exit with simp only [afterStream, hend, hx] at h ⊢
    | none => exact rollBack_restored_iff h
    | some x =>
      split at h
      next hbad =>
        rw [if_pos hbad]
        exact rollBack_restored_iff h
      next => cases h
  · rw [hlate]
    simp only [afterStream, hend] at h ⊢
    exact rollBack_restored_iff h

theorem verifyApplied_exits (d : Disk) : Exits (verifyApplied e sid lib env applied d) (env.made d) := by
  have hsent : ∀ c ∈ (emitPieces .stdout env.bodyDone 0 (bodyPieces lib applied.result)).1, c.stream ≠ .exit := by
    intro c hc
    rw [emitPieces_stream .stdout env.bodyDone 0 _ c hc]
    nofun
  simp only [verifyApplied]
  split
  next => exact rollBack_exits hsent fun _ => failsAtEnd_exit _ _
  next =>
    split
    next => exact rollBack_exits hsent fun _ => failsAtEnd_stderr rfl (exitChunk_not_clean _ _)
    next events hexec =>
      rw [show env.made d = made d events by simp only [Env.made, hexec]]
      exact afterStream_exits hsent d events

theorem verifyApplied_restored_iff (h : (verifyApplied e sid lib env applied d).restore = some none) :
    Restored (verifyApplied e sid lib env applied d) applied.resolvedPath applied.snapshot ↔ Quiet lib env applied := by
  have hdone := emitPieces_done_iff .stdout env.bodyDone 0 (bodyPieces lib applied.result)
  simp only [Nat.zero_add] at hdone
  simp only [verifyApplied] at h ⊢
  split at h
  next err herr =>
    rw [rollBack_restored_iff h]
    refine iff_of_true (by simp) ?_
    intro events _ hnone
    cases (hdone.mpr hnone).symm.trans herr
  next hnone =>
    split at h
    next verr hexec =>
      rw [rollBack_restored_iff h]
      refine iff_of_true (by simp) ?_
      intro events hev
      cases hexec.symm.trans hev
    next events hexec =>
      rw [afterStream_restored_iff h]
      constructor
      · intro hlate events' hev _
        cases hexec.symm.trans hev
        exact hlate
      · intro hquiet
        exact hquiet events hexec (hdone.mp hnone)

end Settle

theorem patch_rolled_back_iff {e : Engine} {sid : Bytes} {lib : Lib} {env : Env} {d d' : Disk} {args : Args}
    {maxBytes : ℕ} {applied : Applied} (hacc : e.applyCodePatchInner sid d args maxBytes = (d', .ok applied)) :
    (∃ before, e.makeRoot sid d = some before ∧ readFile before applied.resolvedPath = .ok applied.snapshot) ∧
    Exits (applyCodePatchWithVerify e sid lib env d args maxBytes) (env.made d') ∧
    ((applyCodePatchWithVerify e sid lib env d args maxBytes).restore = some none →
      (Restored (applyCodePatchWithVerify e sid lib env d args maxBytes) applied.resolvedPath applied.snapshot ↔
        Quiet lib env applied)) := by
  refine ⟨applyCodePatchInner_ok hacc, ?_⟩
  simp only [applyCodePatchWithVerify, hacc]
  exact ⟨verifyApplied_exits d', verifyApplied_restored_iff⟩

def demoEngine : Engine := ⟨[ws], false⟩

def oneReport : FileSystem := Foundation.FileTree.ofEntries [([ws], .dir), ([ws, report], .file)] (by decide)

def demoLib : Lib := ⟨fun _ => none, fun _ => .canceled, fun _ => [], fun _ => []⟩

def demoApplied : Applied :=
  ⟨[97], [ws, report], utf8 "report", 1, 1, renderUnifiedDiff (utf8 "report") [97] [98] 0 1 1⟩

def demoOutput : ExecChunk := stdoutChunk [46]

def rewritten : Disk := { demoDisk oneReport with content := fun _ => [99] }

theorem demo_accepted : demoEngine.applyCodePatchInner [] (demoDisk oneReport) demoPatch 0 =
    ((demoDisk oneReport).store [ws, report] [98], .ok demoApplied) := by
  rfl

def failing : Env := ⟨fun _ => none, .ok [.writes rewritten, .chunk demoOutput none, .chunk ⟨.exit, [], 2, none⟩ none]⟩

def abandonedRun : Env := ⟨fun _ => none, .ok [.chunk demoOutput (some .canceled), .writes rewritten]⟩

theorem failed_verify_rolled_back :
    (applyCodePatchWithVerify demoEngine [] demoLib failing (demoDisk oneReport) demoPatch 0).restore = some none ∧
    Restored (applyCodePatchWithVerify demoEngine [] demoLib failing (demoDisk oneReport) demoPatch 0) [ws, report]
      [97] := by
  have hrest : (applyCodePatchWithVerify demoEngine [] demoLib failing (demoDisk oneReport) demoPatch 0).restore =
      some none := by decide +kernel
  refine ⟨hrest, ((patch_rolled_back_iff demo_accepted).2.2 hrest).mpr ?_⟩
  intro events hev _ t ht
  cases hev
  simp [lateWrites, demoOutput, stdoutChunk] at ht

theorem canceled_verify_rewrites : demoEngine.applyCodePatchInner [] (demoDisk oneReport) demoPatch 0 =
      ((demoDisk oneReport).store [ws, report] [98], .ok demoApplied) ∧
    (applyCodePatchWithVerify demoEngine [] demoLib abandonedRun (demoDisk oneReport) demoPatch 0).out =
      [exitChunk (-1) .canceled] ∧
    (applyCodePatchWithVerify demoEngine [] demoLib abandonedRun (demoDisk oneReport) demoPatch 0).restore = some none ∧
    ¬ Restored (applyCodePatchWithVerify demoEngine [] demoLib abandonedRun (demoDisk oneReport) demoPatch 0)
      [ws, report] [97] := by
  refine ⟨demo_accepted, by decide +kernel, by decide +kernel, fun h => ?_⟩
  have hread : readFile rewritten [ws, report] = .ok [97] := h rewritten (.tail _ (.head _))
  cases (show readFile rewritten [ws, report] = .ok [99] from rfl).symm.trans hread

end NomadDev.Dispatcher
