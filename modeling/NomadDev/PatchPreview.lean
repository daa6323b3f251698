import NomadDev.Patches
import NomadDev.ToolPaths

namespace NomadDev.Fsops

open Foundation.FileTree Foundation.PathText Tools

structure Deployment where
  srv : Server Args
  mw : Middleware Args
  engine : Engine
  configured : srv.mw = some mw

inductive Route
  | llm (mode : Mode) (id : String)
  | direct

variable (dep : Deployment)

def patchGate (client : Client) (args : Args) : Route → Gate Args
  | .llm mode id => runToolCall dep.srv dep.mw client mode ⟨id, toolApplyCodePatch, args⟩
  | .direct => handleCommandRequest dep.srv client (.ok ⟨toolApplyCodePatch, args⟩)

-- `buildApprovalPreview` passes on a context to which no session id was attached.
def shownFile (client : Client) (d : Disk) (args : Args) (route : Route) : Option (List Name) :=
  match patchGate dep client args route with
  | .done _ => none
  | .ask _ _ =>
    match (dep.engine.computeApplyCodePatch [] d args 0).2 with
    | .error _ => none
    | .ok plan => some plan.resolved

def dispatchedFile (sid : Bytes) (d : Disk) (args : Args) : Option (List Name) :=
  if verifyCommand args ≠ [] ∧ dep.srv.runner = false then none
  else match dep.engine.computeApplyCodePatch sid d args 0 with
    | (_, .error _) => none
    | (d', .ok plan) => openTrunc d' plan.resolved

-- `Exec` of the runner knows no `apply_code_patch`.
def modifiedFile (client : Client) (d : Disk) (args : Args) (route : Route) : Option (List Name) :=
  match (patchGate dep client args route).answer .granted with
  | .dispatched .dispatcher _ args => dispatchedFile dep (utf8 client.sid) d args
  | _ => none

def SameFile (e : Engine) (sid : Bytes) (fs : FileSystem) (args : Args) : Prop :=
  ∀ path rel, argString args "file_path" = .ok path → cleanRel (chars path) = .ok rel →
    evalSymlinks fs (e.root ++ rel) = evalSymlinks fs (e.rootForCtx sid ++ rel)

variable {reason : String} {p q rel : List Name} {d : Disk} {dep : Deployment} {args : Args} {sid path : Bytes}
  {fs : FileSystem} {e : Engine}

section Routes

variable {dep : Deployment} {client : Client} {args : Args} {next : Answer → Outcome Args}

theorem requestApproval_ask {mw : Middleware Args} {tool : String} {proceed : Outcome Args}
    (h : requestApproval mw tool args proceed = .ask reason next) : next .granted = proceed := by
  unfold requestApproval at h
  split at h
  next => cases h
  next =>
    split at h <;> cases h
    next => exact if_pos rfl

theorem executeToolCall_patch (srv : Server Args) :
    executeToolCall srv toolApplyCodePatch args = .dispatched .dispatcher toolApplyCodePatch args := by
  rfl

theorem llm_granted {mode : Mode} {id : String} (h : patchGate dep client args (.llm mode id) = .ask reason next) :
    next .granted = .dispatched .dispatcher toolApplyCodePatch args := by
  simp only [patchGate, runToolCall] at h
  split at h
  next => cases h
  next =>
    split at h
    next => cases h
    next =>
      split at h
      next => cases h
      next => exact (requestApproval_ask h).trans (executeToolCall_patch dep.srv)

theorem direct_granted (h : patchGate dep client args .direct = .ask reason next) :
    next .granted = .dispatched .runner toolApplyCodePatch args := by
  have hd : isDaemonTool toolApplyCodePatch = false := by decide
  simp only [patchGate, handleCommandRequest, hd, gateDirectCommand, dep.configured] at h
  split at h
  next => cases h
  next =>
    split at h
    next => cases h
    next =>
      split at h
      next he => exact absurd he (by decide)
      next =>
        split at h
        next he => exact absurd he (by decide)
        next =>
          split at h
          next => cases h
          next =>
            split at h
            next => cases h
            next =>
              split at h
              next => exact requestApproval_ask h
              next => cases h

end Routes

theorem makeRoot_nil (e : Engine) (d : Disk) : e.makeRoot [] d = some d := by
  simp [Engine.makeRoot, sanitizeSID]

theorem rootForCtx_nil (e : Engine) : e.rootForCtx [] = e.root := by
  simp [Engine.rootForCtx, sanitizeSID]

theorem rootForCtx_cases (e : Engine) (hper : e.perSession = true) (hs : sid ≠ []) :
    e.rootForCtx sid = e.root ∨ ∃ n, e.rootForCtx sid = e.root ++ [n] := by
  have he : e.rootForCtx sid = sessionDir e.root sid .fsops := by rw [sessionDir, ← hper]
  by_cases hd : sid = [dot]
  · left
    rw [he, hd, sessionDir_dot]
  · right
    exact ⟨_, he.trans (sessionDir_below e.root hs hd .fsops)⟩

theorem not_file_in_new_dir (hp : fs.node p = some .dir) (hempty : ∀ b, fs.node (p ++ [b]) = none)
    (h : evalSymlinks fs (p ++ rel) = .ok q) : fs.node q = some .dir := by
  have hseg : segment fs [] (p.map .name) = .ended (.found p) := segment_plain (.inl hp)
  obtain ⟨k, hk⟩ := evalSymlinks_ok h
  rw [List.map_append] at hk
  cases rel with
  | nil =>
    have hself : Walks fs [] (p.map .name ++ ([] : List Name).map .name) 0 (.found p) :=
      .ends (segment_append_found hseg hp)
    cases (hk.unique hself).2
    exact hp
  | cons b rel =>
    have hmiss : Walks fs [] (p.map .name ++ (b :: rel).map .name) 0 (.missing p b (rel.map .name)) :=
      .ends ((segment_append_found hseg hp).trans (by simp [Foundation.FileTree.segment, hempty b]))
    cases (hk.unique hmiss).2

theorem makeRoot_of_file (hper : e.perSession = true) (hs : sid ≠ []) {d' : Disk}
    (hroot : d.tree.node e.root = some .dir ∨ d.tree.node e.root = some .file) (hmake : e.makeRoot sid d = some d')
    (heval : evalSymlinks d'.tree (e.rootForCtx sid ++ rel) = .ok q) (hq : d'.tree.node q = some .file) :
    d' = d ∧ stat d.tree linkLimit (e.rootForCtx sid) = some .dir := by
  have hsan := sanitizeSID_ne_nil hs
  simp only [Engine.makeRoot, hper, Bool.not_true, Bool.false_or, beq_iff_eq, hsan, if_false, Option.map_eq_some_iff]
    at hmake
  obtain ⟨tree, htree, rfl⟩ := hmake
  rcases hroot with hdir | hfile
  · rcases rootForCtx_cases e hper hs with hr | ⟨n, hr⟩
    · rw [hr] at htree ⊢
      have hstat : stat d.tree linkLimit e.root = some .dir := (stat_plain (.inl hdir)).trans hdir
      cases (mkdirAll_of_stat hstat).symm.trans htree
      exact ⟨rfl, hstat⟩
    · rw [hr] at htree heval ⊢
      rcases mkdirAll_concat hdir htree with ⟨rfl, hstat⟩ | ⟨_, hnew, hempty⟩
      · exact ⟨rfl, hstat⟩
      · cases (not_file_in_new_dir hnew hempty heval).symm.trans hq
  · rcases rootForCtx_cases e hper hs with hr | ⟨n, hr⟩
    · rw [hr, mkdirAll_of_file hfile] at htree
      cases htree
    · rw [hr, mkdirAll_below_file hfile] at htree
      cases htree

theorem shownFile_eq_some {client : Client} {route : Route} (h : shownFile dep client d args route = some p) :
    ∃ reason next plan, patchGate dep client args route = .ask reason next ∧
      dep.engine.computeApplyCodePatch [] d args 0 = (d, .ok plan) ∧ plan.resolved = p := by
  unfold shownFile at h
  split at h
  next => cases h
  next reason next hgate =>
    split at h
    next => cases h
    next plan hplan =>
      generalize hc : dep.engine.computeApplyCodePatch [] d args 0 = c at hplan
      obtain ⟨made, res⟩ := c
      cases hplan
      obtain ⟨_, _, _, _, _, _, _, _, hmake, _⟩ := computeApplyCodePatch_ok hc
      cases (makeRoot_nil dep.engine d).symm.trans hmake
      exact ⟨reason, next, plan, hgate, rfl, Option.some.inj h⟩

theorem dispatchedFile_eq_some (h : dispatchedFile dep sid d args = some q) :
    ¬ (verifyCommand args ≠ [] ∧ dep.srv.runner = false) ∧ ∃ d' plan,
      dep.engine.computeApplyCodePatch sid d args 0 = (d', .ok plan) ∧ plan.resolved = q ∧ d'.writable q = true := by
  unfold dispatchedFile at h
  split at h
  next => cases h
  next hv =>
    refine ⟨hv, ?_⟩
    split at h
    next => cases h
    next d' plan hc =>
      obtain ⟨_, _, _, _, _, _, _, _, _, _, _, hfile, _⟩ := computeApplyCodePatch_ok hc
      rw [openTrunc_of_file hfile] at h
      split at h <;> cases h
      next hwr => exact ⟨d', plan, hc, rfl, hwr⟩

theorem sameFile_iff (hpath : argString args "file_path" = .ok path) (hrel : cleanRel (chars path) = .ok rel)
    (heval : evalSymlinks fs (e.root ++ rel) = .ok p) :
    SameFile e sid fs args ↔ evalSymlinks fs (e.rootForCtx sid ++ rel) = .ok p := by
  constructor
  · intro h
    rw [← h path rel hpath hrel]
    exact heval
  · intro h path' rel' hpath' hrel'
    cases hpath.symm.trans hpath'
    cases hrel.symm.trans hrel'
    exact heval.trans h.symm

theorem dispatchedFile_opened (hper : dep.engine.perSession = true) (hs : sid ≠ [])
    (hpath : argString args "file_path" = .ok path) (hrel : cleanRel (chars path) = .ok rel)
    (hroot : d.tree.node dep.engine.root = some .dir ∨ d.tree.node dep.engine.root = some .file)
    (hq : dispatchedFile dep sid d args = some q) : (verifyCommand args ≠ [] → dep.srv.runner = true) ∧
    stat d.tree linkLimit (dep.engine.rootForCtx sid) = some .dir ∧
    evalSymlinks d.tree (dep.engine.rootForCtx sid ++ rel) = .ok q ∧
    withinRoot (dep.engine.rootForCtx sid) q = true ∧ d.writable q = true := by
  obtain ⟨hv, d', plan', hc, rfl, hwr⟩ := dispatchedFile_eq_some hq
  obtain ⟨path', rel', _, _, hpath', _, _, hrel', hmake, heval', hwithin', hfile', _⟩ := computeApplyCodePatch_ok hc
  cases hpath.symm.trans hpath'
  cases hrel.symm.trans hrel'
  obtain ⟨rfl, hstat⟩ := makeRoot_of_file hper hs hroot hmake heval' hfile'
  exact ⟨fun hne => by simpa [hne] using hv, hstat, heval', hwithin', hwr⟩

theorem dispatchedFile_eq_shown_iff {plan : ApplyCodePatchPlan} (hper : dep.engine.perSession = true) (hs : sid ≠ [])
    (hshown : dep.engine.computeApplyCodePatch [] d args 0 = (d, .ok plan)) (hp : plan.resolved = p) :
    (∀ q, dispatchedFile dep sid d args = some q → (q = p ↔ SameFile dep.engine sid d.tree args)) ∧
    (dispatchedFile dep sid d args = some p ↔
      (verifyCommand args ≠ [] → dep.srv.runner = true) ∧
      stat d.tree linkLimit (dep.engine.rootForCtx sid) = some .dir ∧ SameFile dep.engine sid d.tree args ∧
      withinRoot (dep.engine.rootForCtx sid) p = true ∧ d.writable p = true) := by
  subst hp
  obtain ⟨path, rel, search, replace, hpath, hsearch, hreplace, hrel, _, heval, hwithin, hfile, hplan⟩ :=
    computeApplyCodePatch_ok hshown
  rw [rootForCtx_nil] at heval hwithin
  have hroot : d.tree.node dep.engine.root = some .dir ∨ d.tree.node dep.engine.root = some .file :=
    evalSymlinks_real (root_exists hwithin (.inr hfile))
  have hsame : SameFile dep.engine sid d.tree args ↔
      evalSymlinks d.tree (dep.engine.rootForCtx sid ++ rel) = .ok plan.resolved := sameFile_iff hpath hrel heval
  refine ⟨?_, ?_, ?_⟩
  · intro q hq
    obtain ⟨_, _, heval', _⟩ := dispatchedFile_opened hper hs hpath hrel hroot hq
    rw [hsame, heval']
    exact ⟨fun h => by rw [h], fun h => Except.ok.inj h⟩
  · intro hq
    obtain ⟨hv, hstat, heval', hwithin', hwr⟩ := dispatchedFile_opened hper hs hpath hrel hroot hq
    exact ⟨hv, hstat, hsame.mpr heval', hwithin', hwr⟩
  · rintro ⟨hv, hstat, hsf, hwithin', hwr⟩
    have hmake : dep.engine.makeRoot sid d = some d := by
      simp [Engine.makeRoot, hper, sanitizeSID_ne_nil hs, mkdirAll_of_stat hstat]
    have hc := (computeApplyCodePatch_of_resolved hpath hsearch hreplace hrel hmake (hsame.mp hsf) hwithin').trans
      (congrArg (Prod.mk d) hplan)
    have hnv : ¬ (verifyCommand args ≠ [] ∧ dep.srv.runner = false) := by
      rintro ⟨hne, hr⟩
      cases (hv hne).symm.trans hr
    simp only [dispatchedFile, if_neg hnv, hc, openTrunc_of_file hfile, hwr, if_true]

theorem modifies_shown_iff {dep : Deployment} {client : Client} {d : Disk} {args : Args} {route : Route}
    {p : List Name} (hper : dep.engine.perSession = true) (hs : utf8 client.sid ≠ [])
    (hshown : shownFile dep client d args route = some p) :
    (∀ q, modifiedFile dep client d args route = some q →
      (q = p ↔ SameFile dep.engine (utf8 client.sid) d.tree args)) ∧
    (modifiedFile dep client d args route = some p ↔ route ≠ .direct ∧
      (verifyCommand args ≠ [] → dep.srv.runner = true) ∧
      stat d.tree linkLimit (dep.engine.rootForCtx (utf8 client.sid)) = some .dir ∧
      SameFile dep.engine (utf8 client.sid) d.tree args ∧
      withinRoot (dep.engine.rootForCtx (utf8 client.sid)) p = true ∧ d.writable p = true) := by
  obtain ⟨reason, next, plan, hgate, hc, hp⟩ := shownFile_eq_some hshown
  cases route with
  | llm mode id =>
    have hmod : modifiedFile dep client d args (.llm mode id) = dispatchedFile dep (utf8 client.sid) d args := by
      simp only [modifiedFile, hgate, Gate.answer, llm_granted hgate]
    have hiff := dispatchedFile_eq_shown_iff hper hs hc hp
    rw [hmod]
    simpa using hiff
  | direct =>
    have hmod : modifiedFile dep client d args .direct = none := by
      simp only [modifiedFile, hgate, Gate.answer, direct_granted hgate]
    rw [hmod]
    simp

def sessionOne : Name := ⟨['s', '1'], by decide⟩

def demoDeployment : Deployment where
  srv := {
    mw := some ⟨⟨[toolApplyCodePatch], false⟩, true, fun _ => none, fun _ => false⟩
    runner := true, semFree := true, daemons := false, lsp := false
    validate := fun _ _ => none, scopeWorkerCall := fun _ args _ => .ok args, workerPool := fun _ => none }
  mw := ⟨⟨[toolApplyCodePatch], false⟩, true, fun _ => none, fun _ => false⟩
  engine := ⟨[ws], true⟩
  configured := rfl

def demoClient : Client := ⟨"s1", []⟩

def twoReports : FileSystem :=
  ofEntries [([ws], .dir), ([ws, sessionOne], .dir), ([ws, report], .file), ([ws, sessionOne, report], .file)]
    (by decide)

def linkedReport : FileSystem :=
  ofEntries [([ws], .dir), ([ws, sessionOne], .dir), ([ws, report], .link false [.name sessionOne, .name report]),
    ([ws, sessionOne, report], .file)] (by decide)

theorem linked_report_modified :
    shownFile demoDeployment demoClient (demoDisk linkedReport) demoPatch (.llm .normal "c1") =
      some [ws, sessionOne, report] ∧
    modifiedFile demoDeployment demoClient (demoDisk linkedReport) demoPatch (.llm .normal "c1") =
      some [ws, sessionOne, report] := by
  have hshown : shownFile demoDeployment demoClient (demoDisk linkedReport) demoPatch (.llm .normal "c1") =
      some [ws, sessionOne, report] := by decide +kernel
  refine ⟨hshown, (modifies_shown_iff rfl (by decide +kernel) hshown).2.mpr ⟨by simp, ?_, ?_, ?_, ?_, rfl⟩⟩
  · intro _
    rfl
  · decide +kernel
  · intro path rel hpath hrel
    cases (show argString demoPatch "file_path" = .ok (utf8 "report") from rfl).symm.trans hpath
    cases (show cleanRel (chars (utf8 "report")) = .ok [report] from by decide +kernel).symm.trans hrel
    decide +kernel
  · decide +kernel

theorem other_report_modified :
    shownFile demoDeployment demoClient (demoDisk twoReports) demoPatch (.llm .normal "c1") = some [ws, report] ∧
    modifiedFile demoDeployment demoClient (demoDisk twoReports) demoPatch (.llm .normal "c1") =
      some [ws, sessionOne, report] ∧
    shownFile demoDeployment demoClient (demoDisk twoReports) demoPatch .direct = some [ws, report] ∧
    modifiedFile demoDeployment demoClient (demoDisk twoReports) demoPatch .direct = none := by
  decide +kernel

end NomadDev.Fsops
