import NomadDev.Patches
import NomadDev.ToolPaths
import NomadDev.Foundation.Transition

namespace NomadDev.WorkerPool

open Fsops Tools Foundation.FileTree Foundation.PathText Foundation.Transition Function List

def toolReadFile : String := "read_file"
def toolListDir : String := "list_dir"
def toolPinFile : String := "pin_file"
def toolUnpinFile : String := "unpin_file"
def toolSearchSyntax : String := "search_syntax"

def worktreePrefix : Name := ⟨".nomaddev-worktrees".toList, by decide⟩

-- `unicode.IsSpace`, as the UTF-8 encodings of its members.
def spaces : List Bytes :=
  [[9], [10], [11], [12], [13], [32], [0xC2, 0x85], [0xC2, 0xA0], [0xE1, 0x9A, 0x80], [0xE2, 0x80, 0x80],
    [0xE2, 0x80, 0x81], [0xE2, 0x80, 0x82], [0xE2, 0x80, 0x83], [0xE2, 0x80, 0x84], [0xE2, 0x80, 0x85],
    [0xE2, 0x80, 0x86], [0xE2, 0x80, 0x87], [0xE2, 0x80, 0x88], [0xE2, 0x80, 0x89], [0xE2, 0x80, 0x8A],
    [0xE2, 0x80, 0xA8], [0xE2, 0x80, 0xA9], [0xE2, 0x80, 0xAF], [0xE2, 0x81, 0x9F], [0xE3, 0x80, 0x80]]

def trimStart (cut : List Bytes) : ℕ → Bytes → Bytes
  | 0, s => s
  | fuel + 1, s =>
    match cut.find? (·.isPrefixOf s) with
    | some w => trimStart cut fuel (s.drop w.length)
    | none => s

def trimSpace (s : Bytes) : Bytes :=
  let left := trimStart spaces s.length s
  (trimStart (spaces.map List.reverse) left.length left.reverse).reverse

inductive ScopeErr
  | emptyPath
  | absolutePath (p : Bytes)
  | escapes (p : Bytes)
  | outsideScope (key : String) (raw : Bytes)
  deriving DecidableEq

-- `path.Clean` of a relative path is given by its names; `"."` has none.
def cleanWorkspacePath (raw : Bytes) : Except ScopeErr (List Name) :=
  let p := trimSpace raw
  if p = [] then .error .emptyPath
  else if isAbs (chars p) then .error (.absolutePath p)
  else if (clean (parse (chars p))).1 ≠ 0 then .error (.escapes p)
  else .ok (clean (parse (chars p))).2

structure Worktree where
  id : Bytes
  ordinary : Ordinary (chars id)

def Worktree.name (wt : Worktree) : Name := ⟨chars wt.id, wt.ordinary⟩

structure Task where
  wt : Worktree
  paths : List (List Name)
  below : ∀ s ∈ paths, s ≠ []

def pathInScope (p : List Name) (scope : List (List Name)) : Bool := scope.any fun s => s.isPrefixOf p

def latin (s : List Char) : Bytes := s.map fun c => UInt8.ofNat c.toNat

def worktreeText (wt : Worktree) : List Char := worktreePrefix.1 ++ '/' :: wt.name.1

variable (args : Args)

def rewrite (task : Task) (key : String) (enforceScope : Bool) : Except ScopeErr Args :=
  match cleanWorkspacePath (stringArg args key) with
  | .error err => .error err
  | .ok cleaned =>
    if enforceScope && !pathInScope cleaned task.paths then .error (.outsideScope key (stringArg args key))
    else .ok (update args key (some (.str (latin (worktreeText task.wt ++ '/' :: relText cleaned)))))

def scopeWorkerCall (tool : String) (args : Args) (task : Task) : Except ScopeErr (Args × List Char) :=
  if tool = toolReadFile ∨ tool = toolListDir ∨ tool = toolPinFile ∨ tool = toolUnpinFile then
    (rewrite args task "path" false).map fun m => (m, [])
  else if tool = toolWritePatch then (rewrite args task "path" true).map fun m => (m, [])
  else if tool = toolApplyCodePatch then (rewrite args task "file_path" true).map fun m => (m, [])
  else if tool = toolExecuteScript ∨ tool = toolSearchSyntax then .ok (args, worktreeText task.wt)
  else .ok (args, [])

inductive Access
  | read (p : List Name)
  | write (p : List Name)
  | run (workingDir : List Name)

def cleanWorkdir (rel : List Char) : List Name :=
  match (clean (parse rel)).2 with
  | [] => []
  | n :: ns => if ['.', '.'].isPrefixOf n.1 then [] else n :: ns

variable (e : Engine)

def opened (sid : Bytes) (d : Disk) (args : Args) (key : String) (create : Bool) : Option (List Name) :=
  match argString args key with
  | .error _ => none
  | .ok path =>
    match e.resolveSafe sid d path with
    | (_, .error _) => none
    | (d', .ok resolved) => openFile linkLimit d'.tree create resolved

def lowerByte (c : UInt8) : UInt8 := if 65 ≤ c && c ≤ 90 then c + 32 else c

-- `strings.ToLower` as far as it gives ASCII letters: beside `A` to `Z` those come from the Kelvin sign and the dotted
-- capital I.
def toLower : Bytes → Bytes
  | 0xE2 :: 0x84 :: 0xAA :: s => 107 :: toLower s
  | 0xC4 :: 0xB0 :: s => 105 :: toLower s
  | c :: s => lowerByte c :: toLower s
  | [] => []

def validMode : Bool :=
  match args "mode" with
  | some (.str s) => toLower s == utf8 "overwrite" || toLower s == utf8 "append"
  | _ => true

def validContent : Bool :=
  match argString args "content" with
  | .ok content => content.length ≤ defaultWriteFileMaxBytes
  | .error _ => false

def maxListDepth : ℕ := 4

def listDepth : ℕ :=
  match args "depth" with
  | some (.num n) => if 0 < n then min n.toNat maxListDepth else 1
  | _ => 1

-- A directory is read with its subdirectories down to the depth asked for; links are not followed.
def listed (d : Disk) (args : Args) (dir p : List Name) : Bool :=
  p == dir || (dir.isPrefixOf p && d.tree.node dir == some .dir && d.tree.node p == some .dir &&
    p.length < dir.length + listDepth args)

def readsPath (sid : Bytes) (d : Disk) (tool : String) (args : Args) (p : List Name) : Bool :=
  if tool = toolReadFile ∨ tool = toolPinFile then opened e sid d args "path" false == some p
  else if tool = toolListDir then
    match opened e sid d args "path" false with
    | some dir => listed d args dir p
    | none => false
  else if tool = toolApplyCodePatch then
    (argString args "search_string").isOk && (argStringAllowEmpty args "replace_string").isOk &&
      opened e sid d args "file_path" false == some p
  else false

-- The parent directory exists whenever a path is resolved, so that `create` makes no directory.
def writesPath (sid : Bytes) (d : Disk) (tool : String) (args : Args) (p : List Name) : Bool :=
  if tool = toolWritePatch then validContent args && validMode args && opened e sid d args "path" true == some p
  else if tool = toolApplyCodePatch then
    match e.computeApplyCodePatch sid d args 0 with
    | (_, .error _) => false
    | (d', .ok plan) => openTrunc d' plan.resolved == some p
  else false

def runsIn (sid : Bytes) (d : Disk) (tool : String) (args : Args) (workingDir : List Char) (dir : List Name) : Bool :=
  if tool = toolExecuteScript ∨ tool = toolSearchSyntax then dir == e.root ++ cleanWorkdir workingDir
  else if tool = toolApplyCodePatch then
    verifyCommand args != [] && (e.applyCodePatchInner sid d args 0).2.isOk && dir == e.root ++ cleanWorkdir workingDir
  else false

def dispatch (sid : Bytes) (d : Disk) (tool : String) (args : Args) (workingDir : List Char) : Access → Bool
  | .read p => readsPath e sid d tool args p
  | .write p => writesPath e sid d tool args p
  | .run dir => runsIn e sid d tool args workingDir dir

variable (root : List Name)

def worktreeDir (wt : Worktree) : List Name := root ++ [worktreePrefix, wt.name]

def InScope (task : Task) (p : List Name) : Prop :=
  ∃ s ∈ task.paths, worktreeDir root task.wt ++ s <+: p

def Confined (task : Task) : Access → Prop
  | .read p => worktreeDir root task.wt <+: p
  | .write p => InScope root task p
  | .run dir => worktreeDir root task.wt <+: dir

def LeadsTo (d : Disk) (path : List Name) (create : Bool) (q : List Name) : Prop :=
  ∃ resolved, resolveCandidate d.tree root path = .ok resolved ∧ openFile linkLimit d.tree create resolved = some q

def Stays (task : Task) (d : Disk) (tool : String) (args : Args) : Prop :=
  (tool = toolReadFile ∨ tool = toolListDir ∨ tool = toolPinFile → ∀ rel q,
    cleanWorkspacePath (stringArg args "path") = .ok rel → LeadsTo root d (worktreeDir root task.wt ++ rel) false q →
      worktreeDir root task.wt <+: q) ∧
  (tool = toolWritePatch → ∀ rel q, cleanWorkspacePath (stringArg args "path") = .ok rel →
    LeadsTo root d (worktreeDir root task.wt ++ rel) true q → InScope root task q) ∧
  (tool = toolApplyCodePatch → verifyCommand args = [] ∧ ∀ rel q,
    cleanWorkspacePath (stringArg args "file_path") = .ok rel →
      LeadsTo root d (worktreeDir root task.wt ++ rel) false q → InScope root task q)

variable {p rel : List Name}

theorem lt_of_mem_chars {b : Bytes} {c : Char} (h : c ∈ chars b) : c.toNat < 256 := by
  obtain ⟨x, _, rfl⟩ := mem_map.mp h
  rw [toNat_char]
  exact x.toNat_lt

theorem chars_latin {t : List Char} (h : ∀ c ∈ t, c.toNat < 256) : chars (latin t) = t := by
  rw [chars, latin, map_map]
  refine (map_congr_left fun c hc => ?_).trans (map_id t)
  simp [Nat.mod_eq_of_lt (h c hc), Char.ofNat_toNat]

theorem cleanWorkspacePath_lt {raw : Bytes} (h : cleanWorkspacePath raw = .ok rel) :
    ∀ n ∈ rel, ∀ c ∈ n.1, c.toNat < 256 := by
  intro n hn c hc
  simp only [cleanWorkspacePath] at h
  split at h
  next => cases h
  next =>
    split at h
    next => cases h
    next =>
      split at h <;> cases h
      next => exact lt_of_mem_chars (mem_of_mem_parse (mem_of_mem_clean hn) hc)

theorem lt_of_mem_relText (h : ∀ n ∈ rel, ∀ c ∈ n.1, c.toNat < 256) : ∀ c ∈ relText rel, c.toNat < 256 := by
  unfold relText
  split
  next => simp
  next =>
    clear * - h
    induction rel with
    | nil => simp [List.intercalate]
    | cons n ns ih =>
      have hns := ih fun m hm => h m (mem_cons_of_mem _ hm)
      cases ns with
      | nil => simpa [List.intercalate] using h n (by simp)
      | cons m ns =>
        intro c hc
        rw [map_cons, map_cons, intercalate_cons_cons, mem_append, mem_append] at hc
        rcases hc with (hc | hc) | hc
        · exact h n (by simp) c hc
        · cases mem_singleton.mp hc
          decide
        · exact hns c hc

theorem cleanRel_rewritten {wt : Worktree} (h : ∀ n ∈ rel, ∀ c ∈ n.1, c.toNat < 256) :
    cleanRel (chars (latin (worktreeText wt ++ '/' :: relText rel))) = .ok (worktreePrefix :: wt.name :: rel) := by
  have hpre : worktreePrefix.1.all (fun c => c.toNat < 256) = true := by decide
  have hlt : ∀ c ∈ worktreeText wt ++ '/' :: relText rel, c.toNat < 256 := by
    intro c hc
    simp only [worktreeText, mem_append, mem_cons] at hc
    rcases hc with (hc | rfl | hc) | rfl | hc
    · exact of_decide_eq_true (all_eq_true.mp hpre c hc)
    · decide
    · exact lt_of_mem_chars hc
    · decide
    · exact lt_of_mem_relText h c hc
  have hparse : parse (worktreeText wt ++ '/' :: relText rel) =
      [worktreePrefix, wt.name].map PathPart.name ++ (if rel = [] then [.here] else rel.map PathPart.name) := by
    rw [worktreeText, append_assoc, cons_append, parse_name_slash, parse_name_slash, parse_relText]
    rfl
  have hclean : clean (parse (worktreeText wt ++ '/' :: relText rel)) = (0, worktreePrefix :: wt.name :: rel) := by
    rw [hparse]
    split
    next hnil =>
      rw [hnil, clean_names]
      rfl
    next =>
      rw [← map_append]
      simpa using clean_names ([worktreePrefix, wt.name] ++ rel) []
  have hne : worktreeText wt ++ '/' :: relText rel ≠ [] := by simp
  have habs : isAbs (worktreeText wt ++ '/' :: relText rel) = false := rfl
  rw [chars_latin hlt]
  simp [cleanRel, hne, habs, hclean]

section Dispatch

variable {root q : List Name} {task : Task} {sid : Bytes} {d : Disk} {tool key : String} {args m : Args}
  {enforce : Bool}

theorem rewrite_ok (h : rewrite args task key enforce = .ok m) :
    ∃ rel, cleanWorkspacePath (stringArg args key) = .ok rel ∧
      argString m key = .ok (latin (worktreeText task.wt ++ '/' :: relText rel)) ∧
      ∀ k, k ≠ key → m k = args k := by
  unfold rewrite at h
  split at h
  next => cases h
  next rel hrel =>
    split at h <;> cases h
    next =>
      refine ⟨rel, hrel, ?_, fun k hk => update_of_ne hk _ _⟩
      rw [argString, update_self]
      exact if_neg (by simp [latin])

theorem append_worktree (rel : List Name) :
    root ++ worktreePrefix :: task.wt.name :: rel = worktreeDir root task.wt ++ rel := by
  simp [worktreeDir]

theorem opened_leadsTo {create : Bool} (h : rewrite args task key enforce = .ok m)
    (ho : opened ⟨root, false⟩ sid d m key create = some q) : ∃ rel, cleanWorkspacePath (stringArg args key) = .ok rel ∧
      LeadsTo root d (worktreeDir root task.wt ++ rel) create q := by
  obtain ⟨rel, hrel, harg, _⟩ := rewrite_ok h
  refine ⟨rel, hrel, ?_⟩
  simp only [opened, harg] at ho
  split at ho
  next => cases ho
  next d' resolved hres =>
    obtain ⟨hmake, rel', hrel', hcand⟩ := resolveSafe_ok hres
    cases (cleanRel_rewritten (cleanWorkspacePath_lt hrel)).symm.trans hrel'
    cases (show some d = some d' from hmake)
    exact ⟨resolved, append_worktree rel ▸ hcand, ho⟩

theorem InScope.under (h : InScope root task p) : worktreeDir root task.wt <+: p := by
  obtain ⟨s, _, hs⟩ := h
  exact (prefix_append _ _).trans hs

theorem patch_writes_leadsTo (h : rewrite args task "file_path" true = .ok m)
    (hw : writesPath ⟨root, false⟩ sid d toolApplyCodePatch m q = true) :
    ∃ rel, cleanWorkspacePath (stringArg args "file_path") = .ok rel ∧
      LeadsTo root d (worktreeDir root task.wt ++ rel) false q := by
  obtain ⟨rel, hrel, harg, _⟩ := rewrite_ok h
  refine ⟨rel, hrel, ?_⟩
  rw [writesPath, if_neg (by decide), if_pos rfl] at hw
  split at hw
  next => cases hw
  next d' plan hc =>
    obtain ⟨path, rel', _, _, hpath, _, _, hrel', hmake, heval, hwithin, hfile, _⟩ := computeApplyCodePatch_ok hc
    cases harg.symm.trans hpath
    cases (cleanRel_rewritten (cleanWorkspacePath_lt hrel)).symm.trans hrel'
    cases (show some d = some d' from hmake)
    rw [show (Engine.mk root false).rootForCtx sid = root from rfl, append_worktree] at heval
    refine ⟨plan.resolved, ?_, (openTrunc_eq_some (beq_iff_eq.mp hw)).1⟩
    rw [resolveCandidate, heval]
    exact if_pos hwithin

theorem cleanWorkdir_worktree (wt : Worktree) : cleanWorkdir (worktreeText wt) = [worktreePrefix, wt.name] := by
  have hslash : '/' ∉ wt.name.1 := wt.name.2.2.1
  have hparse : parse (worktreeText wt) = [worktreePrefix, wt.name].map PathPart.name ++ [] := by
    rw [worktreeText, parse_name_slash, parse, splitOn_eq_singleton hslash, map_singleton, toPart_name]
    rfl
  rw [cleanWorkdir, hparse, clean_names]
  rfl

theorem rewrite_of_map {x : Except ScopeErr Args} {wd : List Char}
    (h : x.map (fun m => (m, ([] : List Char))) = .ok (m, wd)) : x = .ok m := by
  cases x with
  | error err => cases h
  | ok m' =>
    cases h
    rfl

variable {wd : List Char}

theorem scopeWorkerCall_path (ht : tool = toolReadFile ∨ tool = toolListDir ∨ tool = toolPinFile)
    (h : scopeWorkerCall tool args task = .ok (m, wd)) : rewrite args task "path" false = .ok m := by
  rw [scopeWorkerCall, if_pos (by tauto)] at h
  exact rewrite_of_map h

theorem scopeWorkerCall_write (h : scopeWorkerCall toolWritePatch args task = .ok (m, wd)) :
    rewrite args task "path" true = .ok m := by
  rw [scopeWorkerCall, if_neg (by decide), if_pos rfl] at h
  exact rewrite_of_map h

theorem scopeWorkerCall_patch (h : scopeWorkerCall toolApplyCodePatch args task = .ok (m, wd)) :
    rewrite args task "file_path" true = .ok m := by
  rw [scopeWorkerCall, if_neg (by decide), if_neg (by decide), if_pos rfl] at h
  exact rewrite_of_map h

theorem scopeWorkerCall_run (ht : tool = toolExecuteScript ∨ tool = toolSearchSyntax)
    (h : scopeWorkerCall tool args task = .ok (m, wd)) : wd = worktreeText task.wt := by
  rcases ht with rfl | rfl
  · rw [scopeWorkerCall, if_neg (by decide), if_neg (by decide), if_neg (by decide), if_pos (by decide)] at h
    cases h
    rfl
  · rw [scopeWorkerCall, if_neg (by decide), if_neg (by decide), if_neg (by decide), if_pos (by decide)] at h
    cases h
    rfl

section

variable (hs : Stays root task d tool args)
include hs

section

variable (h : scopeWorkerCall tool args task = .ok (m, wd))
include h

theorem reads_confined (hr : readsPath ⟨root, false⟩ sid d tool m p = true) : worktreeDir root task.wt <+: p := by
  unfold readsPath at hr
  split at hr
  next ht =>
    obtain ⟨rel, hrel, hl⟩ := opened_leadsTo (scopeWorkerCall_path (by tauto) h) (beq_iff_eq.mp hr)
    exact hs.1 (by tauto) rel p hrel hl
  next =>
    split at hr
    next ht =>
      split at hr
      next dir ho =>
        obtain ⟨rel, hrel, hl⟩ := opened_leadsTo (scopeWorkerCall_path (by tauto) h) ho
        have hdir := hs.1 (by tauto) rel dir hrel hl
        simp only [listed, Bool.or_eq_true, beq_iff_eq, Bool.and_eq_true, isPrefixOf_iff_prefix] at hr
        rcases hr with rfl | hr
        · exact hdir
        · exact hdir.trans hr.1.1.1
      next => cases hr
    next =>
      split at hr
      next ht =>
        subst ht
        rw [Bool.and_eq_true] at hr
        obtain ⟨rel, hrel, hl⟩ := opened_leadsTo (scopeWorkerCall_patch h) (beq_iff_eq.mp hr.2)
        exact ((hs.2.2 rfl).2 rel p hrel hl).under
      next => cases hr

theorem writes_confined (hw : writesPath ⟨root, false⟩ sid d tool m p = true) : InScope root task p := by
  by_cases ht : tool = toolWritePatch
  · subst ht
    rw [writesPath, if_pos rfl, Bool.and_eq_true] at hw
    obtain ⟨rel, hrel, hl⟩ := opened_leadsTo (scopeWorkerCall_write h) (beq_iff_eq.mp hw.2)
    exact hs.2.1 rfl rel p hrel hl
  · by_cases ha : tool = toolApplyCodePatch
    · subst ha
      obtain ⟨rel, hrel, hl⟩ := patch_writes_leadsTo (scopeWorkerCall_patch h) hw
      exact (hs.2.2 rfl).2 rel p hrel hl
    · rw [writesPath, if_neg ht, if_neg ha] at hw
      cases hw

theorem runs_confined {dir : List Name} (hr : runsIn ⟨root, false⟩ sid d tool m wd dir = true) :
    worktreeDir root task.wt <+: dir := by
  unfold runsIn at hr
  split at hr
  next ht =>
    rw [beq_iff_eq.mp hr, scopeWorkerCall_run ht h, cleanWorkdir_worktree]
    exact prefix_rfl
  next =>
    split at hr
    next ha =>
      subst ha
      obtain ⟨_, _, _, hkeep⟩ := rewrite_ok (scopeWorkerCall_patch h)
      have hv : verifyCommand m = [] := by
        rw [verifyCommand, stringArg, hkeep "verify_command" (by decide)]
        exact (hs.2.2 rfl).1
      simp [hv] at hr
    next => cases hr

theorem dispatch_confined {acc : Access} (ha : dispatch ⟨root, false⟩ sid d tool m wd acc = true) :
    Confined root task acc := by
  cases acc with
  | read p => exact reads_confined hs h ha
  | write p => exact writes_confined hs h ha
  | run dir => exact runs_confined hs h ha

end

end

end Dispatch

structure Dispatched where
  disk : Disk
  tool : String
  args : Args
  workingDir : List Char

structure State where
  disk : Disk
  dispatched : List Dispatched

inductive Action
  | changes (d : Disk)
  | call (tool : String) (args : Args)

def step (task : Task) (s : State) : Action → Option State
  | .changes d => some { s with disk := d }
  | .call tool args =>
    match scopeWorkerCall tool args task with
    | .error _ => some s
    | .ok (m, workingDir) => some { s with dispatched := ⟨s.disk, tool, m, workingDir⟩ :: s.dispatched }

def AllConfined (sid : Bytes) (task : Task) (s : State) : Prop :=
  ∀ c ∈ s.dispatched, ∀ acc, dispatch ⟨root, false⟩ sid c.disk c.tool c.args c.workingDir acc = true →
    Confined root task acc

def StaysInside (task : Task) (s : State) : Action → Prop
  | .changes _ => True
  | .call tool args => Stays root task s.disk tool args

theorem step_confined {root : List Name} {sid : Bytes} {task : Task} {s t : State} {a : Action}
    (hok : StaysInside root task s a) (h : step task s a = some t) (hs : AllConfined root sid task s) :
    AllConfined root sid task t := by
  cases a with
  | changes d =>
    cases h
    exact hs
  | call tool args =>
    simp only [step] at h
    split at h <;> cases h
    next => exact hs
    next m wd hscope => exact forall_mem_cons.mpr ⟨fun acc ha => dispatch_confined hok hscope ha, hs⟩

theorem calls_confined (root : List Name) (sid : Bytes) (task : Task) {d : Disk} {as : List Action} {s : State}
    (h : Steps (step task) (StaysInside root task) ⟨d, []⟩ as s) : AllConfined root sid task s :=
  h.preserves (fun _ _ _ hok hst => step_confined hok hst) (by simp [AllConfined])

def demoTask : Task := ⟨⟨[119, 45, 49], by decide⟩, [[report]], by decide⟩

def demoWorktree : List (List Name × Node Name) :=
  [([ws], .dir), ([ws, etc], .file), ([ws, worktreePrefix], .dir), ([ws, worktreePrefix, demoTask.wt.name], .dir)]

def plainWorktree : FileSystem :=
  ofEntries (demoWorktree ++ [([ws, worktreePrefix, demoTask.wt.name, report], .file)]) (by decide)

def linkedWorktree : FileSystem :=
  ofEntries (demoWorktree ++ [([ws, worktreePrefix, demoTask.wt.name, report], .link false [.up, .up, .name etc])])
    (by decide)

def verifiedPatch : Args := update demoPatch "verify_command" (some (.str (utf8 "make")))

theorem plain_patch_confined :
    ∃ s, run (step demoTask) ⟨demoDisk plainWorktree, []⟩ [.call toolApplyCodePatch demoPatch] = some s ∧
      s.dispatched.length = 1 ∧ AllConfined [ws] [] demoTask s := by
  refine ⟨_, rfl, rfl, calls_confined [ws] [] demoTask (d := demoDisk plainWorktree)
    (.cons (a := .call toolApplyCodePatch demoPatch) ?_ rfl (.nil _))⟩
  refine ⟨fun h => absurd h (by decide), fun h => absurd h (by decide), fun _ => ⟨rfl, ?_⟩⟩
  rintro rel q hrel ⟨resolved, hres, hq⟩
  cases (show cleanWorkspacePath (stringArg demoPatch "file_path") = .ok [report] from by decide +kernel).symm.trans
    hrel
  cases (show resolveCandidate plainWorktree [ws] (worktreeDir [ws] demoTask.wt ++ [report]) =
    .ok [ws, worktreePrefix, demoTask.wt.name, report] from by decide +kernel).symm.trans hres
  cases (show openFile linkLimit plainWorktree false [ws, worktreePrefix, demoTask.wt.name, report] =
    some [ws, worktreePrefix, demoTask.wt.name, report] from by decide +kernel).symm.trans hq
  exact ⟨[report], by decide, prefix_rfl⟩

theorem worker_calls_escape :
    (∃ s, run (step demoTask) ⟨demoDisk plainWorktree, []⟩ [.call toolApplyCodePatch verifiedPatch] = some s ∧
      ¬ AllConfined [ws] [] demoTask s) ∧
    ∃ s, run (step demoTask) ⟨demoDisk plainWorktree, []⟩
        [.changes (demoDisk linkedWorktree), .call toolApplyCodePatch demoPatch] = some s ∧
      ¬ AllConfined [ws] [] demoTask s := by
  refine ⟨⟨_, rfl, fun h => ?_⟩, _, rfl, fun h => ?_⟩
  · have hrun : worktreeDir [ws] demoTask.wt <+: [ws] := h _ (.head _) (.run [ws]) (by decide +kernel)
    exact absurd hrun (by decide)
  · obtain ⟨_, _, hw⟩ := h _ (.head _) (.write [ws, etc]) (by decide +kernel)
    have hlen := hw.length_le
    simp [worktreeDir] at hlen

end NomadDev.WorkerPool
