import NomadDev.Patches

namespace NomadDev.Fsops

open Foundation.FileTree Foundation.PathText Function List

structure WriteArgs where
  args : Args
  create : Option Bool

inductive WriteErr
  | arg (e : PatchErr)
  | badMode
  | tooLarge (maxBytes : ℕ)
  | resolve (e : PatchErr)
  | mkdir
  | openWrite
  | write
  deriving DecidableEq

inductive WriteMode
  | overwrite | append
  deriving DecidableEq

structure WriteResult where
  path : Bytes
  bytesWritten : ℕ
  mode : WriteMode
  deriving DecidableEq

def writeMode (lower : Bytes → Bytes) (args : Args) : Except WriteErr WriteMode :=
  match args "mode" with
  | some (.str s) =>
    if lower s = utf8 "overwrite" then .ok .overwrite
    else if lower s = utf8 "append" then .ok .append
    else .error .badMode
  | _ => .ok .overwrite

variable (d : Disk)

def openCreate (mode : WriteMode) (path : List Name) : Option (Disk × List Name) :=
  match walk d.tree linkLimit [] (path.map .name) with
  | some (.found real) =>
    if d.tree.node real = some .file ∧ d.writable real = true then
      some (if mode = .overwrite then { d with content := update d.content real [] } else d, real)
    else none
  | some (.missing dir name []) =>
    if h : d.tree.node dir = some .dir ∧ d.tree.node (dir ++ [name]) = none ∧ d.writable (dir ++ [name]) = true then
      some ({ d with
          tree := insertFile d.tree dir name h.1 h.2.1
          content := update d.content (dir ++ [name]) [] }, dir ++ [name])
    else none
  | _ => none

def Disk.extend (real : List Name) (data : Bytes) : Disk :=
  { d with content := update d.content real (d.content real ++ data.take d.room) }

def writeTo (path content : Bytes) (mode : WriteMode) (resolved : List Name) : Disk × Except WriteErr WriteResult :=
  match openCreate d mode resolved with
  | none => (d, .error .openWrite)
  | some (opened, real) =>
    (opened.extend real content, if content.length ≤ d.room then .ok ⟨path, content.length, mode⟩ else .error .write)

def Engine.writeResolved (e : Engine) (sid : Bytes) (d : Disk) (create : Bool) (path content : Bytes)
    (mode : WriteMode) : Disk × Except WriteErr WriteResult :=
  match e.resolveSafe sid d path with
  | (d', .error err) => (d', .error (.resolve err))
  | (d', .ok resolved) =>
    if create then
      match mkdirAll d'.tree linkLimit resolved.dropLast with
      | none => (d', .error .mkdir)
      | some tree => writeTo { d' with tree } path content mode resolved
    else writeTo d' path content mode resolved

def Engine.runWritePatch (e : Engine) (lower : Bytes → Bytes) (sid : Bytes) (d : Disk) (call : WriteArgs)
    (writeFileMaxBytes : ℕ) : Disk × Except WriteErr WriteResult :=
  match argString call.args "path" with
  | .error err => (d, .error (.arg err))
  | .ok path =>
    match argString call.args "content" with
    | .error err => (d, .error (.arg err))
    | .ok content =>
      match writeMode lower call.args with
      | .error err => (d, .error err)
      | .ok mode =>
        if writeCap writeFileMaxBytes < content.length then (d, .error (.tooLarge (writeCap writeFileMaxBytes)))
        else e.writeResolved sid d (call.create == some true) path content mode

def held (path : List Name) : Bytes :=
  match readFile d path with
  | .ok raw => raw
  | .error _ => []

def written (mode : WriteMode) (before content : Bytes) : Bytes :=
  match mode with
  | .overwrite => content
  | .append => before ++ content

def makable (mode : WriteMode) (root dirs : List Name) (name : Name) : Bool :=
  ((mkdirAll d.tree linkLimit (root ++ dirs)).bind fun tree =>
    openCreate { d with tree } mode (root ++ (dirs ++ [name]))).isSome

def Creates (root dirs : List Name) (name : Name) (content : Bytes) (mode : WriteMode) (before : Disk)
    (after : Disk × Except WriteErr WriteResult) : Prop :=
  (∃ r, after.2 = .ok r) ∧ after.1.tree.node (root ++ dirs) = some .dir ∧ readFile after.1 (root ++ (dirs ++ [name])) =
      .ok (written mode (held before (root ++ (dirs ++ [name]))) content)

variable {fs : FileSystem} {p path real : List Name} {mode : WriteMode}

section Directories

variable {d opened : Disk} {root dirs : List Name} {name : Name} {content : Bytes}

def RealAncestors (fs : FileSystem) (root dirs : List Name) : Prop :=
  ∀ q, q <+: dirs → fs.node (root ++ q) = none ∨ fs.node (root ++ q) = some .dir

instance (fs : FileSystem) (root dirs : List Name) : Decidable (RealAncestors fs root dirs) :=
  decidable_of_iff (∀ q ∈ dirs.inits, fs.node (root ++ q) = none ∨ fs.node (root ++ q) = some .dir)
    (by simp only [RealAncestors, List.mem_inits])

theorem evalSymlinks_dir (h : fs.node p = some .dir) : evalSymlinks fs p = .ok p := by
  have hwalk : walk fs 255 [] (p.map .name) = some (.found p) :=
    walk_of_walks (.ends (segment_plain (.inl h))) (Nat.zero_le _)
  simp [evalSymlinks, hwalk]

theorem evalSymlinks_missing (hroot : fs.node root = some .dir) (h : RealAncestors fs root dirs)
    (hnone : fs.node (root ++ dirs) = none) (rest : List Name) :
    evalSymlinks fs (root ++ (dirs ++ rest)) = .error .notExist := by
  obtain ⟨dir, a, todo, hseg⟩ := segment_missing (rest.map .name) hroot h hnone
  have hwalk : walk fs 255 [] ((root ++ (dirs ++ rest)).map .name) = some (.missing dir a todo) := by
    rw [map_append, map_append]
    apply walk_of_walks _ (Nat.zero_le 255)
    exact .ends ((segment_append_found (segment_plain (.inl hroot)) hroot).trans hseg)
  simp [evalSymlinks, -map_append, hwalk]

theorem resolveCandidate_missing (hroot : fs.node root = some .dir)
    (h : RealAncestors fs root dirs) (hnone : fs.node (root ++ dirs) = none) :
    resolveCandidate fs root (root ++ (dirs ++ [name])) = .error (.parent .notExist) := by
  have hparent := evalSymlinks_missing hroot h hnone []
  rw [append_nil] at hparent
  rw [resolveCandidate, evalSymlinks_missing hroot h hnone [name], resolveParent, dropLast_candidate, hparent]

theorem mkdirAll_dir (h : fs.node p = some .dir) : mkdirAll fs linkLimit p = some fs :=
  mkdirAll_of_stat ((stat_plain (.inl h)).trans h)

theorem openCreate_cases (h : openCreate d mode path = some (opened, real)) :
    (∃ k, Walks d.tree [] (path.map .name) k (.found real) ∧ k ≤ linkLimit ∧ d.tree.node real = some .file ∧
        d.writable real = true ∧
        opened = if mode = .overwrite then { d with content := update d.content real [] } else d) ∨
      ∃ k dir a, Walks d.tree [] (path.map .name) k (.missing dir a []) ∧ k ≤ linkLimit ∧ real = dir ++ [a] ∧
        ∃ hdir hfree, opened = { d with
          tree := insertFile d.tree dir a hdir hfree
          content := update d.content (dir ++ [a]) [] } := by
  unfold openCreate at h
  split at h
  next found hw =>
    split at h <;> cases h
    next hf =>
      obtain ⟨k, hk, hwalk⟩ := walks_of_walk hw
      exact .inl ⟨k, hwalk, hk, hf.1, hf.2, rfl⟩
  next dir a hw =>
    split at h <;> cases h
    next hfree =>
      obtain ⟨k, hk, hwalk⟩ := walks_of_walk hw
      exact .inr ⟨k, dir, a, hwalk, hk, rfl, hfree.1, hfree.2.1, rfl⟩
  next => cases h

theorem openCreate_real (hf : d.tree.node real = some .file) (hwritable : d.writable real = true) :
    openCreate d mode real =
      some (if mode = .overwrite then { d with content := update d.content real [] } else d, real) := by
  have hwalk : walk d.tree linkLimit [] (real.map .name) = some (.found real) :=
    walk_of_walks (.ends (segment_plain (.inr hf))) (Nat.zero_le _)
  simp only [openCreate, hwalk, hf, hwritable, and_self, if_true]

theorem openCreate_resolved {candidate : List Name} (hres : resolveCandidate d.tree root candidate = .ok p)
    (h : openCreate d mode candidate = some (opened, real)) : openCreate d mode p = some (opened, real) := by
  rcases resolveCandidate_ok hres with ⟨heval, -⟩ | ⟨-, rfl, -⟩
  · obtain ⟨j, hj⟩ := evalSymlinks_ok heval
    rcases openCreate_cases h with ⟨k, hk, -, hf, hwritable, rfl⟩ | ⟨k, dir, a, hk, -⟩
    · cases (hj.unique hk).2
      exact openCreate_real hf hwritable
    · cases (hj.unique hk).2
  · exact h

theorem resolveCandidate_of_open (hdir : d.tree.node (root ++ dirs) = some .dir)
    (hopen : openCreate d mode (root ++ (dirs ++ [name])) ≠ none)
    (hreal : ∀ real, evalSymlinks d.tree (root ++ (dirs ++ [name])) = .ok real → withinRoot root real = true)
    (hparent : evalSymlinks d.tree (root ++ (dirs ++ [name])) = .error .notExist →
      withinRoot root (root ++ dirs) = true) :
    ∃ p, resolveCandidate d.tree root (root ++ (dirs ++ [name])) = .ok p ∧
      mkdirAll d.tree linkLimit p.dropLast = some d.tree := by
  obtain ⟨⟨opened, real⟩, hsome⟩ := Option.ne_none_iff_exists'.mp hopen
  rcases openCreate_cases hsome with ⟨k, hk, hlimit, hf, -⟩ | ⟨k, dir, a, hk, hlimit, -⟩
  · have heval : evalSymlinks d.tree (root ++ (dirs ++ [name])) = .ok real := by
      rw [evalSymlinks, walk_of_walks hk (hlimit.trans (by decide))]
    refine ⟨real, by rw [resolveCandidate, heval]; exact if_pos (hreal real heval), ?_⟩
    apply mkdirAll_dir
    cases eq_nil_or_concat real with
    | inl hnil =>
      rw [hnil, d.tree.root_dir] at hf
      cases hf
    | inr hlast =>
      obtain ⟨q, b, rfl⟩ := hlast
      rw [concat_eq_append] at hf ⊢
      rw [dropLast_concat]
      exact d.tree.parent_dir q b (by rw [hf]; exact Option.some_ne_none _)
  · have heval : evalSymlinks d.tree (root ++ (dirs ++ [name])) = .error .notExist := by
      rw [evalSymlinks, walk_of_walks hk (hlimit.trans (by decide))]
    refine ⟨root ++ (dirs ++ [name]), ?_, by rw [dropLast_candidate]; exact mkdirAll_dir hdir⟩
    rw [resolveCandidate, heval, resolveParent, dropLast_candidate, evalSymlinks_dir hdir]
    exact if_pos (hparent heval)

theorem withinRoot_of_resolveCandidate (hdir : d.tree.node (root ++ dirs) = some .dir)
    (h : resolveCandidate d.tree root (root ++ (dirs ++ [name])) = .ok p) :
    (∀ real, evalSymlinks d.tree (root ++ (dirs ++ [name])) = .ok real → withinRoot root real = true) ∧
      (evalSymlinks d.tree (root ++ (dirs ++ [name])) = .error .notExist → withinRoot root (root ++ dirs) = true) := by
  rcases resolveCandidate_ok h with ⟨heval, hin⟩ | ⟨heval, -, realParent, hparent, hin⟩
  · rw [heval]
    exact ⟨fun real hreal => by cases hreal; exact hin, nofun⟩
  · rw [dropLast_candidate, evalSymlinks_dir hdir] at hparent
    cases hparent
    rw [heval]
    exact ⟨nofun, fun _ => hin⟩

theorem readFile_extend (h : openCreate d mode path = some (opened, real)) (hroom : content.length ≤ d.room) :
    readFile (opened.extend real content) path = .ok (written mode (held d path) content) := by
  rcases openCreate_cases h with ⟨k, hk, hlimit, hf, -, rfl⟩ | ⟨k, dir, a, hk, hlimit, rfl, hdir, hfree, rfl⟩
  · have hwalk := walk_of_walks hk hlimit
    have hheld : held d path = d.content real := by simp only [held, readFile, hwalk, hf, if_true]
    cases mode with
    | overwrite =>
      simp [readFile, Disk.extend, hwalk, hf, written, take_of_length_le hroom]
    | append =>
      simp [readFile, Disk.extend, hwalk, hf, written, hheld, take_of_length_le hroom]
  · have hwalk := walk_of_walks hk hlimit
    have hheld : held d path = [] := by simp only [held, readFile, hwalk]
    have hnew : walk (insertFile d.tree dir a hdir hfree) linkLimit [] (path.map .name) =
        some (.found (dir ++ [a])) := walk_of_walks hk.insertFile hlimit
    have hnode : (insertFile d.tree dir a hdir hfree).node (dir ++ [a]) = some .file := insertFile_node_self
    have hwritten : written mode (held d path) content = content := by
      rw [hheld]
      cases mode <;> rfl
    rw [hwritten]
    simp [readFile, Disk.extend, hnew, hnode, take_of_length_le hroom]

theorem tree_extend_dir (h : openCreate d mode path = some (opened, real)) (hp : d.tree.node p = some .dir) :
    (opened.extend real content).tree.node p = some .dir := by
  rcases openCreate_cases h with ⟨_, _, _, _, _, rfl⟩ | ⟨_, dir, a, _, _, _, hdir, hfree, rfl⟩
  · cases mode <;> exact hp
  · have hkept : (insertFile d.tree dir a hdir hfree).node p = some .dir := insertFile_node_of_some hp
    exact hkept

end Directories

section Call

variable {e : Engine} {lower : Bytes → Bytes} {sid : Bytes} {d made : Disk} {call : WriteArgs} {maxBytes : ℕ}
  {path content : Bytes} {mode : WriteMode} {dirs : List Name} {name : Name}

theorem runWritePatch_eq (hpath : argString call.args "path" = .ok path)
    (hcontent : call.args "content" = some (.str content)) (hmode : writeMode lower call.args = .ok mode)
    (hne : content ≠ []) (hsize : content.length ≤ writeCap maxBytes) :
    e.runWritePatch lower sid d call maxBytes = e.writeResolved sid d (call.create == some true) path content mode := by
  have harg : argString call.args "content" = .ok content := by simp only [argString, hcontent, if_neg hne]
  simp only [Engine.runWritePatch, hpath, harg, hmode, if_neg (Nat.not_lt.mpr hsize)]

theorem runWritePatch_accepted (hpath : argString call.args "path" = .ok path)
    (hcontent : call.args "content" = some (.str content)) (hmode : writeMode lower call.args = .ok mode)
    {r : WriteResult} (h : (e.runWritePatch lower sid d call maxBytes).2 = .ok r) :
    content ≠ [] ∧ content.length ≤ writeCap maxBytes := by
  have hne : content ≠ [] := by
    rintro rfl
    have harg : argString call.args "content" = .error (.notNonEmptyString "content") := by
      simp only [argString, hcontent, if_true]
    simp only [Engine.runWritePatch, hpath, harg] at h
    cases h
  refine ⟨hne, Nat.le_of_not_lt fun hlarge => ?_⟩
  have harg : argString call.args "content" = .ok content := by simp only [argString, hcontent, if_neg hne]
  simp only [Engine.runWritePatch, hpath, harg, hmode, if_pos hlarge] at h
  cases h

theorem resolveSafe_eq (hmake : e.makeRoot sid d = some made) (hrel : cleanRel (chars path) = .ok (dirs ++ [name])) :
    e.resolveSafe sid d path = (made,
      (resolveCandidate made.tree (e.rootForCtx sid) (e.rootForCtx sid ++ (dirs ++ [name]))).mapError .resolve) := by
  simp only [Engine.resolveSafe, hmake, resolveSafe, hrel]
  cases resolveCandidate made.tree (e.rootForCtx sid) (e.rootForCtx sid ++ (dirs ++ [name])) <;> rfl

theorem write_patch_creates_iff (hmake : e.makeRoot sid d = some made)
    (hroot : made.tree.node (e.rootForCtx sid) = some .dir) (hcreate : call.create = some true)
    (hpath : argString call.args "path" = .ok path) (hrel : cleanRel (chars path) = .ok (dirs ++ [name]))
    (hcontent : call.args "content" = some (.str content)) (hmode : writeMode lower call.args = .ok mode)
    (hancestors : RealAncestors made.tree (e.rootForCtx sid) dirs)
    (hmakable : makable made mode (e.rootForCtx sid) dirs name = true) (hroom : content.length ≤ made.room) :
    Creates (e.rootForCtx sid) dirs name content mode made (e.runWritePatch lower sid d call maxBytes) ↔
      content ≠ [] ∧ content.length ≤ writeCap maxBytes ∧ made.tree.node (e.rootForCtx sid ++ dirs) = some .dir ∧
        (∀ real, evalSymlinks made.tree (e.rootForCtx sid ++ (dirs ++ [name])) = .ok real →
          withinRoot (e.rootForCtx sid) real = true) ∧
        (evalSymlinks made.tree (e.rootForCtx sid ++ (dirs ++ [name])) = .error .notExist →
          withinRoot (e.rootForCtx sid) (e.rootForCtx sid ++ dirs) = true) := by
  constructor
  · rintro ⟨⟨r, hok⟩, -, -⟩
    obtain ⟨hne, hsize⟩ := runWritePatch_accepted hpath hcontent hmode hok
    rw [runWritePatch_eq hpath hcontent hmode hne hsize, Engine.writeResolved, resolveSafe_eq hmake hrel] at hok
    have hdir : made.tree.node (e.rootForCtx sid ++ dirs) = some .dir := by
      rcases hancestors dirs prefix_rfl with hnone | hdir
      · rw [resolveCandidate_missing hroot hancestors hnone] at hok
        cases hok
      · exact hdir
    cases hres : resolveCandidate made.tree (e.rootForCtx sid) (e.rootForCtx sid ++ (dirs ++ [name])) with
    | error err =>
      rw [hres] at hok
      cases hok
    | ok p => exact ⟨hne, hsize, hdir, withinRoot_of_resolveCandidate hdir hres⟩
  · rintro ⟨hne, hsize, hdir, hreal, hparent⟩
    have hopen : openCreate made mode (e.rootForCtx sid ++ (dirs ++ [name])) ≠ none := by
      rw [makable, mkdirAll_dir hdir] at hmakable
      exact Option.isSome_iff_ne_none.mp hmakable
    obtain ⟨p, hres, hmkdir⟩ := resolveCandidate_of_open hdir hopen hreal hparent
    obtain ⟨⟨opened, real⟩, hsome⟩ := Option.ne_none_iff_exists'.mp hopen
    have hwrite : e.runWritePatch lower sid d call maxBytes =
        (opened.extend real content, .ok ⟨path, content.length, mode⟩) := by
      rw [runWritePatch_eq hpath hcontent hmode hne hsize, Engine.writeResolved, resolveSafe_eq hmake hrel, hres,
        hcreate]
      simp only [Except.mapError, beq_self_eq_true, if_true, hmkdir, writeTo, openCreate_resolved hres hsome, hroom]
    rw [hwrite]
    exact ⟨⟨_, rfl⟩, tree_extend_dir hsome hdir, readFile_extend hsome hroom⟩

end Call

def emptyWorkspace : Disk := demoDisk (ofEntries [([ws], .dir)] (by decide))

def workspaceEngine : Engine := ⟨[ws], false⟩

def createCall (path : String) : WriteArgs where
  args := fun key =>
    if key = "path" then some (.str (utf8 path)) else if key = "content" then some (.str [97]) else none
  create := some true

theorem write_patch_creates_iff_report : Creates [ws] [] report [97] .overwrite emptyWorkspace
      (workspaceEngine.runWritePatch id [] emptyWorkspace (createCall "report") 0) := by
  have hmissing : evalSymlinks emptyWorkspace.tree [ws, report] = .error .notExist := by decide +kernel
  refine (write_patch_creates_iff rfl rfl rfl rfl ?_ rfl rfl ?_ ?_ ?_).mpr
    ⟨by decide, by decide, rfl, fun real hreal => absurd (hmissing.symm.trans hreal) nofun, ?_⟩
  all_goals decide +kernel

theorem missing_directory_refused :
    RealAncestors emptyWorkspace.tree [ws] [etc] ∧ makable emptyWorkspace .overwrite [ws] [etc] report = true ∧
      (workspaceEngine.runWritePatch id [] emptyWorkspace (createCall "etc/report") 0).2 =
        .error (.resolve (.resolve (.parent .notExist))) := by
  decide +kernel

end NomadDev.Fsops
