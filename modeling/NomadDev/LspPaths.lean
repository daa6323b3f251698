import NomadDev.Redaction

/-!
`ResolvePath` checks the text of the path alone, and `ensureOpen` reads whatever file the joined path leads to, links
included.
-/

namespace NomadDev.Lsp.Paths

open Foundation.FileTree Foundation.PathText Fsops

structure LspRegistry where
  workspaceDir : List Name
  perSession : Bool

inductive BadPath
  | empty | absolute | dotDot

def BadPath.message : BadPath → String
  | .empty => "empty path"
  | .absolute => "path must be relative to the workspace root"
  | .dotDot => "path must not contain '..'"

def LspRegistry.rootFor (r : LspRegistry) (sid : Bytes) : List Name := Fsops.rootFor r.workspaceDir r.perSession sid

def LspRegistry.resolvePath (r : LspRegistry) (sid : Bytes) (rel : List Char) : Except BadPath (List Name) :=
  if rel = [] then .error .empty
  else if isAbs rel then .error .absolute
  else if (clean (parse rel)).1 ≠ 0 then .error .dotDot
  else .ok (r.rootFor sid ++ (clean (parse rel)).2)

variable (path : List Char)

def lowerExt : String :=
  let base := path.reverse.takeWhile (· != '/')
  if base.contains '.' then
    String.ofList (('.' :: (base.takeWhile (· != '.')).reverse).map Event.lowerChar)
  else ""

def langFromPath : String :=
  let ext := lowerExt path
  if ext = ".go" then "go"
  else if ext ∈ [".ts", ".tsx", ".mts", ".cts"] then "typescript"
  else if ext ∈ [".js", ".jsx", ".mjs", ".cjs"] then "javascript"
  else if ext ∈ [".py", ".pyi"] then "python"
  else ""

def languageIDForPath : String :=
  let ext := lowerExt path
  if ext = ".go" then "go"
  else if ext ∈ [".ts", ".mts", ".cts"] then "typescript"
  else if ext = ".tsx" then "typescriptreact"
  else if ext ∈ [".js", ".mjs", ".cjs"] then "javascript"
  else if ext = ".jsx" then "javascriptreact"
  else if ext ∈ [".py", ".pyi"] then "python"
  else ""

structure LspServer where
  lang : String
  openDocs : List (List Name)

structure DidOpen where
  path : List Name
  languageId : String
  text : Bytes
  deriving DecidableEq

inductive OpenErr
  | read (base : Option Name) (err : ReadErr)
  | notify
  deriving DecidableEq

def LspServer.ensureOpen (s : LspServer) (d : Disk) (absPath : List Name) (written : Bool) :
    Except OpenErr (Option DidOpen) :=
  if absPath ∈ s.openDocs then .ok none
  else match readFile d absPath with
    | .error err => .error (.read absPath.getLast? err)
    | .ok content =>
      let langID := languageIDForPath (render absPath)
      let doc : DidOpen := ⟨absPath, if langID = "" then s.lang else langID, content⟩
      if written then .ok (some doc) else .error .notify

structure LspArgs where
  path : List Char
  lang : String

def LspArgs.language (args : LspArgs) : String :=
  if args.lang = "" ∧ args.path ≠ [] then langFromPath args.path else args.lang

def LspRegistry.targetOf (r : LspRegistry) (sid : Bytes) (args : LspArgs) : Except BadPath (Option (List Name)) :=
  if args.path = [] then .ok none else (r.resolvePath sid args.path).map some

inductive Reply
  | badRequest (msg : String)
  | queryError (err : OpenErr)
  | asked (opened : Option DidOpen)
  deriving DecidableEq

def execute (srv : LspServer) (d : Disk) (absPath : Option (List Name)) (written : Bool) : Reply :=
  match absPath with
  | none => .asked none
  | some absPath =>
    match srv.ensureOpen d absPath written with
    | .error err => .queryError err
    | .ok opened => .asked opened

def executeLSPQuery (r : LspRegistry) (getOrStart : String → Except String LspServer) (d : Disk) (sid : Bytes)
    (args : LspArgs) (written : Bool) : Reply :=
  let lang := args.language
  if lang = "" then .badRequest "could not determine the language from the path; pass an explicit 'lang'"
  else
    match r.targetOf sid args with
    | .error err => .badRequest ("sandbox: bad request: " ++ err.message)
    | .ok absPath =>
      match getOrStart lang with
      | .error err => .badRequest err
      | .ok srv => execute srv d absPath written

def Inside (fs : FileSystem) (root p : List Name) : Prop :=
  ∃ realRoot, evalSymlinks fs root = .ok realRoot ∧ realRoot <+: p

variable {path real root : List Name} {d : Disk} {fs : FileSystem} {r : LspRegistry} {doc : DidOpen}

section Proofs

theorem withinRoot_append (hroot : root ≠ []) (rest : List Name) : withinRoot root (root ++ rest) = true := by
  cases rest with
  | nil => simp [withinRoot]
  | cons n rest =>
    have hrender : ∀ ps : List Name, ps ≠ [] → render ps = body ps := by
      intro ps hps
      simp [render, hps]
    have hbody : body (root ++ n :: rest) ++ ['/'] = body root ++ '/' :: (n.1 ++ (body rest ++ ['/'])) := by
      simp [body]
    simp only [withinRoot, Bool.or_eq_true, List.isPrefixOf_iff_prefix]
    right
    rw [hrender root hroot, hrender _ (by simp), hbody]
    exact (List.prefix_append_right_inj _).mpr (List.cons_prefix_cons.mpr ⟨rfl, List.nil_prefix⟩)

theorem readFile_ok {content : Bytes} (h : readFile d path = .ok content) :
    ∃ real k, k ≤ linkLimit ∧ Walks d.tree [] (path.map .name) k (.found real) ∧ d.tree.node real = some .file ∧
      content = d.content real := by
  unfold readFile at h
  split at h
  · next real hw =>
    split at h <;> cases h
    next hfile =>
      obtain ⟨k, hk, hwalk⟩ := walks_of_walk hw
      exact ⟨real, k, hk, hwalk, hfile, rfl⟩
  all_goals cases h

variable {k : ℕ}

theorem evalSymlinks_of_walks (hk : k ≤ linkLimit) (h : Walks fs [] (path.map .name) k (.found real)) :
    evalSymlinks fs path = .ok real := by
  have hw : walk fs 255 [] (path.map .name) = some (.found real) :=
    walk_of_walks h (Nat.le_trans hk (by decide))
  simp [evalSymlinks, hw]

theorem walks_from_realRoot {realRoot rel : List Name} {j : ℕ}
    (hroot : Walks fs [] (root.map .name) j (.found realRoot))
    (h : Walks fs [] ((root ++ rel).map .name) k (.found real)) :
    ∃ i ≤ k, Walks fs [] ((realRoot ++ rel).map .name) i (.found real) := by
  have hplain := hroot.found_node fs.root_dir
  have hself : Walks fs [] (realRoot.map .name) 0 (.found realRoot) := .ends (segment_plain hplain)
  rw [List.map_append] at h ⊢
  rcases hplain with hdir | hfile
  · obtain ⟨i, hi, hrest⟩ := hroot.of_append hdir h
    have hwalk := hself.append hdir hrest
    rw [Nat.zero_add] at hwalk
    exact ⟨i, hi, hwalk⟩
  · cases rel with
    | nil =>
      rw [List.map_nil, List.append_nil] at h ⊢
      cases (hroot.unique h).2
      exact ⟨0, Nat.zero_le k, hself⟩
    | cons n rel => cases ((hroot.append_file hfile fs.root_dir (by simp)).unique h).2

variable {rel : List Char}

theorem resolveSafe_ok_iff {cleaned : List Name} (hroot : root ≠ []) (hrel : cleanRel rel = .ok cleaned)
    (heval : evalSymlinks fs (root ++ cleaned) = .ok real) : resolveSafe fs root rel = .ok real ↔ root <+: real := by
  simp only [resolveSafe, hrel, resolveCandidate, heval]
  constructor
  · intro h
    split at h
    · next hin => exact prefix_of_withinRoot hin
    · cases h
  · rintro ⟨rest, rfl⟩
    rw [if_pos (withinRoot_append hroot rest)]

variable {sid : Bytes}

theorem cleanRel_of_resolvePath (h : r.resolvePath sid rel = .ok path) :
    ∃ cleaned, cleanRel rel = .ok cleaned ∧ path = r.rootFor sid ++ cleaned := by
  unfold LspRegistry.resolvePath at h
  unfold cleanRel
  split at h
  · cases h
  split at h
  · cases h
  split at h
  · cases h
  · next hempty habs hdots =>
    cases h
    exact ⟨_, by rw [if_neg hempty, if_neg habs, if_neg hdots], rfl⟩

variable {args : LspArgs}

theorem resolvePath_of_targetOf (h : r.targetOf sid args = .ok (some path)) :
    r.resolvePath sid args.path = .ok path := by
  unfold LspRegistry.targetOf at h
  split at h
  · cases h
  cases hresolve : r.resolvePath sid args.path with
  | error err =>
    rw [hresolve] at h
    cases h
  | ok p =>
    rw [hresolve] at h
    cases h
    rfl

variable {srv : LspServer} {written : Bool}

theorem ensureOpen_some (h : srv.ensureOpen d path written = .ok (some doc)) :
    doc.path = path ∧ readFile d path = .ok doc.text := by
  unfold LspServer.ensureOpen at h
  split at h
  · cases h
  split at h
  · cases h
  next content hread =>
  cases written with
  | true =>
    cases h
    exact ⟨rfl, hread⟩
  | false => cases h

theorem execute_opened {target : Option (List Name)} (h : execute srv d target written = .asked (some doc)) :
    target = some doc.path ∧ readFile d doc.path = .ok doc.text := by
  cases target with
  | none => cases h
  | some path =>
    cases hopen : srv.ensureOpen d path written with simp only [execute, hopen] at h
    | error err => cases h
    | ok opened =>
      cases h
      obtain ⟨rfl, hread⟩ := ensureOpen_some hopen
      exact ⟨rfl, hread⟩

theorem executeLSPQuery_opened {getOrStart : String → Except String LspServer}
    (h : executeLSPQuery r getOrStart d sid args written = .asked (some doc)) :
    r.resolvePath sid args.path = .ok doc.path ∧ readFile d doc.path = .ok doc.text := by
  unfold executeLSPQuery at h
  dsimp only at h
  split at h
  · cases h
  split at h
  · cases h
  next target htarget =>
  split at h
  · cases h
  · obtain ⟨rfl, hread⟩ := execute_opened h
    exact ⟨resolvePath_of_targetOf htarget, hread⟩

end Proofs

theorem opened_file_inside_iff {r : LspRegistry} {getOrStart : String → Except String LspServer} {d : Disk}
    {sid : Bytes} {args : LspArgs} {written : Bool} {doc : DidOpen}
    (h : executeLSPQuery r getOrStart d sid args written = .asked (some doc)) :
    ∃ real, evalSymlinks d.tree doc.path = .ok real ∧ d.tree.node real = some .file ∧ doc.text = d.content real ∧
      (Inside d.tree (r.rootFor sid) real ↔ ∃ realRoot, evalSymlinks d.tree (r.rootFor sid) = .ok realRoot ∧
          (realRoot = [] ∨ resolveSafe d.tree realRoot args.path = .ok real)) := by
  obtain ⟨hpath, hread⟩ := executeLSPQuery_opened h
  obtain ⟨cleaned, hrel, hdoc⟩ := cleanRel_of_resolvePath hpath
  obtain ⟨real, k, hk, hwalk, hfile, htext⟩ := readFile_ok hread
  refine ⟨real, evalSymlinks_of_walks hk hwalk, hfile, htext, ?_⟩
  refine exists_congr fun realRoot => and_congr_right fun hroot => ?_
  obtain ⟨j, hj⟩ := evalSymlinks_ok hroot
  rw [hdoc] at hwalk
  obtain ⟨i, hi, hsame⟩ := walks_from_realRoot hj hwalk
  by_cases hempty : realRoot = []
  · simp [hempty]
  · rw [resolveSafe_ok_iff hempty hrel (evalSymlinks_of_walks (Nat.le_trans hi hk) hsame), or_iff_right hempty]

def linkedTree : FileSystem :=
  ofEntries [([ws], .dir), ([etc], .dir), ([etc, passwd], .file), ([ws, passwd], .file),
    ([ws, report], .link true [.name etc, .name passwd])] (by decide)

def demoRegistry : LspRegistry := ⟨[ws], false⟩

def goServer (_ : String) : Except String LspServer := .ok ⟨"go", []⟩

theorem opened_plain_file_inside :
    executeLSPQuery demoRegistry goServer (demoDisk linkedTree) [] ⟨"pw".toList, "go"⟩ true =
      .asked (some ⟨[ws, passwd], "go", [97]⟩) ∧
    Inside linkedTree [ws] [ws, passwd] := by
  have hopened : executeLSPQuery demoRegistry goServer (demoDisk linkedTree) [] ⟨"pw".toList, "go"⟩ true =
      .asked (some ⟨[ws, passwd], "go", [97]⟩) := by decide +kernel
  obtain ⟨real, heval, -, -, hiff⟩ := opened_file_inside_iff hopened
  have hreal : evalSymlinks linkedTree [ws, passwd] = .ok [ws, passwd] := by decide +kernel
  cases hreal.symm.trans heval
  exact ⟨hopened, hiff.mpr ⟨[ws], by decide +kernel, .inr (by decide +kernel)⟩⟩

theorem linked_file_sent : executeLSPQuery demoRegistry goServer (demoDisk linkedTree) [] ⟨"report".toList, "go"⟩ true =
      .asked (some ⟨[ws, report], "go", (demoDisk linkedTree).content [etc, passwd]⟩) ∧
    evalSymlinks linkedTree [ws, report] = .ok [etc, passwd] ∧ ¬ Inside linkedTree [ws] [etc, passwd] ∧
    resolveSafe linkedTree [ws] "report".toList = .error .outside := by
  refine ⟨by decide +kernel, by decide +kernel, ?_, by decide +kernel⟩
  rintro ⟨realRoot, hroot, hin⟩
  have hreal : evalSymlinks linkedTree [ws] = .ok [ws] := by decide +kernel
  cases hreal.symm.trans hroot
  revert hin
  decide

end NomadDev.Lsp.Paths
