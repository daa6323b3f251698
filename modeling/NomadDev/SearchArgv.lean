import NomadDev.ArgChecks
import NomadDev.Foundation.CommandLine

namespace NomadDev.ArgChecks

open Event Fsops Foundation.Validation Foundation.CommandLine List

def dash : UInt8 := 45

def isOption (word : Bytes) : Bool := word.head? == some dash

structure OptionTable where
  takesValue : Bytes → Bool
  json : takesValue (utf8 "--json=compact") = false
  pattern : takesValue (utf8 "--pattern") = true
  lang : takesValue (utf8 "--lang") = true
  globs : takesValue (utf8 "--globs") = true

def optionName (word : Bytes) : Bytes := word.takeWhile (· != 61)

def searchOptions : List Bytes := [utf8 "--json", utf8 "--pattern", utf8 "--lang", utf8 "--globs"]

def requestedPath (args : Option Fields) : Bytes :=
  if stringArg (argsOf args) "path" = [] then utf8 "." else stringArg (argsOf args) "path"

def readArgv (t : OptionTable) (argv : List Bytes) : Reading Bytes := read isOption t.takesValue (argv.drop 2)

def OnlySearchOptions (r : Reading Bytes) : Prop := ∀ o ∈ r.options, optionName o ∈ searchOptions

variable {args : Option Fields} {argv : List Bytes} {n : ℤ} {t : OptionTable}

theorem isOption_json : isOption (utf8 "--json=compact") = true := by decide +kernel

theorem isOption_pattern : isOption (utf8 "--pattern") = true := by decide +kernel

theorem isOption_lang : isOption (utf8 "--lang") = true := by decide +kernel

theorem isOption_globs : isOption (utf8 "--globs") = true := by decide +kernel

theorem buildSearchSyntaxCmd_argv (h : buildSearchSyntaxCmd args = .ok (argv, n)) :
    ∃ (pattern lang : Bytes) (globs : List Bytes), argv =
      [utf8 "sg", utf8 "run", utf8 "--json=compact", utf8 "--pattern", pattern] ++
        (if lang = [] then [] else [utf8 "--lang", lang]) ++ globs.flatMap (fun g => [utf8 "--globs", g]) ++
        [requestedPath args] := by
  unfold buildSearchSyntaxCmd at h
  simp only [bind_eq_ok_iff] at h
  obtain ⟨_, _, _, _, _, _, _, _, _, _, globs, _, hargv⟩ := h
  have hfst := congrArg Prod.fst (Except.ok.inj hargv)
  exact ⟨_, _, globs, hfst.symm⟩

theorem readArgv_of_build (h : buildSearchSyntaxCmd args = .ok (argv, n)) (t : OptionTable) :
    ∃ options, (∀ o ∈ options, optionName o ∈ searchOptions) ∧
      readArgv t argv = { read isOption t.takesValue [requestedPath args] with
        options := options ++ (read isOption t.takesValue [requestedPath args]).options } := by
  obtain ⟨pattern, lang, globs, rfl⟩ := buildSearchSyntaxCmd_argv h
  have hjson : optionName (utf8 "--json=compact") ∈ searchOptions := by decide +kernel
  have hpattern : optionName (utf8 "--pattern") ∈ searchOptions := by decide +kernel
  have hlang : optionName (utf8 "--lang") ∈ searchOptions := by decide +kernel
  have hglobs : ∀ o ∈ List.replicate globs.length (utf8 "--globs"), optionName o ∈ searchOptions := by
    intro o ho
    rw [eq_of_mem_replicate ho]
    decide +kernel
  simp only [readArgv, append_assoc, cons_append, nil_append, drop_succ_cons, drop_zero]
  rw [read_flag isOption_json t.json, read_value isOption_pattern t.pattern]
  by_cases hl : lang = []
  · rw [if_pos hl, nil_append, read_values isOption_globs t.globs]
    refine ⟨utf8 "--json=compact" :: utf8 "--pattern" :: List.replicate globs.length (utf8 "--globs"), ?_, rfl⟩
    simp only [forall_mem_cons]
    exact ⟨hjson, hpattern, hglobs⟩
  · rw [if_neg hl, cons_append, cons_append, nil_append, read_value isOption_lang t.lang,
      read_values isOption_globs t.globs]
    refine ⟨utf8 "--json=compact" :: utf8 "--pattern" :: utf8 "--lang" ::
      List.replicate globs.length (utf8 "--globs"), ?_, rfl⟩
    simp only [forall_mem_cons]
    exact ⟨hjson, hpattern, hlang, hglobs⟩

theorem isOption_requestedPath (args : Option Fields) :
    isOption (requestedPath args) = isOption (stringArg (argsOf args) "path") := by
  unfold requestedPath
  by_cases hp : stringArg (argsOf args) "path" = []
  · rw [if_pos hp, hp]
    decide +kernel
  · rw [if_neg hp]

theorem search_argv_clean_iff (t : OptionTable) {args : Option Fields} {argv : List Bytes} {n : ℤ}
    (h : buildSearchSyntaxCmd args = .ok (argv, n)) :
    OnlySearchOptions (readArgv t argv) ∧ (readArgv t argv).positionals = [requestedPath args] ↔
      (stringArg (argsOf args) "path").head? ≠ some dash := by
  obtain ⟨options, hoptions, hread⟩ := readArgv_of_build h t
  have hpath : (stringArg (argsOf args) "path").head? ≠ some dash ↔ isOption (requestedPath args) = false := by
    rw [isOption_requestedPath, isOption, beq_eq_false_iff_ne]
  rw [hpath, hread, read_singleton]
  cases hopt : isOption (requestedPath args) with
  | true => simp
  | false =>
    simp only [Bool.false_eq_true, if_false, append_nil, and_true, iff_true]
    exact hoptions

def sgOptions : OptionTable where
  takesValue := [utf8 "--pattern", utf8 "--lang", utf8 "--globs", utf8 "--rewrite", utf8 "--config"].contains
  json := by decide +kernel
  pattern := by decide +kernel
  lang := by decide +kernel
  globs := by decide +kernel

def searchCall (path : String) : Option Fields := some [("pattern", .str (utf8 "$A")), ("path", .str (utf8 path))]

def searchLine (path : String) : List Bytes :=
  [utf8 "sg", utf8 "run", utf8 "--json=compact", utf8 "--pattern", utf8 "$A", utf8 path]

theorem search_argv_clean_src : buildSearchSyntaxCmd (searchCall "src") = .ok (searchLine "src", 100) ∧
      OnlySearchOptions (readArgv sgOptions (searchLine "src")) ∧
      (readArgv sgOptions (searchLine "src")).positionals = [requestedPath (searchCall "src")] := by
  have hbuild : buildSearchSyntaxCmd (searchCall "src") = .ok (searchLine "src", 100) := by decide +kernel
  exact ⟨hbuild, (search_argv_clean_iff sgOptions hbuild).mpr (by decide +kernel)⟩

theorem dash_path_read_as_option :
    validateSearchSyntax (searchCall "--update-all") = .ok () ∧
      buildSearchSyntaxCmd (searchCall "--update-all") = .ok (searchLine "--update-all", 100) ∧
      readArgv sgOptions (searchLine "--update-all") =
        ⟨[utf8 "--json=compact", utf8 "--pattern", utf8 "--update-all"], []⟩ ∧
      optionName (utf8 "--update-all") ∉ searchOptions := by
  refine ⟨?_, ?_, ?_, ?_⟩ <;> decide +kernel

end NomadDev.ArgChecks
