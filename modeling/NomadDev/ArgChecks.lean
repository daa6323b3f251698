import NomadDev.ApprovalEnvelope
import NomadDev.WorkerScope
import NomadDev.Foundation.Validation
import Mathlib.Algebra.Order.Ring.Rat

namespace NomadDev.ArgChecks

open Event Fsops WorkerPool Foundation.PathText Foundation.Validation List

inductive BackendTool
  | executeScript | searchSyntax | readFile | listDir | writePatch | applyCodePatch

def arg (args : Option Fields) (key : String) : Option Value := ((args.getD []).find? fun f => f.1 == key).map (·.2)

def quote (key : String) : String := "\"" ++ key ++ "\""

def refuseIf (p : Prop) [Decidable p] (msg : String) : Except String Unit := if p then .error msg else .ok ()

def hasDotDot (p : List Char) : Bool :=
  p == ['.', '.'] || ['.', '.', '/'].isPrefixOf p || containsText p ['/', '.', '.', '/']

def cleanText (p : List Char) : List Char :=
  if (clean (parse p)).1 = 0 then relText (clean (parse p)).2
  else ['/'].intercalate (List.replicate (clean (parse p)).1 ['.', '.'] ++ (clean (parse p)).2.map Subtype.val)

def isLetter (c : UInt8) : Bool := (97 ≤ c && c ≤ 122) || (65 ≤ c && c ≤ 90)

def globList (notStrings tooLong : String) : List Value → Except String (List Bytes)
  | [] => .ok []
  | .str s :: rest => do
    refuseIf (256 < s.length) tooLong
    let globs ← globList notStrings tooLong rest
    .ok (s :: globs)
  | _ :: _ => .error notStrings

section Middleware

variable (args : Option Fields)

def reqString (key : String) : Except String Bytes :=
  match arg args key with
  | none => .error ("missing " ++ quote key)
  | some (.str s) => if s = [] then .error (quote key ++ " must be a non-empty string") else .ok s
  | some _ => .error (quote key ++ " must be a non-empty string")

def validateExecuteScript : Except String Unit := do
  let script ← reqString args "script"
  refuseIf (64 * 1024 < script.length) "script exceeds 64 KiB"
  match arg args "shell" with
  | some (.str shell) =>
    refuseIf (shell ≠ utf8 "bash" ∧ shell ≠ utf8 "sh" ∧ shell ≠ []) "shell must be 'bash' or 'sh'"
  | _ => .ok ()

def validateReadFile : Except String Unit := do
  let _ ← reqString args "path"
  .ok ()

def validateListDir : Except String Unit := do
  let _ ← reqString args "path"
  .ok ()

def validateWritePatch : Except String Unit := do
  let _ ← reqString args "path"
  let _ ← reqString args "content"
  match arg args "mode" with
  | some (.str s) =>
    refuseIf (toLower s ≠ [] ∧ toLower s ≠ utf8 "overwrite" ∧ toLower s ≠ utf8 "append")
      "mode must be 'overwrite' or 'append'"
  | _ => .ok ()

def validateApplyCodePatch : Except String Unit := do
  let _ ← reqString args "file_path"
  let _ ← reqString args "search_string"
  match arg args "replace_string" with
  | none => .error ("missing " ++ quote "replace_string")
  | some (.str _) =>
    match arg args "verify_command" with
    | none => .ok ()
    | some (.str s) => refuseIf (8 * 1024 < s.length) "verify_command exceeds 8 KiB"
    | some _ => .error (quote "verify_command" ++ " must be a string")
  | some _ => .error (quote "replace_string" ++ " must be a string")

def validatePath : Except String Unit :=
  match arg args "path" with
  | none => .ok ()
  | some (.str s) => do
    refuseIf (isAbs (chars s)) (quote "path" ++ " must be relative to the workspace root")
    refuseIf (hasDotDot (chars s)) (quote "path" ++ " must not contain '..'")
  | some _ => .error (quote "path" ++ " must be a string")

def validateLang : Except String Unit :=
  match arg args "lang" with
  | none => .ok ()
  | some (.str s) => do
    refuseIf (16 < s.length) "lang exceeds 16 chars"
    refuseIf (s.all isLetter = false) "lang must be alphabetic"
  | some _ => .error (quote "lang" ++ " must be a string")

def validateMaxMatches : Except String Unit :=
  match arg args "max_matches" with
  | none => .ok ()
  | some (.num q) => refuseIf (q ≤ 0 ∨ 1000 < q) "max_matches must be 1..1000"
  | some _ => .error "max_matches must be an integer"

def validateGlobs : Except String Unit :=
  match arg args "globs" with
  | none => .ok ()
  | some (.arr list) => do
    let _ ← globList "globs must be a list of strings" "a glob exceeds 256 bytes" list
    .ok ()
  | some _ => .error "globs must be a list of strings"

def validateSearchSyntax : Except String Unit := do
  let pattern ← reqString args "pattern"
  refuseIf (8 * 1024 < pattern.length) "pattern exceeds 8 KiB"
  validatePath args
  validateLang args
  validateMaxMatches args
  validateGlobs args

def validate : BackendTool → Except String Unit
  | .executeScript => validateExecuteScript args
  | .searchSyntax => validateSearchSyntax args
  | .readFile => validateReadFile args
  | .listDir => validateListDir args
  | .writePatch => validateWritePatch args
  | .applyCodePatch => validateApplyCodePatch args

end Middleware

section Backend

variable (args : Option Fields)

def defaultSearchMaxMatches : ℤ := 100

def hardSearchMaxMatches : ℤ := 1000

def buildLang (lang : Bytes) : Except String Unit :=
  if lang = [] then .ok ()
  else do
    refuseIf (16 < lang.length) "'lang' exceeds 16 chars"
    refuseIf (lang.all isLetter = false) "'lang' must be alphabetic"

def buildPath (path : Bytes) : Except String Unit :=
  if path = [] then .ok ()
  else do
    refuseIf (isAbs (chars path)) "'path' must be relative to the workspace root"
    refuseIf (hasDotDot (cleanText (chars path))) "'path' must not contain '..'"

def buildMaxMatches : Except String ℤ :=
  match arg args "max_matches" with
  | none => .ok defaultSearchMaxMatches
  | some (.num q) => if truncInt q ≤ 0 then .error "'max_matches' must be a positive integer" else .ok (truncInt q)
  | some _ => .error "'max_matches' must be a positive integer"

def buildGlobs : Except String (List Bytes) :=
  match arg args "globs" with
  | none => .ok []
  | some (.arr list) => globList "'globs' must be a list of strings" "a glob in 'globs' exceeds 256 bytes" list
  | some _ => .error "'globs' must be a list of strings"

def buildSearchSyntaxCmd : Except String (List Bytes × ℤ) := do
  let pattern := stringArg (argsOf args) "pattern"
  let lang := stringArg (argsOf args) "lang"
  let path := stringArg (argsOf args) "path"
  refuseIf (pattern = []) "missing or empty 'pattern' arg"
  refuseIf (8 * 1024 < pattern.length) "'pattern' exceeds 8192 bytes"
  buildLang lang
  buildPath path
  let maxMatches ← buildMaxMatches args
  let globs ← buildGlobs args
  .ok ([utf8 "sg", utf8 "run", utf8 "--json=compact", utf8 "--pattern", pattern] ++
    (if lang = [] then [] else [utf8 "--lang", lang]) ++ globs.flatMap (fun g => [utf8 "--globs", g]) ++
    [if path = [] then utf8 "." else path], min maxMatches hardSearchMaxMatches)

inductive BadRequest
  | arg (e : PatchErr)
  | text (msg : String)
  deriving DecidableEq

def runWritePatch : Except BadRequest Unit := do
  let _ ← (argString (argsOf args) "path").mapError .arg
  let _ ← (argString (argsOf args) "content").mapError .arg
  if validMode (argsOf args) then .ok () else .error (.text "mode must be 'overwrite' or 'append'")

def runApplyCodePatch : Except BadRequest Unit := do
  let _ ← (argString (argsOf args) "file_path").mapError .arg
  let _ ← (argString (argsOf args) "search_string").mapError .arg
  let _ ← (argStringAllowEmpty (argsOf args) "replace_string").mapError .arg
  .ok ()

def backendCheck : BackendTool → Except BadRequest Unit
  | .executeScript => (refuseIf (stringArg (argsOf args) "script" = []) "missing or empty 'script' arg").mapError .text
  | .searchSyntax => ((buildSearchSyntaxCmd args).map fun _ => ()).mapError .text
  | .readFile | .listDir => ((argString (argsOf args) "path").map fun _ => ()).mapError .arg
  | .writePatch => runWritePatch args
  | .applyCodePatch => runApplyCodePatch args

end Backend

def Agreed (args : Option Fields) : BackendTool → Prop
  | .writePatch => ∀ s, arg args "mode" = some (.str s) → s ≠ []
  | .searchSyntax => (∀ s, arg args "path" = some (.str s) → (clean (parse (chars s))).1 = 0) ∧
      ∀ q, arg args "max_matches" = some (.num q) → 1 ≤ q
  | _ => True

section Parts

variable {args : Option Fields} {key : String} {s : Bytes}

theorem refuseIf_eq_ok_iff {p : Prop} [Decidable p] {msg : String} {u : Unit} : refuseIf p msg = .ok u ↔ ¬p := by
  unfold refuseIf
  rw [guard_eq_ok_iff]
  simp

theorem argsOf_eq (args : Option Fields) (key : String) : argsOf args key = (arg args key).map Value.toArg := by
  simp [argsOf, arg, Function.comp_def]

theorem reqString_eq_ok_iff : reqString args key = .ok s ↔ arg args key = some (.str s) ∧ s ≠ [] := by
  unfold reqString
  split
  next h => simp [h]
  next t h =>
    rw [h, guard_eq_ok_iff]
    simp only [Except.ok.injEq, Option.some.injEq, Value.str.injEq]
    constructor
    · rintro ⟨hne, rfl⟩
      exact ⟨rfl, hne⟩
    · rintro ⟨rfl, hne⟩
      exact ⟨hne, rfl⟩
  next v hv h =>
    rw [h]
    simp only [reduceCtorEq, Option.some.injEq, false_iff, not_and]
    exact fun he => absurd he (hv _)

theorem argString_of_arg (h : arg args key = some (.str s)) (hs : s ≠ []) : argString (argsOf args) key = .ok s := by
  simp [argString, argsOf_eq, h, Value.toArg, hs]

theorem argString_of_reqString (h : reqString args key = .ok s) : argString (argsOf args) key = .ok s := by
  obtain ⟨ha, hs⟩ := reqString_eq_ok_iff.mp h
  exact argString_of_arg ha hs

theorem stringArg_of_arg (h : arg args key = some (.str s)) : stringArg (argsOf args) key = s := by
  simp [stringArg, argsOf_eq, h, Value.toArg]

theorem stringArg_of_none (h : arg args key = none) : stringArg (argsOf args) key = [] := by
  simp [stringArg, argsOf_eq, h]

end Parts

theorem containsText_iff {s needle : List Char} : containsText s needle = true ↔ needle <:+: s := by
  simp only [containsText, any_eq_true, mem_tails, isPrefixOf_iff_prefix, infix_iff_prefix_suffix]
  exact ⟨fun ⟨t, hs, hp⟩ => ⟨t, hp, hs⟩, fun ⟨t, hp, hs⟩ => ⟨t, hs, hp⟩⟩

theorem not_dotDot_infix_body (ps : List Name) : ¬ ['/', '.', '.', '/'] <:+: body ps ++ ['/'] := by
  induction ps with
  | nil =>
    intro h
    have hlen := h.length_le
    simp [body] at hlen
  | cons p ps ih =>
    obtain ⟨u, hu, hrest⟩ := body_cons_slash p ps
    rw [hu]
    intro h
    rcases infix_cons_iff.mp h with hp | hi
    · have hdots : ['.', '.'] ++ '/' :: [] <+: p.1 ++ '/' :: u := (cons_prefix_cons.mp hp).2
      exact p.2.2.2.2 (prefix_of_slash (by decide) p.2.2.1 hdots).1.symm
    -- The match begins with a slash, and the name has none: it lies in what follows.
    have hin : ∀ n : List Char, '/' ∉ n → ['/', '.', '.', '/'] <:+: n ++ '/' :: u →
        ['/', '.', '.', '/'] <:+: '/' :: u := by
      intro n hn hinf
      induction n with
      | nil => exact hinf
      | cons c n ihn =>
        simp only [mem_cons, not_or] at hn
        rcases infix_cons_iff.mp hinf with hp | hi
        · exact absurd (cons_prefix_cons.mp hp).1 hn.1
        · exact ihn hn.2 hi
    exact ih (hrest ▸ hin p.1 p.2.2.1 hi)

theorem hasDotDot_infix {t : List Char} (h : hasDotDot t = true) : ['/', '.', '.', '/'] <:+: '/' :: t ++ ['/'] := by
  simp only [hasDotDot, Bool.or_eq_true, beq_iff_eq, isPrefixOf_iff_prefix, containsText_iff] at h
  rcases h with (rfl | ⟨rest, rfl⟩) | ⟨pre, post, rfl⟩
  · exact infix_rfl
  · exact ⟨[], rest ++ ['/'], by simp⟩
  · exact ⟨'/' :: pre, post ++ ['/'], by simp⟩

theorem hasDotDot_relText (ps : List Name) : hasDotDot (relText ps) = false := by
  by_cases hps : ps = []
  · subst hps
    decide
  rw [Bool.eq_false_iff]
  intro h
  have hinf := hasDotDot_infix h
  rw [← body_eq_slash_relText hps] at hinf
  exact not_dotDot_infix_body ps hinf

theorem hasDotDot_cleanText (p : List Char) : hasDotDot (cleanText p) = true ↔ (clean (parse p)).1 ≠ 0 := by
  unfold cleanText
  by_cases hups : (clean (parse p)).1 = 0
  · simp [hups, hasDotDot_relText]
  rw [if_neg hups]
  obtain ⟨k, hk⟩ := Nat.exists_eq_succ_of_ne_zero hups
  rw [hk, Nat.succ_eq_add_one, replicate_succ, cons_append]
  cases List.replicate k ['.', '.'] ++ (clean (parse p)).2.map Subtype.val with
  | nil => simp [hasDotDot, List.intercalate]
  | cons n ns => simp [hasDotDot, List.intercalate, List.intersperse]

theorem truncInt_nonpos_iff {q : ℚ} (hq : 0 < q) : truncInt q ≤ 0 ↔ q < 1 := by
  have hnum : 0 < q.num := Rat.num_pos.mpr hq
  have hden : (0 : ℤ) < q.den := by exact_mod_cast q.den_pos
  rw [truncInt, Int.tdiv_eq_ediv_of_nonneg (Int.le_of_lt hnum), ← Rat.num_lt_denom_iff]
  constructor
  · intro h
    by_contra hlt
    have hone : 1 ≤ q.num / q.den := (Int.le_ediv_iff_mul_le hden).mpr (by omega)
    omega
  · intro h
    rw [Int.ediv_eq_zero_of_lt (Int.le_of_lt hnum) h]

theorem toLower_eq_nil_iff {s : Bytes} : toLower s = [] ↔ s = [] := by
  fun_cases toLower s <;> simp

section Search

variable {args : Option Fields}

theorem buildLang_of_validateLang (h : validateLang args = .ok ()) :
    buildLang (stringArg (argsOf args) "lang") = .ok () := by
  unfold validateLang at h
  split at h
  next hl => simp [buildLang, stringArg_of_none hl]
  next s hl =>
    simp only [bind_eq_ok_iff, refuseIf_eq_ok_iff] at h
    obtain ⟨_, hlen, hall⟩ := h
    rw [buildLang, stringArg_of_arg hl]
    split
    next => rfl
    next =>
      simp only [bind_eq_ok_iff, refuseIf_eq_ok_iff]
      exact ⟨(), hlen, hall⟩
  next => cases h

theorem buildPath_ok_iff (h : validatePath args = .ok ()) : buildPath (stringArg (argsOf args) "path") = .ok () ↔
      ∀ s, arg args "path" = some (.str s) → (clean (parse (chars s))).1 = 0 := by
  unfold validatePath at h
  split at h
  next hp => simp [buildPath, stringArg_of_none hp, hp]
  next s hp =>
    simp only [bind_eq_ok_iff, refuseIf_eq_ok_iff] at h
    obtain ⟨_, habs, _⟩ := h
    have hs : (∀ t, arg args "path" = some (.str t) → (clean (parse (chars t))).1 = 0) ↔
        (clean (parse (chars s))).1 = 0 := by simp [hp]
    rw [hs, buildPath, stringArg_of_arg hp]
    split
    next hnil =>
      subst hnil
      exact ⟨fun _ => by decide +kernel, fun _ => rfl⟩
    next =>
      simp only [bind_eq_ok_iff, refuseIf_eq_ok_iff, hasDotDot_cleanText, not_not]
      constructor
      · rintro ⟨_, _, hups⟩
        exact hups
      · exact fun hups => ⟨(), habs, hups⟩
  next => cases h

theorem buildMaxMatches_ok_iff (h : validateMaxMatches args = .ok ()) :
    (∃ n, buildMaxMatches args = .ok n) ↔ ∀ q, arg args "max_matches" = some (.num q) → 1 ≤ q := by
  unfold validateMaxMatches at h
  split at h
  next hm => simp [buildMaxMatches, hm]
  next q hm =>
    simp only [refuseIf_eq_ok_iff, not_or, not_le] at h
    have hq : (∀ r, arg args "max_matches" = some (.num r) → 1 ≤ r) ↔ 1 ≤ q := by simp [hm]
    rw [hq]
    simp only [buildMaxMatches, hm, guard_eq_ok_iff, truncInt_nonpos_iff h.1, not_lt]
    constructor
    · rintro ⟨_, hle, _⟩
      exact hle
    · exact fun hle => ⟨_, hle, rfl⟩
  next => cases h

theorem globList_ok_of {notStrings tooLong notStrings' tooLong' : String} {list : List Value} {globs : List Bytes}
    (h : globList notStrings tooLong list = .ok globs) : globList notStrings' tooLong' list = .ok globs := by
  induction list generalizing globs with
  | nil => exact h
  | cons v rest ih =>
    cases v with
    | str s =>
      simp only [globList, bind_eq_ok_iff, refuseIf_eq_ok_iff] at h ⊢
      obtain ⟨u, hlen, gs, hgs, hcons⟩ := h
      exact ⟨u, hlen, gs, ih hgs, hcons⟩
    | null | bool | num | arr | obj => cases h

theorem buildGlobs_of_validateGlobs (h : validateGlobs args = .ok ()) : ∃ globs, buildGlobs args = .ok globs := by
  unfold validateGlobs at h
  split at h
  next hg => exact ⟨[], by simp [buildGlobs, hg]⟩
  next list hg =>
    obtain ⟨globs, hgs, _⟩ := bind_eq_ok_iff.mp h
    exact ⟨globs, by simp only [buildGlobs, hg, globList_ok_of hgs]⟩
  next => cases h

theorem buildSearchSyntaxCmd_ok_iff (h : validateSearchSyntax args = .ok ()) :
    (∃ cmd, buildSearchSyntaxCmd args = .ok cmd) ↔ Agreed args .searchSyntax := by
  simp only [validateSearchSyntax, bind_eq_ok_iff, refuseIf_eq_ok_iff] at h
  obtain ⟨pattern, hreq, _, hlen, _, hpath, _, hlang, _, hmax, hglobs⟩ := h
  obtain ⟨harg, hne⟩ := reqString_eq_ok_iff.mp hreq
  obtain ⟨globs, hg⟩ := buildGlobs_of_validateGlobs hglobs
  rw [Agreed, ← buildPath_ok_iff hpath, ← buildMaxMatches_ok_iff hmax]
  simp only [buildSearchSyntaxCmd, bind_eq_ok_iff, refuseIf_eq_ok_iff, stringArg_of_arg harg]
  constructor
  · rintro ⟨_, _, _, _, _, _, _, _, hp, n, hn, _⟩
    exact ⟨hp, n, hn⟩
  · rintro ⟨hp, n, hn⟩
    exact ⟨_, (), hne, (), hlen, (), buildLang_of_validateLang hlang, (), hp, n, hn, globs, hg, rfl⟩

end Search

section Files

variable {args : Option Fields}

theorem runWritePatch_ok_iff (h : validateWritePatch args = .ok ()) :
    runWritePatch args = .ok () ↔ Agreed args .writePatch := by
  simp only [validateWritePatch, bind_eq_ok_iff] at h
  obtain ⟨path, hpath, content, hcontent, hmode⟩ := h
  have hrun : runWritePatch args = .ok () ↔ validMode (argsOf args) = true := by
    simp only [runWritePatch, bind_eq_ok_iff, mapError_eq_ok_iff, argString_of_reqString hpath,
      argString_of_reqString hcontent]
    cases validMode (argsOf args) <;> simp
  rw [hrun, Agreed, validMode, argsOf_eq]
  split at hmode
  next s hm =>
    simp only [refuseIf_eq_ok_iff, not_and, not_not] at hmode
    simp only [hm, Option.map_some, Value.toArg, Bool.or_eq_true, beq_iff_eq, Option.some.injEq, Value.str.injEq,
      forall_eq']
    constructor
    · rintro ho rfl
      exact absurd ho (by decide +kernel)
    · intro hne
      by_cases ho : toLower s = utf8 "overwrite"
      · exact .inl ho
      · exact .inr (hmode (toLower_eq_nil_iff.not.mpr hne) ho)
  next hm =>
    cases ha : arg args "mode" with
    | none => simp
    | some v =>
      cases v with
      | str s => exact absurd ha (hm s)
      | null | bool | num | arr | obj => simp [Value.toArg]

theorem runApplyCodePatch_ok (h : validateApplyCodePatch args = .ok ()) : runApplyCodePatch args = .ok () := by
  simp only [validateApplyCodePatch, bind_eq_ok_iff] at h
  obtain ⟨path, hpath, search, hsearch, hreplace⟩ := h
  have hrep : ∃ r, argStringAllowEmpty (argsOf args) "replace_string" = .ok r := by
    split at hreplace
    next => cases hreplace
    next r hr => exact ⟨r, by simp [argStringAllowEmpty, argsOf_eq, hr, Value.toArg]⟩
    next => cases hreplace
  obtain ⟨r, hr⟩ := hrep
  simp only [runApplyCodePatch, bind_eq_ok_iff, mapError_eq_ok_iff]
  exact ⟨path, argString_of_reqString hpath, search, argString_of_reqString hsearch, r, hr, trivial⟩

theorem argString_of_validateReadFile (h : validateReadFile args = .ok ()) :
    (((argString (argsOf args) "path").map fun _ => ()).mapError BadRequest.arg) = .ok () := by
  obtain ⟨path, hpath, _⟩ := bind_eq_ok_iff.mp h
  rw [argString_of_reqString hpath]
  rfl

end Files

theorem validated_accepted_iff (tool : BackendTool) (args : Option Fields) (h : validate args tool = .ok ()) :
    backendCheck args tool = .ok () ↔ Agreed args tool := by
  cases tool with
  | executeScript =>
    simp only [validate, validateExecuteScript, bind_eq_ok_iff] at h
    obtain ⟨script, hscript, _⟩ := h
    obtain ⟨harg, hne⟩ := reqString_eq_ok_iff.mp hscript
    simp [backendCheck, Agreed, mapError_eq_ok_iff, refuseIf_eq_ok_iff, stringArg_of_arg harg, hne]
  | searchSyntax =>
    rw [← buildSearchSyntaxCmd_ok_iff h, backendCheck, mapError_eq_ok_iff]
    cases buildSearchSyntaxCmd args <;> simp [Except.map]
  | readFile | listDir => exact iff_of_true (argString_of_validateReadFile h) trivial
  | writePatch => exact runWritePatch_ok_iff h
  | applyCodePatch => exact iff_of_true (runApplyCodePatch_ok h) trivial

theorem validated_search_accepted :
    validate (some [("max_matches", .num (3 / 2)), ("path", .str (utf8 "src")), ("pattern", .str (utf8 "$A"))])
        .searchSyntax = .ok () ∧
    backendCheck (some [("max_matches", .num (3 / 2)), ("path", .str (utf8 "src")), ("pattern", .str (utf8 "$A"))])
        .searchSyntax = .ok () := by
  have h : validate (some [("max_matches", .num (3 / 2)), ("path", .str (utf8 "src")),
      ("pattern", .str (utf8 "$A"))]) .searchSyntax = .ok () := by decide +kernel
  refine ⟨h, (validated_accepted_iff _ _ h).mpr ⟨?_, ?_⟩⟩
  · rintro s hs
    cases hs
    decide +kernel
  · rintro q hq
    cases hq
    decide +kernel

theorem validated_refused :
    (validate (some [("content", .str (utf8 "x")), ("mode", .str []), ("path", .str (utf8 "a"))]) .writePatch = .ok () ∧
      backendCheck (some [("content", .str (utf8 "x")), ("mode", .str []), ("path", .str (utf8 "a"))]) .writePatch =
        .error (.text "mode must be 'overwrite' or 'append'")) ∧
    (validate (some [("max_matches", .num (1 / 2)), ("pattern", .str (utf8 "$A"))]) .searchSyntax = .ok () ∧
      backendCheck (some [("max_matches", .num (1 / 2)), ("pattern", .str (utf8 "$A"))]) .searchSyntax =
        .error (.text "'max_matches' must be a positive integer")) ∧
    (validate (some [("path", .str (utf8 "./..")), ("pattern", .str (utf8 "$A"))]) .searchSyntax = .ok () ∧
      backendCheck (some [("path", .str (utf8 "./..")), ("pattern", .str (utf8 "$A"))]) .searchSyntax =
        .error (.text "'path' must not contain '..'")) := by
  decide +kernel

end NomadDev.ArgChecks
