import NomadDev.Patches
import NomadDev.Foundation.UnifiedDiff
import NomadDev.Foundation.Lines

/-!
The check counts occurrences that do not overlap, so one that starts inside another is not seen.
-/

namespace NomadDev.Fsops

open Foundation.FileTree Foundation.PathText Foundation.UnifiedDiff Foundation.Lines List

def OccursAt (search raw : Bytes) (i : ℕ) : Prop := search <+: raw.drop i

instance (search raw : Bytes) (i : ℕ) : Decidable (OccursAt search raw i) :=
  inferInstanceAs (Decidable (search <+: raw.drop i))

def Overlaps (search raw : Bytes) : Prop :=
  ∃ i j, OccursAt search raw i ∧ OccursAt search raw j ∧ i < j ∧ j < i + search.length

def ReplacesUnique (search replace raw newContent : Bytes) : Prop :=
  ∃ i, (∀ j, OccursAt search raw j ↔ j = i) ∧ newContent = raw.take i ++ replace ++ raw.drop (i + search.length)

section Search

variable {search raw : Bytes} {i : ℕ}

theorem index_some (h : index search raw = some i) : OccursAt search raw i ∧ ∀ j, OccursAt search raw j → i ≤ j := by
  induction raw generalizing i with
  | nil =>
    rw [index] at h
    split at h <;> cases h
    next hnil => exact ⟨hnil ▸ List.nil_prefix, fun j _ => Nat.zero_le j⟩
  | cons c cs ih =>
    rw [index] at h
    split at h
    next hpre =>
      cases h
      exact ⟨List.isPrefixOf_iff_prefix.mp hpre, fun j _ => Nat.zero_le j⟩
    next hpre =>
      obtain ⟨i', hi', rfl⟩ := Option.map_eq_some_iff.mp h
      obtain ⟨hocc, hfirst⟩ := ih hi'
      refine ⟨hocc, fun j hj => ?_⟩
      cases j with
      | zero => exact absurd (List.isPrefixOf_iff_prefix.mpr hj) hpre
      | succ j => exact Nat.succ_le_succ (hfirst j hj)

theorem index_none (h : index search raw = none) (j : ℕ) : ¬OccursAt search raw j := by
  induction raw generalizing j with
  | nil =>
    intro hocc
    rw [OccursAt, List.drop_nil, List.prefix_nil] at hocc
    rw [index, if_pos hocc] at h
    cases h
  | cons c cs ih =>
    rw [index] at h
    split at h
    next => cases h
    next hpre =>
      cases j with
      | zero => exact fun hocc => hpre (List.isPrefixOf_iff_prefix.mpr hocc)
      | succ j => exact ih (Option.map_eq_none_iff.mp h) j

theorem countFrom_skip (skip : ℕ) (raw : Bytes) : countFrom search skip raw = countFrom search 0 (raw.drop skip) := by
  induction raw generalizing skip with
  | nil => cases skip <;> rfl
  | cons c cs ih =>
    cases skip with
    | zero => rfl
    | succ skip => exact ih skip

theorem countFrom_of_index (hne : search ≠ []) (h : index search raw = some i) :
    countFrom search 0 raw = countFrom search 0 (raw.drop (i + search.length)) + 1 := by
  induction raw generalizing i with
  | nil =>
    rw [index, if_neg hne] at h
    cases h
  | cons c cs ih =>
    rw [index] at h
    rw [countFrom]
    split at h
    next hpre =>
      cases h
      obtain ⟨n, hn⟩ := Nat.exists_eq_succ_of_ne_zero (mt List.length_eq_zero_iff.mp hne)
      rw [if_pos hpre, countFrom_skip, hn, Nat.zero_add]
      rfl
    next hpre =>
      obtain ⟨i', hi', rfl⟩ := Option.map_eq_some_iff.mp h
      rw [if_neg hpre, ih hi', Nat.add_right_comm]
      rfl

theorem countFrom_of_index_none (h : index search raw = none) : countFrom search 0 raw = 0 := by
  induction raw with
  | nil => rfl
  | cons c cs ih =>
    rw [index] at h
    split at h
    next => cases h
    next hpre =>
      rw [countFrom, if_neg hpre]
      exact ih (Option.map_eq_none_iff.mp h)

theorem occurrences_of_count_one (hne : search ≠ []) (h : countFrom search 0 raw = 1) :
    ∃ i, index search raw = some i ∧ ∀ j, OccursAt search raw j → i ≤ j ∧ j < i + search.length := by
  cases hi : index search raw with
  | none =>
    rw [countFrom_of_index_none hi] at h
    cases h
  | some i =>
    refine ⟨i, rfl, fun j hj => ⟨(index_some hi).2 j hj, ?_⟩⟩
    by_contra hlater
    rw [countFrom_of_index hne hi] at h
    have hzero : countFrom search 0 (raw.drop (i + search.length)) = 0 := Nat.succ.inj h
    cases hrest : index search (raw.drop (i + search.length)) with
    | none =>
      apply index_none hrest (j - (i + search.length))
      rw [OccursAt, List.drop_drop, Nat.add_sub_cancel' (Nat.le_of_not_lt hlater)]
      exact hj
    | some k =>
      rw [countFrom_of_index hne hrest] at hzero
      cases hzero

end Search

variable {args : Args}

theorem argString_ne_nil {key : String} {s : Bytes} (h : argString args key = .ok s) : s ≠ [] := by
  unfold argString at h
  split at h
  next => cases h
  next =>
    split at h <;> cases h
    next hne => exact hne
  next => cases h

theorem accepted_edit {e : Engine} {sid : Bytes} {d d' : Disk} {maxBytes : ℕ} {plan : ApplyCodePatchPlan}
    {search replace : Bytes} (h : e.computeApplyCodePatch sid d args maxBytes = (d', .ok plan))
    (hsearch : argString args "search_string" = .ok search)
    (hreplace : argStringAllowEmpty args "replace_string" = .ok replace) : ∃ i, index search plan.original = some i ∧
      (∀ j, OccursAt search plan.original j → i ≤ j ∧ j < i + search.length) ∧
      plan.newContent = plan.original.take i ++ replace ++ plan.original.drop (i + search.length) ∧
      plan.unifiedDiff = renderUnifiedDiff plan.path plan.original plan.newContent i search.length replace.length := by
  obtain ⟨path, _, search', replace', _, hs, hr, _, _, _, _, _, hplan⟩ := computeApplyCodePatch_ok h
  cases hsearch.symm.trans hs
  cases hreplace.symm.trans hr
  obtain ⟨raw, -, hedit⟩ := readAndPlan_reads hplan
  obtain ⟨hcount, -, horig, hpath, hnew, hdiff⟩ := planEdit_ok hedit
  subst horig
  subst hpath
  obtain ⟨i, hi, hinside⟩ := occurrences_of_count_one (argString_ne_nil hsearch) hcount
  rw [hi, Option.getD_some] at hnew hdiff
  exact ⟨i, hi, hinside, hnew, hdiff⟩

theorem accepted_edit_unique_iff {e : Engine} {sid : Bytes} {d d' : Disk} {args : Args} {maxBytes : ℕ}
    {plan : ApplyCodePatchPlan} {search replace : Bytes}
    (h : e.computeApplyCodePatch sid d args maxBytes = (d', .ok plan))
    (hsearch : argString args "search_string" = .ok search)
    (hreplace : argStringAllowEmpty args "replace_string" = .ok replace) :
    ReplacesUnique search replace plan.original plan.newContent ↔ ¬Overlaps search plan.original := by
  obtain ⟨i, hi, hinside, hnew, -⟩ := accepted_edit h hsearch hreplace
  have hfirst := (index_some hi).1
  constructor
  · rintro ⟨k, hunique, -⟩ ⟨a, b, ha, hb, hlt, -⟩
    have hab : a = b := ((hunique a).mp ha).trans ((hunique b).mp hb).symm
    exact Nat.ne_of_lt hlt hab
  · intro hdisjoint
    refine ⟨i, fun j => ⟨fun hj => ?_, fun hj => hj ▸ hfirst⟩, hnew⟩
    obtain ⟨hle, hlt⟩ := hinside j hj
    by_contra hne
    exact hdisjoint ⟨i, j, hfirst, hj, Nat.lt_of_le_of_ne hle (Ne.symm hne), hlt⟩

def reportEntries : List (List Name × Node Name) := [([ws], .dir), ([ws, report], .file)]

theorem reportEntries_parents : ∀ e ∈ reportEntries, entryNode reportEntries e.1.dropLast = some .dir := by decide

def reportDisk (text : String) : Disk :=
  { demoDisk (ofEntries reportEntries reportEntries_parents) with content := fun _ => utf8 text }

def reportPatch (search replace : String) : Args := fun key =>
  if key = "file_path" then some (.str (utf8 "report"))
  else if key = "search_string" then some (.str (utf8 search))
  else if key = "replace_string" then some (.str (utf8 replace))
  else none

def reportPlan (text search replace : String) : Disk × Except PatchErr ApplyCodePatchPlan :=
  Engine.computeApplyCodePatch ⟨[ws], false⟩ [] (reportDisk text) (reportPatch search replace) 0

theorem accepted_edit_unique_iff_abc : ∃ plan, (reportPlan "abc" "b" "x").2 = .ok plan ∧
      ReplacesUnique (utf8 "b") (utf8 "x") plan.original plan.newContent := by
  have hplan : reportPlan "abc" "b" "x" = (_, .ok _) := rfl
  have hsearch : argString (reportPatch "b" "x") "search_string" = .ok (utf8 "b") := rfl
  have hreplace : argStringAllowEmpty (reportPatch "b" "x") "replace_string" = .ok (utf8 "x") := rfl
  refine ⟨_, rfl, (accepted_edit_unique_iff hplan hsearch hreplace).mpr ?_⟩
  rintro ⟨i, j, -, -, hlt, hlen⟩
  have hone : (utf8 "b").length = 1 := by decide +kernel
  omega

theorem overlapping_search_accepted :
    ∃ plan, (reportPlan "aaa" "aa" "b").2 = .ok plan ∧ OccursAt (utf8 "aa") plan.original 0 ∧
      OccursAt (utf8 "aa") plan.original 1 ∧ plan.newContent = utf8 "ba" :=
  ⟨_, rfl, by decide +kernel⟩

def fileHeader (path : Bytes) : Bytes := utf8 "--- a/" ++ path ++ utf8 "\n+++ b/" ++ path ++ utf8 "\n"

def sign : Mark → String
  | .context => " "
  | .removed => "-"
  | .added => "+"

def renderRows (rows : List (Mark × Bytes)) : Bytes := rows.flatMap fun row => utf8 (sign row.1) ++ row.2 ++ [newline]

def renderHunk (hunk : Hunk Bytes) : Bytes :=
  utf8 ("@@ -" ++ toString hunk.oldStart ++ "," ++ toString hunk.oldCount ++ " +" ++ toString hunk.newStart ++ "," ++
    toString hunk.newCount ++ " @@\n") ++ renderRows hunk.rows

def DiffOf (path before after diff : Bytes) : Prop :=
  ∃ hunk : Hunk Bytes, diff = fileHeader path ++ renderHunk hunk ∧ (∀ row ∈ hunk.rows, newline ∉ row.2) ∧
    hunk.Correct (before.splitOn newline) (after.splitOn newline)

theorem utf8_append (s t : String) : utf8 (s ++ t) = utf8 s ++ utf8 t := by
  rw [utf8, String.toUTF8, String.toByteArray_append, ByteArray.data_append, Array.toList_append]
  rfl

theorem renderRows_marked (m : Mark) (lines : List Bytes) :
    renderRows (marked m lines) = lines.flatMap fun line => utf8 (sign m) ++ line ++ [newline] := by
  rw [renderRows, marked, flatMap_map]

theorem renderRows_append (xs ys : List (Mark × Bytes)) : renderRows (xs ++ ys) = renderRows xs ++ renderRows ys :=
  flatMap_append

section Splice

variable (path p search replace r : Bytes)

def spliceHunk : Hunk Bytes :=
  editHunk 3 (completed newline p) (touched newline p search r) (touched newline p replace r) (r.splitOn newline).tail

theorem spliceHunk_correct : (spliceHunk p search replace r).Correct ((p ++ search ++ r).splitOn newline)
      ((p ++ replace ++ r).splitOn newline) := by
  rw [splitOn_eq_touched, splitOn_eq_touched]
  exact editHunk_correct ..

theorem newline_not_mem_row {row : Mark × Bytes} (h : row ∈ (spliceHunk p search replace r).rows) :
    newline ∉ row.2 := by
  have hlines : ∃ text : Bytes, row.2 ∈ text.splitOn newline := by
    simp only [spliceHunk, editHunk, marked, mem_append, mem_map] at h
    rcases h with ((⟨line, hline, rfl⟩ | ⟨line, hline, rfl⟩) | ⟨line, hline, rfl⟩) | ⟨line, hline, rfl⟩
    · exact ⟨p, mem_of_mem_dropLast (mem_of_mem_drop hline)⟩
    · exact ⟨p ++ search ++ r, mem_of_mem_drop (mem_of_mem_take hline)⟩
    · exact ⟨p ++ replace ++ r, mem_of_mem_drop (mem_of_mem_take hline)⟩
    · exact ⟨r, mem_of_mem_tail (mem_of_mem_take hline)⟩
  obtain ⟨text, hmem⟩ := hlines
  exact not_mem_of_mem_splitOn hmem

theorem lead_rows :
    ((((p ++ search ++ r).splitOn newline).drop (p.count newline - 3)).take (p.count newline - (p.count newline - 3))) =
      (completed newline p).drop (p.count newline - 3) := by
  rw [← take_splitOn_append p (search ++ r), append_assoc, drop_take]

theorem trail_rows : ((((p ++ replace ++ r).splitOn newline).drop ((p ++ replace).count newline + 1)).take
      (min ((p ++ replace).count newline + 3) (((p ++ replace ++ r).splitOn newline).length - 1) + 1 -
        ((p ++ replace).count newline + 1))) = (r.splitOn newline).tail.take 3 := by
  rw [drop_splitOn_append, take_eq_take_iff]
  simp only [length_tail, length_splitOn, count_append]
  omega

theorem spliceHunk_count : min ((p ++ search).count newline + 3) (((p ++ search ++ r).splitOn newline).length - 1) -
        (p.count newline - 3) + 1 =
      ((completed newline p).drop (p.count newline - 3)).length + (touched newline p search r).length +
        ((r.splitOn newline).tail.take 3).length := by
  simp only [length_drop, length_take, length_tail, length_splitOn, length_touched, length_completed, count_append]
  omega

theorem renderUnifiedDiff_splice :
    renderUnifiedDiff path (p ++ search ++ r) (p ++ replace ++ r) p.length search.length replace.length =
      fileHeader path ++ renderHunk (spliceHunk p search replace r) := by
  have htake : ∀ s : Bytes, (p ++ s ++ r).take (p.length + s.length) = p ++ s := by
    intro s
    exact take_left' (length_append)
  have hfirst : (p ++ search ++ r).take p.length = p := by
    rw [append_assoc]
    exact take_left
  have hopen : utf8 "\n@@ -" = utf8 "\n" ++ utf8 "@@ -" := by decide +kernel
  simp only [renderUnifiedDiff, hfirst, htake, diffRows]
  rw [lead_rows, trail_rows, spliceHunk_count p search r, spliceHunk_count p replace r]
  simp only [fileHeader, renderHunk, spliceHunk, editHunk, length_completed, renderRows_append, renderRows_marked,
    touched, sign, hopen, utf8_append, append_assoc]

end Splice

theorem renderUnifiedDiff_diffOf (path p search replace r : Bytes) : DiffOf path (p ++ search ++ r) (p ++ replace ++ r)
      (renderUnifiedDiff path (p ++ search ++ r) (p ++ replace ++ r) p.length search.length replace.length) :=
  ⟨spliceHunk p search replace r, renderUnifiedDiff_splice .., fun _ hrow => newline_not_mem_row _ _ _ _ hrow,
    spliceHunk_correct ..⟩

theorem split_of_index {search raw : Bytes} {i : ℕ} (h : index search raw = some i) :
    ∃ p r, raw = p ++ search ++ r ∧ p.length = i ∧ raw.take i = p ∧ raw.drop (i + search.length) = r := by
  obtain ⟨⟨r, hr⟩, hfirst⟩ := index_some h
  have hlength : (raw.take i).length = i := by
    apply length_take_of_le
    by_contra hlong
    have hnil : raw.drop i = [] := drop_of_length_le (Nat.le_of_not_le hlong)
    rw [hnil, append_eq_nil_iff] at hr
    have hzero : i ≤ 0 := hfirst 0 (hr.1 ▸ nil_prefix)
    omega
  refine ⟨raw.take i, r, ?_, hlength, rfl, ?_⟩
  · rw [append_assoc, hr, take_append_drop]
  · rw [← drop_drop, ← hr, drop_left]

theorem accepted_edit_diff {e : Engine} {sid : Bytes} {d d' : Disk} {args : Args} {maxBytes : ℕ}
    {plan : ApplyCodePatchPlan} (h : e.computeApplyCodePatch sid d args maxBytes = (d', .ok plan)) :
    DiffOf plan.path plan.original plan.newContent plan.unifiedDiff := by
  obtain ⟨_, _, search, replace, _, hsearch, hreplace, _⟩ := computeApplyCodePatch_ok h
  obtain ⟨i, hi, -, hnew, hdiff⟩ := accepted_edit h hsearch hreplace
  obtain ⟨p, r, horig, rfl, hp, hr⟩ := split_of_index hi
  rw [hdiff, hnew, hp, hr, horig]
  exact renderUnifiedDiff_diffOf ..

theorem accepted_edit_diff_abc : ∃ plan, (reportPlan "abc" "b" "x").2 = .ok plan ∧
    DiffOf plan.path plan.original plan.newContent plan.unifiedDiff := by
  have hplan : reportPlan "abc" "b" "x" = (_, .ok _) := rfl
  exact ⟨_, rfl, accepted_edit_diff hplan⟩

theorem unified_diff_correct (path : Bytes) {before search : Bytes} (replace : Bytes) {i : ℕ}
    (h : index search before = some i) :
    let after := before.take i ++ replace ++ before.drop (i + search.length)
    DiffOf path before after (renderUnifiedDiff path before after i search.length replace.length) := by
  obtain ⟨p, r, hbefore, rfl, hp, hr⟩ := split_of_index h
  rw [hp, hr, hbefore]
  exact renderUnifiedDiff_diffOf ..

theorem unified_diff_correct_lastLine : ∃ diff, DiffOf (utf8 "report") [97, newline, 98] [97, newline, 99] diff := by
  have hindex : index [98] [97, newline, 98] = some 2 := by decide
  exact ⟨_, unified_diff_correct (utf8 "report") [99] hindex⟩

end NomadDev.Fsops
