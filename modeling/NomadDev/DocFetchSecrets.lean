import NomadDev.DocFetchScreen

namespace NomadDev.DocFetch

open Fsops Foundation.Pattern Foundation.Percent List

def exposed (u : URL) : List Bytes :=
  [u.hostname, u.escapedPath, decode u.escapedPath, u.rawQuery, decode u.rawQuery]

def Clean (u : URL) : Prop := ∀ p ∈ secretPatterns, ∀ s ∈ exposed u, ¬Occurs p s

def Covered (u : URL) : Prop :=
  ∀ p ∈ secretPatterns, ¬StartsInEscape p u.escapedPath ∧ ∀ pair ∈ u.pairs, match readPair pair with
    | some _ => ¬StartsInEscape p pair
    | none => ¬Occurs p pair ∧ ¬Occurs p (decode pair)

section Query

variable {m : Values} {kv : Bytes × Bytes} {pair k v : Bytes}

theorem mem_addValue_self (m : Values) (kv : Bytes × Bytes) : ∃ vs, (kv.1, vs) ∈ addValue m kv ∧ kv.2 ∈ vs := by
  unfold addValue
  split
  next h =>
    obtain ⟨e, he, hkey⟩ := any_eq_true.mp h
    refine ⟨e.2 ++ [kv.2], mem_map.mpr ⟨e, he, ?_⟩, mem_append_right _ (mem_singleton_self _)⟩
    rw [if_pos (beq_iff_eq.mp hkey), beq_iff_eq.mp hkey]
  · exact ⟨[kv.2], mem_append_right _ (mem_singleton_self _), mem_singleton_self _⟩

theorem mem_addValue {vs : List Bytes} (h : (k, vs) ∈ m) (hv : v ∈ vs) (kv : Bytes × Bytes) :
    ∃ vs, (k, vs) ∈ addValue m kv ∧ v ∈ vs := by
  unfold addValue
  split
  · by_cases hkey : k = kv.1
    · exact ⟨vs ++ [kv.2], mem_map.mpr ⟨(k, vs), h, if_pos hkey⟩, mem_append_left _ hv⟩
    · exact ⟨vs, mem_map.mpr ⟨(k, vs), h, if_neg hkey⟩, hv⟩
  · exact ⟨vs, mem_append_left _ h, hv⟩

theorem mem_foldl_addValue (l : List (Bytes × Bytes)) (h : kv ∈ l ∨ ∃ vs, (kv.1, vs) ∈ m ∧ kv.2 ∈ vs) :
    ∃ vs, (kv.1, vs) ∈ l.foldl addValue m ∧ kv.2 ∈ vs := by
  induction l generalizing m with
  | nil => exact h.resolve_left not_mem_nil
  | cons first l ih =>
    refine ih ?_
    rcases h with h | ⟨vs, hvs, hv⟩
    · rcases mem_cons.mp h with rfl | h
      · exact Or.inr (mem_addValue_self m kv)
      · exact Or.inl h
    · exact Or.inr (mem_addValue hvs hv first)

theorem exists_values {u : URL} (hpair : pair ∈ u.pairs) (h : readPair pair = some kv) :
    ∃ vs, (kv.1, vs) ∈ u.query ∧ kv.2 ∈ vs :=
  mem_foldl_addValue _ (Or.inl (mem_filterMap.mpr ⟨pair, hpair, h⟩))

theorem key_value (pair : Bytes) : pair = key pair ∨ pair = key pair ++ 61 :: value pair := by
  induction pair with
  | nil => exact Or.inl rfl
  | cons c pair ih =>
    by_cases hc : c = 61
    · exact Or.inr (by simp [key, value, hc])
    have hkey : key (c :: pair) = c :: key pair := takeWhile_cons_of_pos (by simpa using hc)
    have hvalue : value (c :: pair) = value pair :=
      congrArg List.tail (dropWhile_cons_of_pos (by simpa using hc))
    rw [hkey, hvalue]
    exact ih.imp (congrArg (c :: ·)) (congrArg (c :: ·))

theorem queryUnescape_eq_some {s t : Bytes} (h : queryUnescape s = some t) : decode (s.map plusToSpace) = t :=
  Option.some.inj (Option.ite_none_right_eq_some.mp h).2

theorem readPair_eq_some (h : readPair pair = some kv) :
    queryUnescape (key pair) = some kv.1 ∧ queryUnescape (value pair) = some kv.2 := by
  obtain ⟨-, h⟩ := Option.ite_none_left_eq_some.mp h
  obtain ⟨k, hk, h⟩ := Option.bind_eq_some_iff.mp h
  obtain ⟨v, hv, rfl⟩ := Option.map_eq_some_iff.mp h
  exact ⟨hk, hv⟩

end Query

section Occurrences

variable {env : Env} {u : URL} {p : List (Piece UInt8)} {pair : Bytes} {kv : Bytes × Bytes}

theorem avoids_signs (hp : p ∈ secretPatterns) : Avoids p 37 ∧ Avoids p 38 ∧ Avoids p 43 ∧ Avoids p 61 := by
  have hall : ∀ p ∈ secretPatterns, ∀ c ∈ [37, 38, 43, 61], ∀ piece ∈ p, piece.accepts c = false := by
    decide +kernel
  have hc := hall p hp
  simpa [Avoids] using hc

theorem occurs_rawQuery (hp : p ∈ secretPatterns) : Occurs p u.rawQuery ↔ ∃ pair ∈ u.pairs, Occurs p pair := by
  obtain ⟨x, l, hpairs⟩ := exists_cons_of_ne_nil (splitOn_ne_nil 38 u.rawQuery)
  have hjoin : [38].intercalate (u.rawQuery.splitOn 38) = u.rawQuery := intercalate_splitOn 38
  rw [← hjoin, URL.pairs, hpairs]
  exact occurs_intercalate (avoids_signs hp).2.1 x l

theorem occurs_decode_rawQuery (hp : p ∈ secretPatterns) :
    Occurs p (decode u.rawQuery) ↔ ∃ pair ∈ u.pairs, Occurs p (decode pair) := by
  obtain ⟨x, l, hpairs⟩ := exists_cons_of_ne_nil (splitOn_ne_nil 38 u.rawQuery)
  have hjoin : [38].intercalate (u.rawQuery.splitOn 38) = u.rawQuery := intercalate_splitOn 38
  rw [← hjoin, URL.pairs, hpairs, decode_intercalate (by decide) (by decide), map_cons,
    occurs_intercalate (avoids_signs hp).2.1, ← map_cons]
  simp only [mem_map, exists_exists_and_eq_and]

theorem screened_surface (h : screenURL env u [] = .ok ()) (hp : p ∈ secretPatterns) :
    ¬Occurs p (decodedSurface env u) := by
  intro hoccurs
  have hany : (secretPatterns.any fun p => search p (decodedSurface env u)) = true :=
    any_eq_true.mpr ⟨p, hp, search_iff.mpr hoccurs⟩
  rw [screenURL, if_neg (fun h => h rfl), if_pos hany] at h
  split at h
  · cases h
  · cases h

variable (env) in
theorem infix_surface {k v : Bytes} {vs : List Bytes} (h : (k, vs) ∈ u.query) (hv : v ∈ vs) :
    k <:+: decodedSurface env u ∧ v <:+: decodedSurface env u := by
  have hentry : k ++ vs.flatMap (fun v => 61 :: v ++ [10]) <:+: decodedSurface env u := by
    have hwalk := mem_map_of_mem (f := fun e : Bytes × List Bytes => e.1 ++ e.2.flatMap fun v => 61 :: v ++ [10])
      ((env.walk_perm u.query).mem_iff.mpr h)
    refine (infix_of_mem_flatten hwalk).trans ⟨u.hostname ++ 10 :: u.path ++ [10], u.fragment, ?_⟩
    simp [decodedSurface, List.flatMap]
  refine ⟨(prefix_append _ _).isInfix.trans hentry, ?_⟩
  have hvalue : 61 :: v ++ [10] <:+: vs.flatMap fun v => 61 :: v ++ [10] :=
    infix_of_mem_flatten (mem_map_of_mem (f := fun v : Bytes => 61 :: v ++ [10]) hv)
  exact (List.IsInfix.trans ⟨[61], [10], rfl⟩ hvalue).trans ((suffix_append _ _).isInfix.trans hentry)

theorem not_occurs_decode_of_read (h : screenURL env u [] = .ok ()) (hp : p ∈ secretPatterns) (hpair : pair ∈ u.pairs)
    (hread : readPair pair = some kv) : ¬Occurs p (decode pair) := by
  obtain ⟨vs, hvs, hv⟩ := exists_values hpair hread
  obtain ⟨hkey, hvalue⟩ := readPair_eq_some hread
  obtain ⟨-, -, hplus, hequals⟩ := avoids_signs hp
  obtain ⟨hk, hv⟩ := infix_surface env hvs hv
  have hscanned : ∀ {s t : Bytes}, queryUnescape s = some t → t <:+: decodedSurface env u → ¬Occurs p (decode s) := by
    intro s t hs ht hoccurs
    rw [← queryUnescape_eq_some hs] at ht
    exact screened_surface h hp ((hoccurs.replace hplus (decode_map_plusToSpace s)).mono ht)
  rcases key_value pair with hpair | hpair
  · rw [hpair]
    exact hscanned hkey hk
  · rw [hpair, decode_append_cons (by decide) (by decide), occurs_append_cons hequals, not_or]
    exact ⟨hscanned hkey hk, hscanned hvalue hv⟩

theorem clean_iff_covered (h : screenURL env u [] = .ok ()) : Clean u ↔ Covered u := by
  refine forall₂_congr fun p hp => ?_
  have hsurface := screened_surface h hp
  constructor
  · intro hclean
    have hquery : ¬Occurs p u.rawQuery := hclean _ (by simp [exposed])
    have hdecoded : ¬Occurs p (decode u.rawQuery) := hclean _ (by simp [exposed])
    refine ⟨fun hstarts => hclean u.escapedPath (by simp [exposed]) hstarts.occurs, fun pair hpair => ?_⟩
    have hsent : ¬Occurs p pair := fun hoccurs => hquery ((occurs_rawQuery hp).mpr ⟨pair, hpair, hoccurs⟩)
    split
    · exact fun hstarts => hsent hstarts.occurs
    · exact ⟨hsent, fun hoccurs => hdecoded ((occurs_decode_rawQuery hp).mpr ⟨pair, hpair, hoccurs⟩)⟩
  · rintro ⟨hescape, hpairs⟩ s hs
    have hsign := (avoids_signs hp).1
    have hpath : ¬Occurs p u.path := fun hoccurs =>
      hsurface (hoccurs.mono ⟨u.hostname ++ [10], _, by simp [decodedSurface]; rfl⟩)
    have hquery : ∀ pair ∈ u.pairs, ¬Occurs p pair ∧ ¬Occurs p (decode pair) := by
      intro pair hpair
      have hcovered := hpairs pair hpair
      cases hread : readPair pair with
      | none => rwa [hread] at hcovered
      | some kv =>
        rw [hread] at hcovered
        have hdecode := not_occurs_decode_of_read h hp hpair hread
        exact ⟨fun hoccurs => (occurs_decode_or_startsInEscape hsign hoccurs).elim hdecode hcovered, hdecode⟩
    simp only [exposed, decode_escapedPath, mem_cons, not_mem_nil, or_false] at hs
    rcases hs with rfl | rfl | rfl | rfl | rfl
    · exact fun hoccurs => hsurface (hoccurs.mono ⟨[], _, by simp [decodedSurface]; rfl⟩)
    · intro hoccurs
      rcases occurs_decode_or_startsInEscape hsign hoccurs with hoccurs | hstarts
      · exact hpath (decode_escapedPath u ▸ hoccurs)
      · exact hescape hstarts
    · exact hpath
    · rw [occurs_rawQuery hp]
      rintro ⟨pair, hpair, hoccurs⟩
      exact (hquery pair hpair).1 hoccurs
    · rw [occurs_decode_rawQuery hp]
      rintro ⟨pair, hpair, hoccurs⟩
      exact (hquery pair hpair).2 hoccurs

end Occurrences

def followed (answers : List URL) : List URL := (answers.take 4).takeWhile fun v => isHTTPScheme v.scheme

theorem follow_eq (env : Env) (via answers : List URL) : (follow env [] via answers).1 =
      via ++ (answers.take (5 - via.length)).takeWhile fun v => isHTTPScheme v.scheme := by
  induction answers generalizing via with
  | nil => simp [follow]
  | cons next answers ih =>
    rw [follow]
    by_cases hmany : maxRedirects ≤ via.length
    · have hzero : 5 - via.length = 0 := Nat.sub_eq_zero_of_le hmany
      simp [checkRedirect, hmany, hzero]
    have hroom : 5 - via.length = 5 - (via ++ [next]).length + 1 := by
      rw [maxRedirects] at hmany
      rw [length_append, length_singleton]
      omega
    rw [hroom, take_succ_cons, takeWhile_cons]
    cases hscheme : isHTTPScheme next.scheme with
    | false => simp [checkRedirect, hmany, hscheme]
    | true => simp [checkRedirect, hmany, hscheme, ih]

theorem sent_clean_iff (env : Env) (u : URL) (answers : List URL) : (∀ v ∈ (fetch env [] u answers).1, Clean v) ↔
      ((fetch env [] u answers).1 ≠ [] → Covered u ∧ ∀ v ∈ followed answers, Clean v) := by
  rcases fetch_cases env [] u answers with hsent | ⟨hscreen, hfollow⟩
  · simp [hsent]
  · rw [hfollow, follow_eq, cons_append, nil_append, forall_mem_cons, clean_iff_covered hscreen]
    exact ⟨fun h _ => h, fun h => h (cons_ne_nil _ _)⟩

def leak : URL :=
  ⟨"https", none, utf8 "evil.example", utf8 "/", [], utf8 "k=AKIA0123456789ABCDEF;", []⟩

theorem unread_key_sent : leak ∈ (fetch asciiEnv [] leak []).1 ∧ ¬Clean leak := by
  have hkey : ∃ p ∈ secretPatterns, search p leak.rawQuery = true := by decide +kernel
  obtain ⟨p, hp, hsearch⟩ := hkey
  exact ⟨by decide +kernel, fun hclean => hclean p hp leak.rawQuery (by simp [exposed]) (search_iff.mp hsearch)⟩

end NomadDev.DocFetch
