import WorkflowEngine.UrlText.Join

/-! When joining a reference to a base is writing it behind the base: the reference names no
scheme and no host, nothing in either is written in two ways, and no segment is dropped. -/

namespace UrlText

variable {tables : Tables}

/-! What a URL begins with. -/

/-- The text begins with the scheme and the netloc. -/
structure Front (url scheme netloc rest : List Char) : Prop where
  written : ∃ raw : List Char, url = raw ++ ':' :: '/' :: '/' :: (netloc ++ rest) ∧
    scheme = raw.map Char.toLower ∧ ':' ∉ raw ∧ raw.head?.any Char.isAlpha ∧ raw.all isSchemeChar
  plain : ∀ c ∈ netloc, isDelimiter c = false
  nonempty : netloc ≠ []
  delimited : rest = [] ∨ rest.head?.any isDelimiter

theorem before_eq {c : Char} {text rest : List Char} (h : c ∉ text) :
    before c (text ++ c :: rest) = text ∧ after c (text ++ c :: rest) = rest := by
  induction text with
  | nil => simp [before, after]
  | cons x text ih =>
    have hx : x ≠ c := fun hx => h (hx ▸ List.mem_cons_self)
    obtain ⟨h1, h2⟩ := ih fun hc => h (List.mem_cons_of_mem _ hc)
    simp only [before, after, List.cons_append, List.takeWhile_cons, List.dropWhile_cons, hx, ne_eq,
      not_false_eq_true, decide_true, if_true] at h1 h2 ⊢
    exact ⟨congrArg (x :: ·) h1, h2⟩

theorem notMem_before (c : Char) (text : List Char) : c ∉ before c text := by
  intro h
  simpa using List.mem_takeWhile_imp h

theorem parse_of_front {scheme url s n rest : List Char} (h : Front (clean url) s n rest)
    (ha : tables.accepts n = true) : urlparse tables scheme url = some (parseTail s n rest) := by
  obtain ⟨⟨raw, hurl, rfl, hcolon, halpha, hchars⟩, hn, -, hrest⟩ := h
  have hbefore := @before_eq ':' raw ('/' :: '/' :: (n ++ rest)) hcolon
  have hown : ownScheme? (clean url) = some (raw.map Char.toLower, '/' :: '/' :: (n ++ rest)) := by
    unfold ownScheme?
    rw [hurl, hbefore.1, hbefore.2, if_pos ⟨by simp, halpha, hchars⟩]
  have hsplit : splitNetloc ('/' :: '/' :: (n ++ rest)) = (n, rest) := by
    have hall : ∀ c ∈ n, (!isDelimiter c) = true := fun c hc => by simp [hn c hc]
    change ((n ++ rest).takeWhile (!isDelimiter ·), (n ++ rest).dropWhile (!isDelimiter ·)) = _
    rw [List.takeWhile_append_of_pos hall, List.dropWhile_append_of_pos hall]
    rcases hrest with rfl | hrest
    · simp
    · cases rest with
      | nil => simp
      | cons d rest =>
        have hd : isDelimiter d = true := hrest
        simp [hd]
  unfold urlparse
  simp only [hown, Option.getD_some, hsplit, ha, if_true]

theorem front_of_parse {url : List Char} {p : ParseResult} (h : urlparse tables [] url = some p)
    (hs : p.scheme ≠ []) (hn : p.netloc ≠ []) :
    ∃ rest, Front (clean url) p.scheme p.netloc rest ∧ p = parseTail p.scheme p.netloc rest ∧
      tables.accepts p.netloc = true := by
  unfold urlparse at h
  cases hown : ownScheme? (clean url) with
  | none =>
    simp only [hown, Option.getD_none] at h
    split_ifs at h
    cases h
    exact absurd rfl hs
  | some own =>
    obtain ⟨own, url'⟩ := own
    simp only [hown, Option.getD_some] at h
    split_ifs at h with ha
    cases h
    unfold ownScheme? at hown
    split_ifs at hown with hcond
    cases hown
    have hsplit := before_append_after ':' (clean url)
    rw [if_pos hcond.1] at hsplit
    generalize after ':' (clean url) = tail at hsplit ha hn ⊢
    have hshape : ∃ rest, tail = '/' :: '/' :: rest := by
      unfold splitNetloc at hn
      split at hn
      · exact ⟨_, rfl⟩
      · exact absurd rfl hn
    obtain ⟨rest, rfl⟩ := hshape
    refine ⟨rest.dropWhile (!isDelimiter ·), ⟨⟨_, ?_, rfl, notMem_before _ _, hcond.2⟩, ?_, hn, ?_⟩,
      rfl, ha⟩
    · have hrest : (splitNetloc ('/' :: '/' :: rest)).1 ++ rest.dropWhile (!isDelimiter ·) = rest :=
        List.takeWhile_append_dropWhile
      exact hsplit.trans (congrArg (fun rest => before ':' (clean url) ++ ':' :: '/' :: '/' :: rest)
        hrest.symm)
    · intro c hc
      simpa using List.mem_takeWhile_imp hc
    · cases hdrop : rest.dropWhile (!isDelimiter ·) with
      | nil => exact Or.inl rfl
      | cons d ds =>
        have hd := List.head_dropWhile_not (!isDelimiter ·) (l := rest) (by simp [hdrop])
        exact Or.inr (by simpa [hdrop] using hd)

theorem clean_append_slash (url rest : List Char) :
    clean (url ++ '/' :: rest) = clean url ++ '/' :: rest.filter (!isRemoved ·) := by
  have hslash : isC0OrSpace '/' = false := by decide
  have hkept : isRemoved '/' = false := by decide
  have hdrop : (url ++ '/' :: rest).dropWhile isC0OrSpace =
      url.dropWhile isC0OrSpace ++ '/' :: rest := by
    induction url with
    | nil => simp [hslash]
    | cons c url ih =>
      rw [List.cons_append, List.dropWhile_cons, List.dropWhile_cons]
      split_ifs
      · exact ih
      · rfl
  unfold clean
  rw [hdrop, List.filter_append, List.filter_cons, hkept]
  rfl

theorem clean_append_slashes (url : List Char) (k : ℕ) :
    clean (url ++ List.replicate k '/') = clean url ++ List.replicate k '/' := by
  cases k with
  | zero => simp
  | succ k =>
    have hkept : isRemoved '/' = false := by decide
    rw [List.replicate_succ, clean_append_slash, List.filter_replicate]
    simp [hkept]

namespace Front

variable {url s n rest : List Char}

theorem append (h : Front url s n rest) (more : List Char) :
    Front (url ++ '/' :: more) s n (rest ++ '/' :: more) := by
  obtain ⟨⟨raw, hurl, hraw⟩, hplain, hne, hrest⟩ := h
  refine ⟨⟨raw, by simp [hurl], hraw⟩, hplain, hne, Or.inr ?_⟩
  rcases hrest with rfl | hrest
  · rfl
  · cases rest with
    | nil => cases hrest
    | cons d rest => exact hrest

/-- Slashes at the end are behind the netloc. -/
theorem of_append {k : ℕ} (h : Front (url ++ List.replicate k '/') s n rest) :
    ∃ rest', Front url s n rest' := by
  obtain ⟨⟨raw, hurl, hraw⟩, hplain, hne, hrest⟩ := h
  have hsplit : (raw ++ ':' :: '/' :: '/' :: n) ++ rest = url ++ List.replicate k '/' := by
    simp [hurl]
  have hdelimited : ∀ rest', rest = rest' ++ List.replicate k '/' →
      rest' = [] ∨ rest'.head?.any isDelimiter := by
    rintro rest' rfl
    cases rest' with
    | nil => exact Or.inl rfl
    | cons d rest' => exact Or.inr (hrest.resolve_left (by simp))
  rcases List.append_eq_append_iff.1 hsplit with ⟨more, hmore, hslashes⟩ | ⟨more, hmore, hslashes⟩
  · exact ⟨more, ⟨raw, by simpa using hmore, hraw⟩, hplain, hne, hdelimited more hslashes⟩
  · cases more with
    | nil => exact ⟨[], ⟨raw, by simpa using hmore.symm, hraw⟩, hplain, hne, Or.inl rfl⟩
    | cons c more =>
      -- the netloc would end with a slash
      have hfront : ((raw ++ [':', '/', '/']) ++ n).getLast? = (url ++ c :: more).getLast? :=
        congrArg List.getLast? (by simpa using hmore)
      rw [List.getLast?_append_of_ne_nil _ hne,
        List.getLast?_append_of_ne_nil _ (List.cons_ne_nil _ _),
        List.getLast?_eq_some_getLast hne] at hfront
      have hmem : n.getLast hne ∈ List.replicate k '/' := by
        rw [hslashes]
        exact List.mem_append_left _ (List.mem_of_getLast? hfront.symm)
      have hslash := hplain _ (List.getLast_mem hne)
      rw [List.eq_of_mem_replicate hmem] at hslash
      cases hslash

end Front

theorem before_append (c : Char) (text more : List Char) :
    before c (text ++ more) = if c ∈ text then before c text else text ++ before c more := by
  induction text with
  | nil => rfl
  | cons x text ih =>
    by_cases hx : x = c
    · simp [before, hx]
    · simp only [before, List.cons_append, List.takeWhile_cons, List.mem_cons, Ne.symm hx] at ih ⊢
      simp only [ne_eq, hx, not_false_eq_true, decide_true, if_true, ih, false_or]
      split_ifs <;> rfl

theorem directory_append (text more : List Char) :
    directory (text ++ '/' :: more) = text ++ '/' :: directory more := by
  unfold directory
  rw [List.reverse_append, List.reverse_cons, List.append_assoc, List.dropWhile_append]
  split_ifs with hempty
  · rw [List.isEmpty_iff.1 hempty]
    simp
  · simp

theorem path_starts {s : List Char} (hs : s ∈ usesParams) (url : List Char) :
    (splitParams s url).1 <+: url := by
  unfold splitParams
  rw [if_pos hs]
  have hsegment : before ';' (lastSegment url) <+: lastSegment url := List.takeWhile_prefix _
  have hprefix := (List.prefix_append_right_inj (directory url)).2 hsegment
  rwa [directory_append_lastSegment] at hprefix

/-- A path goes on in the path of what is written behind it. -/
theorem path_append {s n tail more : List Char} (hs : s ∈ usesParams) :
    (parseTail s n tail).path <+: (parseTail s n (tail ++ '/' :: more)).path := by
  unfold parseTail
  dsimp only
  rw [before_append]
  split_ifs with hfragment
  · exact List.prefix_refl _
  · have hwhole : before '#' tail = tail := by
      simpa [if_neg hfragment] using (before_append_after '#' tail).symm
    rw [hwhole, before_append]
    split_ifs with hquery
    · exact List.prefix_refl _
    · have hwhole' : before '?' tail = tail := by
        simpa [if_neg hquery] using (before_append_after '?' tail).symm
      have hslash : before '?' (before '#' ('/' :: more)) = '/' :: before '?' (before '#' more) :=
        rfl
      rw [hwhole', hslash]
      refine (path_starts hs tail).trans ?_
      unfold splitParams
      rw [if_pos hs]
      dsimp only
      rw [directory_append]
      simp

/-- The scheme and the netloc of a URL are those of what is written behind it. -/
theorem urlparse_append {base url rest : List Char} {b : ParseResult} {k : ℕ}
    (hbase : base = url ++ List.replicate k '/') (hb : urlparse tables [] base = some b)
    (hs : b.scheme ≠ []) (hn : b.netloc ≠ []) :
    ∃ p q, urlparse tables [] url = some p ∧ urlparse tables [] (url ++ '/' :: rest) = some q ∧
      p.scheme = b.scheme ∧ p.netloc = b.netloc ∧ q.scheme = b.scheme ∧ q.netloc = b.netloc ∧
      (b.scheme ∈ usesParams → p.path <+: q.path) := by
  obtain ⟨tail, hfront, -, ha⟩ := front_of_parse hb hs hn
  rw [hbase, clean_append_slashes] at hfront
  obtain ⟨tail', hfront'⟩ := hfront.of_append
  have hmore := hfront'.append (rest.filter (!isRemoved ·))
  rw [← clean_append_slash] at hmore
  refine ⟨_, _, parse_of_front hfront' ha, parse_of_front hmore ha, rfl, rfl, rfl, rfl,
    fun hp => path_append hp⟩

/-! What is put together. -/

theorem urlunparse_absolute (p : ParseResult) (hs : p.scheme ≠ []) (hn : p.netloc ≠ []) :
    urlunparse p = p.scheme ++ ':' :: '/' :: '/' :: p.netloc ++
      slashed (p.path ++ part ';' p.params) ++
      part '?' p.query ++ part '#' p.fragment := by
  unfold urlunparse
  dsimp only
  rw [if_pos (Or.inl hn), if_neg hs]
  simp

theorem urlunparse_relative {p : ParseResult} (hs : p.scheme = []) (hn : p.netloc = []) :
    urlunparse p = p.path ++ part ';' p.params ++ part '?' p.query ++ part '#' p.fragment := by
  unfold urlunparse
  dsimp only
  rw [if_pos hs, if_neg (by simp [hs, hn])]

/-- A path from the root, or none at all. -/
def Rooted (p : ParseResult) : Prop := p.path.head? = some '/' ∨ p.path = [] ∧ p.params = []

theorem slashed_rooted {p : ParseResult} (h : Rooted p) :
    slashed (p.path ++ part ';' p.params) = p.path ++ part ';' p.params := by
  unfold slashed
  rcases h with h | ⟨h1, h2⟩
  · obtain ⟨l, hl⟩ := List.head?_eq_some_iff.1 h
    simp [hl]
  · simp [h1, h2, part]

theorem length_absolute {p : ParseResult} (hs : p.scheme ≠ []) (hn : p.netloc ≠ []) :
    (urlunparse p).length = p.scheme.length + p.netloc.length + 3 +
      (slashed (p.path ++ part ';' p.params)).length + (part '?' p.query).length +
      (part '#' p.fragment).length := by
  rw [urlunparse_absolute p hs hn]
  simp only [List.length_append, List.length_cons]
  omega

theorem length_urlunparse {p : ParseResult} (hs : p.scheme ≠ []) (hn : p.netloc ≠ [])
    (h : Rooted p) :
    (urlunparse p).length = p.scheme.length + 1 + p.size := by
  rw [length_absolute hs hn, slashed_rooted h]
  simp only [List.length_append, ParseResult.size, netlocSize, if_neg hn]
  omega

theorem rooted_parseTail {s n rest : List Char} (h : rest = [] ∨ rest.head?.any isDelimiter) :
    Rooted (parseTail s n rest) := by
  have hnone : (splitParams s []).1 = [] ∧ (splitParams s []).2 = [] := by
    unfold splitParams
    split_ifs <;> exact ⟨rfl, rfl⟩
  rcases h with rfl | h
  · exact Or.inr hnone
  · cases rest with
    | nil => cases h
    | cons d rest =>
      have hd : d = '/' ∨ d = '?' ∨ d = '#' := by simpa [isDelimiter] using h
      rcases hd with rfl | rfl | rfl
      · refine Or.inl ?_
        change (splitParams s ('/' :: before '?' (before '#' rest))).1.head? = _
        have hroot := directory_append [] (before '?' (before '#' rest))
        rw [List.nil_append] at hroot
        unfold splitParams
        split_ifs
        · dsimp only
          rw [hroot]
          rfl
        · rfl
      · exact Or.inr hnone
      · exact Or.inr hnone

theorem after_slash {c : Char} {text : List Char} (hc : c ≠ '/') (hmem : c ∈ text)
    (h : text.getLast? = some '/') : after c text ≠ [] := by
  intro hnil
  have hsplit := before_append_after c text
  rw [if_pos hmem, hnil] at hsplit
  rw [hsplit, List.getLast?_concat] at h
  exact hc (Option.some.inj h)

/-- A text that ends with a slash has a query, a fragment or such a path. -/
theorem parseTail_slash {s n rest : List Char} (hs : s ∈ usesParams)
    (h : rest.getLast? = some '/') :
    (parseTail s n rest).fragment ≠ [] ∨ (parseTail s n rest).query ≠ [] ∨
      (parseTail s n rest).path.getLast? = some '/' ∧ (parseTail s n rest).params = [] := by
  by_cases hfragment : '#' ∈ rest
  · exact Or.inl (after_slash (by decide) hfragment h)
  · have hwhole : before '#' rest = rest := by
      simpa [if_neg hfragment] using (before_append_after '#' rest).symm
    by_cases hquery : '?' ∈ rest
    · refine Or.inr (Or.inl ?_)
      change after '?' (before '#' rest) ≠ []
      rw [hwhole]
      exact after_slash (by decide) hquery h
    · have hwhole' : before '?' rest = rest := by
        simpa [if_neg hquery] using (before_append_after '?' rest).symm
      obtain ⟨l, rfl⟩ := List.getLast?_eq_some_iff.1 h
      have hdirectory : directory (l ++ ['/']) = l ++ ['/'] := directory_append l []
      have hsegment : lastSegment (l ++ ['/']) = [] := by
        have hboth := directory_append_lastSegment (l ++ ['/'])
        rw [hdirectory] at hboth
        exact List.append_cancel_left (hboth.trans (List.append_nil _).symm)
      refine Or.inr (Or.inr ?_)
      unfold parseTail splitParams
      dsimp only
      rw [if_pos hs, hwhole, hwhole', hdirectory, hsegment]
      exact ⟨by simp [before], rfl⟩

/-! Joining. -/

theorem ownScheme?_ne_nil {url s rest : List Char}
    (h : ownScheme? url = some (s, rest)) : s ≠ [] := by
  unfold ownScheme? at h
  split_ifs at h with hcond
  cases h
  intro hnil
  rw [List.map_eq_nil_iff.1 hnil] at hcond
  cases hcond.2.1

/-- A text without a scheme of its own is given that of its base. -/
theorem urlparse_scheme {s url : List Char} (hs : s ∈ usesParams)
    (h : ownScheme? (clean url) = none) :
    urlparse tables s url = (urlparse tables [] url).map fun p => { p with scheme := s } := by
  have hnil : ([] : List Char) ∈ usesParams := by decide
  have htail : ∀ n u, parseTail s n u = { parseTail [] n u with scheme := s } := by
    intro n u
    unfold parseTail splitParams
    simp only [if_pos hs, if_pos hnil]
  unfold urlparse
  simp only [h, Option.getD_none, htail]
  split_ifs <;> rfl

theorem scheme_ne_nil {url : List Char} {p : ParseResult} (h : urlparse tables [] url = some p)
    (hp : p.scheme = []) : ownScheme? (clean url) = none := by
  rcases size_urlparse h with ⟨hnone, -⟩ | ⟨rest, hsome, -⟩
  · exact hnone
  · exact absurd hp (ownScheme?_ne_nil hsome)

theorem urlparse_unscheme {s url : List Char} {r : ParseResult} (hs : s ∈ usesParams)
    (h : ownScheme? (clean url) = none) (hr : urlparse tables s url = some r) :
    ∃ r', urlparse tables [] url = some r' ∧ r'.scheme = [] ∧ r = { r' with scheme := s } := by
  rw [urlparse_scheme hs h] at hr
  obtain ⟨r', hr', rfl⟩ := Option.map_eq_some_iff.1 hr
  rcases size_urlparse hr' with ⟨-, hscheme, -⟩ | ⟨rest, hsome, -⟩
  · exact ⟨r', hr', hscheme, rfl⟩
  · rw [h] at hsome
    cases hsome

/-- The parts of a base and of a reference that can be written one after the other. -/
structure Fits (b r : ParseResult) : Prop where
  scheme : r.scheme = []
  netloc : r.netloc = []
  fragment : b.fragment = []
  query : b.query = [] ∨ r.path = [] ∧ r.params = [] ∧ r.query = []
  path : r.path = [] ∧ r.params = [] ∨ Plain b.path r.path

instance (b r : ParseResult) : Decidable (Fits b r) :=
  decidable_of_iff (r.scheme = [] ∧ r.netloc = [] ∧ b.fragment = [] ∧
    (b.query = [] ∨ r.path = [] ∧ r.params = [] ∧ r.query = []) ∧
    (r.path = [] ∧ r.params = [] ∨ Plain b.path r.path))
    ⟨fun ⟨h1, h2, h3, h4, h5⟩ => ⟨h1, h2, h3, h4, h5⟩,
      fun h => ⟨h.scheme, h.netloc, h.fragment, h.query, h.path⟩⟩

/-- Both are in their normal form, and they fit. -/
def Continues (tables : Tables) (base url : List Char) : Prop :=
  ∃ b ∈ urlparse tables [] base, ∃ r ∈ urlparse tables [] url,
    Fits b r ∧ urlunparse b = base ∧ urlunparse r = url

instance (tables : Tables) (base url : List Char) : Decidable (Continues tables base url) :=
  inferInstanceAs (Decidable (∃ b ∈ urlparse tables [] base, ∃ r ∈ urlparse tables [] url,
    Fits b r ∧ urlunparse b = base ∧ urlunparse r = url))

/-- The schemes of the web. -/
def Hierarchical (scheme : List Char) : Prop :=
  scheme ≠ [] ∧ scheme ∈ usesParams ∧ scheme ∈ usesNetloc ∧ scheme ∈ usesRelative

section
variable {base url : List Char} {b : ParseResult}

theorem base_cases (hb : urlparse tables [] base = some b) (hs : Hierarchical b.scheme)
    (hn : b.netloc ≠ []) (hend : base.getLast? = some '/') :
    Rooted b ∧ (b.fragment ≠ [] ∨ b.query ≠ [] ∨ b.path.getLast? = some '/' ∧ b.params = []) := by
  obtain ⟨tail, hfront, -, ha⟩ := front_of_parse hb hs.1 hn
  obtain ⟨x, rfl⟩ := List.getLast?_eq_some_iff.1 hend
  have hclean := clean_append_slashes x 1
  rw [List.replicate_one] at hclean
  rw [hclean] at hfront
  obtain ⟨rest, hrest⟩ := @Front.of_append _ _ _ _ 1 hfront
  have hbase := hrest.append []
  rw [← hclean] at hbase
  have hparse : b = parseTail b.scheme b.netloc (rest ++ ['/']) :=
    Option.some.inj (hb.symm.trans (parse_of_front hbase ha))
  rw [hparse]
  exact ⟨rooted_parseTail hbase.delimited, parseTail_slash hs.2.1 (by simp)⟩

theorem slashed_append {path : List Char} (h : path ≠ []) (more : List Char) :
    slashed (path ++ more) = slashed path ++ more := by
  obtain ⟨c, path, rfl⟩ := List.exists_cons_of_ne_nil h
  unfold slashed
  by_cases hc : c = '/'
  · simp [hc]
  · simp [hc]

theorem removeDots_ne_nil (ss : List (List Char)) : removeDots ss ≠ [] := by
  unfold removeDots written
  dsimp only
  split
  · exact List.cons_ne_nil _ _
  · next hne => exact hne

/-- What fits is written one after the other. -/
theorem urljoin_fits {r : ParseResult} (hb : urlparse tables [] base = some b)
    (hs : Hierarchical b.scheme) (hn : b.netloc ≠ []) (hend : base.getLast? = some '/')
    (hr : urlparse tables [] url = some r) (hurl : url ≠ []) (hhead : r.path.head? ≠ some '/')
    (hfits : Fits b r) : urljoin tables base url = some (urlunparse b ++ urlunparse r) := by
  have hbase : base ≠ [] := by
    rintro rfl
    cases hend
  have hr' : urlparse tables b.scheme url = some { r with scheme := b.scheme } := by
    rw [urlparse_scheme hs.2.1 (scheme_ne_nil hr hfits.scheme), hr]
    rfl
  obtain ⟨hrooted, hcases⟩ := base_cases hb hs hn hend
  unfold urljoin
  rw [if_neg hbase, if_neg hurl]
  simp only [hb, hr', Option.bind_eq_bind, Option.bind_some]
  rw [if_neg (by simp [hs.2.2.2]), if_neg (by simp [hfits.netloc]), if_pos hs.2.2.1]
  rw [urlunparse_relative hfits.scheme hfits.netloc, urlunparse_absolute b hs.1 hn, hfits.fragment]
  by_cases hsame : r.path = [] ∧ r.params = []
  · obtain ⟨hpath, hparams⟩ := hsame
    rw [if_pos ⟨hpath, hparams⟩, hpath, hparams]
    refine congrArg some ?_
    rw [urlunparse_absolute]
    case hs => exact hs.1
    case hn => exact hn
    dsimp only
    by_cases hquery : r.query = []
    · simp [hquery, part]
    · have hnone : b.query = [] := hfits.query.resolve_right fun h => hquery h.2.2
      simp [hquery, hnone, part]
  · have hquery : b.query = [] := hfits.query.resolve_right fun h => hsame ⟨h.1, h.2.1⟩
    obtain ⟨hslash, hparams⟩ := (hcases.resolve_left fun h => h hfits.fragment).resolve_left
      fun h => h hquery
    have hne : b.path ≠ [] := by
      intro hnil
      rw [hnil] at hslash
      cases hslash
    have hroot : b.path.head? = some '/' := hrooted.resolve_right fun h => hne h.1
    have hmerge := removeDots_merge hroot hslash hhead (hfits.path.resolve_left hsame)
    rw [if_neg hsame, hmerge, urlunparse_absolute]
    case hs => exact hs.1
    case hn => exact hn
    refine congrArg some ?_
    have hslashed : ∀ more, slashed (b.path ++ more) = b.path ++ more := by
      intro more
      obtain ⟨l, hl⟩ := List.head?_eq_some_iff.1 hroot
      simp [hl, slashed]
    dsimp only
    rw [hquery, hparams, List.append_assoc b.path, hslashed, hslashed]
    simp [part]

theorem part_eq_nil {c : Char} {text : List Char} (h : (part c text).length = 0) : text = [] := by
  rw [length_part] at h
  split_ifs at h with hnil
  · exact hnil

theorem two_le_part {c : Char} {text : List Char} (h : text ≠ []) : 2 ≤ (part c text).length := by
  have := List.length_pos_iff.2 h
  rw [length_part, if_neg h]
  omega

/-- What is joined by writing one after the other fits, and the base loses nothing. -/
theorem fits_of_urljoin (hb : urlparse tables [] base = some b) (hs : Hierarchical b.scheme)
    (hn : b.netloc ≠ []) (hend : base.getLast? = some '/') (hurl : url ≠ [])
    (h : urljoin tables base url = some (base ++ url)) :
    ∃ r, urlparse tables [] url = some r ∧ Fits b r ∧ r.path.head? ≠ some '/' ∧
      (urlunparse b).length = base.length := by
  have hbase : base ≠ [] := by
    rintro rfl
    cases hend
  obtain ⟨hrooted, hcases⟩ := base_cases hb hs hn hend
  have hsize : b.scheme.length + 1 + b.size ≤ base.length := by
    rcases size_urlparse hb with ⟨-, hscheme, -⟩ | ⟨-, -, hsize⟩
    · exact absurd hscheme hs.1
    · exact hsize
  have hlength := length_urlunparse hs.1 hn hrooted
  have hnetloc : netlocSize b.netloc = b.netloc.length + 2 := if_neg hn
  unfold urljoin at h
  rw [if_neg hbase, if_neg hurl] at h
  simp only [hb, Option.bind_eq_bind, Option.bind_some] at h
  cases hr : urlparse tables b.scheme url with
  | none =>
    rw [hr] at h
    cases h
  | some r =>
    rw [hr, Option.bind_some] at h
    have hrsize := size_urlparse hr
    have hrle : r.size ≤ url.length := by omega
    have hown : url.length ≤ r.size → ownScheme? (clean url) = none := by
      rcases hrsize with ⟨hnone, -⟩ | ⟨-, -, hlt⟩
      · exact fun _ => hnone
      · exact fun hge => by omega
    by_cases hother : r.scheme ≠ b.scheme ∨ r.scheme ∉ usesRelative
    · -- the reference stands for itself
      rw [if_pos hother] at h
      have hwhole := congrArg List.length (Option.some.inj h)
      have hpos := List.length_pos_iff.2 hbase
      rw [List.length_append] at hwhole
      omega
    have hscheme : r.scheme = b.scheme := by
      by_contra hne
      exact hother (Or.inl hne)
    have hbsize : b.size = b.netloc.length + 2 + b.path.length + (part ';' b.params).length +
        (part '?' b.query).length + (part '#' b.fragment).length := by
      rw [ParseResult.size, hnetloc]
    rw [if_neg hother, hscheme, if_pos hs.2.2.1] at h
    by_cases hhost : r.netloc = []
    case neg =>
      -- the reference names a host of its own
      rw [if_pos ⟨hs.2.2.1, hhost⟩] at h
      have hwhole := congrArg List.length (Option.some.inj h)
      have hslashed := length_slashed_le (r.path ++ part ';' r.params)
      have hpos := List.length_pos_iff.2 hn
      rw [length_absolute (hscheme ▸ hs.1) hhost, List.length_append, hscheme] at hwhole
      simp only [ParseResult.size, netlocSize, if_neg hhost, List.length_append] at hrle hslashed
      omega
    have hrsize' : r.size = r.path.length + (part ';' r.params).length + (part '?' r.query).length +
        (part '#' r.fragment).length := by
      rw [ParseResult.size, hhost]
      simp [netlocSize]
    rw [if_neg fun hno => hno.2 hhost] at h
    by_cases hsame : r.path = [] ∧ r.params = []
    · rw [if_pos hsame] at h
      have hwhole := congrArg List.length (Option.some.inj h)
      rw [List.length_append, length_absolute] at hwhole
      case hs => exact hs.1
      case hn => exact hn
      have hempty : (part ';' r.params).length = 0 := by rw [hsame.2]; rfl
      dsimp only at hwhole
      rw [slashed_rooted hrooted, List.length_append] at hwhole
      have hpath : r.path.length = 0 := by rw [hsame.1]; rfl
      obtain ⟨hquery, hfragment, hle, hbase'⟩ :
          (r.query = [] ∨ b.query = []) ∧ (part '#' b.fragment).length = 0 ∧ url.length ≤ r.size ∧
          base.length ≤ b.scheme.length + 1 + b.size := by
        by_cases hq : r.query = []
        · have hnone : (part '?' r.query).length = 0 := by rw [hq]; rfl
          rw [if_pos hq] at hwhole
          exact ⟨Or.inl hq, by omega, by omega, by omega⟩
        · rw [if_neg hq] at hwhole
          exact ⟨Or.inr (part_eq_nil (show (part '?' b.query).length = 0 by omega)), by omega,
            by omega, by omega⟩
      obtain ⟨r', hr', hscheme', rfl⟩ := urlparse_unscheme hs.2.1 (hown hle) hr
      refine ⟨r', hr', ⟨hscheme', hhost, part_eq_nil hfragment, ?_, Or.inl hsame⟩, ?_, by omega⟩
      · exact hquery.symm.imp_right fun hq => ⟨hsame.1, hsame.2, hq⟩
      · have hnil : r'.path = [] := hsame.1
        rw [hnil]
        exact fun h => by cases h
    · rw [if_neg hsame] at h
      have hwhole := congrArg List.length (Option.some.inj h)
      rw [List.length_append, length_absolute] at hwhole
      case hs => exact hs.1
      case hn => exact hn
      dsimp only at hwhole
      rw [slashed_append (removeDots_ne_nil _), List.length_append] at hwhole
      by_cases hhead : r.path.head? = some '/'
      · -- a path from the root leaves the path of the base
        exfalso
        have hroot := @length_removeDots_root b.path r.path hhead
        rcases hcases with hmore | hmore | ⟨hmore, -⟩
        · have := @two_le_part '#' b.fragment hmore
          omega
        · have := @two_le_part '?' b.query hmore
          omega
        · have hpos : 0 < b.path.length := by
            refine List.length_pos_iff.2 fun hnil => ?_
            rw [hnil] at hmore
            cases hmore
          omega
      · obtain ⟨hmerge, hslash⟩ := length_removeDots_merge
          (hrooted.symm.imp_left And.left) hhead
        rcases hcases with hmore | hmore | ⟨hmore, hparams⟩
        · have := @two_le_part '#' b.fragment hmore
          omega
        · have := @two_le_part '?' b.query hmore
          omega
        · obtain ⟨hbound, hplain⟩ := hslash hmore
          obtain ⟨r', hr', hscheme', rfl⟩ := urlparse_unscheme hs.2.1 (hown (by omega)) hr
          refine ⟨r', hr',
            ⟨hscheme', hhost, part_eq_nil (show (part '#' b.fragment).length = 0 by omega),
            Or.inl (part_eq_nil (show (part '?' b.query).length = 0 by omega)), Or.inr ?_⟩, hhead,
            by omega⟩
          exact hplain (by omega)

/-- Joining writes the reference behind the base exactly when it continues the base. -/
theorem urljoin_eq_append (hb : urlparse tables [] base = some b) (hs : Hierarchical b.scheme)
    (hn : b.netloc ≠ []) (hend : base.getLast? = some '/') (hurl : url ≠ [])
    (hhead : url.head? ≠ some '/') :
    urljoin tables base url = some (base ++ url) ↔ Continues tables base url := by
  have hpath : ∀ {r : ParseResult}, r.scheme = [] → r.netloc = [] → urlunparse r = url →
      r.path.head? ≠ some '/' := by
    intro r hs hn hr hslash
    obtain ⟨l, hl⟩ := List.head?_eq_some_iff.1 hslash
    rw [urlunparse_relative hs hn, hl] at hr
    exact hhead (by rw [← hr]; rfl)
  constructor
  · intro h
    obtain ⟨r, hr, hfits, hrhead, hlength⟩ := fits_of_urljoin hb hs hn hend hurl h
    have hjoin := urljoin_fits hb hs hn hend hr hurl hrhead hfits
    obtain ⟨hbase, hwritten⟩ := List.append_inj (Option.some.inj (hjoin.symm.trans h)) hlength
    exact ⟨b, hb, r, hr, hfits, hbase, hwritten⟩
  · rintro ⟨b', hb', r, hr, hfits, hbase, hwritten⟩
    obtain rfl : b' = b := Option.some.inj (hb'.symm.trans hb)
    rw [urljoin_fits hb hs hn hend hr hurl (hpath hfits.scheme hfits.netloc hwritten) hfits, hbase,
      hwritten]

end

end UrlText
