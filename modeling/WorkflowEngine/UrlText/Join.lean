import Mathlib.Algebra.BigOperators.Group.List.Basic
import Mathlib.Algebra.Ring.Nat
import WorkflowEngine.UrlText.Split

/-! The reference of a URL against a base (`urljoin`), after RFC 3986, and when it comes to writing
the one behind the other. -/

namespace UrlText

def usesRelative : List (List Char) :=
  ["", "ftp", "http", "gopher", "nntp", "imap", "wais", "file", "https", "shttp", "mms", "prospero",
    "rtsp", "rtspu", "sftp", "svn", "svn+ssh", "ws", "wss"].map String.toList

def dotSegments : List (List Char) := [['.'], ['.', '.']]

/-- `..` takes the last segment away. -/
def pushSegment (resolved : List (List Char)) (segment : List Char) : List (List Char) :=
  if segment = ['.', '.'] then resolved.dropLast
  else if segment = ['.'] then resolved
  else resolved ++ [segment]

/-- Empty segments between the first and the last are left out. -/
def squeeze : List (List Char) → List (List Char)
  | [] => []
  | first :: rest => first :: (rest.dropLast.filter (· ≠ []) ++ rest.getLast?.toList)

def mergeSegments (basePath path : List Char) : List (List Char) :=
  let baseParts := basePath.splitOn '/'
  let baseParts := if baseParts.getLast? = some [] then baseParts else baseParts.dropLast
  if path.head? = some '/' then path.splitOn '/' else squeeze (baseParts ++ path.splitOn '/')

/-- The segments with slashes between them, and at least one slash. -/
def written (resolved : List (List Char)) : List Char :=
  match ['/'].intercalate resolved with
  | [] => ['/']
  | path => path

def removeDots (segments : List (List Char)) : List Char :=
  let resolved := segments.foldl pushSegment []
  written (if segments.getLast?.any (· ∈ dotSegments) then resolved ++ [[]] else resolved)

def urljoin (tables : Tables) (base url : List Char) : Option (List Char) :=
  if base = [] then some url else if url = [] then some base else do
    let b ← urlparse tables [] base
    let r ← urlparse tables b.scheme url
    if r.scheme ≠ b.scheme ∨ r.scheme ∉ usesRelative then return url
    if r.scheme ∈ usesNetloc ∧ r.netloc ≠ [] then return urlunparse r
    let netloc := if r.scheme ∈ usesNetloc then b.netloc else r.netloc
    if r.path = [] ∧ r.params = [] then
      return urlunparse { r with
        netloc, path := b.path, params := b.params
        query := if r.query = [] then b.query else r.query }
    return urlunparse { r with netloc, path := removeDots (mergeSegments b.path r.path) }

/-! Segments. -/

/-- The characters of the segments, each with a slash. -/
def weight (segments : List (List Char)) : ℕ := (segments.map fun s => s.length + 1).sum

@[simp] theorem weight_nil : weight [] = 0 := rfl

@[simp] theorem weight_cons (s : List Char) (ss : List (List Char)) :
    weight (s :: ss) = s.length + 1 + weight ss := by simp [weight]

@[simp] theorem weight_append (ss ts : List (List Char)) :
    weight (ss ++ ts) = weight ss + weight ts := by simp [weight]

theorem length_intercalate {ss : List (List Char)} (h : ss ≠ []) :
    (['/'].intercalate ss).length + 1 = weight ss := by
  induction ss with
  | nil => exact absurd rfl h
  | cons s ss ih =>
    cases ss with
    | nil => simp
    | cons t ss =>
      have hlength := ih (List.cons_ne_nil _ _)
      rw [List.intercalate_cons_cons, weight_cons, ← hlength]
      simp only [List.length_append, List.length_singleton]
      omega

theorem intercalate_append (ss : List (List Char)) {ts : List (List Char)} (h : ts ≠ []) :
    ['/'].intercalate (ss ++ ts) = ['/'].intercalate (ss ++ [[]]) ++ ['/'].intercalate ts := by
  induction ss with
  | nil => simp
  | cons s ss ih =>
    rw [List.cons_append, List.cons_append,
      List.intercalate_cons_of_ne_nil (List.append_ne_nil_of_right_ne_nil _ h),
      List.intercalate_cons_of_ne_nil (by simp), ih]
    simp

theorem weight_splitOn (text : List Char) : weight (text.splitOn '/') = text.length + 1 := by
  rw [← length_intercalate (List.splitOn_ne_nil _ _), List.intercalate_splitOn]

theorem weight_dropLast_le (ss : List (List Char)) : weight ss.dropLast ≤ weight ss := by
  rcases List.eq_nil_or_concat ss with rfl | ⟨ss, s, rfl⟩
  · exact Nat.le_refl _
  · rw [List.concat_eq_append, List.dropLast_concat, weight_append]
    exact Nat.le_add_right _ _

def dots (ss : List (List Char)) : ℕ := ss.countP (· ∈ dotSegments)

@[simp] theorem dots_nil : dots [] = 0 := rfl

theorem dots_cons (s : List Char) (ss : List (List Char)) :
    dots (s :: ss) = dots ss + if s ∈ dotSegments then 1 else 0 := by
  unfold dots
  rw [List.countP_cons]
  simp

theorem dots_eq_zero {ss : List (List Char)} : dots ss = 0 ↔ ∀ s ∈ ss, s ∉ dotSegments := by
  simp [dots, List.countP_eq_zero]

/-- A dot segment is lost, with the segment that it takes away. -/
theorem weight_pushSegment (acc : List (List Char)) (s : List Char) :
    weight (pushSegment acc s) + 2 * (if s ∈ dotSegments then 1 else 0) ≤
      weight acc + (s.length + 1) := by
  unfold pushSegment
  by_cases hup : s = ['.', '.']
  · subst hup
    have := weight_dropLast_le acc
    simp only [dotSegments, List.mem_cons, List.length_cons, List.length_nil]
    simp
    omega
  · by_cases hdot : s = ['.']
    · subst hdot
      simp [dotSegments]
    · have hs : s ∉ dotSegments := by simp [dotSegments, hup, hdot]
      rw [if_neg hup, if_neg hdot, if_neg hs]
      simp

theorem weight_foldl (acc ss : List (List Char)) :
    weight (ss.foldl pushSegment acc) + 2 * dots ss ≤ weight acc + weight ss := by
  induction ss generalizing acc with
  | nil => simp
  | cons s ss ih =>
    have hrest := ih (pushSegment acc s)
    have hpush := weight_pushSegment acc s
    rw [List.foldl_cons, weight_cons, dots_cons]
    omega

/-- The first segment stays, unless more is lost than dots. -/
theorem head_foldl {acc : List (List Char)} (h : acc.head? = some []) (ss : List (List Char)) :
    (ss.foldl pushSegment acc).head? = some [] ∨
      weight (ss.foldl pushSegment acc) + 4 ≤ weight acc + weight ss := by
  induction ss generalizing acc with
  | nil => exact Or.inl h
  | cons s ss ih =>
    rw [List.foldl_cons, weight_cons]
    obtain ⟨acc, rfl⟩ : ∃ acc', acc = [] :: acc' := by
      cases acc with
      | nil => cases h
      | cons t acc' =>
        cases h
        exact ⟨acc', rfl⟩
    have hpush := weight_pushSegment ([] :: acc) s
    have hkept : (pushSegment ([] :: acc) s).head? = some [] →
        (ss.foldl pushSegment (pushSegment ([] :: acc) s)).head? = some [] ∨
          weight (ss.foldl pushSegment (pushSegment ([] :: acc) s)) + 4 ≤
            weight ([] :: acc) + (s.length + 1 + weight ss) := by
      intro hhead
      refine (ih hhead).imp_right fun hlost => ?_
      omega
    by_cases hup : s = ['.', '.']
    · subst hup
      cases acc with
      | nil =>
        -- the first segment is taken away
        have hrest := weight_foldl [] ss
        refine Or.inr ?_
        simp only [pushSegment, if_true, List.dropLast_singleton, weight_cons, weight_nil,
          List.length_cons, List.length_nil] at hrest ⊢
        omega
      | cons t acc =>
        refine hkept ?_
        simp [pushSegment]
    · refine hkept ?_
      unfold pushSegment
      rw [if_neg hup]
      split_ifs <;> simp

theorem foldl_pushSegment {ss : List (List Char)} (h : dots ss = 0) (acc : List (List Char)) :
    ss.foldl pushSegment acc = acc ++ ss := by
  induction ss generalizing acc with
  | nil => simp
  | cons s ss ih =>
    rw [dots_eq_zero] at h
    have hs := h s List.mem_cons_self
    have hpush : pushSegment acc s = acc ++ [s] := by
      simp only [dotSegments, List.mem_cons, List.not_mem_nil, or_false, not_or] at hs
      unfold pushSegment
      rw [if_neg hs.2, if_neg hs.1]
    rw [List.foldl_cons, hpush, ih (dots_eq_zero.2 fun t ht => h t (List.mem_cons_of_mem _ ht))]
    simp

theorem written_eq {ss : List (List Char)} (h : ['/'].intercalate ss ≠ []) :
    written ss = ['/'].intercalate ss := by
  unfold written
  split
  · next hnil => exact absurd hnil h
  · rfl

theorem slashed_written_root (s : List Char) (ss : List (List Char)) :
    written ([] :: s :: ss) = ['/'].intercalate ([] :: s :: ss) ∧
      slashed (written ([] :: s :: ss)) = ['/'].intercalate ([] :: s :: ss) := by
  have hroot : ['/'].intercalate ([] :: s :: ss) = '/' :: ['/'].intercalate (s :: ss) := by
    rw [List.intercalate_cons_cons]
    rfl
  have hwritten : written ([] :: s :: ss) = ['/'].intercalate ([] :: s :: ss) :=
    written_eq (by simp [hroot])
  rw [hwritten, hroot]
  exact ⟨rfl, by simp [slashed]⟩

theorem length_slashed_le (path : List Char) : (slashed path).length ≤ path.length + 1 := by
  unfold slashed
  split_ifs <;> simp

theorem length_written_root {n : ℕ} {ss : List (List Char)} (hn : 2 ≤ n)
    (hss : weight ([] :: ss) ≤ n) : (slashed (written ([] :: ss))).length + 1 ≤ n := by
  cases ss with
  | nil => exact hn
  | cons s ss =>
    rw [(slashed_written_root s ss).2, length_intercalate (List.cons_ne_nil _ _)]
    exact hss

theorem length_written {n : ℕ} {ss : List (List Char)} (hn : 2 ≤ n) (hss : weight ss + 1 ≤ n) :
    (slashed (written ss)).length + 1 ≤ n := by
  by_cases hnil : ['/'].intercalate ss = []
  · have hslash : written ss = ['/'] := by
      unfold written
      rw [hnil]
    rw [hslash]
    exact hn
  · have hne : ss ≠ [] := fun h => hnil (h ▸ rfl)
    have hlength := length_intercalate hne
    have hslashed := length_slashed_le (['/'].intercalate ss)
    rw [written_eq hnil]
    omega

/-- Without dots the segments are written one after the other. -/
theorem removeDots_of_dots {ss : List (List Char)} (h : dots ss = 0) :
    removeDots ss = written ss := by
  have hlast : ss.getLast?.any (· ∈ dotSegments) = false := by
    rw [dots_eq_zero] at h
    cases hl : ss.getLast? with
    | none => rfl
    | some s => simpa using h s (List.mem_of_getLast? hl)
  unfold removeDots
  dsimp only
  rw [foldl_pushSegment h, hlast, List.nil_append, if_neg Bool.false_ne_true]

/-- A path from the root loses at least one character with its dots. -/
theorem length_removeDots {ss : List (List Char)} (hss : ss ≠ []) :
    (slashed (removeDots ([] :: ss))).length + 1 ≤ weight ([] :: ss) ∧
      ((slashed (removeDots ([] :: ss))).length + 1 = weight ([] :: ss) → dots ss = 0) := by
  have hroot : dots ([] :: ss) = dots ss := by simp [dots_cons, dotSegments]
  by_cases hdots : dots ss = 0
  · obtain ⟨s, ss, rfl⟩ := List.exists_cons_of_ne_nil hss
    rw [removeDots_of_dots (hroot.trans hdots), (slashed_written_root s ss).2,
      length_intercalate (List.cons_ne_nil _ _)]
    exact ⟨Nat.le_refl _, fun _ => hdots⟩
  · have hlost : (slashed (removeDots ([] :: ss))).length + 1 + 1 ≤ weight ([] :: ss) := by
      have hfold := weight_foldl [[]] ss
      have hhead := @head_foldl [[]] rfl ss
      unfold removeDots
      rw [List.foldl_cons]
      have hpush : pushSegment [] [] = [[]] := rfl
      rw [hpush]
      generalize ss.foldl pushSegment [[]] = acc at hfold hhead ⊢
      -- the end of the path adds at most one empty segment
      obtain ⟨tail, htail, hfinish⟩ : ∃ tail : List (List Char), weight tail ≤ 1 ∧
          (if ([] :: ss).getLast?.any (· ∈ dotSegments) then acc ++ [[]] else acc) =
          acc ++ tail := by
        split_ifs
        · exact ⟨[[]], by simp, rfl⟩
        · exact ⟨[], by simp, by simp⟩
      dsimp only
      rw [hfinish]
      simp only [weight_cons, weight_nil, List.length_nil] at hfold hhead ⊢
      rcases hhead with hhead | hhead
      · obtain ⟨rest, rfl⟩ : ∃ rest, acc = [] :: rest := by
          cases acc with
          | nil => cases hhead
          | cons t rest =>
            cases hhead
            exact ⟨rest, rfl⟩
        have hw := @length_written_root (weight ss) (rest ++ tail) (by
          rw [weight_cons, List.length_nil] at hfold
          omega) (by
          simp only [weight_cons, weight_append, List.length_nil] at hfold ⊢
          omega)
        rw [List.cons_append]
        omega
      · have hw := @length_written (weight ss) (acc ++ tail) (by omega) (by
          rw [weight_append]
          omega)
        omega
    exact ⟨by omega, fun heq => by omega⟩

/-! The segments of a reference. -/

def empties (ss : List (List Char)) : ℕ := ss.countP (· = [])

theorem empties_eq_zero {ss : List (List Char)} : empties ss = 0 ↔ ∀ s ∈ ss, s ≠ [] := by
  simp [empties, List.countP_eq_zero]

theorem weight_filter (ss : List (List Char)) :
    weight (ss.filter (· ≠ [])) + empties ss = weight ss := by
  induction ss with
  | nil => rfl
  | cons s ss ih =>
    unfold empties at ih ⊢
    by_cases hs : s = []
    · subst hs
      simp only [List.countP_cons, weight_cons] at ih ⊢
      simp at ih ⊢
      omega
    · simp [hs] at ih ⊢
      omega

theorem squeeze_append (X : List (List Char)) {Y : List (List Char)} (hY : Y ≠ []) :
    squeeze ([] :: (X ++ Y)) = [] ::
      (X.filter (· ≠ []) ++ (Y.dropLast.filter (· ≠ []) ++ [Y.getLast hY])) := by
  unfold squeeze
  dsimp only
  rw [List.dropLast_append_of_ne_nil hY, List.filter_append, List.getLast?_append_of_ne_nil _ hY,
    List.getLast?_eq_some_getLast hY, Option.toList_some, List.append_assoc]

theorem weight_squeeze (X : List (List Char)) {Y : List (List Char)} (hY : Y ≠ []) :
    weight (squeeze ([] :: (X ++ Y))) + empties X + empties Y.dropLast =
      1 + weight X + weight Y := by
  have hX := weight_filter X
  have hY' := weight_filter Y.dropLast
  have hlast := congrArg weight (List.dropLast_append_getLast hY)
  rw [squeeze_append X hY]
  simp only [weight_cons, weight_append, List.length_nil] at hlast ⊢
  omega

theorem splitOn_slash (path : List Char) : ('/' :: path).splitOn '/' = [] :: path.splitOn '/' :=
  (List.splitOn_append_cons_self [] path).trans (by simp)

theorem getLast?_splitOn {path : List Char} (h : path.getLast? = some '/') :
    (path.splitOn '/').getLast? = some [] := by
  obtain ⟨l, rfl⟩ := List.getLast?_eq_some_iff.1 h
  rw [List.splitOn_append_cons_self, List.splitOn_nil]
  simp

/-- The parts of a base that are kept. -/
theorem baseParts_cases {path : List Char} (h : path = [] ∨ path.head? = some '/') :
    ∃ X, (if (path.splitOn '/').getLast? = some [] then path.splitOn '/'
      else (path.splitOn '/').dropLast) = [] :: X ∧ weight X ≤ path.length ∧
      (path.getLast? = some '/' → path.splitOn '/' = [] :: X ∧ ∃ inner, X = inner ++ [[]]) := by
  rcases h with rfl | h
  · exact ⟨[], rfl, Nat.le_refl _, fun h => by cases h⟩
  · obtain ⟨l, rfl⟩ := List.head?_eq_some_iff.1 h
    have hne := List.splitOn_ne_nil '/' l
    have hweight := weight_splitOn l
    have hlast : (('/' :: l).splitOn '/').getLast? = (l.splitOn '/').getLast? := by
      rw [splitOn_slash, List.getLast?_cons]
      cases hl : (l.splitOn '/').getLast? with
      | none => exact absurd (List.getLast?_eq_none_iff.1 hl) hne
      | some s => rfl
    split_ifs with hend
    · refine ⟨l.splitOn '/', splitOn_slash l, by rw [hweight]; rfl, fun _ => ⟨splitOn_slash l, ?_⟩⟩
      exact List.getLast?_eq_some_iff.1 (hlast ▸ hend)
    · refine ⟨(l.splitOn '/').dropLast, ?_, ?_, fun hslash => absurd (getLast?_splitOn hslash) hend⟩
      · rw [splitOn_slash, List.dropLast_cons_of_ne_nil hne]
      · have := weight_dropLast_le (l.splitOn '/')
        rw [List.length_cons]
        omega

/-- No segment between two slashes is empty, and none is a dot segment. -/
structure Plain (basePath path : List Char) : Prop where
  dots : ∀ s ∈ basePath.splitOn '/' ++ path.splitOn '/', s ∉ dotSegments
  empties : ∀ s ∈ (basePath.splitOn '/').tail.dropLast ++ (path.splitOn '/').dropLast, s ≠ []

section
variable {basePath path : List Char}

instance : Decidable (Plain basePath path) :=
  decidable_of_iff ((∀ s ∈ basePath.splitOn '/' ++ path.splitOn '/', s ∉ dotSegments) ∧
    ∀ s ∈ (basePath.splitOn '/').tail.dropLast ++ (path.splitOn '/').dropLast, s ≠ [])
    ⟨fun h => ⟨h.1, h.2⟩, fun h => ⟨h.dots, h.empties⟩⟩

/-- A path from the root is what is left of it. -/
theorem length_removeDots_root (h : path.head? = some '/') :
    (slashed (removeDots (mergeSegments basePath path))).length ≤ path.length := by
  have hweight := weight_splitOn path
  unfold mergeSegments
  dsimp only
  rw [if_pos h]
  obtain ⟨l, rfl⟩ := List.head?_eq_some_iff.1 h
  rw [splitOn_slash] at hweight ⊢
  have := (length_removeDots (List.splitOn_ne_nil '/' l)).1
  omega

theorem length_removeDots_merge (hb : basePath = [] ∨ basePath.head? = some '/')
    (h : path.head? ≠ some '/') :
    (slashed (removeDots (mergeSegments basePath path))).length ≤
      basePath.length + path.length + 1 ∧
    (basePath.getLast? = some '/' →
      (slashed (removeDots (mergeSegments basePath path))).length ≤ basePath.length + path.length ∧
      ((slashed (removeDots (mergeSegments basePath path))).length = basePath.length + path.length →
        Plain basePath path)) := by
  obtain ⟨X, hX, hweight, hslash⟩ := baseParts_cases hb
  have hY := List.splitOn_ne_nil '/' path
  have hpath := weight_splitOn path
  have hsqueeze := weight_squeeze X hY
  have hmerge : mergeSegments basePath path = squeeze ([] :: (X ++ path.splitOn '/')) := by
    unfold mergeSegments
    dsimp only
    rw [if_neg h, hX, List.cons_append]
  have hform := squeeze_append X hY
  rw [hmerge]
  rw [hform] at hsqueeze ⊢
  obtain ⟨hle, hdots⟩ := @length_removeDots (X.filter (· ≠ []) ++
    ((path.splitOn '/').dropLast.filter (· ≠ []) ++ [(path.splitOn '/').getLast hY])) (by simp)
  refine ⟨by omega, fun hend => ?_⟩
  obtain ⟨hparts, inner, rfl⟩ := hslash hend
  have hbase := weight_splitOn basePath
  have hinner : empties (inner ++ [[]]) = empties inner + 1 := by simp [empties]
  rw [hparts] at hbase
  simp only [weight_cons, List.length_nil] at hbase
  refine ⟨by omega, fun heq => ?_⟩
  have hdots0 := dots_eq_zero.1 (hdots (by omega))
  have hempty : empties inner = 0 := by omega
  have hempty' : empties (path.splitOn '/').dropLast = 0 := by omega
  rw [empties_eq_zero] at hempty hempty'
  have hnil : ([] : List Char) ∉ dotSegments := by simp [dotSegments]
  refine ⟨fun s hs => ?_, fun s hs => ?_⟩
  · rw [hparts] at hs
    by_cases hs0 : s = []
    · exact hs0 ▸ hnil
    · refine hdots0 s ?_
      have hsplit : s ∈ inner ∨ s ∈ (path.splitOn '/').dropLast ∨
          s = (path.splitOn '/').getLast hY := by
        rcases List.mem_append.1 hs with hs | hs
        · refine Or.inl ?_
          simpa [hs0] using hs
        · rw [← List.dropLast_append_getLast hY] at hs
          rcases List.mem_append.1 hs with hs | hs
          · exact Or.inr (Or.inl hs)
          · exact Or.inr (Or.inr (List.mem_singleton.1 hs))
      simp only [List.mem_append, List.mem_filter, List.mem_singleton, decide_eq_true_eq]
      rcases hsplit with hs | hs | hs
      · exact Or.inl ⟨Or.inl hs, hs0⟩
      · exact Or.inr (Or.inl ⟨hs, hs0⟩)
      · exact Or.inr (Or.inr hs)
  · rw [hparts, List.tail_cons, List.dropLast_concat] at hs
    rcases List.mem_append.1 hs with hs | hs
    · exact hempty s hs
    · exact hempty' s hs

/-- Plain paths are written one after the other. -/
theorem removeDots_merge (hb : basePath.head? = some '/') (hend : basePath.getLast? = some '/')
    (h : path.head? ≠ some '/') (hplain : Plain basePath path) :
    removeDots (mergeSegments basePath path) = basePath ++ path := by
  obtain ⟨X, hX, -, hslash⟩ := baseParts_cases (Or.inr hb)
  obtain ⟨hparts, inner, rfl⟩ := hslash hend
  have hY := List.splitOn_ne_nil '/' path
  have hempties := hplain.empties
  rw [hparts, List.tail_cons, List.dropLast_concat] at hempties
  have hinner : (inner ++ [[]]).filter (· ≠ []) = inner := by
    rw [List.filter_append, List.filter_eq_self.2 fun s hs =>
      decide_eq_true (hempties s (List.mem_append_left _ hs))]
    simp
  have hpath : (path.splitOn '/').dropLast.filter (· ≠ []) = (path.splitOn '/').dropLast :=
    List.filter_eq_self.2 fun s hs => decide_eq_true (hempties s (List.mem_append_right _ hs))
  have hmerge : mergeSegments basePath path = [] :: (inner ++ path.splitOn '/') := by
    unfold mergeSegments
    dsimp only
    rw [if_neg h, hX, List.cons_append, squeeze_append _ hY, hinner, hpath,
      List.dropLast_append_getLast]
  have hdots : dots ([] :: (inner ++ path.splitOn '/')) = 0 := by
    refine dots_eq_zero.2 fun s hs => hplain.dots s ?_
    rw [hparts]
    rcases List.mem_cons.1 hs with rfl | hs
    · simp
    · rcases List.mem_append.1 hs with hs | hs
      · simp [hs]
      · exact List.mem_append_right _ hs
  obtain ⟨t, ts, hts⟩ := List.exists_cons_of_ne_nil (List.append_ne_nil_of_right_ne_nil inner hY)
  rw [hmerge, removeDots_of_dots hdots, hts, (slashed_written_root t ts).1, ← hts,
    ← List.cons_append, intercalate_append _ hY, List.intercalate_splitOn]
  have hbase : ['/'].intercalate (basePath.splitOn '/') = basePath := List.intercalate_splitOn '/'
  rw [hparts] at hbase
  exact congrArg (· ++ path) hbase

end

end UrlText
