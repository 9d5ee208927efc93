import Mathlib.Data.List.Forall2
import WorkflowEngine.Regex.Classes

/-! A marker is put for words that stand alone, by one pattern after the other. The marker neither
holds nor borders on such a word, so no substitution makes a match that was not there before. -/

namespace Regex

/-- A marker is a word between two characters that belong to none. -/
structure Marker (isWord : Char → Bool) where
  opening : Char
  first : Char
  inner : List Char
  closing : Char
  opening_not : isWord opening = false
  first_word : isWord first = true
  inner_word : ∀ c ∈ inner, isWord c = true
  closing_not : isWord closing = false
  no_colon : ':' ∉ opening :: first :: (inner ++ [closing])
  colon_not : isWord ':' = false

namespace Marker

variable {isWord : Char → Bool} (marker : Marker isWord)

def text : List Char := marker.opening :: marker.first :: (marker.inner ++ [marker.closing])

end Marker

/-- What has to follow a word that stands alone. -/
inductive Tail where
  | nothing
  | colon

/-- There is a colon on the line. -/
def colonAhead : List Char → Bool
  | [] => false
  | c :: rest => c = ':' || (c ≠ '\n' && colonAhead rest)

def Tail.ahead : Tail → List Char → Bool
  | .nothing, _ => true
  | .colon, rest => colonAhead rest

def Tail.pattern : Tail → Pattern
  | .nothing => .empty
  | .colon => .seq (.lazily .dot) (.char (· = ':'))

def Pattern.alone (core : Pattern) : Tail → Pattern
  | .nothing => .seq .boundary (.seq core .boundary)
  | .colon => .seq .boundary (.seq core (.seq .boundary (.seq (.lazily .dot) (.char (· = ':')))))

theorem colonAhead_append_left {u rest : List Char} (hu : ':' ∉ u)
    (h : colonAhead (u ++ rest) = true) : colonAhead rest = true := by
  induction u with
  | nil => exact h
  | cons c u ih =>
    rw [List.mem_cons, not_or] at hu
    rw [List.cons_append, colonAhead, Bool.or_eq_true, decide_eq_true_eq] at h
    rcases h with h | h
    · exact absurd h.symm hu.1
    · exact ih hu.2 (Bool.and_eq_true_iff.1 h).2

theorem colonAhead_append_right {u rest : List Char} (hu : '\n' ∉ u)
    (h : colonAhead rest = true) : colonAhead (u ++ rest) = true := by
  induction u with
  | nil => exact h
  | cons c u ih =>
    rw [List.mem_cons, not_or] at hu
    rw [List.cons_append, colonAhead, Bool.or_eq_true, Bool.and_eq_true, decide_eq_true_eq,
      decide_eq_true_eq]
    exact Or.inr ⟨fun hc => hu.1 hc.symm, ih hu.2⟩

theorem colonAhead_iff (rest : List Char) :
    colonAhead rest = true ↔ ∃ u s, rest = u ++ ':' :: s ∧ '\n' ∉ u := by
  constructor
  · intro h
    induction rest with
    | nil => cases h
    | cons c rest ih =>
      rw [colonAhead, Bool.or_eq_true, Bool.and_eq_true, decide_eq_true_eq, decide_eq_true_eq] at h
      rcases h with rfl | ⟨hc, h⟩
      · exact ⟨[], rest, rfl, by simp⟩
      · obtain ⟨u, s, rfl, hu⟩ := ih h
        refine ⟨c :: u, s, rfl, ?_⟩
        rw [List.mem_cons, not_or]
        exact ⟨fun h => hc h.symm, hu⟩
  · rintro ⟨u, s, rfl, hu⟩
    exact colonAhead_append_right hu (by simp [colonAhead])

theorem Pattern.flatten_dot {ws : List (List Char)} (h : ∀ u ∈ ws, Pattern.dot.Lang u) :
    '\n' ∉ ws.flatten := by
  intro hmem
  obtain ⟨u, hu, hc⟩ := List.mem_flatten.1 hmem
  obtain ⟨c, hp, rfl⟩ := h u hu
  obtain rfl := List.mem_singleton.1 hc
  simp at hp

/-- A tail ends behind a text without line breaks. -/
theorem Tail.ends_sound {isWord : Char → Bool} {tail : Tail} {x y : Pos}
    (h : y ∈ tail.pattern.ends isWord x) :
    tail.ahead x.after = true ∧ ∃ m, Over m x y ∧ '\n' ∉ m ∧
      (m ≠ [] → wordAt isWord y.before = isWord ':') := by
  cases tail with
  | nothing =>
    obtain rfl := List.mem_singleton.1 h
    exact ⟨rfl, [], Over.refl y, by simp, fun h => absurd rfl h⟩
  | colon =>
    obtain ⟨w, ⟨u, v, rfl, ⟨ws, rfl, hws⟩, ⟨c, hc, rfl⟩⟩, hover⟩ :=
      Pattern.ends_sound (show (Tail.pattern .colon).Plain from ⟨trivial, trivial⟩) h
    obtain rfl := of_decide_eq_true hc
    have hline := Pattern.flatten_dot hws
    refine ⟨(colonAhead_iff _).2 ⟨_, _, hover.1.trans (List.append_assoc _ _ _), hline⟩, _, hover,
      ?_, fun _ => ?_⟩
    · rw [List.mem_append, not_or]
      exact ⟨hline, by simp⟩
    · rw [hover.2]
      simp [wordAt]

theorem Tail.ends_complete {isWord : Char → Bool} {tail : Tail} {x : Pos}
    (h : tail.ahead x.after = true) : tail.pattern.ends isWord x ≠ [] := by
  cases tail with
  | nothing => simp [Tail.pattern, Pattern.ends]
  | colon =>
    obtain ⟨u, s, hx, hu⟩ := (colonAhead_iff _).1 h
    have hlang : (Tail.pattern .colon).Lang (u ++ [':']) := by
      refine ⟨u, [':'], rfl, ⟨u.map fun c => [c], ?_, ?_⟩, ⟨':', by simp, rfl⟩⟩
      · exact (List.flatMap_singleton' u).symm
      · intro w hw
        obtain ⟨c, hc, rfl⟩ := List.mem_map.1 hw
        refine ⟨c, decide_eq_true ?_, rfl⟩
        rintro rfl
        exact hu hc
    obtain ⟨y, hy, -⟩ := @Pattern.ends_complete isWord _ _ _ s hlang
      (hx.trans (by simp))
    exact List.ne_nil_of_mem hy

section
variable {isWord : Char → Bool} {core : Pattern} {tail : Tail}

theorem mem_ends_boundary {x y : Pos} :
    y ∈ Pattern.boundary.ends isWord x ↔ y = x ∧
    wordAt isWord x.before ≠ wordAt isWord x.after := by
  simp only [Pattern.ends]
  split_ifs with h
  · simp [h]
  · simp only [List.not_mem_nil, false_iff, not_and]
    exact fun _ => h

theorem mem_ends_alone {x y : Pos} :
    y ∈ (Pattern.alone core tail).ends isWord x ↔
      wordAt isWord x.before ≠ wordAt isWord x.after ∧ ∃ z ∈ core.ends isWord x,
        wordAt isWord z.before ≠ wordAt isWord z.after ∧ y ∈ tail.pattern.ends isWord z := by
  have hseq : ∀ (r s : Pattern) (x : Pos), y ∈ (Pattern.seq r s).ends isWord x ↔
      ∃ z ∈ r.ends isWord x, y ∈ s.ends isWord z := fun r s x => List.mem_flatMap
  cases tail with
  | nothing =>
    rw [Pattern.alone, hseq]
    constructor
    · rintro ⟨x', hx, hy⟩
      obtain ⟨rfl, hstart⟩ := mem_ends_boundary.1 hx
      obtain ⟨z, hz, hy⟩ := (hseq _ _ _).1 hy
      obtain ⟨rfl, hend⟩ := mem_ends_boundary.1 hy
      exact ⟨hstart, y, hz, hend, List.mem_singleton_self y⟩
    · rintro ⟨hstart, z, hz, hend, hy⟩
      obtain rfl := List.mem_singleton.1 hy
      exact ⟨x, mem_ends_boundary.2 ⟨rfl, hstart⟩,
        (hseq _ _ _).2 ⟨y, hz, mem_ends_boundary.2 ⟨rfl, hend⟩⟩⟩
  | colon =>
    rw [Pattern.alone, hseq]
    constructor
    · rintro ⟨x', hx, hrest⟩
      obtain ⟨rfl, hstart⟩ := mem_ends_boundary.1 hx
      obtain ⟨z, hz, hy⟩ := (hseq _ _ _).1 hrest
      obtain ⟨z', hz', htail⟩ := (hseq _ _ _).1 hy
      obtain ⟨rfl, hend⟩ := mem_ends_boundary.1 hz'
      exact ⟨hstart, z', hz, hend, htail⟩
    · rintro ⟨hstart, z, hz, hend, hy⟩
      exact ⟨x, mem_ends_boundary.2 ⟨rfl, hstart⟩, (hseq _ _ _).2 ⟨z, hz,
        (hseq _ _ _).2 ⟨z, mem_ends_boundary.2 ⟨rfl, hend⟩, hy⟩⟩⟩

end

/-- The words of a pattern begin and end with word characters, and not as the marker does. -/
structure Framed {isWord : Char → Bool} (marker : Marker isWord) (core : Pattern) : Prop where
  plain : core.Plain
  begins : ∀ w, core.Lang w → ∃ c u, w = c :: u ∧ isWord c = true ∧ c ≠ marker.first
  ends : ∀ w, core.Lang w → ∃ u c, w = u ++ [c] ∧ isWord c = true
  inside : ∀ w, core.Lang w → marker.opening ∉ w ∧ '\n' ∉ w

/-- A word that stands alone begins here. -/
structure Hit (isWord : Char → Bool) (core : Pattern) (tail : Tail) (before rest w s : List Char) :
    Prop where
  split : rest = w ++ s
  lang : core.Lang w
  start : wordAt isWord before = false
  stop : wordAt isWord s = false
  ahead : tail.ahead s = true

section
variable {isWord : Char → Bool} {marker : Marker isWord} {core : Pattern} {tail : Tail}
  {before rest : List Char}

theorem Framed.wordAt_left (hcore : Framed marker core) {w : List Char} (hw : core.Lang w)
    (s : List Char) : wordAt isWord (w ++ s) = true := by
  obtain ⟨c, u, rfl, hc, -⟩ := hcore.begins w hw
  simpa [wordAt] using hc

theorem Framed.wordAt_right (hcore : Framed marker core) {w : List Char} (hw : core.Lang w)
    (s : List Char) : wordAt isWord (w.reverse ++ s) = true := by
  obtain ⟨u, c, rfl, hc⟩ := hcore.ends w hw
  simpa [wordAt] using hc

/-- Where the pattern matches, a word stands alone, and the match ends on its line. -/
theorem Framed.hit (hcore : Framed marker core) {y : Pos}
    (h : y ∈ (Pattern.alone core tail).ends isWord ⟨before, rest, []⟩) :
    ∃ w m, Hit isWord core tail before rest w (m ++ y.after) ∧
      y.before = (w ++ m).reverse ++ before ∧ '\n' ∉ m ∧
      (m ≠ [] → wordAt isWord y.before = isWord ':') := by
  obtain ⟨hstart, z, hz, hend, hy⟩ := mem_ends_alone.1 h
  obtain ⟨w, hw, hover⟩ := Pattern.ends_sound hcore.plain hz
  obtain ⟨hahead, m, hover', hline, hcolon⟩ := Tail.ends_sound hy
  have hrest : rest = w ++ (m ++ y.after) := by
    rw [← hover'.1]
    exact hover.1
  refine ⟨w, m, ⟨hrest, hw, ?_, ?_, ?_⟩, ?_, hline, hcolon⟩
  · have hword := hcore.wordAt_left hw (m ++ y.after)
    rw [← hrest] at hword
    simpa [hword] using hstart
  · have hword := hcore.wordAt_right hw before
    rw [hover.2, hword] at hend
    rw [← hover'.1]
    simpa using hend
  · rw [← hover'.1]
    exact hahead
  · rw [hover'.2, hover.2, List.reverse_append, List.append_assoc]

theorem Framed.ends_of_hit (hcore : Framed marker core) {w s : List Char}
    (h : Hit isWord core tail before rest w s) :
    (Pattern.alone core tail).ends isWord ⟨before, rest, []⟩ ≠ [] := by
  obtain ⟨z, hz, hover⟩ := @Pattern.ends_complete isWord core ⟨before, rest, []⟩ w s
    h.lang h.split
  have hafter : z.after = s := List.append_cancel_left (hover.1.symm.trans h.split)
  obtain ⟨y, hy⟩ := List.exists_mem_of_ne_nil _
    (@Tail.ends_complete isWord tail z (hafter ▸ h.ahead))
  refine List.ne_nil_of_mem (mem_ends_alone.2 ⟨?_, z, hz, ?_, hy⟩)
  · have hword := hcore.wordAt_left h.lang s
    rw [← h.split] at hword
    simp [hword, h.start]
  · rw [hover.2, hcore.wordAt_right h.lang, hafter, h.stop]
    simp

/-- No match begins behind a word character, nor with a character that begins no word. -/
theorem Framed.ends_eq_nil (hcore : Framed marker core) {c : Char}
    (h : wordAt isWord before = true ∨ isWord c = false ∨ c = marker.first) :
    (Pattern.alone core tail).ends isWord ⟨before, c :: rest, []⟩ = [] := by
  refine List.eq_nil_iff_forall_not_mem.2 fun y hy => ?_
  obtain ⟨w, m, hhit, -⟩ := hcore.hit hy
  obtain ⟨d, u, rfl, hd, hfirst⟩ := hcore.begins w hhit.lang
  obtain ⟨rfl, -⟩ := List.cons.inj hhit.split
  rcases h with h | h | h
  · rw [hhit.start] at h
    cases h
  · rw [hd] at h
    cases h
  · exact hfirst h

theorem Framed.found_nil (hcore : Framed marker core) :
    (Pattern.alone core tail).found isWord before [] = false := by
  rw [Pattern.found, decide_eq_false_iff_not, not_not]
  refine List.eq_nil_iff_forall_not_mem.2 fun y hy => ?_
  obtain ⟨w, m, hhit, -⟩ := hcore.hit hy
  obtain ⟨d, u, rfl, -⟩ := hcore.begins w hhit.lang
  cases hhit.split

/-- The search goes on behind the marker. -/
theorem Framed.found_marker (hcore : Framed marker core) :
    (Pattern.alone core tail).found isWord before (marker.text ++ rest) =
      (Pattern.alone core tail).found isWord (marker.text.reverse ++ before) rest := by
  have hinner : ∀ (inner before rest : List Char), (∀ c ∈ inner, isWord c = true) →
      wordAt isWord before = true →
      (Pattern.alone core tail).found isWord before (inner ++ rest) =
        (Pattern.alone core tail).found isWord (inner.reverse ++ before) rest := by
    intro inner
    induction inner with
    | nil => exact fun _ _ _ _ => rfl
    | cons c inner ih =>
      intro before rest hwords hbefore
      obtain ⟨hc, hwords⟩ := List.forall_mem_cons.1 hwords
      rw [List.cons_append, Pattern.found_skip (hcore.ends_eq_nil (Or.inl hbefore)),
        ih (c :: before) rest hwords (by simpa [wordAt] using hc)]
      simp
  have hfirst : wordAt isWord (marker.first :: marker.opening :: before) = true := by
    simpa [wordAt] using marker.first_word
  rw [Marker.text, List.cons_append,
    Pattern.found_skip (hcore.ends_eq_nil (Or.inr (Or.inl marker.opening_not))), List.cons_append,
    Pattern.found_skip (hcore.ends_eq_nil (Or.inr (Or.inr rfl))), List.append_assoc,
    hinner _ _ _ marker.inner_word hfirst, List.cons_append,
    Pattern.found_skip (hcore.ends_eq_nil (Or.inr (Or.inl marker.closing_not)))]
  simp

end

theorem Pattern.found_of_ends {isWord : Char → Bool} {r : Pattern} {before rest : List Char}
    (h : r.ends isWord ⟨before, rest, []⟩ ≠ []) : r.found isWord before rest = true := by
  cases rest with
  | nil => simpa [found] using h
  | cons c rest => simp [found, h]

/-! Substitution. -/

section
variable {isWord : Char → Bool} {marker : Marker isWord} {core : Pattern} {tail : Tail}

/-- Either a word that stands alone begins here and the marker is put for its match, or the
character stays. -/
theorem Framed.subFrom_cases (hcore : Framed marker core) (n : ℕ) (before rest : List Char)
    (c : Char) :
    (∃ w m after, Hit isWord core tail before (c :: rest) w (m ++ after) ∧ '\n' ∉ m ∧
      (m ≠ [] → wordAt isWord ((w ++ m).reverse ++ before) = isWord ':') ∧
      after.length ≤ rest.length ∧
      (Pattern.alone core tail).subFrom isWord marker.text (n + 1) before (c :: rest) =
        marker.text ++ (Pattern.alone core tail).subFrom isWord marker.text n
          ((w ++ m).reverse ++ before) after) ∨
    ((Pattern.alone core tail).ends isWord ⟨before, c :: rest, []⟩ = [] ∧
      (Pattern.alone core tail).subFrom isWord marker.text (n + 1) before (c :: rest) =
        c :: (Pattern.alone core tail).subFrom isWord marker.text n (c :: before) rest) := by
  have hmoves : ∀ y ∈ (Pattern.alone core tail).ends isWord ⟨before, c :: rest, []⟩,
      y.after.length < rest.length + 1 := by
    intro y hy
    obtain ⟨w, m, hhit, -⟩ := hcore.hit hy
    obtain ⟨d, u, rfl, -⟩ := hcore.begins w hhit.lang
    have := congrArg List.length hhit.split
    simp only [List.length_cons, List.length_append] at this
    omega
  rcases @Pattern.subFrom_cases isWord _ marker.text n _ _ _ hmoves with
    ⟨y, hy, hsub⟩ | h
  · obtain ⟨w, m, hhit, hbefore, hline, hcolon⟩ := hcore.hit hy
    rw [hbefore] at hsub hcolon
    exact Or.inl ⟨w, m, y.after, hhit, hline, hcolon, Nat.lt_succ_iff.1 (hmoves y hy), hsub⟩
  · exact Or.inr h

/-- What comes out before the first marker was there before. -/
theorem Framed.subFrom_before (hcore : Framed marker core) {n : ℕ} {before rest u s : List Char}
    (hu : marker.opening ∉ u)
    (h : (Pattern.alone core tail).subFrom isWord marker.text n before rest = u ++ s) :
    ∃ k s₀, rest = u ++ s₀ ∧
      s = (Pattern.alone core tail).subFrom isWord marker.text k (u.reverse ++ before) s₀ := by
  induction u generalizing n before rest with
  | nil => exact ⟨n, rest, rfl, h.symm⟩
  | cons c u ih =>
    rw [List.mem_cons, not_or] at hu
    cases n with
    | zero => exact ⟨0, s, h, rfl⟩
    | succ n =>
      cases rest with
      | nil => cases h
      | cons d rest =>
        rcases hcore.subFrom_cases n before rest d with ⟨w, m, after, -, -, -, -, hsub⟩ | ⟨-, hsub⟩
        · rw [h] at hsub
          exact absurd (List.cons.inj hsub).1.symm hu.1
        · rw [h] at hsub
          obtain ⟨rfl, hrest⟩ := List.cons.inj hsub
          obtain ⟨k, s₀, rfl, hs⟩ := ih hu.2 hrest.symm
          exact ⟨k, s₀, rfl, by simpa using hs⟩

/-- Behind a word character the text goes on as it did. -/
theorem Framed.wordAt_subFrom (hcore : Framed marker core) (n : ℕ) {before rest : List Char}
    (hbefore : wordAt isWord before = true) :
    wordAt isWord ((Pattern.alone core tail).subFrom isWord marker.text n before rest) =
      wordAt isWord rest := by
  cases n with
  | zero => rfl
  | succ n =>
    cases rest with
    | nil => rfl
    | cons c rest =>
      rcases hcore.subFrom_cases n before rest c with ⟨w, m, after, hhit, -⟩ | ⟨-, hsub⟩
      · rw [hhit.start] at hbefore
        cases hbefore
      · rw [hsub]
        rfl

theorem Framed.ahead_subFrom (hcore : Framed marker core) (n : ℕ) {before rest : List Char}
    (q : Tail)
    (h : q.ahead ((Pattern.alone core tail).subFrom isWord marker.text n before rest) = true) :
    q.ahead rest = true := by
  cases q with
  | nothing => rfl
  | colon =>
    induction n generalizing before rest with
    | zero => exact h
    | succ n ih =>
      cases rest with
      | nil => exact h
      | cons c rest =>
        rcases hcore.subFrom_cases n before rest c with
          ⟨w, m, after, hhit, hline, -, -, hsub⟩ | ⟨-, hsub⟩
        · rw [hsub] at h
          have hafter := ih (colonAhead_append_left marker.no_colon h)
          rw [hhit.split]
          exact colonAhead_append_right (hcore.inside w hhit.lang).2
            (colonAhead_append_right hline hafter)
        · rw [hsub] at h
          simp only [Tail.ahead, colonAhead, Bool.or_eq_true, Bool.and_eq_true] at h ⊢
          exact h.imp_right fun h => ⟨h.1, ih h.2⟩

end

/-- A pattern of a word that stands alone. -/
def Alone {isWord : Char → Bool} (marker : Marker isWord) (r : Pattern) : Prop :=
  ∃ core tail, Framed marker core ∧ r = Pattern.alone core tail

section
variable {isWord : Char → Bool} {marker : Marker isWord} {p q : Pattern}

/-- A word that stands alone after a substitution did so before it. -/
theorem Framed.hit_of_subFrom {core word : Pattern} {tail line : Tail} {n : ℕ}
    {before before' rest w s : List Char} (hcore : Framed marker core) (hword : Framed marker word)
    (hstart : wordAt isWord before = false)
    (h : Hit isWord word line before'
      ((Pattern.alone core tail).subFrom isWord marker.text n before rest) w s) :
    ∃ s₀, Hit isWord word line before rest w s₀ := by
  obtain ⟨k, s₀, hrest, rfl⟩ := hcore.subFrom_before (hword.inside w h.lang).1 h.split
  have hinside := hword.wordAt_right h.lang before
  refine ⟨s₀, hrest, h.lang, hstart, ?_, hcore.ahead_subFrom k line h.ahead⟩
  rw [← hcore.wordAt_subFrom k hinside]
  exact h.stop

/-- What is found after a substitution was found before it, and is not what was replaced. The text
before the position may have changed, as long as no word begins here because of that. -/
theorem Alone.found_subFrom (hp : Alone marker p) (hq : Alone marker q) {n : ℕ}
    {before before' rest : List Char} (hn : rest.length ≤ n)
    (hbefore : wordAt isWord before' = wordAt isWord before ∨ wordAt isWord rest = false)
    (h : q.found isWord before' (p.subFrom isWord marker.text n before rest) = true) :
    q.found isWord before rest = true ∧ q ≠ p := by
  obtain ⟨core, tail, hcore, rfl⟩ := hp
  obtain ⟨word, line, hword, rfl⟩ := hq
  induction n generalizing before before' rest with
  | zero =>
    obtain rfl := List.length_eq_zero_iff.1 (Nat.le_zero.1 hn)
    rw [Pattern.subFrom, hword.found_nil] at h
    cases h
  | succ n ih =>
    cases rest with
    | nil =>
      rw [Pattern.subFrom, hword.found_nil] at h
      cases h
    | cons c rest =>
      rw [List.length_cons] at hn
      rcases hcore.subFrom_cases n before rest c with
        ⟨w, m, after, hhit, -, hcolon, hlength, hsub⟩ | ⟨hnone, hsub⟩
      · rw [hsub, hword.found_marker] at h
        have hcontext : wordAt isWord (marker.text.reverse ++ before') = false := by
          simpa [Marker.text, wordAt] using marker.closing_not
        have hrest :
            (Pattern.alone word line).found isWord ((w ++ m).reverse ++ before) after = true ∧
            Pattern.alone word line ≠ Pattern.alone core tail := by
          refine ih (by omega) ?_ h
          rw [hcontext]
          by_cases hm : m = []
          · subst hm
            exact Or.inr hhit.stop
          · refine Or.inl ?_
            rw [hcolon hm, marker.colon_not]
        refine ⟨?_, hrest.2⟩
        rw [hhit.split, ← List.append_assoc]
        exact Pattern.found_append _ hrest.1
      · rw [hsub, Pattern.found, Bool.or_eq_true, decide_eq_true_eq, ← hsub] at h
        rcases h with h | h
        · obtain ⟨y, hy⟩ := List.exists_mem_of_ne_nil _ h
          obtain ⟨u, m, hhit, -⟩ := hword.hit hy
          have hc : wordAt isWord (c :: rest) = true := by
            have hleft := hword.wordAt_left hhit.lang (m ++ y.after)
            rw [← hhit.split, hsub] at hleft
            exact hleft
          have hstart : wordAt isWord before = false := by
            rcases hbefore with hbefore | hbefore
            · rw [← hbefore]
              exact hhit.start
            · rw [hc] at hbefore
              cases hbefore
          obtain ⟨s₀, hkept⟩ := hcore.hit_of_subFrom hword hstart hhit
          have hends := hword.ends_of_hit hkept
          refine ⟨Pattern.found_of_ends hends, fun heq => ?_⟩
          rw [heq] at hends
          exact hends hnone
        · have hrest : (Pattern.alone word line).found isWord (c :: before) rest = true ∧
              Pattern.alone word line ≠ Pattern.alone core tail := by
            refine ih (by omega) ?_ h
            exact Or.inl rfl
          exact ⟨Pattern.found_append [c] hrest.1, hrest.2⟩

end

/-! Which patterns are framed. -/

theorem Pattern.lang_text {s : String} {w : List Char} (h : (Pattern.text s).Lang w) :
    List.Forall₂ (fun c x => ignoringCase c x = true) s.toList w := by
  unfold Pattern.text at h
  generalize s.toList = cs at h ⊢
  induction cs generalizing w with
  | nil =>
    obtain rfl : w = [] := h
    exact List.Forall₂.nil
  | cons c cs ih =>
    obtain ⟨u, v, rfl, ⟨x, hx, rfl⟩, hv⟩ := h
    exact List.Forall₂.cons hx (ih hv)

theorem Pattern.plain_text (s : String) : (Pattern.text s).Plain := by
  unfold Pattern.text
  induction s.toList with
  | nil => exact trivial
  | cons c cs ih => exact ⟨trivial, ih⟩

section
variable {tables : Tables} {marker : Marker tables.isWord}

theorem isWord_newline (tables : Tables) : tables.isWord '\n' = false := by
  rw [tables.word_ascii '\n' (by decide)]
  decide

/-- A text of ASCII word characters that does not begin as the marker does. -/
theorem framed_text {s : String} (hs : ∀ c ∈ s.toList, (c.isAlphanum || c = '_') ∧ c.toNat < 128)
    (hfirst : s.toList.head?.any (fun c => !ignoringCase c marker.first) = true) :
    Framed marker (Pattern.text s) := by
  have hwords : ∀ w, (Pattern.text s).Lang w → ∀ x ∈ w, tables.isWord x = true := by
    intro w hw x hx
    obtain ⟨i, hi, rfl⟩ := List.getElem_of_mem hx
    have hall := Pattern.lang_text hw
    have hlen := hall.length_eq
    have hc := hs _ (List.getElem_mem (hlen ▸ hi))
    exact isWord_of_ignoringCase tables hc.1 hc.2 (hall.get (hlen ▸ hi) hi)
  have hne : ∀ w, (Pattern.text s).Lang w → w ≠ [] := by
    rintro w hw rfl
    have hnil := List.forall₂_nil_right_iff.1 (Pattern.lang_text hw)
    rw [hnil] at hfirst
    cases hfirst
  refine ⟨Pattern.plain_text s, fun w hw => ?_, fun w hw => ?_, fun w hw =>
    ⟨fun h => ?_, fun h => ?_⟩⟩
  · obtain ⟨x, u, rfl⟩ := List.exists_cons_of_ne_nil (hne w hw)
    refine ⟨x, u, rfl, hwords _ hw x List.mem_cons_self, ?_⟩
    rintro rfl
    obtain ⟨c, cs, hc, -, hcs⟩ := List.forall₂_cons_right_iff.1 (Pattern.lang_text hw)
    rw [hcs] at hfirst
    simp [hc] at hfirst
  · refine ⟨w.dropLast, w.getLast (hne w hw), (List.dropLast_append_getLast (hne w hw)).symm, ?_⟩
    exact hwords w hw _ (List.getLast_mem (hne w hw))
  · have hword := hwords w hw _ h
    rw [marker.opening_not] at hword
    cases hword
  · have hword := hwords w hw _ h
    rw [isWord_newline] at hword
    cases hword

end

section
variable {isWord : Char → Bool} {marker : Marker isWord} {r s : Pattern}

theorem Framed.group (n : ℕ) (h : Framed marker r) : Framed marker (.group n r) :=
  ⟨h.plain, h.begins, h.ends, h.inside⟩

theorem Framed.alt (hr : Framed marker r) (hs : Framed marker s) : Framed marker (.alt r s) :=
  ⟨⟨hr.plain, hs.plain⟩, fun w hw => hw.elim (hr.begins w) (hs.begins w),
    fun w hw => hw.elim (hr.ends w) (hs.ends w), fun w hw => hw.elim (hr.inside w) (hs.inside w)⟩

theorem framed_choice {rs : List Pattern} (hne : rs ≠ []) (h : ∀ r ∈ rs, Framed marker r) :
    Framed marker (Pattern.choice rs) := by
  induction rs with
  | nil => exact absurd rfl hne
  | cons r rs ih =>
    obtain ⟨hr, hrs⟩ := List.forall_mem_cons.1 h
    cases rs with
    | nil => exact hr
    | cons s rs => exact hr.alt (ih (List.cons_ne_nil s rs) hrs)

/-- Two words with perhaps one character between them. -/
theorem Framed.joined {p : Char → Bool} (hr : Framed marker r) (hs : Framed marker s)
    (hopening : p marker.opening = false) (hline : p '\n' = false) :
    Framed marker (.seq r (.seq (.opt (.char p)) s)) := by
  refine ⟨⟨hr.plain, trivial, hs.plain⟩, ?_, ?_, ?_⟩
  · rintro _ ⟨u, v, rfl, hu, -⟩
    obtain ⟨c, u', rfl, hc⟩ := hr.begins u hu
    exact ⟨c, u' ++ v, rfl, hc⟩
  · rintro _ ⟨u, _, rfl, -, x, v, rfl, -, hv⟩
    obtain ⟨v', c, rfl, hc⟩ := hs.ends v hv
    exact ⟨u ++ (x ++ v'), c, by simp, hc⟩
  · rintro _ ⟨u, _, rfl, hu, x, v, rfl, hx, hv⟩
    have hmid : marker.opening ∉ x ∧ '\n' ∉ x := by
      rcases hx with ⟨c, hc, rfl⟩ | rfl
      · refine ⟨fun h => ?_, fun h => ?_⟩
        · obtain rfl := List.mem_singleton.1 h
          rw [hopening] at hc
          cases hc
        · obtain rfl := List.mem_singleton.1 h
          rw [hline] at hc
          cases hc
      · exact ⟨List.not_mem_nil, List.not_mem_nil⟩
    simp only [List.mem_append, not_or]
    exact ⟨⟨(hr.inside u hu).1, hmid.1, (hs.inside v hv).1⟩, (hr.inside u hu).2, hmid.2,
      (hs.inside v hv).2⟩

end

end Regex
