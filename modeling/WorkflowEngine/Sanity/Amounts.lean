import WorkflowEngine.Fallible.Returns
import WorkflowEngine.Spec.Reasoning

/-! The amounts that are taken out of a response. Their pattern matches more texts than `float()`
reads: one of commas and a point alone is no number. -/

namespace WorkflowEngine

open Regex Fallible

namespace Literal

variable {cs ds ts : List Char}

def AllDigits (cs : List Char) : Prop := ∀ c ∈ cs, c.isDigit = true

theorem AllDigits.digits? (h : AllDigits cs) (hne : cs ≠ []) : digits? cs = some cs := by
  have hsplit : cs.splitOn '_' = [cs] :=
    List.splitOn_eq_singleton fun hmem => absurd (h _ hmem) (by decide)
  rw [Literal.digits?, hsplit]
  simp only [List.all_cons, List.all_nil, Bool.and_true, List.flatten_singleton]
  rw [if_pos]
  rw [Bool.and_eq_true, List.all_eq_true]
  exact ⟨by simpa using hne, h⟩

theorem AllDigits.part? (h : AllDigits cs) : part? cs = some cs := by
  rw [Literal.part?]
  by_cases hne : cs = []
  · rw [if_pos (List.isEmpty_iff.2 hne), hne]
  · rw [if_neg (by simpa using hne), h.digits? hne]

theorem AllDigits.span (h : AllDigits ds) {rest : List Char}
    (hrest : ∀ c, rest.head? = some c → isDigitPart c = false) :
    (ds ++ rest).span isDigitPart = (ds, rest) := by
  have hpart : ∀ c ∈ ds, isDigitPart c = true :=
    fun c hc => by rw [isDigitPart, h c hc, Bool.true_or]
  rw [List.span_eq_takeWhile_dropWhile, List.takeWhile_append_of_pos hpart,
    List.dropWhile_append_of_pos hpart]
  cases rest with
  | nil => simp
  | cons c rest => simp [hrest c rfl]

/-- A digit or a point is no sign. -/
theorem sign_eq_self (h : ∀ c, cs.head? = some c → c.isDigit = true ∨ c = '.') :
    sign cs = (1, cs) := by
  cases cs with
  | nil => rfl
  | cons c cs =>
    have hne : c ≠ '-' ∧ c ≠ '+' := by
      rcases h c rfl with hc | rfl
      · exact ⟨fun he => absurd (he ▸ hc) (by decide), fun he => absurd (he ▸ hc) (by decide)⟩
      · decide
    unfold sign
    split
    · exact absurd (List.cons.inj ‹_›).1 hne.1
    · exact absurd (List.cons.inj ‹_›).1 hne.2
    · rfl

theorem AllDigits.float? (hd : AllDigits ds) (hne : ds ≠ []) : ∃ x, float? ds = some x := by
  have hsign : sign ds = (1, ds) := sign_eq_self fun c hc => .inl (hd c (List.mem_of_head? hc))
  have hspan := hd.span (show ∀ c, [].head? = some c → isDigitPart c = false by nofun)
  rw [List.append_nil] at hspan
  unfold Literal.float?
  have hnil : Literal.part? [] = some [] := rfl
  simp only [hsign, hspan, hd.part?, hnil, List.isEmpty_iff, Bool.and_eq_true, hne, false_and,
    if_false]
  exact ⟨_, rfl⟩

theorem AllDigits.float?_point (hd : AllDigits ds) (ht : AllDigits ts) :
    (∃ x, Literal.float? (ds ++ '.' :: ts) = some x) ↔ ds ++ ts ≠ [] := by
  have hsign : sign (ds ++ '.' :: ts) = (1, ds ++ '.' :: ts) := by
    refine sign_eq_self fun c hc => ?_
    cases ds with
    | nil => exact .inr (Option.some.inj hc).symm
    | cons d ds => exact .inl (Option.some.inj hc ▸ hd d List.mem_cons_self)
  have hspan := hd.span (show ∀ c, ('.' :: ts).head? = some c → isDigitPart c = false by
    rintro c ⟨⟩
    decide)
  have htail := ht.span (show ∀ c, [].head? = some c → isDigitPart c = false by nofun)
  rw [List.append_nil] at htail
  unfold Literal.float?
  simp only [hsign, hspan, htail, hd.part?, ht.part?]
  by_cases hne : ds ++ ts = []
  · obtain ⟨rfl, rfl⟩ := List.append_eq_nil_iff.1 hne
    exact iff_of_false nofun (by simp)
  · rw [if_neg fun h => hne (by simpa [List.isEmpty_iff] using h)]
    exact iff_of_true ⟨_, rfl⟩ hne

theorem AllDigits.isBlank (h : AllDigits cs) {c : Char} (hc : c ∈ cs) : isBlank c = false := by
  refine decide_eq_false fun hmem => ?_
  have hdigit := h c hc
  simp only [List.mem_cons, List.not_mem_nil, or_false] at hmem
  rcases hmem with rfl | rfl | rfl | rfl | rfl | rfl <;> revert hdigit <;> decide

theorem trim_eq_self (h : ∀ c ∈ cs, isBlank c = false) : trim cs = cs := by
  have hdrop : ∀ xs : List Char, (∀ c ∈ xs, isBlank c = false) → xs.dropWhile isBlank = xs := by
    intro xs hxs
    cases xs with
    | nil => rfl
    | cons c xs => rw [List.dropWhile_cons_of_neg (by rw [hxs c List.mem_cons_self]; decide)]
  rw [trim, hdrop cs h, hdrop _ fun c hc => h c (List.mem_reverse.1 hc), List.reverse_reverse]

end Literal

open Literal

/-- A text of digits with a point or without is a number as soon as it has a digit. -/
theorem returns_floatOfText {tables : Tables} {s ds point ts : List Char}
    (hs : s.map (toAscii tables) = ds ++ point ++ ts) (hd : AllDigits ds) (ht : AllDigits ts)
    (hpoint : point = [] ∨ point = ['.']) :
    Returns (floatOfText tables s) ↔ ds ++ ts ≠ [] := by
  have hblank : ∀ c ∈ ds ++ point ++ ts, isBlank c = false := by
    intro c hc
    rcases List.mem_append.1 hc with hc | hc
    · rcases List.mem_append.1 hc with hc | hc
      · exact hd.isBlank hc
      · rcases hpoint with rfl | rfl
        · cases hc
        · rw [List.mem_singleton.1 hc]
          decide
    · exact ht.isBlank hc
  have hreads : (∃ x, float? (ds ++ point ++ ts) = some x) ↔ ds ++ ts ≠ [] := by
    rcases hpoint with rfl | rfl
    · rw [List.append_nil]
      have hall : AllDigits (ds ++ ts) := fun c hc => (List.mem_append.1 hc).elim (hd c) (ht c)
      refine ⟨?_, hall.float?⟩
      rintro ⟨x, hx⟩ hnil
      rw [hnil] at hx
      cases hx
    · rw [List.append_assoc]
      exact hd.float?_point ht
  rw [← hreads, floatOfText, hs, trim_eq_self hblank]
  cases hx : float? (ds ++ point ++ ts) with
  | some x => exact iff_of_true ⟨_, rfl⟩ ⟨x, rfl⟩
  | none =>
    have hnil : ds ++ ts = [] := by
      by_contra hne
      obtain ⟨x, h⟩ := hreads.2 hne
      rw [hx] at h
      cases h
    obtain ⟨rfl, rfl⟩ := List.append_eq_nil_iff.1 hnil
    refine iff_of_false ?_ nofun
    rcases hpoint with rfl | rfl
    · exact not_returns_error _
    · exact not_returns_error _

/-! The amounts of a text. -/

namespace Claims

variable {tables : Tables}

/-- No digit is a space. -/
def DigitsApart (tables : Tables) : Prop := ∀ c, tables.isDigit c = true → tables.isSpace c = false

theorem isDigit_ascii {c : Char} (hc : c.toNat < 128) : tables.isDigit c = c.isDigit := by
  rw [Tables.isDigit, tables.decimal_ascii c hc]
  split_ifs with h
  · rw [h]
    rfl
  · rw [eq_false_of_ne_true h]
    rfl

theorem toAscii_digit (hapart : DigitsApart tables) {c : Char} (h : tables.isDigit c = true) :
    (toAscii tables c).isDigit = true := by
  unfold toAscii
  split_ifs with hascii hspace
  · exact (isDigit_ascii (by omega)).symm.trans h
  · rw [hapart c h] at hspace
    cases hspace
  · cases hd : tables.decimal c with
    | none =>
      rw [Tables.isDigit, hd] at h
      cases h
    | some d =>
      clear hd
      revert d
      decide

theorem ne_of_isDigit {c : Char} (h : tables.isDigit c = true) : c ≠ ',' ∧ c ≠ '.' := by
  constructor
  · rintro rfl
    rw [isDigit_ascii (by decide)] at h
    exact absurd h (by decide)
  · rintro rfl
    rw [isDigit_ascii (by decide)] at h
    exact absurd h (by decide)

theorem lang_many_char {p : Char → Bool} {w : List Char} (h : (Pattern.many (.char p)).Lang w) :
    ∀ c ∈ w, p c = true := by
  obtain ⟨ws, rfl, hws⟩ := h
  intro c hc
  obtain ⟨u, hu, hcu⟩ := List.mem_flatten.1 hc
  obtain ⟨d, hd, rfl⟩ := hws u hu
  rw [List.mem_singleton.1 hcu]
  exact hd

/-- What `[\d,]+\.?\d*` captures. -/
theorem amountTexts_shape {text : String} {a : List Char} (h : a ∈ amountTexts tables text) :
    ∃ u point t, a = u ++ point ++ t ∧ (∀ c ∈ u, tables.isDigit c = true ∨ c = ',') ∧
      (point = [] ∨ point = ['.']) ∧ ∀ c ∈ t, tables.isDigit c = true := by
  obtain ⟨groups, hg, rfl⟩ := List.mem_map.1 h
  obtain ⟨y, hy, rfl⟩ := List.mem_map.1 hg
  obtain ⟨x, hx⟩ := Pattern.mem_matchesFrom hy
  obtain ⟨x1, -, hx⟩ := List.mem_flatMap.1 hx
  obtain ⟨x2, -, hx⟩ := List.mem_flatMap.1 hx
  obtain ⟨w, hw, hgroup⟩ := Pattern.ends_group (by
    simp [Pattern.Plain, Pattern.seqs, Pattern.many1, digitOrComma, digit]) hx
  obtain ⟨u, v, rfl, hu, point, t, rfl, hpoint, ht⟩ := hw
  obtain ⟨first, rest, rfl, ⟨c, hc, rfl⟩, hrest⟩ := hu
  have hcomma : ∀ d, (tables.isDigit d || d = ',') = true → tables.isDigit d = true ∨ d = ',' := by
    simp
  refine ⟨[c] ++ rest, point, t, ?_, fun d hd => hcomma d ?_, ?_, lang_many_char ht⟩
  · rw [groupText, hgroup, Option.getD_some, ← List.append_assoc]
  · rcases List.mem_append.1 hd with hd | hd
    · rw [List.mem_singleton.1 hd]
      exact hc
    · exact lang_many_char hrest d hd
  · rcases hpoint with ⟨c, hc, rfl⟩ | rfl
    · exact .inr (by rw [of_decide_eq_true hc])
    · exact .inl rfl

theorem allDigits_map_toAscii (hapart : DigitsApart tables) {s : List Char}
    (h : ∀ c ∈ s, tables.isDigit c = true) : AllDigits (s.map (toAscii tables)) := by
  intro c hc
  obtain ⟨d, hd, rfl⟩ := List.mem_map.1 hc
  exact toAscii_digit hapart (h d hd)

/-- An amount is a number as soon as it has a digit. -/
theorem returns_amountOf (hapart : DigitsApart tables) {text : String} {a : List Char}
    (h : a ∈ amountTexts tables text) :
    Returns (amountOf tables a) ↔ ∃ c ∈ a, tables.isDigit c = true := by
  obtain ⟨u, point, t, rfl, hu, hpoint, ht⟩ := amountTexts_shape h
  have hkept : (u ++ point ++ t).filter (· ≠ ',') = u.filter (· ≠ ',') ++ point ++ t := by
    have htail : t.filter (· ≠ ',') = t :=
      List.filter_eq_self.2 fun c hc => decide_eq_true (ne_of_isDigit (ht c hc)).1
    have hmiddle : point.filter (· ≠ ',') = point := by
      rcases hpoint with rfl | rfl <;> rfl
    rw [List.filter_append, List.filter_append, htail, hmiddle]
  have hdigits : ∀ c ∈ u.filter (· ≠ ','), tables.isDigit c = true := by
    intro c hc
    obtain ⟨hmem, hne⟩ := List.mem_filter.1 hc
    exact (hu c hmem).resolve_right (of_decide_eq_true hne)
  have hmap : ((u ++ point ++ t).filter (· ≠ ',')).map (toAscii tables) =
      (u.filter (· ≠ ',')).map (toAscii tables) ++ point ++ t.map (toAscii tables) := by
    rw [hkept, List.map_append, List.map_append]
    rcases hpoint with rfl | rfl <;> rfl
  rw [amountOf, returns_floatOfText hmap (allDigits_map_toAscii hapart hdigits)
    (allDigits_map_toAscii hapart ht) hpoint, ← List.map_append, ne_eq, List.map_eq_nil_iff]
  constructor
  · intro hne
    obtain ⟨c, hc⟩ := List.exists_mem_of_ne_nil _ hne
    rcases List.mem_append.1 hc with hc | hc
    · exact ⟨c, by simp [(List.mem_filter.1 hc).1], hdigits c hc⟩
    · exact ⟨c, by simp [hc], ht c hc⟩
  · rintro ⟨c, hc, hdigit⟩ hnil
    obtain ⟨hleft, rfl⟩ := List.append_eq_nil_iff.1 hnil
    rcases List.mem_append.1 hc with hc | hc
    · rcases List.mem_append.1 hc with hc | hc
      · have hmem : c ∈ u.filter (· ≠ ',') :=
          List.mem_filter.2 ⟨hc, decide_eq_true (ne_of_isDigit hdigit).1⟩
        rw [hleft] at hmem
        cases hmem
      · rcases hpoint with rfl | rfl
        · cases hc
        · exact (ne_of_isDigit hdigit).2 (List.mem_singleton.1 hc)
    · cases hc

end Claims

end WorkflowEngine
