import WorkflowEngine.Regex.Redact
import WorkflowEngine.Spec.Guardrails

/-! What the pattern rails leave of a response: no internal data in it, and nothing to redact. -/

namespace WorkflowEngine

namespace Guardrails

open Regex

variable (tables : Tables)

def redactedMarker : Marker tables.isWord where
  opening := '['
  first := 'R'
  inner := "EDACTED".toList
  closing := ']'
  opening_not := by rw [tables.word_ascii '[' (by decide)]; decide
  first_word := by rw [tables.word_ascii 'R' (by decide)]; decide
  inner_word := by
    intro c hc
    have hall : "EDACTED".toList.all (fun c => decide (c.toNat < 128) && c.isAlphanum) = true := by
      decide
    obtain ⟨hascii, hword⟩ := Bool.and_eq_true_iff.1 (List.all_eq_true.1 hall c hc)
    rw [tables.word_ascii c (of_decide_eq_true hascii), hword, Bool.true_or]
  closing_not := by rw [tables.word_ascii ']' (by decide)]; decide
  no_colon := by decide
  colon_not := by rw [tables.word_ascii ':' (by decide)]; decide

theorem redactedMarker_text : (redactedMarker tables).text = redactedMark := rfl

/-- ASCII word characters, the first of them not that of the marker. -/
def wordText (s : String) : Bool :=
  s.toList.all (fun c => (c.isAlphanum || c = '_') && c.toNat < 128) &&
    s.toList.head?.any fun c => !ignoringCase c 'R'

theorem framed_word {s : String} (hs : wordText s = true) :
    Framed (redactedMarker tables) (.text s) := by
  obtain ⟨hall, hfirst⟩ := Bool.and_eq_true_iff.1 hs
  refine framed_text (fun c hc => ?_) hfirst
  obtain ⟨hword, hascii⟩ := Bool.and_eq_true_iff.1 (List.all_eq_true.1 hall c hc)
  exact ⟨hword, of_decide_eq_true hascii⟩

theorem framed_words (words : List String) (hne : words ≠ []) (hs : words.all wordText = true) :
    Framed (redactedMarker tables) (.group 1 (.choice (words.map .text))) := by
  refine Framed.group 1 (framed_choice (by simpa using hne) fun r hr => ?_)
  obtain ⟨s, hmem, rfl⟩ := List.mem_map.1 hr
  exact framed_word tables (List.all_eq_true.1 hs s hmem)

theorem framed_separated {s t : String} (hs : wordText s = true) (ht : wordText t = true) :
    Framed (redactedMarker tables) (.seqs [.text s, separator, .text t]) :=
  (framed_word tables hs).joined (framed_word tables ht) rfl rfl

theorem alone_of_mem {r : GuardrailRule} (hr : r ∈ internalDataPatterns) :
    Alone (redactedMarker tables) r.pattern := by
  simp only [internalDataPatterns, List.mem_cons, List.not_mem_nil, or_false] at hr
  rcases hr with rfl | rfl | rfl | rfl | rfl | rfl
  · exact ⟨_, .colon, @framed_separated tables "step" "id" (by decide) (by decide), rfl⟩
  · exact ⟨_, .colon, @framed_separated tables "procedure" "id" (by decide) (by decide), rfl⟩
  · exact ⟨_, .nothing, framed_words tables
      ["sql", "query", "database", "db_path", "sqlite"] (by simp) (by decide), rfl⟩
  · exact ⟨_, .nothing, @framed_word tables "tool_context" (by decide), rfl⟩
  · exact ⟨_, .nothing, @framed_separated tables "session" "state" (by decide) (by decide), rfl⟩
  · exact ⟨_, .nothing, framed_words tables
      ["api_key", "secret_key", "password", "credential"] (by simp) (by decide), rfl⟩

/-- What one rule leaves: nothing new, and none of its own patterns. -/
theorem found_redactRule (rule : String) (text : List Char) {q : Pattern}
    (hq : Alone (redactedMarker tables) q)
    (h : q.found tables.isWord [] (redactRule tables rule text) = true) :
    q.found tables.isWord [] text = true ∧
      ∀ r ∈ internalDataPatterns, r.rule = rule → q ≠ r.pattern := by
  unfold redactRule at h
  have hall : ∀ r ∈ internalDataPatterns, Alone (redactedMarker tables) r.pattern :=
    fun r hr => alone_of_mem tables hr
  revert h hall
  induction internalDataPatterns generalizing text with
  | nil => exact fun h _ => ⟨h, nofun⟩
  | cons r rules ih =>
    intro h hall
    obtain ⟨hr, hrules⟩ := List.forall_mem_cons.1 hall
    obtain ⟨hfound, hne⟩ := ih _ h hrules
    dsimp only at hfound
    split_ifs at hfound with hrule
    · rw [← redactedMarker_text] at hfound
      obtain ⟨hfound, hown⟩ := hr.found_subFrom hq (Nat.le_refl _) (Or.inl rfl) hfound
      refine ⟨hfound, fun r' hr' => ?_⟩
      rcases List.mem_cons.1 hr' with rfl | hr'
      · exact fun _ => hown
      · exact hne r' hr'
    · refine ⟨hfound, fun r' hr' => ?_⟩
      rcases List.mem_cons.1 hr' with rfl | hr'
      · exact fun h => absurd h hrule
      · exact hne r' hr'

theorem found_redact (violations : List GuardrailViolation) (text : List Char) {q : Pattern}
    (hq : Alone (redactedMarker tables) q)
    (h : q.found tables.isWord [] (violations.foldl (redactViolation tables) text) = true) :
    q.found tables.isWord [] text = true ∧ ∀ v ∈ violations, v.severity = .redact →
      ∀ r ∈ internalDataPatterns, r.rule = v.rule → q ≠ r.pattern := by
  induction violations generalizing text with
  | nil => exact ⟨h, nofun⟩
  | cons v violations ih =>
    obtain ⟨hfound, hne⟩ := ih _ h
    unfold redactViolation at hfound
    split_ifs at hfound with hseverity
    · obtain ⟨hfound, hown⟩ := found_redactRule tables v.rule text hq hfound
      exact ⟨hfound, List.forall_mem_cons.2 ⟨fun _ => hown, hne⟩⟩
    · exact ⟨hfound, List.forall_mem_cons.2 ⟨fun h => absurd h hseverity, hne⟩⟩

/-- Redactions are for what is found of the internal data. -/
theorem redact_iff (text : String) :
    (∃ v ∈ checkResponse tables text, v.severity = .redact) ↔
      ∃ r ∈ internalDataPatterns, r.pattern.found tables.isWord [] text.toList = true := by
  simp only [checkResponse, violationsOf, List.mem_append, List.mem_map, List.mem_filter]
  constructor
  · rintro ⟨v, (⟨r, hr, rfl⟩ | ⟨r, hr, rfl⟩) | ⟨r, hr, rfl⟩, hseverity⟩
    · exact ⟨r, hr⟩
    · cases hseverity
    · cases hseverity
  · rintro ⟨r, hr⟩
    exact ⟨_, Or.inl (Or.inl ⟨r, hr, rfl⟩), rfl⟩

theorem filterResponse_of_clean {text : String}
    (h : ∀ v ∈ checkResponse tables text, v.severity ≠ .redact) :
    (filterResponse tables text).1 = text := by
  have hfold : ∀ (violations : List GuardrailViolation), (∀ v ∈ violations, v.severity ≠ .redact) →
      violations.foldl (redactViolation tables) text.toList = text.toList := by
    intro violations hall
    induction violations with
    | nil => rfl
    | cons v violations ih =>
      obtain ⟨hv, hrest⟩ := List.forall_mem_cons.1 hall
      rw [List.foldl_cons, redactViolation, if_neg hv, ih hrest]
  rw [filterResponse, hfold _ h, String.ofList_toList]

end Guardrails

open Guardrails in
/-- Of a filtered response nothing is left to redact, whatever it was, and filtering it again
changes nothing. -/
theorem filterResponse_redacts (tables : Regex.Tables) (text : String) :
    (∀ r ∈ internalDataPatterns,
      r.pattern.found tables.isWord [] (filterResponse tables text).1.toList = false) ∧
    (∀ v ∈ checkResponse tables (filterResponse tables text).1, v.severity ≠ .redact) ∧
    (filterResponse tables (filterResponse tables text).1).1 = (filterResponse tables text).1 := by
  have hclean : ∀ r ∈ internalDataPatterns,
      r.pattern.found tables.isWord [] (filterResponse tables text).1.toList = false := by
    intro r hr
    refine Bool.eq_false_iff.2 fun h => ?_
    rw [filterResponse, String.toList_ofList] at h
    obtain ⟨hfound, hne⟩ := found_redact tables _ _ (alone_of_mem tables hr) h
    have hviolation : (⟨r.rule, r.description, .redact⟩ : GuardrailViolation) ∈
        checkResponse tables text := by
      refine List.mem_append_left _ (List.mem_append_left _ (List.mem_map.2 ⟨r, ?_, rfl⟩))
      exact List.mem_filter.2 ⟨hr, hfound⟩
    exact hne _ hviolation rfl r hr rfl rfl
  have hnone : ∀ v ∈ checkResponse tables (filterResponse tables text).1, v.severity ≠ .redact := by
    intro v hv hseverity
    obtain ⟨r, hr, hfound⟩ := (redact_iff tables _).1 ⟨v, hv, hseverity⟩
    rw [hclean r hr] at hfound
    cases hfound
  exact ⟨hclean, hnone, filterResponse_of_clean tables hnone⟩

end WorkflowEngine
