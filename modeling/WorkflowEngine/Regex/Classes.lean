import WorkflowEngine.Regex.Match

/-! Character classes and literal texts. The tables beyond ASCII are given; with case ignored, an
ASCII letter also stands for the few other letters that fold to it. -/

namespace Regex

/-- `\w`, `\s` and `\d`, as the tables of Unicode have them; a digit has a value. -/
structure Tables where
  isWord : Char → Bool
  isSpace : Char → Bool
  decimal : Char → Option (Fin 10)
  word_ascii : ∀ c, c.toNat < 128 → isWord c = (c.isAlphanum || c = '_')
  decimal_ascii : ∀ c, c.toNat < 128 →
    decimal c = if c.isDigit then some (Fin.ofNat 10 (c.toNat - 48)) else none
  word_folding : ∀ c ∈ ['ı', 'İ', 'ſ', '\u212a'], isWord c = true

/-- Beyond ASCII only what folds to it. -/
def Tables.ascii : Tables where
  isWord c := c.isAlphanum || c = '_' || c ∈ ['ı', 'İ', 'ſ', '\u212a']
  isSpace c := c ∈ [' ', '\t', '\n', '\x0b', '\x0c', '\r', '\x1c', '\x1d', '\x1e', '\x1f']
  decimal c := if c.isDigit then some (Fin.ofNat 10 (c.toNat - 48)) else none
  word_ascii := by
    intro c hc
    have hno : decide (c ∈ ['ı', 'İ', 'ſ', '\u212a']) = false := by
      refine decide_eq_false fun h => ?_
      simp only [List.mem_cons, List.not_mem_nil, or_false] at h
      rcases h with rfl | rfl | rfl | rfl <;> revert hc <;> decide
    rw [hno, Bool.or_false]
  decimal_ascii := fun _ _ => rfl
  word_folding := by
    intro c hc
    simp only [List.mem_cons, List.not_mem_nil, or_false] at hc
    rcases hc with rfl | rfl | rfl | rfl <;> decide

def Tables.isDigit (tables : Tables) (c : Char) : Bool := (tables.decimal c).isSome

/-- `(?i)` with a lower-case character. -/
def ignoringCase (c : Char) (x : Char) : Bool :=
  x = c || x = c.toUpper || (c = 'i' && x ∈ ['ı', 'İ']) || (c = 's' && x = 'ſ') ||
    (c = 'k' && x = '\u212a')

namespace Pattern

def text (s : String) : Pattern :=
  s.toList.foldr (fun c r => .seq (.char (ignoringCase c)) r) .empty

/-- A text in its own case. -/
def exactly (s : String) : Pattern := s.toList.foldr (fun c r => .seq (.char (· = c)) r) .empty

/-- `r|s|…` -/
def choice : List Pattern → Pattern
  | [] => .empty
  | [r] => r
  | r :: s :: rs => .alt r (choice (s :: rs))

def many1 (r : Pattern) : Pattern := .seq r (.many r)

/-- `.` -/
def dot : Pattern := .char (· ≠ '\n')

/-- One pattern after the other. -/
def seqs : List Pattern → Pattern
  | [] => .empty
  | [r] => r
  | r :: s :: rs => .seq r (seqs (s :: rs))

end Pattern

theorem toUpper_ascii : ∀ n < 128, (Char.ofNat n).isAlphanum || Char.ofNat n = '_' →
    ((Char.ofNat n).toUpper.toNat < 128 ∧
      ((Char.ofNat n).toUpper.isAlphanum || (Char.ofNat n).toUpper = '_')) := by
  decide +kernel

theorem isWord_of_ignoringCase (tables : Tables) {c x : Char} (hc : c.isAlphanum || c = '_')
    (hascii : c.toNat < 128) (h : ignoringCase c x = true) : tables.isWord x = true := by
  have hupper := toUpper_ascii c.toNat hascii
  rw [Char.ofNat_toNat] at hupper
  simp only [ignoringCase, Bool.or_eq_true, Bool.and_eq_true, decide_eq_true_eq] at h
  rcases h with (((rfl | rfl) | ⟨-, hx⟩) | ⟨-, rfl⟩) | ⟨-, rfl⟩
  · rw [tables.word_ascii x hascii]
    exact hc
  · rw [tables.word_ascii _ (hupper hc).1]
    exact (hupper hc).2
  · refine tables.word_folding x ?_
    simp only [List.mem_cons, List.not_mem_nil, or_false] at hx ⊢
    rcases hx with rfl | rfl
    · exact Or.inl rfl
    · exact Or.inr (Or.inl rfl)
  · exact tables.word_folding 'ſ' (by simp)
  · exact tables.word_folding '\u212a' (by simp)

end Regex
