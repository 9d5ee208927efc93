import Mathlib.Data.List.TakeWhile
import Mathlib.Data.Nat.Digits.Defs
import Mathlib.Data.Nat.Digits.Lemmas

/-! Strings and numerals of a JSON text. A string is the list of its UTF-16 code units, as the
escapes of an ASCII text write them; two strings that differ in how a surrogate pair is
written are one string. -/

namespace JsonText

abbrev CodeUnit := Fin 65536

abbrev Str := List CodeUnit

def unit (n : ℕ) : CodeUnit := Fin.ofNat 65536 n

def ofChar (c : Char) : Str :=
  if c.toNat < 0x10000 then [unit c.toNat]
  else [unit (0xD800 + (c.toNat - 0x10000) / 0x400), unit (0xDC00 + (c.toNat - 0x10000) % 0x400)]

def ofText (s : List Char) : Str := s.flatMap ofChar

/-- The code points of a string; a surrogate without its partner stands for itself. -/
def codePoints : Str → List ℕ
  | hi :: lo :: rest =>
    if 0xD800 ≤ hi.val ∧ hi.val < 0xDC00 ∧ 0xDC00 ≤ lo.val ∧ lo.val < 0xE000 then
      (0x10000 + (hi.val - 0xD800) * 0x400 + (lo.val - 0xDC00)) :: codePoints rest
    else hi.val :: codePoints (lo :: rest)
  | [u] => [u.val]
  | [] => []

def hex? (c : Char) : Option ℕ :=
  if '0' ≤ c ∧ c ≤ '9' then some (c.toNat - 48)
  else if 'a' ≤ c ∧ c ≤ 'f' then some (c.toNat - 87)
  else if 'A' ≤ c ∧ c ≤ 'F' then some (c.toNat - 55)
  else none

/-- The code unit of four hex digits. -/
def unit? (a b c d : Char) : Option CodeUnit := do
  return unit ((((← hex? a) * 16 + (← hex? b)) * 16 + (← hex? c)) * 16 + (← hex? d))

def escape? : Char → Option CodeUnit
  | '"' => some 34
  | '\\' => some 92
  | '/' => some 47
  | 'b' => some 8
  | 'f' => some 12
  | 'n' => some 10
  | 'r' => some 13
  | 't' => some 9
  | _ => none

/-- What a code unit is written as: the printable ASCII characters as themselves. -/
def escapeUnit (u : CodeUnit) : List Char :=
  if u = 34 then ['\\', '"']
  else if u = 92 then ['\\', '\\']
  else if u = 10 then ['\\', 'n']
  else if u = 13 then ['\\', 'r']
  else if u = 9 then ['\\', 't']
  else if u = 12 then ['\\', 'f']
  else if u = 8 then ['\\', 'b']
  else if 32 ≤ u.val ∧ u.val ≤ 126 then [Char.ofNat u.val]
  else ['\\', 'u', Nat.digitChar (u.val / 4096), Nat.digitChar (u.val / 256 % 16),
    Nat.digitChar (u.val / 16 % 16), Nat.digitChar (u.val % 16)]

def quoted (s : Str) : List Char := '"' :: (s.flatMap escapeUnit ++ ['"'])

/-- A string after its opening quote, with what follows the closing one. -/
def scanString : List Char → Option (Str × List Char)
  | '"' :: rest => some ([], rest)
  | '\\' :: 'u' :: a :: b :: c :: d :: rest =>
    (unit? a b c d).bind fun u => (scanString rest).map fun p => (u :: p.1, p.2)
  | '\\' :: e :: rest =>
    (escape? e).bind fun u => (scanString rest).map fun p => (u :: p.1, p.2)
  | c :: rest =>
    if c.toNat < 0x20 then none else (scanString rest).map fun p => (ofChar c ++ p.1, p.2)
  | [] => none

theorem codePoints_cons {u : CodeUnit} {s : Str} (h : u.val < 0xD800 ∨ 0xDC00 ≤ u.val) :
    codePoints (u :: s) = u.val :: codePoints s := by
  cases s with
  | nil => rfl
  | cons v s =>
    rw [codePoints, if_neg]
    omega

theorem codePoints_pair {hi lo : CodeUnit} {s : Str} (hh : 0xD800 ≤ hi.val ∧ hi.val < 0xDC00)
    (hl : 0xDC00 ≤ lo.val ∧ lo.val < 0xE000) : codePoints (hi :: lo :: s) =
      (0x10000 + (hi.val - 0xD800) * 0x400 + (lo.val - 0xDC00)) :: codePoints s := by
  rw [codePoints, if_pos ⟨hh.1, hh.2, hl⟩]

theorem val_unit {n : ℕ} (h : n < 65536) : (unit n).val = n := Nat.mod_eq_of_lt h

/-- No character is a surrogate. -/
theorem toNat_cases (c : Char) :
    c.toNat < 0xD800 ∨ 0xE000 ≤ c.toNat ∧ c.toNat < 0x110000 := by
  rcases c.valid with h | ⟨h, h'⟩
  · exact Or.inl h
  · exact Or.inr ⟨h, h'⟩

theorem codePoints_ofText (s : List Char) : codePoints (ofText s) = s.map Char.toNat := by
  induction s with
  | nil => rfl
  | cons c s ih =>
    have hc := toNat_cases c
    rw [ofText, List.flatMap_cons, List.map_cons, ← ih]
    unfold ofChar
    split_ifs with h
    · have hv : (unit c.toNat).val = c.toNat := val_unit h
      rw [List.singleton_append, codePoints_cons (by omega), hv]
      rfl
    · have hhi := val_unit (n := 0xD800 + (c.toNat - 0x10000) / 0x400) (by omega)
      have hlo := val_unit (n := 0xDC00 + (c.toNat - 0x10000) % 0x400) (by omega)
      have hval : 0x10000 + (0xD800 + (c.toNat - 0x10000) / 0x400 - 0xD800) * 0x400 +
          (0xDC00 + (c.toNat - 0x10000) % 0x400 - 0xDC00) = c.toNat := by omega
      rw [List.cons_append, List.cons_append, codePoints_pair (by omega) (by omega), hhi, hlo, hval]
      rfl

theorem ofText_injective {s t : List Char} (h : ofText s = ofText t) : s = t := by
  have hmap : s.map Char.toNat = t.map Char.toNat := by
    rw [← codePoints_ofText, ← codePoints_ofText, h]
  exact List.map_injective_iff.2 (fun _ _ hc => Char.toNat_inj.1 hc) hmap

theorem hex?_digitChar : ∀ d < 16, hex? (Nat.digitChar d) = some d := by decide

theorem unit?_digits (u : CodeUnit) :
    unit? (Nat.digitChar (u.val / 4096)) (Nat.digitChar (u.val / 256 % 16))
      (Nat.digitChar (u.val / 16 % 16)) (Nat.digitChar (u.val % 16)) = some u := by
  have hu := u.isLt
  unfold unit?
  rw [hex?_digitChar _ (by omega), hex?_digitChar _ (by omega), hex?_digitChar _ (by omega),
    hex?_digitChar _ (by omega)]
  refine congrArg some (Fin.ext ?_)
  refine (val_unit (by omega)).trans ?_
  omega

theorem scanString_plain {c : Char} (hq : c ≠ '"') (hb : c ≠ '\\') (rest : List Char) :
    scanString (c :: rest) =
      if c.toNat < 0x20 then none else (scanString rest).map fun p => (ofChar c ++ p.1, p.2) := by
  rw [scanString.eq_def]
  split
  · next h => exact absurd (List.cons.inj h).1 hq
  · next h => exact absurd (List.cons.inj h).1 hb
  · next h => exact absurd (List.cons.inj h).1 hb
  · next h =>
    obtain ⟨rfl, rfl⟩ := List.cons.inj h
    rfl
  · next h => cases h

theorem scanString_escape {e : Char} {u : CodeUnit} (hu : escape? e = some u) (rest : List Char) :
    scanString ('\\' :: e :: rest) = (scanString rest).map fun p => (u :: p.1, p.2) := by
  have he : e ≠ 'u' := by
    rintro rfl
    cases hu
  rw [scanString]
  · rw [hu]
    rfl
  · intro a b c d tail h
    exact absurd h he

theorem scanString_escapeUnit (u : CodeUnit) (rest : List Char) :
    scanString (escapeUnit u ++ rest) = (scanString rest).map fun p => (u :: p.1, p.2) := by
  unfold escapeUnit
  split_ifs with h1 h2 h3 h4 h5 h6 h7 h8
  · exact scanString_escape (h1 ▸ rfl) rest
  · exact scanString_escape (h2 ▸ rfl) rest
  · exact scanString_escape (h3 ▸ rfl) rest
  · exact scanString_escape (h4 ▸ rfl) rest
  · exact scanString_escape (h5 ▸ rfl) rest
  · exact scanString_escape (h6 ▸ rfl) rest
  · exact scanString_escape (h7 ▸ rfl) rest
  · have hn : (Char.ofNat u.val).toNat = u.val := by
      rw [Char.ofNat, dif_pos (Or.inl (by omega))]
      rfl
    have hunit : ofChar (Char.ofNat u.val) = [u] := by
      unfold ofChar
      rw [hn, if_pos u.isLt]
      exact congrArg (fun v => [v]) (Fin.ext (val_unit u.isLt))
    rw [List.singleton_append, scanString_plain, if_neg (by omega), hunit]
    · rfl
    · intro h
      exact h1 (Fin.ext (hn ▸ congrArg Char.toNat h))
    · intro h
      exact h2 (Fin.ext (hn ▸ congrArg Char.toNat h))
  · change scanString ('\\' :: 'u' :: _ :: _ :: _ :: _ :: rest) = _
    rw [scanString, unit?_digits]
    rfl

/-- A string is read back as it was written. -/
theorem scanString_quoted (s : Str) (rest : List Char) :
    scanString (s.flatMap escapeUnit ++ '"' :: rest) = some (s, rest) := by
  induction s with
  | nil => rfl
  | cons u s ih =>
    rw [List.flatMap_cons, List.append_assoc, scanString_escapeUnit, ih]
    rfl

/-- The digits of a numeral. -/
def scanDigits (s : List Char) : List Char × List Char :=
  (s.takeWhile Char.isDigit, s.dropWhile Char.isDigit)

/-- `0|[1-9]\d*` -/
def scanWhole : List Char → Option (List Char × List Char)
  | c :: rest =>
    if c = '0' then some (['0'], rest)
    else if c.isDigit then some (c :: (scanDigits rest).1, (scanDigits rest).2)
    else none
  | [] => none

/-- `(\.\d+)?` -/
def scanFraction (s : List Char) : List Char × List Char :=
  match s with
  | '.' :: rest =>
    if (scanDigits rest).1 = [] then ([], s) else ('.' :: (scanDigits rest).1, (scanDigits rest).2)
  | _ => ([], s)

/-- `[-+]?` -/
def scanSign : List Char → List Char × List Char
  | c :: rest => if c = '-' ∨ c = '+' then ([c], rest) else ([], c :: rest)
  | [] => ([], [])

/-- `([eE][-+]?\d+)?` -/
def scanExponent (s : List Char) : List Char × List Char :=
  match s with
  | c :: rest =>
    if (c = 'e' ∨ c = 'E') ∧ (scanDigits (scanSign rest).2).1 ≠ [] then
      (c :: ((scanSign rest).1 ++ (scanDigits (scanSign rest).2).1),
        (scanDigits (scanSign rest).2).2)
    else ([], s)
  | [] => ([], [])

structure Numeral where
  sign : List Char
  whole : List Char
  fraction : List Char
  exponent : List Char

namespace Numeral

def text (x : Numeral) : List Char := x.sign ++ x.whole ++ x.fraction ++ x.exponent

/-- The numeral is read as an integer. -/
def isInt (x : Numeral) : Bool := (x.fraction ++ x.exponent).isEmpty

end Numeral

def scanMinus : List Char → List Char × List Char
  | '-' :: rest => (['-'], rest)
  | s => ([], s)

/-- The longest numeral that the text begins with. -/
def scanNumber (s : List Char) : Option (Numeral × List Char) :=
  (scanWhole (scanMinus s).2).map fun whole =>
    let fraction := scanFraction whole.2
    let exponent := scanExponent fraction.2
    (⟨(scanMinus s).1, whole.1, fraction.1, exponent.1⟩, exponent.2)

/-- The text cannot go on with a numeral. -/
def Stops (s : List Char) : Prop :=
  ∀ c ∈ s.head?, c.isDigit = false ∧ c ≠ '.' ∧ c ≠ 'e' ∧ c ≠ 'E' ∧ c ≠ '-' ∧ c ≠ '+'

theorem Stops.nil : Stops [] := by simp [Stops]

theorem Stops.cons {c : Char} (hc : c ∈ [',', ']', '}', ':', ' ']) (s : List Char) :
    Stops (c :: s) := by
  intro c' h
  cases h
  simp only [List.mem_cons, List.not_mem_nil, or_false] at hc
  rcases hc with rfl | rfl | rfl | rfl | rfl <;> decide

section
variable {s rest : List Char} (hr : Stops rest)
include hr

theorem scanDigits_append :
    scanDigits (s ++ rest) = ((scanDigits s).1, (scanDigits s).2 ++ rest) := by
  unfold scanDigits
  induction s with
  | nil =>
    cases rest with
    | nil => rfl
    | cons c rest =>
      have hc := (hr c rfl).1
      simp [hc]
  | cons c s ih =>
    rw [List.cons_append, List.takeWhile_cons, List.dropWhile_cons, List.takeWhile_cons,
      List.dropWhile_cons]
    cases c.isDigit with
    | false => rfl
    | true =>
      simp only [Prod.mk.injEq] at ih
      simp [ih.1, ih.2]

theorem scanWhole_append {n s' : List Char} (h : scanWhole s = some (n, s')) :
    scanWhole (s ++ rest) = some (n, s' ++ rest) := by
  cases s with
  | nil => cases h
  | cons c s =>
    simp only [List.cons_append, scanWhole] at h ⊢
    rw [scanDigits_append hr]
    split_ifs at h ⊢ <;> cases h <;> rfl

theorem scanFraction_append :
    scanFraction (s ++ rest) = ((scanFraction s).1, (scanFraction s).2 ++ rest) := by
  have hplain : ∀ {c : Char} (t : List Char), c ≠ '.' → scanFraction (c :: t) = ([], c :: t) := by
    intro c t hc
    unfold scanFraction
    split
    · next heq => exact absurd (List.cons.inj heq).1 hc
    · rfl
  cases s with
  | nil =>
    cases rest with
    | nil => rfl
    | cons c rest => exact hplain rest (hr c rfl).2.1
  | cons c s =>
    by_cases hc : c = '.'
    · subst hc
      simp only [List.cons_append, scanFraction]
      rw [scanDigits_append hr]
      split_ifs <;> rfl
    · rw [List.cons_append, hplain _ hc, hplain _ hc]
      rfl

theorem scanSign_append :
    scanSign (s ++ rest) = ((scanSign s).1, (scanSign s).2 ++ rest) := by
  cases s with
  | nil =>
    cases rest with
    | nil => rfl
    | cons c rest =>
      obtain ⟨-, -, -, -, hm, hp⟩ := hr c rfl
      exact if_neg (by simp [hm, hp])
  | cons c s =>
    simp only [List.cons_append, scanSign]
    split_ifs <;> rfl

theorem scanExponent_append :
    scanExponent (s ++ rest) = ((scanExponent s).1, (scanExponent s).2 ++ rest) := by
  cases s with
  | nil =>
    cases rest with
    | nil => rfl
    | cons c rest =>
      obtain ⟨-, -, he, hE, -⟩ := hr c rfl
      exact if_neg (by simp [he, hE])
  | cons c s =>
    simp only [List.cons_append, scanExponent]
    rw [scanSign_append hr, scanDigits_append hr]
    split_ifs <;> rfl

end

theorem scanMinus_append {s rest : List Char} (hr : Stops rest) :
    scanMinus (s ++ rest) = ((scanMinus s).1, (scanMinus s).2 ++ rest) := by
  have hplain : ∀ {c : Char} (t : List Char), c ≠ '-' → scanMinus (c :: t) = ([], c :: t) := by
    intro c t hc
    unfold scanMinus
    split
    · next heq => exact absurd (List.cons.inj heq).1 hc
    · rfl
  cases s with
  | nil =>
    cases rest with
    | nil => rfl
    | cons c rest => exact hplain rest (hr c rfl).2.2.2.2.1
  | cons c s =>
    by_cases hc : c = '-'
    · subst hc
      rfl
    · rw [List.cons_append, hplain _ hc, hplain _ hc]
      rfl

/-- A numeral that a text ends with is read whatever follows it. -/
theorem scanNumber_append {s t rest : List Char} (hr : Stops rest) {x : Numeral}
    (h : scanNumber s = some (x, t)) : scanNumber (s ++ rest) = some (x, t ++ rest) := by
  obtain ⟨⟨whole, s'⟩, hw, hx⟩ := Option.map_eq_some_iff.1 h
  unfold scanNumber
  rw [scanMinus_append hr, scanWhole_append hr hw, Option.map_some]
  dsimp only
  rw [scanFraction_append hr, scanExponent_append hr]
  cases hx
  rfl

def decimal (n : ℕ) : List Char :=
  if n = 0 then ['0'] else (Nat.digits 10 n).reverse.map Nat.digitChar

def intText (n : ℤ) : List Char := if n < 0 then '-' :: decimal n.natAbs else decimal n.natAbs

def digitsValue (s : List Char) : ℕ := s.foldl (fun n c => 10 * n + (c.toNat - 48)) 0

/-- `int(text)` of a numeral without fraction and exponent. -/
def Numeral.toInt (x : Numeral) : ℤ :=
  if x.sign = [] then digitsValue x.whole else -digitsValue x.whole

theorem digitsValue_snoc (s : List Char) (c : Char) :
    digitsValue (s ++ [c]) = 10 * digitsValue s + (c.toNat - 48) := by
  simp [digitsValue]

theorem digitChar_digit : ∀ d < 10, (Nat.digitChar d).isDigit = true ∧
    (Nat.digitChar d).toNat - 48 = d ∧ (Nat.digitChar d = '0' → d = 0) := by decide

theorem digitsValue_map {ds : List ℕ} (hd : ∀ d ∈ ds, d < 10) :
    digitsValue (ds.reverse.map Nat.digitChar) = Nat.ofDigits 10 ds := by
  induction ds with
  | nil => rfl
  | cons d ds ih =>
    rw [List.reverse_cons, List.map_append, List.map_singleton, digitsValue_snoc,
      ih fun e he => hd e (List.mem_cons_of_mem _ he),
      (digitChar_digit d (hd d List.mem_cons_self)).2.1,
      Nat.ofDigits_cons]
    omega

theorem digitsValue_decimal (n : ℕ) : digitsValue (decimal n) = n := by
  unfold decimal
  split_ifs with h
  · exact h.symm
  · rw [digitsValue_map fun d hd => Nat.digits_lt_base (by decide) hd, Nat.ofDigits_digits]

theorem scanDigits_all {s : List Char} (h : ∀ c ∈ s, c.isDigit = true) : scanDigits s = (s, []) :=
  Prod.ext (List.takeWhile_eq_self_iff.2 h) (List.dropWhile_eq_nil_iff.2 h)

theorem scanWhole_decimal (n : ℕ) : scanWhole (decimal n) = some (decimal n, []) := by
  unfold decimal
  split_ifs with h
  · rfl
  · have hlt : ∀ d ∈ (Nat.digits 10 n).reverse, d < 10 := fun d hd =>
      Nat.digits_lt_base (by decide) (List.mem_reverse.1 hd)
    cases hds : (Nat.digits 10 n).reverse with
    | nil =>
      rw [List.reverse_eq_nil_iff, Nat.digits_eq_nil_iff_eq_zero] at hds
      exact absurd hds h
    | cons d ds =>
      rw [hds] at hlt
      -- the leading digit is not a zero
      have hne : d ≠ 0 := by
        have hdigits : Nat.digits 10 n = ds.reverse ++ [d] := by
          rw [← List.reverse_cons, ← hds, List.reverse_reverse]
        have hlast := Nat.getLast_digit_ne_zero 10 h
        simpa [hdigits] using hlast
      obtain ⟨hdig, -, hzero⟩ := digitChar_digit d (hlt d List.mem_cons_self)
      have hall : ∀ c ∈ ds.map Nat.digitChar, c.isDigit = true := by
        intro c hc
        obtain ⟨e, he, rfl⟩ := List.mem_map.1 hc
        exact (digitChar_digit e (hlt e (List.mem_cons_of_mem _ he))).1
      rw [List.map_cons, scanWhole, if_neg fun hz => hne (hzero hz), if_pos hdig,
        scanDigits_all hall]

theorem scanNumber_intText (n : ℤ) :
    ∃ x, scanNumber (intText n) = some (x, []) ∧ x.isInt = true ∧ x.toInt = n := by
  have hminus : scanMinus (decimal n.natAbs) = ([], decimal n.natAbs) := by
    have hwhole := scanWhole_decimal n.natAbs
    unfold scanMinus
    split
    · next hd =>
      rw [hd] at hwhole
      cases hwhole
    · rfl
  unfold intText scanNumber
  split_ifs with h
  · refine ⟨⟨['-'], decimal n.natAbs, [], []⟩, ?_, rfl, ?_⟩
    · change (scanWhole (decimal n.natAbs)).map _ = _
      rw [scanWhole_decimal]
      rfl
    · rw [Numeral.toInt, if_neg (by simp), digitsValue_decimal]
      omega
  · refine ⟨⟨[], decimal n.natAbs, [], []⟩, ?_, rfl, ?_⟩
    · rw [hminus, scanWhole_decimal]
      rfl
    · rw [Numeral.toInt, if_pos rfl, digitsValue_decimal]
      omega

end JsonText
