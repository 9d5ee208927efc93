import Mathlib.Data.List.Induction
import Mathlib.Data.List.TakeWhile
import Mathlib.Tactic.SplitIfs

/-! URLs as texts: how one is split into its parts (`urlsplit`, `urlparse`) and put together
again (`urlunparse`), after RFC 3986. What is put together is never longer than what was split. -/

namespace UrlText

scoped instance lawfulText : LawfulBEq (List Char) := inferInstance

/-- What is decided by tables beyond ASCII and by addresses in brackets: whether a netloc is
accepted, and lower case. -/
structure Tables where
  accepts : List Char → Bool
  lower : List Char → List Char

structure ParseResult where
  scheme : List Char
  netloc : List Char
  path : List Char
  params : List Char
  query : List Char
  fragment : List Char
  deriving DecidableEq

def usesParams : List (List Char) :=
  ["", "ftp", "hdl", "prospero", "http", "https", "shttp", "rtsp", "rtspu", "sip", "sips", "mms",
    "sftp", "tel"].map String.toList

def usesNetloc : List (List Char) :=
  ["", "ftp", "http", "gopher", "nntp", "telnet", "imap", "wais", "file", "mms", "https", "shttp",
    "snews", "prospero", "rtsp", "rtspu", "rsync", "svn", "svn+ssh", "sftp", "nfs",
    "git", "git+ssh",
    "ws", "wss"].map String.toList

/-- The text before the first `c`, all of it where there is none. -/
def before (c : Char) (text : List Char) : List Char := text.takeWhile (· ≠ c)

/-- The text after the first `c`, empty where there is none. -/
def after (c : Char) (text : List Char) : List Char := (text.dropWhile (· ≠ c)).tail

def isC0OrSpace (c : Char) : Bool := c.toNat ≤ 32

def isRemoved (c : Char) : Bool := c ∈ ['\t', '\n', '\r']

/-- Control characters and spaces in front are stripped, tabs and newlines removed. -/
def clean (url : List Char) : List Char := (url.dropWhile isC0OrSpace).filter (!isRemoved ·)

def isSchemeChar (c : Char) : Bool := c.isAlphanum || c ∈ ['+', '-', '.']

/-- The scheme that a text begins with, and the rest. -/
def ownScheme? (url : List Char) : Option (List Char × List Char) :=
  if ':' ∈ url ∧ (before ':' url).head?.any Char.isAlpha ∧ (before ':' url).all isSchemeChar then
    some ((before ':' url).map Char.toLower, after ':' url)
  else none

def isDelimiter (c : Char) : Bool := c ∈ ['/', '?', '#']

def splitNetloc : List Char → List Char × List Char
  | '/' :: '/' :: rest => (rest.takeWhile (!isDelimiter ·), rest.dropWhile (!isDelimiter ·))
  | url => ([], url)

/-- The text up to its last slash, and what follows. -/
def directory (url : List Char) : List Char := (url.reverse.dropWhile (· ≠ '/')).reverse

def lastSegment (url : List Char) : List Char := (url.reverse.takeWhile (· ≠ '/')).reverse

/-- Parameters belong to the last segment. -/
def splitParams (scheme url : List Char) : List Char × List Char :=
  if scheme ∈ usesParams then
    (directory url ++ before ';' (lastSegment url), after ';' (lastSegment url))
  else (url, [])

/-- The parts of a text without scheme and netloc. -/
def parseTail (scheme netloc url : List Char) : ParseResult where
  scheme := scheme
  netloc := netloc
  path := (splitParams scheme (before '?' (before '#' url))).1
  params := (splitParams scheme (before '?' (before '#' url))).2
  query := after '?' (before '#' url)
  fragment := after '#' url

def urlparse (tables : Tables) (scheme url : List Char) : Option ParseResult :=
  let (scheme, url) := (ownScheme? (clean url)).getD (scheme, clean url)
  let (netloc, url) := splitNetloc url
  if tables.accepts netloc then some (parseTail scheme netloc url) else none

/-- A part with its delimiter, if it is not empty. -/
def part (c : Char) : List Char → List Char
  | [] => []
  | text => c :: text

def slashed (path : List Char) : List Char :=
  if path ≠ [] ∧ path.head? ≠ some '/' then '/' :: path else path

def urlunparse (p : ParseResult) : List Char :=
  let url := p.path ++ part ';' p.params
  let url := if p.netloc ≠ [] ∨ (p.scheme ≠ [] ∧ p.scheme ∈ usesNetloc ∧ url.take 2 ≠ ['/', '/'])
    then '/' :: '/' :: p.netloc ++ slashed url else url
  let url := if p.scheme = [] then url else p.scheme ++ ':' :: url
  url ++ part '?' p.query ++ part '#' p.fragment

/-- What stands between the user and the port. -/
def hostinfo (p : ParseResult) : List Char :=
  let info := (p.netloc.reverse.takeWhile (· ≠ '@')).reverse
  if '[' ∈ info then before ']' (after '[' info) else before ':' info

/-- The host in lower case, but for the zone of an address. -/
def hostname (tables : Tables) (p : ParseResult) : Option (List Char) :=
  match hostinfo p with
  | [] => none
  | host => some (tables.lower (before '%' host) ++ host.dropWhile (· ≠ '%'))

/-! Lengths. -/

theorem length_part (c : Char) (text : List Char) :
    (part c text).length = if text = [] then 0 else text.length + 1 := by
  cases text <;> simp [part]

theorem before_append_after (c : Char) (text : List Char) :
    text = before c text ++ if c ∈ text then c :: after c text else [] := by
  induction text with
  | nil => rfl
  | cons x text ih =>
    by_cases hx : x = c
    · subst hx
      simp [before, after]
    · have hmem : c ∈ x :: text ↔ c ∈ text := by simp [Ne.symm hx]
      simp only [before, after, List.takeWhile_cons, List.dropWhile_cons, hx, ne_eq,
        not_false_eq_true,
        decide_true, if_true, hmem, List.cons_append] at ih ⊢
      exact congrArg (x :: ·) ih

theorem after_of_notMem {c : Char} {text : List Char} (h : c ∉ text) : after c text = [] := by
  have hdrop : text.dropWhile (· ≠ c) = [] :=
    List.dropWhile_eq_nil_iff.2 fun x hx => decide_eq_true fun hc => h (hc ▸ hx)
  unfold after
  rw [hdrop]
  rfl

theorem length_before_part (c d : Char) (text : List Char) :
    (before c text).length + (part d (after c text)).length ≤ text.length := by
  have h := congrArg List.length (before_append_after c text)
  by_cases hc : c ∈ text
  · rw [if_pos hc, List.length_append, List.length_cons] at h
    rw [length_part]
    split_ifs <;> omega
  · rw [if_neg hc, List.append_nil] at h
    rw [after_of_notMem hc, ← h]
    exact Nat.le_refl _

theorem directory_append_lastSegment (url : List Char) :
    directory url ++ lastSegment url = url := by
  unfold directory lastSegment
  rw [← List.reverse_append, List.takeWhile_append_dropWhile, List.reverse_reverse]

theorem length_splitParams (scheme url : List Char) :
    (splitParams scheme url).1.length +
    (part ';' (splitParams scheme url).2).length ≤ url.length := by
  have h := length_before_part ';' ';' (lastSegment url)
  have hurl := congrArg List.length (directory_append_lastSegment url)
  rw [List.length_append] at hurl
  unfold splitParams
  split_ifs
  · dsimp only
    rw [List.length_append]
    omega
  · exact Nat.le_refl _

theorem length_clean (url : List Char) : (clean url).length ≤ url.length :=
  Nat.le_trans (List.length_filter_le _ _) (List.dropWhile_suffix _).length_le

/-- The netloc with the slashes in front of it. -/
def netlocSize (netloc : List Char) : ℕ := if netloc = [] then 0 else netloc.length + 2

theorem length_splitNetloc (url : List Char) :
    netlocSize (splitNetloc url).1 + (splitNetloc url).2.length ≤ url.length := by
  unfold splitNetloc
  split
  · next rest =>
    have h := congrArg List.length
      (List.takeWhile_append_dropWhile (p := (!isDelimiter ·)) (l := rest))
    rw [List.length_append] at h
    simp only [netlocSize, List.length_cons]
    split_ifs <;> omega
  · simp [netlocSize]

/-- The length of what `urlunparse` writes after the scheme. -/
def ParseResult.size (p : ParseResult) : ℕ :=
  netlocSize p.netloc + p.path.length + (part ';' p.params).length + (part '?' p.query).length +
    (part '#' p.fragment).length

theorem size_parseTail (scheme netloc url : List Char) :
    (parseTail scheme netloc url).size ≤ netlocSize netloc + url.length := by
  have hfragment := length_before_part '#' '#' url
  have hquery := length_before_part '?' '?' (before '#' url)
  have hparams := length_splitParams scheme (before '?' (before '#' url))
  unfold parseTail ParseResult.size
  dsimp only
  omega

/-- Of a text that is split, the parts are no longer than the text; a scheme of its own comes
with a colon. -/
theorem size_urlparse {tables : Tables} {scheme url : List Char} {p : ParseResult}
    (h : urlparse tables scheme url = some p) :
    (ownScheme? (clean url) = none ∧ p.scheme = scheme ∧ p.size ≤ url.length) ∨
    ∃ rest, ownScheme? (clean url) = some (p.scheme, rest) ∧
      p.scheme.length + 1 + p.size ≤ url.length := by
  have hclean := length_clean url
  unfold urlparse at h
  cases hown : ownScheme? (clean url) with
  | none =>
    simp only [hown, Option.getD_none] at h
    split_ifs at h
    cases h
    have hnetloc := length_splitNetloc (clean url)
    have htail := size_parseTail scheme (splitNetloc (clean url)).1 (splitNetloc (clean url)).2
    exact Or.inl ⟨rfl, rfl, by omega⟩
  | some own =>
    obtain ⟨own, rest⟩ := own
    simp only [hown, Option.getD_some] at h
    split_ifs at h
    cases h
    have hnetloc := length_splitNetloc rest
    have htail := size_parseTail own (splitNetloc rest).1 (splitNetloc rest).2
    refine Or.inr ⟨rest, rfl, ?_⟩
    have hsplit := before_append_after ':' (clean url)
    unfold ownScheme? at hown
    split_ifs at hown with hcond
    cases hown
    rw [if_pos hcond.1] at hsplit
    have hlength := congrArg List.length hsplit
    simp only [List.length_append, List.length_cons] at hlength
    have hlower : (parseTail ((before ':' (clean url)).map Char.toLower)
        (splitNetloc (after ':' (clean url))).1
          (splitNetloc (after ':' (clean url))).2).scheme.length =
        (before ':' (clean url)).length := List.length_map _
    omega

end UrlText
