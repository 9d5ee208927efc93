import Mathlib.Data.List.Flatten
import Mathlib.Data.List.Basic
import Mathlib.Tactic.SplitIfs

/-! Regular expressions as backtracking matches them: at a position a pattern has a list of ends,
the preferred one first. A pattern without assertions ends where a word of its language does. -/

namespace Regex

/-- A position in a text: what is before it, the nearest first, what is after it, and the groups
that were captured on the way. -/
structure Pos where
  before : List Char
  after : List Char
  groups : List (ℕ × List Char) := []
  deriving DecidableEq

inductive Pattern where
  | empty
  | char (p : Char → Bool)
  | seq (r s : Pattern)
  | alt (r s : Pattern)
  | opt (r : Pattern)
  | many (r : Pattern)
  | lazily (r : Pattern)
  | boundary
  | group (n : ℕ) (r : Pattern)

/-- Once more as long as that moves on, or no more. -/
def greedily (step : Pos → List Pos) : ℕ → Pos → List Pos
  | 0, x => [x]
  | n + 1, x => ((step x).filter fun y => y.after.length < x.after.length).flatMap
      (greedily step n) ++ [x]

/-- No more, or once more as long as that moves on. -/
def reluctantly (step : Pos → List Pos) : ℕ → Pos → List Pos
  | 0, x => [x]
  | n + 1, x => x :: ((step x).filter fun y => y.after.length < x.after.length).flatMap
      (reluctantly step n)

def wordAt (isWord : Char → Bool) (text : List Char) : Bool := text.head?.any isWord

namespace Pattern

variable (isWord : Char → Bool)

def ends : Pattern → Pos → List Pos
  | .empty, x => [x]
  | .char p, x => match x.after with
    | [] => []
    | c :: rest => if p c then [{ x with before := c :: x.before, after := rest }] else []
  | .seq r s, x => (r.ends x).flatMap s.ends
  | .alt r s, x => r.ends x ++ s.ends x
  | .opt r, x => r.ends x ++ [x]
  | .many r, x => greedily r.ends x.after.length x
  | .lazily r, x => reluctantly r.ends x.after.length x
  | .boundary, x => if wordAt isWord x.before ≠ wordAt isWord x.after then [x] else []
  | .group n r, x => (r.ends x).map fun y => { y with
      groups := (n, (y.before.take (x.after.length - y.after.length)).reverse) :: y.groups }

/-- `re.search` finds a match after what is before. -/
def found (r : Pattern) (before : List Char) : List Char → Bool
  | [] => (r.ends isWord ⟨before, [], []⟩) ≠ []
  | c :: rest => (r.ends isWord ⟨before, c :: rest, []⟩) ≠ [] || found r (c :: before) rest

/-- The matches of a pattern that matches no empty text, from left to right. -/
def matchesFrom (r : Pattern) : ℕ → List Char → List Char → List Pos
  | 0, _, _ => []
  | _ + 1, _, [] => []
  | n + 1, before, c :: rest => match (r.ends isWord ⟨before, c :: rest, []⟩).head? with
    | some y => if y.after.length < rest.length + 1 then y :: matchesFrom r n y.before y.after
      else matchesFrom r n (c :: before) rest
    | none => matchesFrom r n (c :: before) rest

/-- `re.findall`, with the groups of each match. -/
def findall (r : Pattern) (text : List Char) : List (List (ℕ × List Char)) :=
  (r.matchesFrom isWord text.length [] text).map Pos.groups

/-- `re.sub` with a pattern that matches no empty text. -/
def subFrom (r : Pattern) (replacement : List Char) : ℕ → List Char → List Char → List Char
  | 0, _, rest => rest
  | _ + 1, _, [] => []
  | n + 1, before, c :: rest => match (r.ends isWord ⟨before, c :: rest, []⟩).head? with
    | some y => if y.after.length < rest.length + 1 then
        replacement ++ subFrom r replacement n y.before y.after
      else c :: subFrom r replacement n (c :: before) rest
    | none => c :: subFrom r replacement n (c :: before) rest

def sub (r : Pattern) (replacement text : List Char) : List Char :=
  r.subFrom isWord replacement text.length [] text

/-! Languages. -/

/-- The words of a pattern without assertions. -/
def Lang : Pattern → List Char → Prop
  | .empty, w => w = []
  | .char p, w => ∃ c, p c = true ∧ w = [c]
  | .seq r s, w => ∃ u v, w = u ++ v ∧ r.Lang u ∧ s.Lang v
  | .alt r s, w => r.Lang w ∨ s.Lang w
  | .opt r, w => r.Lang w ∨ w = []
  | .many r, w => ∃ ws : List (List Char), w = ws.flatten ∧ ∀ u ∈ ws, r.Lang u
  | .lazily r, w => ∃ ws : List (List Char), w = ws.flatten ∧ ∀ u ∈ ws, r.Lang u
  | .boundary, _ => False
  | .group _ r, w => r.Lang w

def Plain : Pattern → Prop
  | .empty => True
  | .char _ => True
  | .seq r s => r.Plain ∧ s.Plain
  | .alt r s => r.Plain ∧ s.Plain
  | .opt r => r.Plain
  | .many r => r.Plain
  | .lazily r => r.Plain
  | .boundary => False
  | .group _ r => r.Plain

end Pattern

/-- From one position to another over a word. -/
def Over (w : List Char) (x y : Pos) : Prop :=
  x.after = w ++ y.after ∧ y.before = w.reverse ++ x.before

theorem Over.refl (x : Pos) : Over [] x x := ⟨rfl, rfl⟩

theorem Over.trans {u v : List Char} {x y z : Pos} (h : Over u x y) (h' : Over v y z) :
    Over (u ++ v) x z := by
  refine ⟨?_, ?_⟩
  · rw [h.1, h'.1, List.append_assoc]
  · rw [h'.2, h.2, List.reverse_append, List.append_assoc]

theorem Over.length {w : List Char} {x y : Pos} (h : Over w x y) :
    x.after.length = w.length + y.after.length := by
  rw [h.1, List.length_append]

section
variable {step : Pos → List Pos} {L : List Char → Prop}

theorem greedily_sound (hstep : ∀ x, ∀ y ∈ step x, ∃ w, L w ∧ Over w x y) (n : ℕ) {x y : Pos}
    (h : y ∈ greedily step n x) : ∃ ws : List (List Char), Over ws.flatten x y ∧ ∀ u ∈ ws, L u := by
  induction n generalizing x with
  | zero =>
    obtain rfl := List.mem_singleton.1 h
    exact ⟨[], Over.refl y, by simp⟩
  | succ n ih =>
    rcases List.mem_append.1 h with h | h
    · obtain ⟨z, hz, hy⟩ := List.mem_flatMap.1 h
      obtain ⟨w, hw, hover⟩ := hstep x z (List.mem_filter.1 hz).1
      obtain ⟨ws, hrest, hws⟩ := ih hy
      exact ⟨w :: ws, hover.trans hrest, List.forall_mem_cons.2 ⟨hw, hws⟩⟩
    · obtain rfl := List.mem_singleton.1 h
      exact ⟨[], Over.refl y, by simp⟩

theorem reluctantly_mem_iff (n : ℕ) (x y : Pos) :
    y ∈ reluctantly step n x ↔ y ∈ greedily step n x := by
  induction n generalizing x with
  | zero => exact Iff.rfl
  | succ n ih =>
    simp only [reluctantly, greedily, List.mem_cons, List.mem_append, List.mem_flatMap,
      List.not_mem_nil, or_false, ih]
    exact or_comm

theorem greedily_complete
    (hstep : ∀ x w rest, L w → x.after = w ++ rest → ∃ y ∈ step x, Over w x y) (n : ℕ) {x : Pos}
    {ws : List (List Char)} {rest : List Char} (hn : x.after.length ≤ n)
    (hx : x.after = ws.flatten ++ rest) (hws : ∀ u ∈ ws, L u) :
    ∃ y ∈ greedily step n x, Over ws.flatten x y := by
  induction ws generalizing x n with
  | nil =>
    refine ⟨x, ?_, Over.refl x⟩
    cases n <;> simp [greedily]
  | cons w ws ih =>
    obtain ⟨hw, hrest⟩ := List.forall_mem_cons.1 hws
    by_cases hnil : w = []
    · subst hnil
      exact ih n hn hx hrest
    · have hpos := List.length_pos_iff.2 hnil
      have hsplit : x.after = w ++ (ws.flatten ++ rest) := by rw [hx]; simp
      obtain ⟨z, hz, hover⟩ := hstep x w _ hw hsplit
      have hzafter : z.after = ws.flatten ++ rest := by
        have := hover.1
        rw [hsplit] at this
        exact (List.append_cancel_left this).symm
      have hlength := hover.length
      cases n with
      | zero => omega
      | succ n =>
        obtain ⟨y, hy, hover'⟩ := @ih n z (by omega) hzafter hrest
        refine ⟨y, List.mem_append_left _ (List.mem_flatMap.2 ⟨z, ?_, hy⟩), hover.trans hover'⟩
        refine List.mem_filter.2 ⟨hz, ?_⟩
        exact decide_eq_true (by omega)

end

namespace Pattern

variable {isWord : Char → Bool}

theorem ends_sound {r : Pattern} (hr : r.Plain) {x y : Pos} (h : y ∈ r.ends isWord x) :
    ∃ w, r.Lang w ∧ Over w x y := by
  induction r generalizing x y with
  | empty =>
    obtain rfl := List.mem_singleton.1 h
    exact ⟨[], rfl, Over.refl y⟩
  | char p =>
    obtain ⟨before, after, groups⟩ := x
    cases after with
    | nil => cases h
    | cons c rest =>
      simp only [ends] at h
      split_ifs at h with hp
      · obtain rfl := List.mem_singleton.1 h
        exact ⟨[c], ⟨c, hp, rfl⟩, rfl, rfl⟩
      · cases h
  | seq r s ihr ihs =>
    obtain ⟨z, hz, hy⟩ := List.mem_flatMap.1 h
    obtain ⟨u, hu, hover⟩ := ihr hr.1 hz
    obtain ⟨v, hv, hover'⟩ := ihs hr.2 hy
    exact ⟨u ++ v, ⟨u, v, rfl, hu, hv⟩, hover.trans hover'⟩
  | alt r s ihr ihs =>
    rcases List.mem_append.1 h with h | h
    · obtain ⟨w, hw, hover⟩ := ihr hr.1 h
      exact ⟨w, Or.inl hw, hover⟩
    · obtain ⟨w, hw, hover⟩ := ihs hr.2 h
      exact ⟨w, Or.inr hw, hover⟩
  | opt r ihr =>
    rcases List.mem_append.1 h with h | h
    · obtain ⟨w, hw, hover⟩ := ihr hr h
      exact ⟨w, Or.inl hw, hover⟩
    · obtain rfl := List.mem_singleton.1 h
      exact ⟨[], Or.inr rfl, Over.refl y⟩
  | many r ihr =>
    obtain ⟨ws, hover, hws⟩ := greedily_sound (fun _ _ hz => ihr hr hz) _ h
    exact ⟨_, ⟨ws, rfl, hws⟩, hover⟩
  | lazily r ihr =>
    obtain ⟨ws, hover, hws⟩ :=
      greedily_sound (fun _ _ hz => ihr hr hz) _ ((reluctantly_mem_iff _ _ _).1 h)
    exact ⟨_, ⟨ws, rfl, hws⟩, hover⟩
  | boundary => exact absurd hr id
  | group n r ihr =>
    obtain ⟨z, hz, rfl⟩ := List.mem_map.1 h
    obtain ⟨w, hw, hover⟩ := ihr hr hz
    exact ⟨w, hw, hover.1, hover.2⟩

theorem ends_complete {r : Pattern} {x : Pos} {w rest : List Char} (hw : r.Lang w)
    (hx : x.after = w ++ rest) : ∃ y ∈ r.ends isWord x, Over w x y := by
  induction r generalizing x w rest with
  | empty =>
    obtain rfl : w = [] := hw
    exact ⟨x, List.mem_singleton_self x, Over.refl x⟩
  | char p =>
    obtain ⟨c, hp, rfl⟩ := hw
    obtain ⟨before, after, groups⟩ := x
    obtain rfl : after = c :: rest := hx
    exact ⟨⟨c :: before, rest, groups⟩, by simp [ends, hp], rfl, rfl⟩
  | seq r s ihr ihs =>
    obtain ⟨u, v, rfl, hu, hv⟩ := hw
    obtain ⟨z, hz, hover⟩ := ihr hu (hx.trans (List.append_assoc u v rest))
    have hzafter : z.after = v ++ rest := by
      have hboth := hover.1.symm.trans (hx.trans (List.append_assoc u v rest))
      exact List.append_cancel_left hboth
    obtain ⟨y, hy, hover'⟩ := ihs hv hzafter
    exact ⟨y, List.mem_flatMap.2 ⟨z, hz, hy⟩, hover.trans hover'⟩
  | alt r s ihr ihs =>
    rcases hw with hw | hw
    · obtain ⟨y, hy, hover⟩ := ihr hw hx
      exact ⟨y, List.mem_append_left _ hy, hover⟩
    · obtain ⟨y, hy, hover⟩ := ihs hw hx
      exact ⟨y, List.mem_append_right _ hy, hover⟩
  | opt r ihr =>
    rcases hw with hw | rfl
    · obtain ⟨y, hy, hover⟩ := ihr hw hx
      exact ⟨y, List.mem_append_left _ hy, hover⟩
    · exact ⟨x, List.mem_append_right _ (List.mem_singleton_self x), Over.refl x⟩
  | many r ihr =>
    obtain ⟨ws, rfl, hws⟩ := hw
    exact greedily_complete (fun x w rest hw hx => ihr hw hx) _ (Nat.le_refl _) hx hws
  | lazily r ihr =>
    obtain ⟨ws, rfl, hws⟩ := hw
    obtain ⟨y, hy, hover⟩ :=
      greedily_complete (fun x w rest hw hx => ihr hw hx) _ (Nat.le_refl _) hx hws
    exact ⟨y, (reluctantly_mem_iff _ _ _).2 hy, hover⟩
  | boundary => exact absurd hw id
  | group n r ihr =>
    obtain ⟨y, hy, hover⟩ := ihr hw hx
    exact ⟨_, List.mem_map.2 ⟨y, hy, rfl⟩, hover⟩

/-! Searching. -/

/-- What is found behind a text is found in the text with it. -/
theorem found_append {r : Pattern} {before rest : List Char} (text : List Char)
    (h : r.found isWord (text.reverse ++ before) rest = true) :
    r.found isWord before (text ++ rest) = true := by
  induction text generalizing before with
  | nil => exact h
  | cons c text ih =>
    rw [List.cons_append, found, Bool.or_eq_true]
    refine Or.inr (ih ?_)
    simpa using h

/-- Where nothing begins, the search goes on behind it. -/
theorem found_skip {r : Pattern} {before rest : List Char} {c : Char}
    (h : r.ends isWord ⟨before, c :: rest, []⟩ = []) :
    r.found isWord before (c :: rest) = r.found isWord (c :: before) rest := by
  rw [found, h]
  simp

end Pattern

/-- A text is replaced by a pattern that moves on wherever it matches: what is left at a position
is the replacement and what follows the match, or the character and what follows it. -/
theorem Pattern.subFrom_cases {isWord : Char → Bool} {r : Pattern} {replacement : List Char} {n : ℕ}
    {before rest : List Char} {c : Char}
    (hmoves : ∀ y ∈ r.ends isWord ⟨before, c :: rest, []⟩, y.after.length < rest.length + 1) :
    (∃ y ∈ r.ends isWord ⟨before, c :: rest, []⟩,
      r.subFrom isWord replacement (n + 1) before (c :: rest) =
        replacement ++ r.subFrom isWord replacement n y.before y.after) ∨
    (r.ends isWord ⟨before, c :: rest, []⟩ = [] ∧
      r.subFrom isWord replacement (n + 1) before (c :: rest) =
        c :: r.subFrom isWord replacement n (c :: before) rest) := by
  cases hends : r.ends isWord ⟨before, c :: rest, []⟩ with
  | nil =>
    refine Or.inr ⟨rfl, ?_⟩
    simp only [Pattern.subFrom, hends, List.head?_nil]
  | cons y ys =>
    have hy := hmoves y (hends ▸ List.mem_cons_self)
    refine Or.inl ⟨y, List.mem_cons_self, ?_⟩
    simp only [Pattern.subFrom, hends, List.head?_cons, if_pos hy]

namespace Pattern

variable {isWord : Char → Bool} {r : Pattern} {x y : Pos}

/-- Every match that is found begins somewhere. -/
theorem mem_matchesFrom {n : ℕ} {before rest : List Char}
    (h : y ∈ r.matchesFrom isWord n before rest) :
    ∃ x, y ∈ r.ends isWord x := by
  induction n generalizing before rest with
  | zero => cases h
  | succ n ih =>
    cases rest with
    | nil => cases h
    | cons c rest =>
      rw [matchesFrom] at h
      cases hends : r.ends isWord ⟨before, c :: rest, []⟩ with
      | nil =>
        simp only [hends, List.head?_nil] at h
        exact ih h
      | cons z zs =>
        simp only [hends, List.head?_cons] at h
        split_ifs at h
        · rcases List.mem_cons.1 h with rfl | h
          · exact ⟨_, hends ▸ List.mem_cons_self⟩
          · exact ih h
        · exact ih h

/-- A group captures a word of its pattern. -/
theorem ends_group {n : ℕ} (hr : r.Plain) (h : y ∈ (group n r).ends isWord x) :
    ∃ w, r.Lang w ∧ y.groups.lookup n = some w := by
  obtain ⟨z, hz, rfl⟩ := List.mem_map.1 h
  obtain ⟨w, hw, hover⟩ := ends_sound hr hz
  refine ⟨w, hw, ?_⟩
  have hlength : x.after.length - z.after.length = w.length := by
    rw [hover.length]
    omega
  rw [List.lookup_cons_self, hover.2, hlength, List.take_left' List.length_reverse,
    List.reverse_reverse]

end Pattern

end Regex
