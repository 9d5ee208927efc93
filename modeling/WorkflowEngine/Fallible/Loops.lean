import Mathlib.Data.List.Induction

/-! Computations that may raise. A loop that came to its end says something of every round; a
computation over a state that is kept when it raises runs to a result and a state. -/

namespace Fallible

variable {ε α β γ : Type}

theorem bind_eq_ok {x : Except ε α} {f : α → Except ε β} {b : β} :
    (x >>= f) = .ok b ↔ ∃ a, x = .ok a ∧ f a = .ok b := by
  cases x with
  | error e => exact ⟨nofun, fun ⟨_, h, _⟩ => by cases h⟩
  | ok a => exact ⟨fun h => ⟨a, rfl, h⟩, fun ⟨_, h, h'⟩ => by cases h; exact h'⟩

theorem of_forM {xs : List α} {f : α → Except ε Unit} (h : xs.forM f = .ok ()) :
    ∀ x ∈ xs, f x = .ok () := by
  induction xs with
  | nil => exact nofun
  | cons x xs ih =>
    obtain ⟨⟨⟩, hx, hxs⟩ := bind_eq_ok.1 h
    intro y hy
    rcases List.mem_cons.1 hy with rfl | hy
    · exact hx
    · exact ih hxs y hy

/-- An invariant of an accumulating loop. -/
theorem foldlM_induction {xs : List α} {f : β → α → Except ε β} {P : β → Prop} {b b' : β}
    (h : xs.foldlM f b = .ok b') (h0 : P b)
    (hstep : ∀ x ∈ xs, ∀ b b', P b → f b x = .ok b' → P b') : P b' := by
  induction xs generalizing b with
  | nil =>
    cases h
    exact h0
  | cons x xs ih =>
    rw [List.foldlM_cons] at h
    obtain ⟨b1, hx, hxs⟩ := bind_eq_ok.1 h
    exact ih hxs (hstep x List.mem_cons_self b b1 h0 hx) fun y hy =>
      hstep y (List.mem_cons_of_mem _ hy)

/-- A relation between two loops over the same list. -/
theorem foldlM_induction₂ {xs : List α} {f : β → α → Except ε β} {g : γ → α → Except ε γ}
    {R : β → γ → Prop} {b b' : β} {c c' : γ} (hf : xs.foldlM f b = .ok b')
    (hg : xs.foldlM g c = .ok c') (h0 : R b c)
    (hstep : ∀ x ∈ xs, ∀ b b' c c', R b c → f b x = .ok b' → g c x = .ok c' → R b' c') :
    R b' c' := by
  induction xs generalizing b c with
  | nil =>
    cases hf
    cases hg
    exact h0
  | cons x xs ih =>
    rw [List.foldlM_cons] at hf hg
    obtain ⟨b1, hbx, hbxs⟩ := bind_eq_ok.1 hf
    obtain ⟨c1, hcx, hcxs⟩ := bind_eq_ok.1 hg
    exact ih hbxs hcxs (hstep x List.mem_cons_self b b1 c c1 h0 hbx hcx) fun y hy =>
      hstep y (List.mem_cons_of_mem _ hy)

/-- The first result of a loop that collects results. -/
theorem head_of_mapM {xs : List α} {f : α → Except ε β} {ys : List β} (h : xs.mapM f = .ok ys) :
    (xs = [] ∧ ys = []) ∨ ∃ x xs' y ys', xs = x :: xs' ∧ ys = y :: ys' ∧ f x = .ok y := by
  cases xs with
  | nil =>
    rw [List.mapM_nil] at h
    cases h
    exact Or.inl ⟨rfl, rfl⟩
  | cons x xs =>
    rw [List.mapM_cons] at h
    obtain ⟨y, hx, h⟩ := bind_eq_ok.1 h
    obtain ⟨ys', -, h⟩ := bind_eq_ok.1 h
    cases h
    exact Or.inr ⟨x, xs, y, ys', rfl, rfl, hx⟩

/-- Every result of a loop that collects results comes from a round. -/
theorem of_mem_mapM {xs : List α} {f : α → Except ε β} {ys : List β} (h : xs.mapM f = .ok ys)
    {y : β} (hy : y ∈ ys) : ∃ x ∈ xs, f x = .ok y := by
  induction xs generalizing ys with
  | nil =>
    cases h
    cases hy
  | cons x xs ih =>
    rw [List.mapM_cons] at h
    obtain ⟨y1, hx, h⟩ := bind_eq_ok.1 h
    obtain ⟨ys1, hxs, h⟩ := bind_eq_ok.1 h
    cases h
    rcases List.mem_cons.1 hy with rfl | hy
    · exact ⟨x, by simp, hx⟩
    · obtain ⟨x', hx', he⟩ := ih hxs hy
      exact ⟨x', List.mem_cons_of_mem _ hx', he⟩

/-- Every round of a loop that collects results leaves one. -/
theorem mem_of_mapM {xs : List α} {f : α → Except ε β} {ys : List β} (h : xs.mapM f = .ok ys)
    {x : α} (hx : x ∈ xs) : ∃ y ∈ ys, f x = .ok y := by
  induction xs generalizing ys with
  | nil => cases hx
  | cons x1 xs ih =>
    rw [List.mapM_cons] at h
    obtain ⟨y1, hfirst, h⟩ := bind_eq_ok.1 h
    obtain ⟨ys1, hxs, h⟩ := bind_eq_ok.1 h
    cases h
    rcases List.mem_cons.1 hx with rfl | hx
    · exact ⟨y1, List.mem_cons_self, hfirst⟩
    · obtain ⟨y, hy, he⟩ := ih hxs hx
      exact ⟨y, List.mem_cons_of_mem _ hy, he⟩

/-- The results of a loop stand where the rounds do. -/
theorem getElem?_mapM {xs : List α} {f : α → Except ε β} {ys : List β} (h : xs.mapM f = .ok ys)
    {n : ℕ} {x : α} (hx : xs[n]? = some x) : ∃ y, ys[n]? = some y ∧ f x = .ok y := by
  induction xs generalizing ys n with
  | nil => simp at hx
  | cons x1 xs ih =>
    rw [List.mapM_cons] at h
    obtain ⟨y1, hfirst, h⟩ := bind_eq_ok.1 h
    obtain ⟨ys1, hxs, h⟩ := bind_eq_ok.1 h
    cases h
    cases n with
    | zero =>
      obtain rfl : x1 = x := by simpa using hx
      exact ⟨y1, rfl, hfirst⟩
    | succ n => exact ih hxs (by simpa using hx)

/-- Two conditions on the steps of a run that agree for as long as the second has held. -/
theorem forall_steps_iff {xs : List α} {P Q : List α → α → Prop}
    (h : ∀ before a, (∀ b c, b ++ [c] <+: before → Q b c) → (P before a ↔ Q before a)) :
    (∀ before a, before ++ [a] <+: xs → P before a) ↔
      ∀ before a, before ++ [a] <+: xs → Q before a := by
  induction xs using List.reverseRecOn with
  | nil => simp
  | append_singleton xs x ih =>
    constructor
    · intro hP
      have hQ := ih.1 fun before a hpre => hP before a (hpre.trans (List.prefix_append _ _))
      intro before a hpre
      rcases List.prefix_concat_iff.1 hpre with heq | hpre
      · obtain ⟨rfl, hax⟩ := List.append_inj' heq rfl
        obtain rfl := List.singleton_inj.1 hax
        exact (h _ _ hQ).1 (hP _ _ List.prefix_rfl)
      · exact hQ before a hpre
    · intro hQ
      have hbefore : ∀ b c, b ++ [c] <+: xs → Q b c := fun b c hpre =>
        hQ b c (hpre.trans (List.prefix_append _ _))
      intro before a hpre
      rcases List.prefix_concat_iff.1 hpre with heq | hpre
      · obtain ⟨rfl, hax⟩ := List.append_inj' heq rfl
        obtain rfl := List.singleton_inj.1 hax
        exact (h _ _ hbefore).2 (hQ _ _ List.prefix_rfl)
      · exact ih.2 hbefore before a hpre

section State

variable {σ : Type} {x : ExceptT ε (StateM σ) α} {f : α → ExceptT ε (StateM σ) β} {s s' : σ} {a : α}
  {e : ε}

theorem run_get : (get : ExceptT ε (StateM σ) σ).run.run s = (.ok s, s) := rfl

theorem run_modify {g : σ → σ} : (modify g : ExceptT ε (StateM σ) PUnit).run.run s =
    (.ok ⟨⟩, g s) :=
  rfl

theorem run_throw : (throw e : ExceptT ε (StateM σ) α).run.run s = (.error e, s) := rfl

theorem run_lift {y : Except ε α} : (liftM y : ExceptT ε (StateM σ) α).run.run s = (y, s) := rfl

theorem run_bind_ok (h : x.run.run s = (.ok a, s')) :
    (x >>= f).run.run s = (f a).run.run s' := by
  rw [ExceptT.run_bind, StateT.run_bind, h]
  rfl

theorem run_bind_error (h : x.run.run s = (.error e, s')) :
    (x >>= f).run.run s = (.error e, s') := by
  rw [ExceptT.run_bind, StateT.run_bind, h]
  rfl

end State

end Fallible
