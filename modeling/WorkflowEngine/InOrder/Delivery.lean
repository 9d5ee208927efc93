import Mathlib.Data.List.Chain
import Mathlib.Data.List.Induction

/-! Delivery in order. A receiver takes the items of a stream one after the other, each when
it is the next one, however often and in whatever order they are delivered; the numbers of
the items that it takes are consecutive. -/

namespace InOrder

/-- Every number is the successor of the one before it. -/
def Consecutive (l : List ℤ) : Prop := l.IsChain fun a b => b = a + 1

namespace Consecutive

variable {l : List ℤ}

theorem nil : Consecutive [] := List.IsChain.nil

theorem snoc (h : Consecutive l) {n : ℤ} (hn : ∀ a ∈ l.getLast?, n = a + 1) :
    Consecutive (l ++ [n]) := by
  refine List.IsChain.append h (.singleton n) ?_
  intro a ha b hb
  cases hb
  exact hn a ha

/-- Every number between one of the list and the last one is in the list. -/
theorem mem_of_between (h : Consecutive l) {a b n : ℤ} (ha : a ∈ l) (hb : l.getLast? = some b)
    (han : a ≤ n) (hnb : n ≤ b) : n ∈ l := by
  induction l using List.reverseRecOn generalizing b with
  | nil => cases ha
  | append_singleton l c ih =>
    rw [List.getLast?_concat] at hb
    obtain rfl : c = b := Option.some.inj hb
    obtain ⟨hl, -, hlast⟩ := List.isChain_append.1 h
    by_cases hn : n = c
    · simp [hn]
    · rcases List.mem_append.1 ha with ha | ha
      · cases hg : l.getLast? with
        | none =>
          rw [List.getLast?_eq_none_iff] at hg
          simp [hg] at ha
        | some m =>
          have hm := hlast m hg c rfl
          exact List.mem_append_left _ (ih hl ha hg (by omega))
      · have := List.mem_singleton.1 ha
        omega

end Consecutive

section
variable {α : Type} [DecidableEq α]

/-- How many items of the stream are taken from the deliveries. -/
def matched : List α → List α → ℕ
  | [], _ => 0
  | _ :: _, [] => 0
  | t :: ts, d :: ds => if d = t then matched ts ds + 1 else matched (t :: ts) ds

@[simp] theorem matched_nil (ts : List α) : matched ts [] = 0 := by
  cases ts <;> rfl

theorem matched_le (ts ds : List α) : matched ts ds ≤ ts.length := by
  induction ds generalizing ts with
  | nil => simp
  | cons d ds ih =>
    cases ts with
    | nil => rfl
    | cons t ts =>
      unfold matched
      split_ifs
      · have := ih ts
        simp only [List.length_cons]
        omega
      · exact ih (t :: ts)

/-- One more delivery is taken when it is the next item. -/
theorem matched_snoc (ts ds : List α) (d : α) :
    matched ts (ds ++ [d]) =
      if ts[matched ts ds]? = some d then matched ts ds + 1 else matched ts ds := by
  induction ds generalizing ts with
  | nil =>
    cases ts with
    | nil => rfl
    | cons t ts => simp [matched, eq_comm]
  | cons x ds ih =>
    cases ts with
    | nil => rfl
    | cons t ts =>
      simp only [List.cons_append, matched]
      by_cases hx : x = t
      · simp only [hx, if_true, ih ts, List.getElem?_cons_succ]
        split_ifs <;> rfl
      · simp only [hx, if_false]
        exact ih (t :: ts)

/-- What is taken is the longest beginning of the stream that the deliveries contain in
order. -/
theorem take_sublist_iff {ts ds : List α} {k : ℕ} (hk : k ≤ ts.length) :
    (ts.take k).Sublist ds ↔ k ≤ matched ts ds := by
  induction ds generalizing ts k with
  | nil =>
    rw [List.sublist_nil, List.take_eq_nil_iff, matched_nil, Nat.le_zero]
    constructor
    · rintro (h | rfl)
      · exact h
      · simpa using hk
    · exact Or.inl
  | cons d ds ih =>
    cases ts with
    | nil => simp at hk ⊢; omega
    | cons t ts =>
      cases k with
      | zero => simp
      | succ k =>
        have hk' : k ≤ ts.length := by simpa using hk
        simp only [List.take_succ_cons, matched]
        by_cases hd : d = t
        · subst hd
          rw [List.cons_sublist_cons, ih hk', if_pos rfl]
          omega
        · rw [if_neg hd, ← ih hk, List.take_succ_cons]
          constructor
          · intro h
            cases h with
            | cons _ h => exact h
            | cons_cons _ h => exact absurd rfl hd
          · exact fun h => h.cons _

theorem matched_eq_length_iff {ts ds : List α} :
    matched ts ds = ts.length ↔ ts.Sublist ds := by
  have h : (ts.take ts.length).Sublist ds ↔ ts.length ≤ matched ts ds := take_sublist_iff le_rfl
  rw [List.take_length] at h
  rw [h]
  have := matched_le ts ds
  omega

omit [DecidableEq α] in
/-- As many passes over the whole stream as it has items contain it in order. -/
theorem sublist_flatten_of_passes {ts : List α} {passes : List (List α)}
    (hp : ∀ pass ∈ passes, ts ⊆ pass) (hn : ts.length ≤ passes.length) :
    ts.Sublist passes.flatten := by
  induction passes generalizing ts with
  | nil => simp_all
  | cons pass passes ih =>
    cases ts with
    | nil => exact List.nil_sublist _
    | cons t ts =>
      have hrest : ts.Sublist passes.flatten := by
        apply ih
        · intro q hq x hx
          exact hp q (List.mem_cons_of_mem _ hq) (List.mem_cons_of_mem _ hx)
        · simpa using hn
      have ht : [t].Sublist pass := List.singleton_sublist.2 (hp pass (by simp) (by simp))
      exact ht.append hrest

end
end InOrder
