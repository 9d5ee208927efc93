import Mathlib.Data.List.Sort

/-! The first rows in the order of a key. Rows with one key stay in the order in which they were
given, so a row has its rank before any sorting. -/

namespace Relational

variable {α κ : Type} [LinearOrder κ]

/-- By the key, and by `S` where the key is the same. -/
def Before (key : α → κ) (S : α → α → Prop) (a b : α) : Prop :=
  key a < key b ∨ key a = key b ∧ S a b

theorem before_irrefl {key : α → κ} {S : α → α → Prop} (hS : ∀ a, ¬ S a a) (a : α) :
    ¬ Before key S a a := by
  rintro (h | ⟨-, h⟩)
  · exact lt_irrefl _ h
  · exact hS a h

theorem before_asymm {key : α → κ} {S : α → α → Prop} (hS : ∀ a b, S a b → ¬ S b a) (a b : α)
    (h : Before key S a b) : ¬ Before key S b a := by
  rintro (h' | ⟨heq, h'⟩)
  · exact h.elim (lt_asymm h') fun hkey => h'.ne' hkey.1
  · exact h.elim (fun hlt => hlt.ne' heq) fun hkey => hS a b hkey.2 h'

theorem pairwise_orderedInsert {key : α → κ} {S : α → α → Prop} {a : α} {rows : List α}
    (ha : ∀ b ∈ rows, S a b) (h : rows.Pairwise (Before key S)) :
    (rows.orderedInsert (fun a b => key a ≤ key b) a).Pairwise (Before key S) := by
  induction rows with
  | nil => exact List.pairwise_singleton ..
  | cons b rows ih =>
    obtain ⟨hb, hrows⟩ := List.pairwise_cons.1 h
    have hab := ha b List.mem_cons_self
    rw [List.orderedInsert_cons]
    split_ifs with hle
    · refine List.pairwise_cons.2 ⟨fun c hc => ?_, h⟩
      rcases List.mem_cons.1 hc with rfl | hc
      · exact hle.lt_or_eq.imp_right fun heq => ⟨heq, hab⟩
      · have hac := ha c (List.mem_cons_of_mem _ hc)
        have hbc : key b ≤ key c := (hb c hc).elim le_of_lt fun heq => heq.1.le
        exact (hle.trans hbc).lt_or_eq.imp_right fun heq => ⟨heq, hac⟩
    · refine List.pairwise_cons.2 ⟨fun c hc => ?_, ih (fun c hc => ha c (List.mem_cons_of_mem _ hc))
        hrows⟩
      rcases List.mem_cons.1 ((List.perm_orderedInsert _ a rows).mem_iff.1 hc) with rfl | hc
      · exact Or.inl (not_le.1 hle)
      · exact hb c hc

/-- Sorting is stable. -/
theorem pairwise_insertionSort {key : α → κ} {S : α → α → Prop} {rows : List α}
    (h : rows.Pairwise S) :
    (rows.insertionSort fun a b => key a ≤ key b).Pairwise (Before key S) := by
  induction rows with
  | nil => exact .nil
  | cons a rows ih =>
    obtain ⟨ha, hrows⟩ := List.pairwise_cons.1 h
    exact pairwise_orderedInsert (fun b hb => ha b ((List.mem_insertionSort _).1 hb)) (ih hrows)

/-- Where `R` is the order of the list, the first `n` are those that fewer than `n` come before. -/
theorem mem_take_iff_countP {R : α → α → Prop} [DecidableRel R] (hirrefl : ∀ a, ¬ R a a)
    (hasymm : ∀ a b, R a b → ¬ R b a) {rows : List α} (h : rows.Pairwise R) {a : α}
    (ha : a ∈ rows) (n : ℕ) : a ∈ rows.take n ↔ rows.countP (R · a) < n := by
  induction rows generalizing n with
  | nil => cases ha
  | cons b rows ih =>
    obtain ⟨hb, hrows⟩ := List.pairwise_cons.1 h
    cases n with
    | zero => simp
    | succ n =>
      rw [List.take_succ_cons, List.mem_cons]
      rcases List.mem_cons.1 ha with rfl | hmem
      · have hnone : (a :: rows).countP (R · a) = 0 := by
          refine List.countP_eq_zero.2 fun c hc => ?_
          rcases List.mem_cons.1 hc with rfl | hc
          · simpa using hirrefl c
          · simpa using hasymm _ _ (hb c hc)
        simp [hnone]
      · have hba := hb a hmem
        have hne : a ≠ b := by
          rintro rfl
          exact hirrefl a hba
        rw [List.countP_cons_of_pos (by simpa using hba), ih hrows hmem n]
        simp [hne]

theorem pairwise_idxOf [DecidableEq α] {rows : List α} (h : rows.Nodup) :
    rows.Pairwise fun a b => rows.idxOf a < rows.idxOf b := by
  refine List.pairwise_iff_getElem.2 fun i j hi hj hij => ?_
  rw [h.idxOf_getElem, h.idxOf_getElem]
  exact hij

end Relational
