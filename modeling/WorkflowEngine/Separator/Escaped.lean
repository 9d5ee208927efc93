import Mathlib.Data.List.Basic

/-! Texts of escaped characters between delimiters. -/

namespace Separator

variable {α β : Type*} {escape : α → List β} {stop : β}

/-- The escapes can be told apart as they are read, and from the delimiter. -/
structure Escapes (escape : α → List β) (stop : β) : Prop where
  apart : ∀ {a b xs ys}, escape a ++ xs = escape b ++ ys → a = b
  stop : ∀ {a xs ys}, escape a ++ xs ≠ stop :: ys

/-- A delimited text is read back, with what follows it. -/
theorem Escapes.delimited_inj (h : Escapes escape stop) {xs ys : List α} {us vs : List β}
    (heq : xs.flatMap escape ++ stop :: us = ys.flatMap escape ++ stop :: vs) :
    xs = ys ∧ us = vs := by
  induction xs generalizing ys with
  | nil =>
    cases ys with
    | nil => exact ⟨rfl, (List.cons.inj heq).2⟩
    | cons y ys =>
      rw [List.flatMap_cons, List.append_assoc] at heq
      exact absurd heq.symm h.stop
  | cons x xs ih =>
    cases ys with
    | nil =>
      rw [List.flatMap_cons, List.append_assoc] at heq
      exact absurd heq h.stop
    | cons y ys =>
      rw [List.flatMap_cons, List.flatMap_cons, List.append_assoc, List.append_assoc] at heq
      obtain rfl := h.apart heq
      obtain ⟨rfl, hrest⟩ := ih (List.append_cancel_left heq)
      exact ⟨rfl, hrest⟩

end Separator
