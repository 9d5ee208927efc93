import Mathlib.Data.List.Basic

/-! Pairs of texts joined by a separator that the parts may contain. -/

namespace Separator

variable {α : Type*} {sep : List α}

/-- The same text, and the second pair is cut at a later separator than the first. -/
def CutLater (sep a c a' c' : List α) : Prop :=
  ∃ u v, u ≠ [] ∧ a' = a ++ u ∧ c = v ++ c' ∧ u ++ sep = sep ++ v

theorem CutLater.joined_eq {a c a' c' : List α} (h : CutLater sep a c a' c') :
    a ++ sep ++ c = a' ++ sep ++ c' := by
  obtain ⟨u, v, -, rfl, rfl, huv⟩ := h
  rw [List.append_assoc a u, huv]
  simp only [List.append_assoc]

theorem CutLater.ne {a c a' c' : List α} (h : CutLater sep a c a' c') : a ≠ a' := by
  obtain ⟨u, v, hu, rfl, -⟩ := h
  exact fun h => hu (List.self_eq_append_right.1 h)

/-- What lies between the two cuts. -/
theorem cut_of_append_eq {c c' u : List α} (h : sep ++ c = u ++ (sep ++ c')) :
    ∃ v, c = v ++ c' ∧ u ++ sep = sep ++ v := by
  rw [← List.append_assoc] at h
  rcases List.append_eq_append_iff.1 h with ⟨v, huv, hc⟩ | ⟨v, huv, hc⟩
  · exact ⟨v, hc, huv⟩
  · have hlength := congrArg List.length huv
    simp only [List.length_append] at hlength
    obtain rfl : u = [] := List.eq_nil_of_length_eq_zero (by omega)
    obtain rfl : v = [] := List.eq_nil_of_length_eq_zero (by omega)
    exact ⟨[], by simpa using hc.symm, by simp⟩

theorem joined_eq_iff {a c a' c' : List α} : a ++ sep ++ c = a' ++ sep ++ c' ↔
    (a = a' ∧ c = c') ∨ CutLater sep a c a' c' ∨ CutLater sep a' c' a c := by
  constructor
  · intro h
    rw [List.append_assoc, List.append_assoc] at h
    rcases List.append_eq_append_iff.1 h with ⟨u, ha, hu⟩ | ⟨u, ha, hu⟩ <;>
      obtain ⟨v, hv, huv⟩ := cut_of_append_eq hu <;> rcases eq_or_ne u [] with rfl | hne
    · obtain rfl : v = [] := by simpa using huv.symm
      exact .inl ⟨by simpa using ha.symm, by simpa using hv⟩
    · exact .inr (.inl ⟨u, v, hne, ha, hv, huv⟩)
    · obtain rfl : v = [] := by simpa using huv.symm
      exact .inl ⟨by simpa using ha, by simpa using hv.symm⟩
    · exact .inr (.inr ⟨u, v, hne, ha, hv, huv⟩)
  · rintro (⟨rfl, rfl⟩ | h | h)
    · rfl
    · exact h.joined_eq
    · exact h.joined_eq.symm

/-- The pairs that are joined to one text only. -/
theorem joined_inj_iff {a c a' c' : List α} :
    (a ++ sep ++ c = a' ++ sep ++ c' → a = a' ∧ c = c') ↔
      ¬ (CutLater sep a c a' c' ∨ CutLater sep a' c' a c) := by
  rw [joined_eq_iff]
  constructor
  · rintro h (hcut | hcut)
    · exact hcut.ne (h (.inr (.inl hcut))).1
    · exact hcut.ne (h (.inr (.inr hcut))).1.symm
  · rintro h (heq | hcut)
    · exact heq
    · exact absurd hcut h

/-- Either there is a whole separator between the cuts, or the two separators overlap. -/
theorem cutLater_iff {a c a' c' : List α} (hsep : sep ≠ []) : CutLater sep a c a' c' ↔
    (∃ w, a' = a ++ sep ++ w ∧ c = w ++ sep ++ c') ∨
      ∃ u b v, u ≠ [] ∧ b ≠ [] ∧ sep = u ++ b ∧ sep = b ++ v ∧ a' = a ++ u ∧ c = v ++ c' := by
  constructor
  · rintro ⟨u, v, hu, ha, hc, huv⟩
    rcases List.append_eq_append_iff.1 huv with ⟨b, hb, hb'⟩ | ⟨w, rfl, rfl⟩
    · rcases eq_or_ne b [] with rfl | hne
      · obtain rfl : sep = u := by simpa using hb
        obtain rfl : sep = v := by simpa using hb'
        exact .inl ⟨[], by simpa using ha, by simpa using hc⟩
      · exact .inr ⟨u, b, v, hu, hne, hb, hb', ha, hc⟩
    · exact .inl ⟨w, by simpa using ha, hc⟩
  · rintro (⟨w, ha, hc⟩ | ⟨u, b, v, hu, -, hb, hb', ha, hc⟩)
    · exact ⟨sep ++ w, w ++ sep, by simp [hsep], by simpa using ha, hc, by simp⟩
    · refine ⟨u, v, hu, ha, hc, ?_⟩
      calc u ++ sep = u ++ b ++ v := by rw [List.append_assoc, ← hb']
        _ = sep ++ v := by rw [← hb]

end Separator
