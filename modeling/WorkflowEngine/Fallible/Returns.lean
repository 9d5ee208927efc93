import WorkflowEngine.Fallible.Loops

/-! Computations that come to a result, whatever it is. -/

namespace Fallible

variable {ε α β : Type}

def Returns (x : Except ε α) : Prop := ∃ a, x = .ok a

@[simp] theorem returns_ok (a : α) : Returns (.ok a : Except ε α) := ⟨a, rfl⟩

@[simp] theorem returns_pure (a : α) : Returns (pure a : Except ε α) := ⟨a, rfl⟩

@[simp] theorem not_returns_error (e : ε) : ¬ Returns (.error e : Except ε α) := nofun

theorem returns_bind {x : Except ε α} {f : α → Except ε β} :
    Returns (x >>= f) ↔ ∃ a, x = .ok a ∧ Returns (f a) := by
  constructor
  · rintro ⟨b, h⟩
    obtain ⟨a, ha, hb⟩ := bind_eq_ok.1 h
    exact ⟨a, ha, b, hb⟩
  · rintro ⟨a, rfl, h⟩
    exact h

/-- A sequence whose second part does not depend on the result of the first. -/
theorem returns_seq {x : Except ε α} {f : α → Except ε β} {p : Prop}
    (h : ∀ a, x = .ok a → (Returns (f a) ↔ p)) : Returns (x >>= f) ↔ Returns x ∧ p := by
  rw [returns_bind]
  constructor
  · rintro ⟨a, ha, hf⟩
    exact ⟨⟨a, ha⟩, (h a ha).1 hf⟩
  · rintro ⟨⟨a, ha⟩, hp⟩
    exact ⟨a, ha, (h a ha).2 hp⟩

theorem returns_bind_pure {x : Except ε α} {f : α → β} :
    Returns (x >>= fun a => pure (f a)) ↔ Returns x :=
  (returns_seq fun _ _ => iff_true_intro (returns_pure _)).trans (and_iff_left trivial)

theorem returns_map {x : Except ε α} {f : α → β} : Returns (x.map f) ↔ Returns x :=
  returns_bind_pure

theorem returns_mapM {xs : List α} {f : α → Except ε β} :
    Returns (xs.mapM f) ↔ ∀ x ∈ xs, Returns (f x) := by
  induction xs with
  | nil => exact iff_of_true ⟨[], rfl⟩ nofun
  | cons x xs ih =>
    rw [List.mapM_cons, returns_seq fun y _ => returns_bind_pure, ih, List.forall_mem_cons]

/-- A loop whose rounds do not depend on what was accumulated. -/
theorem returns_foldlM {xs : List α} {f : β → α → Except ε β} {p : α → Prop} {b : β}
    (h : ∀ b, ∀ x ∈ xs, (Returns (f b x) ↔ p x)) : Returns (xs.foldlM f b) ↔ ∀ x ∈ xs, p x := by
  induction xs generalizing b with
  | nil => exact iff_of_true ⟨b, rfl⟩ nofun
  | cons x xs ih =>
    rw [List.foldlM_cons, List.forall_mem_cons, returns_seq fun b' _ =>
      ih fun b y hy => h b y (List.mem_cons_of_mem _ hy), h b x List.mem_cons_self]

end Fallible
