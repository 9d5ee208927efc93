import WorkflowEngine.Fallible.Loops

/-! Checks: computations that give nothing back but may refuse. -/

namespace Fallible

variable {ε α : Type} {refusal : ε → Prop} {x y : Except ε Unit} {p q : Prop}

/-- The check passes exactly where the condition holds, and refuses with an error of a kind. -/
structure Decides (refusal : ε → Prop) (x : Except ε Unit) (p : Prop) : Prop where
  accepts : p → x = .ok ()
  refuses : ¬ p → ∃ e, refusal e ∧ x = .error e

namespace Decides

theorem ok_iff (h : Decides refusal x p) : x = .ok () ↔ p := by
  refine ⟨fun hx => ?_, h.accepts⟩
  by_contra hp
  obtain ⟨e, -, he⟩ := h.refuses hp
  rw [hx] at he
  cases he

theorem congr (h : Decides refusal x p) (hpq : p ↔ q) : Decides refusal x q :=
  ⟨fun hq => h.accepts (hpq.2 hq), fun hq => h.refuses fun hp => hq (hpq.1 hp)⟩

theorem trivially (hp : p) : Decides refusal (.ok ()) p := ⟨fun _ => rfl, fun h => absurd hp h⟩

theorem refused {e : ε} (he : refusal e) (hp : ¬ p) : Decides refusal (.error e) p :=
  ⟨fun h => absurd h hp, fun _ => ⟨e, he, rfl⟩⟩

theorem seq (hx : Decides refusal x p) (hy : p → Decides refusal y q) :
    Decides refusal (x >>= fun _ => y) (p ∧ q) := by
  by_cases hp : p
  · rw [hx.accepts hp]
    exact (hy hp).congr (and_iff_right hp).symm
  · obtain ⟨e, he, hxe⟩ := hx.refuses hp
    rw [hxe]
    exact refused he fun h => hp h.1

theorem forM {xs : List α} {f : α → Except ε Unit} {p : α → Prop}
    (h : ∀ a ∈ xs, Decides refusal (f a) (p a)) :
    Decides refusal (xs.forM f) (∀ a ∈ xs, p a) := by
  induction xs with
  | nil => exact trivially nofun
  | cons a xs ih =>
    have hrest := ih fun b hb => h b (List.mem_cons_of_mem _ hb)
    exact ((h a List.mem_cons_self).seq fun _ => hrest).congr List.forall_mem_cons.symm

end Decides

end Fallible
