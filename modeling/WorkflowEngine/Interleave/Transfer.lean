import WorkflowEngine.Interleave.Logic
import WorkflowEngine.Interleave.Rethrow

/-! A system whose calls are made of the programs of another one, over the same state. A logic of
the other system, read of the histories without their calls, is a logic of this one, and what it
says of a program it says of the program as a part of a call. -/

namespace Interleave

variable {S : Sig} {ε ε' α α' β : Type}

/-- Other calls, with programs of their own, over the state of `sys`. -/
def System.hosting (sys : System S ε α) {κ : Type} (body : κ → Prog S ε' α') : System S ε' α' where
  State := sys.State
  Choice := sys.Choice
  Call := κ
  exec := sys.exec
  drift := sys.drift
  admits _ _ := true
  body := body

/-- The history with every call replaced by `call`. -/
def Hist.forget {σ κ κ' : Type} (call : κ') (h : Hist S σ κ) : Hist S σ κ' :=
  { h with calls := h.calls.map fun _ => call }

namespace Logic

variable {sys : System S ε α} {κ : Type} {body : κ → Prog S ε' α'} {call : sys.Call}

def hosting (L : Logic sys) (call : sys.Call) (body : κ → Prog S ε' α') :
    Logic (sys.hosting body) where
  Inv h := L.Inv (h.forget call)
  Rely h h' := L.Rely (h.forget call) (h'.forget call)
  Pre τ o h := L.Pre τ o (h.forget call)

theorem quiet_forget {τ : ℕ} {h h' : (sys.hosting body).History} (hq : Quiet τ h h') :
    @Quiet _ _ _ sys τ (h.forget call) (h'.forget call) := by
  obtain ⟨new, hnew, htid⟩ := hq.trace
  exact ⟨hq.calls.map _, new, hnew, htid⟩

variable {L : Logic sys} {τ : ℕ}

/-- A program verified in the logic of `sys` is verified as a part of a call, and ends in the same
states. -/
theorem wp_hosting {f : ε → ε'} {p : Prog S ε β} {Q : Except ε β → sys.History → Prop}
    {h : (sys.hosting body).History} (hp : L.wp τ p Q (h.forget call)) :
    (L.hosting call body).wp τ (p.rethrow f)
      (fun r h' => ∃ r', r = r'.mapError f ∧ Q r' (h'.forget call)) h := by
  induction p generalizing h with
  | ret a => exact ⟨.ok a, rfl, hp⟩
  | raise e => exact ⟨.error e, rfl, hp⟩
  | call o k ih =>
    intro h' hr hq hi
    obtain ⟨hpre, hk⟩ := hp (h'.forget call) hr (quiet_forget hq) hi
    exact ⟨hpre, fun e => ih _ (hk e)⟩

theorem Stepwise.hosting (hL : L.Stepwise) : (L.hosting call body).Stepwise where
  refl h := hL.refl (h.forget call)
  trans a b c := hL.trans (a.forget call) (b.forget call) (c.forget call)
  step τ o e h := hL.step τ o e (h.forget call)

/-- What is left to show of the calls are their programs. -/
theorem Sound.hosting (hL : L.Sound) (hcall : ∀ h, sys.admits h call = true)
    (hbody : ∀ (τ : ℕ) (c : κ) (h : (sys.hosting body).History),
      (L.hosting call body).wp τ (body c) (fun _ _ => True) h) :
    (L.hosting call body).Sound where
  toStepwise := hL.toStepwise.hosting
  spawn h c hi _ := by
    have hspawned : ((sys.hosting body).spawned h c).forget call =
        sys.spawned (h.forget call) call := by
      simp only [Hist.forget, System.spawned, List.map_append, List.map_cons, List.map_nil]
      rfl
    obtain ⟨hi', hr⟩ := hL.spawn (h.forget call) call hi (hcall _)
    rw [← hspawned] at hi' hr
    exact ⟨hi', hr⟩
  crash h τ hi := hL.crash (h.forget call) τ hi
  drift h e hi := hL.drift (h.forget call) e hi
  body h c _ _ _ := hbody _ _ _

end Logic
end Interleave
