import WorkflowEngine.Interleave.Trail

/-! Programs that pass on the exceptions of another program as exceptions of their own. The
operations and the results stay as they are. -/

namespace Interleave

variable {S : Sig} {ε ε' α β : Type}

namespace Prog

/-- `p`, with every exception that it ends in passed on as `f` of it. -/
def rethrow (f : ε → ε') : Prog S ε α → Prog S ε' α
  | .ret a => .ret a
  | .raise e => .raise (f e)
  | .call o k => .call o fun r => (k r).rethrow f

@[simp] theorem rethrow_ret (f : ε → ε') (a : α) : (ret a : Prog S ε α).rethrow f = ret a := rfl

@[simp] theorem rethrow_raise (f : ε → ε') (e : ε) :
    (raise e : Prog S ε α).rethrow f = raise (f e) := rfl

@[simp] theorem rethrow_bind (f : ε → ε') (p : Prog S ε α) (q : α → Prog S ε β) :
    (p.bind q).rethrow f = (p.rethrow f).bind fun a => (q a).rethrow f := by
  induction p with
  | ret a => rfl
  | raise e => rfl
  | call o k ih => simp [rethrow, ih]

@[simp] theorem rethrow_ofExcept (f : ε → ε') (x : Except ε α) :
    (ofExcept x : Prog S ε α).rethrow f = ofExcept (x.mapError f) := by
  cases x <;> rfl

theorem issues_rethrow {P : S.Op → Prop} {f : ε → ε'} {p : Prog S ε α} (hp : p.Issues P) :
    (p.rethrow f).Issues P := by
  induction p with
  | ret a => trivial
  | raise e => trivial
  | call o k ih => exact ⟨hp.1, fun r => ih r (hp.2 r)⟩

theorem yields_rethrow {A : (o : S.Op) → S.Res o → Prop} {R : α → Prop} {f : ε → ε'}
    {p : Prog S ε α} (hp : p.Yields A R) : (p.rethrow f).Yields A R := by
  induction p with
  | ret a => exact hp
  | raise e => trivial
  | call o k ih => exact fun r hr => ih r (hp r hr)

end Prog

end Interleave
