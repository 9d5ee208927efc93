import Mathlib.Logic.Basic

/-! Asynchronous programs as finite trees of atomic operations. A program stops
at every operation it issues, so a scheduler may run other programs there, or
never resume this one. Exceptions are part of the program: `raise` ends it,
`tryCatch` resumes it with a handler. -/

namespace Interleave

/-- Atomic operations, with the type of the answer to each. -/
structure Sig where
  Op : Type
  Res : Op → Type

/-- The disjoint union of two signatures. -/
def Sig.sum (S T : Sig) : Sig where
  Op := S.Op ⊕ T.Op
  Res
    | .inl o => S.Res o
    | .inr o => T.Res o

inductive Prog (S : Sig) (ε α : Type) where
  | ret (a : α)
  | raise (e : ε)
  | call (o : S.Op) (k : S.Res o → Prog S ε α)

namespace Prog

variable {S T : Sig} {ε α β : Type}

def bind : Prog S ε α → (α → Prog S ε β) → Prog S ε β
  | .ret a, f => f a
  | .raise e, _ => .raise e
  | .call o k, f => .call o fun r => (k r).bind f

def tryCatch : Prog S ε α → (ε → Prog S ε α) → Prog S ε α
  | .ret a, _ => .ret a
  | .raise e, h => h e
  | .call o k, h => .call o fun r => (k r).tryCatch h

instance : Monad (Prog S ε) where
  pure := .ret
  bind := .bind

instance : MonadExceptOf ε (Prog S ε) where
  throw := .raise
  tryCatch := .tryCatch

/-- One atomic operation. -/
def perform (o : S.Op) : Prog S ε (S.Res o) := .call o .ret

/-- A pure computation that may raise. -/
def ofExcept : Except ε α → Prog S ε α
  | .ok a => .ret a
  | .error e => .raise e

/-- What a program has come to, if it is at its end. -/
def answer? : Prog S ε α → Option (Except ε α)
  | .ret a => some (.ok a)
  | .raise e => some (.error e)
  | .call .. => none

/-- Run a program of one signature inside another. -/
def lift (f : S.Op → T.Op) (g : ∀ o, T.Res (f o) → S.Res o) : Prog S ε α → Prog T ε α
  | .ret a => .ret a
  | .raise e => .raise e
  | .call o k => .call (f o) fun r => (k (g o r)).lift f g

@[simp] theorem pure_eq (a : α) : (pure a : Prog S ε α) = .ret a := rfl

@[simp] theorem throw_eq (e : ε) : (throw e : Prog S ε α) = .raise e := rfl

@[simp] theorem bind_eq (p : Prog S ε α) (f : α → Prog S ε β) : (p >>= f) = p.bind f := rfl

@[simp] theorem tryCatch_eq (p : Prog S ε α) (h : ε → Prog S ε α) :
    MonadExcept.tryCatch p h = p.tryCatch h := rfl

@[simp] theorem tryCatchThe_eq (p : Prog S ε α) (h : ε → Prog S ε α) :
    tryCatchThe ε p h = p.tryCatch h := rfl

@[simp] theorem bind_ret (a : α) (f : α → Prog S ε β) : (ret a).bind f = f a := rfl

@[simp] theorem bind_raise (e : ε) (f : α → Prog S ε β) : (raise e).bind f = raise e := rfl

@[simp] theorem bind_call (o : S.Op) (k : S.Res o → Prog S ε α) (f : α → Prog S ε β) :
    (call o k).bind f = call o fun r => (k r).bind f := rfl

@[simp] theorem bind_perform (o : S.Op) (f : S.Res o → Prog S ε β) :
    (perform o : Prog S ε _).bind f = call o f := rfl

@[simp] theorem ofExcept_ok (a : α) : (ofExcept (.ok a) : Prog S ε α) = ret a := rfl

@[simp] theorem ofExcept_error (e : ε) : (ofExcept (.error e) : Prog S ε α) = raise e := rfl

@[simp] theorem lift_ret (f : S.Op → T.Op) (g : ∀ o, T.Res (f o) → S.Res o) (a : α) :
    (ret a : Prog S ε α).lift f g = ret a := rfl

@[simp] theorem lift_raise (f : S.Op → T.Op) (g : ∀ o, T.Res (f o) → S.Res o) (e : ε) :
    (raise e : Prog S ε α).lift f g = raise e := rfl

@[simp] theorem lift_bind (f : S.Op → T.Op) (g : ∀ o, T.Res (f o) → S.Res o) (p : Prog S ε α)
    (q : α → Prog S ε β) : (p.bind q).lift f g = (p.lift f g).bind fun a => (q a).lift f g := by
  induction p with
  | ret a => rfl
  | raise e => rfl
  | call o k ih => simp [lift, ih]

theorem bind_assoc {γ : Type} (p : Prog S ε α) (f : α → Prog S ε β) (g : β → Prog S ε γ) :
    (p.bind f).bind g = p.bind fun a => (f a).bind g := by
  induction p with
  | ret a => rfl
  | raise e => rfl
  | call o k ih => simp [ih]

/-- The program run to its end, with nothing between its operations. -/
def alone {σ : Type} (exec : σ → (o : S.Op) → S.Res o × σ) : Prog S ε α → σ → Except ε α × σ
  | .ret a, s => (.ok a, s)
  | .raise e, s => (.error e, s)
  | .call o k, s => (k (exec s o).1).alone exec (exec s o).2

section
variable {σ : Type} {exec : σ → (o : S.Op) → S.Res o × σ}

@[simp] theorem alone_ret (a : α) (s : σ) : (ret a : Prog S ε α).alone exec s = (.ok a, s) := rfl

@[simp] theorem alone_raise (e : ε) (s : σ) : (raise e : Prog S ε α).alone exec s = (.error e, s) :=
  rfl

@[simp] theorem alone_call (o : S.Op) (k : S.Res o → Prog S ε α) (s : σ) :
    (call o k).alone exec s = (k (exec s o).1).alone exec (exec s o).2 := rfl

theorem alone_answer {o : S.Op} {k : S.Res o → Prog S ε α} {s : σ} {r : S.Res o}
    (h : (exec s o).1 = r) : (call o k).alone exec s = (k r).alone exec (exec s o).2 := by
  rw [alone_call, h]

theorem alone_bind (p : Prog S ε α) (f : α → Prog S ε β) (s : σ) :
    (p.bind f).alone exec s = match p.alone exec s with
      | (.ok a, s') => (f a).alone exec s'
      | (.error e, s') => (.error e, s') := by
  induction p generalizing s with
  | ret a => rfl
  | raise e => rfl
  | call o k ih => exact ih _ _

/-- A last step that only makes the answer leaves the state. -/
theorem alone_bind_pure (p : Prog S ε α) (f : α → β) (s : σ) :
    ((p.bind fun a => .ret (f a)).alone exec s).2 = (p.alone exec s).2 := by
  rw [alone_bind]
  split
  case h_1 h => rw [h]; rfl
  case h_2 h => rw [h]

theorem alone_bind_ok {p : Prog S ε α} {f : α → Prog S ε β} {s : σ} {a : α}
    (h : (p.alone exec s).1 = .ok a) :
    (p.bind f).alone exec s = (f a).alone exec (p.alone exec s).2 := by
  have hp : p.alone exec s = (.ok a, (p.alone exec s).2) := Prod.ext h rfl
  rw [alone_bind, hp]

theorem alone_bind_error {p : Prog S ε α} {f : α → Prog S ε β} {s : σ} {e : ε}
    (h : (p.alone exec s).1 = .error e) : ((p.bind f).alone exec s).1 = .error e := by
  have hp : p.alone exec s = (.error e, (p.alone exec s).2) := Prod.ext h rfl
  rw [alone_bind, hp]

theorem alone_seq {p : Prog S ε α} {f : α → Prog S ε β} {s s' : σ} {a : α}
    (h : p.alone exec s = (.ok a, s')) : (p.bind f).alone exec s = (f a).alone exec s' := by
  rw [alone_bind, h]

theorem alone_tryCatch (p : Prog S ε α) (h : ε → Prog S ε α) (s : σ) :
    (p.tryCatch h).alone exec s = match p.alone exec s with
      | (.ok a, s') => (.ok a, s')
      | (.error e, s') => (h e).alone exec s' := by
  induction p generalizing s with
  | ret a => rfl
  | raise e => rfl
  | call o k ih => exact ih _ _

/-- A program of one signature, run alone inside another, sees its own part of the state. -/
theorem alone_lift {ρ : Type} {exec' : ρ → (o : T.Op) → T.Res o × ρ} {f : S.Op → T.Op}
    {g : ∀ o, T.Res (f o) → S.Res o} {part : ρ → σ}
    (hres : ∀ s o, g o (exec' s (f o)).1 = (exec (part s) o).1)
    (hpart : ∀ s o, part (exec' s (f o)).2 = (exec (part s) o).2) (p : Prog S ε α) (s : ρ) :
    ((p.lift f g).alone exec' s).1 = (p.alone exec (part s)).1 := by
  induction p generalizing s with
  | ret a => rfl
  | raise e => rfl
  | call o k ih => rw [lift, alone_call, alone_call, ih, hres, hpart]

end

/-- The operations that a program issues when it is run alone. -/
def issued {σ : Type} (exec : σ → (o : S.Op) → S.Res o × σ) : Prog S ε α → σ → List S.Op
  | .ret _, _ => []
  | .raise _, _ => []
  | .call o k, s => o :: (k (exec s o).1).issued exec (exec s o).2

section
variable {σ : Type} {exec : σ → (o : S.Op) → S.Res o × σ}

theorem issued_bind (p : Prog S ε α) (f : α → Prog S ε β) (s : σ) :
    (p.bind f).issued exec s = p.issued exec s ++ match p.alone exec s with
      | (.ok a, s') => (f a).issued exec s'
      | (.error _, _) => [] := by
  induction p generalizing s with
  | ret a => rfl
  | raise e => rfl
  | call o k ih => exact congrArg (o :: ·) (ih _ _)

theorem issued_seq {p : Prog S ε α} {f : α → Prog S ε β} {s s' : σ} {a : α}
    (h : p.alone exec s = (.ok a, s')) :
    (p.bind f).issued exec s = p.issued exec s ++ (f a).issued exec s' := by
  rw [issued_bind, h]

theorem issued_tryCatch (p : Prog S ε α) (h : ε → Prog S ε α) (s : σ) :
    (p.tryCatch h).issued exec s = p.issued exec s ++ match p.alone exec s with
      | (.ok _, _) => []
      | (.error e, s') => (h e).issued exec s' := by
  induction p generalizing s with
  | ret a => rfl
  | raise e => rfl
  | call o k ih => exact congrArg (o :: ·) (ih _ _)

end

/-- Every operation that the program can issue, whatever the answers, satisfies `P`. -/
def Issues (P : S.Op → Prop) : Prog S ε α → Prop
  | .ret _ => True
  | .raise _ => True
  | .call o k => P o ∧ ∀ r, (k r).Issues P

variable {P Q : S.Op → Prop}

@[simp] theorem issues_ret (a : α) : (ret a : Prog S ε α).Issues P := trivial

@[simp] theorem issues_raise (e : ε) : (raise e : Prog S ε α).Issues P := trivial

@[simp] theorem issues_perform (o : S.Op) : (perform o : Prog S ε _).Issues P ↔ P o := by
  simp [perform, Issues]

@[simp] theorem issues_ofExcept (x : Except ε α) : (ofExcept x : Prog S ε α).Issues P := by
  cases x <;> trivial

theorem issues_bind {p : Prog S ε α} {f : α → Prog S ε β}
    (hp : p.Issues P) (hf : ∀ a, (f a).Issues P) : (p.bind f).Issues P := by
  induction p with
  | ret a => exact hf a
  | raise e => trivial
  | call o k ih => exact ⟨hp.1, fun r => ih r (hp.2 r)⟩

theorem issues_bind_ofExcept {x : Except ε α} {f : α → Prog S ε β}
    (hf : ∀ a, x = .ok a → (f a).Issues P) : ((ofExcept x).bind f).Issues P := by
  cases x with
  | ok a => exact hf a rfl
  | error e => trivial

theorem issues_tryCatch {p : Prog S ε α} {h : ε → Prog S ε α}
    (hp : p.Issues P) (hh : ∀ e, (h e).Issues P) : (p.tryCatch h).Issues P := by
  induction p with
  | ret a => trivial
  | raise e => exact hh e
  | call o k ih => exact ⟨hp.1, fun r => ih r (hp.2 r)⟩

theorem Issues.mono {p : Prog S ε α} (hPQ : ∀ o, P o → Q o) (hp : p.Issues P) : p.Issues Q := by
  induction p with
  | ret a => trivial
  | raise e => trivial
  | call o k ih => exact ⟨hPQ o hp.1, fun r => ih r (hp.2 r)⟩

/-- What every operation of a program keeps, the program keeps. -/
theorem alone_keeps {σ : Type} {exec : σ → (o : S.Op) → S.Res o × σ} {R : σ → σ → Prop}
    (hrefl : ∀ s, R s s) (htrans : ∀ s s' s'', R s s' → R s' s'' → R s s'')
    (hstep : ∀ s o, P o → R s (exec s o).2) {p : Prog S ε α} (hp : p.Issues P) (s : σ) :
    R s (p.alone exec s).2 := by
  induction p generalizing s with
  | ret a => exact hrefl s
  | raise e => exact hrefl s
  | call o k ih => exact htrans _ _ _ (hstep s o hp.1) (ih _ (hp.2 _) _)

theorem forall_mem_issued {σ : Type} {exec : σ → (o : S.Op) → S.Res o × σ} {p : Prog S ε α}
    (hp : p.Issues P) (s : σ) : ∀ o ∈ p.issued exec s, P o := by
  induction p generalizing s with
  | ret a => exact fun o ho => absurd ho List.not_mem_nil
  | raise e => exact fun o ho => absurd ho List.not_mem_nil
  | call o k ih => exact List.forall_mem_cons.2 ⟨hp.1, ih _ (hp.2 _) _⟩

theorem issues_true (p : Prog S ε α) : p.Issues fun _ => True := by
  induction p with
  | ret a => trivial
  | raise e => trivial
  | call o k ih => exact ⟨trivial, ih⟩

theorem issues_lift {P : T.Op → Prop} {f : S.Op → T.Op} {g : ∀ o, T.Res (f o) → S.Res o}
    {p : Prog S ε α} (hp : p.Issues fun o => P (f o)) : (p.lift f g).Issues P := by
  induction p with
  | ret a => trivial
  | raise e => trivial
  | call o k ih => exact ⟨hp.1, fun r => ih (g o r) (hp.2 _)⟩

section
variable {R : S.Op → Prop}

/-- The program issues `P`, but for one operation in `R` at the most. -/
def Once (P R : S.Op → Prop) : Prog S ε α → Prop
  | .ret _ => True
  | .raise _ => True
  | .call o k => (P o ∧ ∀ r, (k r).Once P R) ∨ (R o ∧ ∀ r, (k r).Issues P)

theorem once_of_issues {p : Prog S ε α} (hp : p.Issues P) : p.Once P R := by
  induction p with
  | ret a => trivial
  | raise e => trivial
  | call o k ih => exact Or.inl ⟨hp.1, fun r => ih r (hp.2 r)⟩

/-- The operation comes in the second part. -/
theorem once_bind_right {p : Prog S ε α} {f : α → Prog S ε β} (hp : p.Issues P)
    (hf : ∀ a, (f a).Once P R) : (p.bind f).Once P R := by
  induction p with
  | ret a => exact hf a
  | raise e => trivial
  | call o k ih => exact Or.inl ⟨hp.1, fun r => ih r (hp.2 r)⟩

/-- The operation comes in the first part. -/
theorem once_bind_left {p : Prog S ε α} {f : α → Prog S ε β} (hp : p.Once P R)
    (hf : ∀ a, (f a).Issues P) : (p.bind f).Once P R := by
  induction p with
  | ret a => exact once_of_issues (hf a)
  | raise e => trivial
  | call o k ih =>
    rcases hp with ⟨ho, hk⟩ | ⟨ho, hk⟩
    · exact Or.inl ⟨ho, fun r => ih r (hk r)⟩
    · exact Or.inr ⟨ho, fun r => issues_bind (hk r) hf⟩

end

/-- The program issues `P`, until an operation in `R` that leaves it with what `Q` allows of the
answer. -/
def Until (P R : S.Op → Prop) (Q : (o : S.Op) → S.Res o → S.Op → Prop) : Prog S ε α → Prop
  | .ret _ => True
  | .raise _ => True
  | .call o k => (P o ∧ ∀ r, (k r).Until P R Q) ∨ (R o ∧ ∀ r, (k r).Issues (Q o r))

section
variable {R : S.Op → Prop} {Q : (o : S.Op) → S.Res o → S.Op → Prop}

theorem until_of_issues {p : Prog S ε α} (hp : p.Issues P) : p.Until P R Q := by
  induction p with
  | ret a => trivial
  | raise e => trivial
  | call o k ih => exact Or.inl ⟨hp.1, fun r => ih r (hp.2 r)⟩

theorem until_bind {p : Prog S ε α} {f : α → Prog S ε β} (hp : p.Issues P)
    (hf : ∀ a, (f a).Until P R Q) : (p.bind f).Until P R Q := by
  induction p with
  | ret a => exact hf a
  | raise e => trivial
  | call o k ih => exact Or.inl ⟨hp.1, fun r => ih r (hp.2 r)⟩

theorem until_bind_ofExcept {x : Except ε α} {f : α → Prog S ε β}
    (hf : ∀ a, x = .ok a → (f a).Until P R Q) : ((ofExcept x).bind f).Until P R Q := by
  cases x with
  | ok a => exact hf a rfl
  | error e => trivial

end

/-- Whatever answers in `A` its operations get, the program returns only values in `R`. -/
def Yields (A : (o : S.Op) → S.Res o → Prop) (R : α → Prop) : Prog S ε α → Prop
  | .ret a => R a
  | .raise _ => True
  | .call o k => ∀ r, A o r → (k r).Yields A R

section
variable {A : (o : S.Op) → S.Res o → Prop} {R : α → Prop} {R' : β → Prop}

theorem yields_bind {p : Prog S ε α} {f : α → Prog S ε β} (hp : p.Yields A R)
    (hf : ∀ a, R a → (f a).Yields A R') : (p.bind f).Yields A R' := by
  induction p with
  | ret a => exact hf a hp
  | raise e => trivial
  | call o k ih => exact fun r hr => ih r (hp r hr)

/-- What follows a program meets only the values that the program returns. -/
theorem issues_bind_yields {p : Prog S ε α} {f : α → Prog S ε β} (hp : p.Issues P)
    (hy : p.Yields (fun _ _ => True) R) (hf : ∀ a, R a → (f a).Issues P) : (p.bind f).Issues P := by
  induction p with
  | ret a => exact hf a hy
  | raise e => trivial
  | call o k ih => exact ⟨hp.1, fun r => ih r (hp.2 r) (hy r trivial)⟩

theorem yields_mono {R' : α → Prop} (hR : ∀ a, R a → R' a) {p : Prog S ε α} (hp : p.Yields A R) :
    p.Yields A R' := by
  induction p with
  | ret a => exact hR a hp
  | raise e => trivial
  | call o k ih => exact fun r hr => ih r (hp r hr)

theorem yields_and {R' : α → Prop} {p : Prog S ε α} (hp : p.Yields A R) (hp' : p.Yields A R') :
    p.Yields A fun a => R a ∧ R' a := by
  induction p with
  | ret a => exact ⟨hp, hp'⟩
  | raise e => trivial
  | call o k ih => exact fun r hr => ih r (hp r hr) (hp' r hr)

theorem yields_answers {A' : (o : S.Op) → S.Res o → Prop} (hA : ∀ o r, A' o r → A o r)
    {p : Prog S ε α} (hp : p.Yields A R) : p.Yields A' R := by
  induction p with
  | ret a => exact hp
  | raise e => trivial
  | call o k ih => exact fun r hr => ih r (hp r (hA o r hr))

/-- A program that is run alone returns what it yields. -/
theorem alone_yields {σ : Type} {exec : σ → (o : S.Op) → S.Res o × σ}
    (hA : ∀ s o, A o (exec s o).1) {p : Prog S ε α} (hp : p.Yields A R) {s : σ} {a : α}
    (h : (p.alone exec s).1 = .ok a) : R a := by
  induction p generalizing s with
  | ret b =>
    cases h
    exact hp
  | raise e => cases h
  | call o k ih => exact ih _ (hp _ (hA s o)) h

theorem yields_true (p : Prog S ε α) : p.Yields A fun _ => True := by
  induction p with
  | ret a => trivial
  | raise e => trivial
  | call o k ih => exact fun r _ => ih r

theorem yields_const {P : Prop} (h : P) (p : Prog S ε α) : p.Yields A fun _ => P :=
  yields_mono (fun _ _ => h) p.yields_true

/-- What a program yields whose result is not looked at. -/
theorem yields_skip {p : Prog S ε α} {f : α → Prog S ε β} (hf : ∀ a, (f a).Yields A R') :
    (p.bind f).Yields A R' :=
  yields_bind p.yields_true fun a _ => hf a

theorem yields_ofExcept {x : Except ε α} (h : ∀ a, x = .ok a → R a) :
    (ofExcept x : Prog S ε α).Yields A R := by
  cases x with
  | ok a => exact h a rfl
  | error e => trivial

/-- As long as the answers of its operations are in `A`, `p` does what `q` does. -/
inductive EqOn (A : (o : S.Op) → S.Res o → Prop) : Prog S ε α → Prog S ε α → Prop
  | ret (a : α) : EqOn A (.ret a) (.ret a)
  | raise (e : ε) : EqOn A (.raise e) (.raise e)
  | call (o : S.Op) (k k' : S.Res o → Prog S ε α) (h : ∀ r, A o r → EqOn A (k r) (k' r)) :
      EqOn A (.call o k) (.call o k')

theorem EqOn.refl (p : Prog S ε α) : EqOn A p p := by
  induction p with
  | ret a => exact .ret a
  | raise e => exact .raise e
  | call o k ih => exact .call o k k fun r _ => ih r

/-- Programs that go on alike from what `p` yields. -/
theorem eqOn_bind {p : Prog S ε α} {f g : α → Prog S ε β} (hp : p.Yields A R)
    (hfg : ∀ a, R a → EqOn A (f a) (g a)) : EqOn A (p.bind f) (p.bind g) := by
  induction p with
  | ret a => exact hfg a hp
  | raise e => exact .raise e
  | call o k ih => exact .call o _ _ fun r hr => ih r (hp r hr)

end

end Prog
end Interleave
