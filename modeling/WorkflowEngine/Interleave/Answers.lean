import WorkflowEngine.Interleave.Rethrow

/-! Answers that stay true. What a task was told may be out of date by the time it acts on it,
but an answer that stays true of every later state can be relied on. A program that does only
what its answers permit has then, in every run, done only what the state at the end permits. -/

namespace Interleave

variable {S : Sig} {ε ε' α β : Type}

namespace Prog

/-- As long as the answers of its operations are in `A`, the program issues only `P`. -/
def Heeds (A : (o : S.Op) → S.Res o → Prop) (P : S.Op → Prop) : Prog S ε α → Prop
  | .ret _ => True
  | .raise _ => True
  | .call o k => P o ∧ ∀ r, A o r → (k r).Heeds A P

variable {A A' : (o : S.Op) → S.Res o → Prop} {P Q : S.Op → Prop} {R : α → Prop}

theorem heeds_of_issues {p : Prog S ε α} (hp : p.Issues P) : p.Heeds A P := by
  induction p with
  | ret a => trivial
  | raise e => trivial
  | call o k ih => exact ⟨hp.1, fun r _ => ih r (hp.2 r)⟩

theorem Heeds.mono {p : Prog S ε α} (hPQ : ∀ o, P o → Q o) (hp : p.Heeds A P) : p.Heeds A Q := by
  induction p with
  | ret a => trivial
  | raise e => trivial
  | call o k ih => exact ⟨hPQ o hp.1, fun r hr => ih r (hp.2 r hr)⟩

theorem heeds_answers (hA : ∀ o r, A' o r → A o r) {p : Prog S ε α} (hp : p.Heeds A P) :
    p.Heeds A' P := by
  induction p with
  | ret a => trivial
  | raise e => trivial
  | call o k ih => exact ⟨hp.1, fun r hr => ih r (hp.2 r (hA o r hr))⟩

/-- What follows a program meets only the values that the program yields. -/
theorem heeds_bind {p : Prog S ε α} {f : α → Prog S ε β} (hp : p.Heeds A P) (hy : p.Yields A R)
    (hf : ∀ a, R a → (f a).Heeds A P) : (p.bind f).Heeds A P := by
  induction p with
  | ret a => exact hf a hy
  | raise e => trivial
  | call o k ih => exact ⟨hp.1, fun r hr => ih r (hp.2 r hr) (hy r hr)⟩

/-- What follows a program whose result is not looked at. -/
theorem heeds_seq {p : Prog S ε α} {f : α → Prog S ε β} (hp : p.Heeds A P)
    (hf : ∀ a, (f a).Heeds A P) : (p.bind f).Heeds A P :=
  heeds_bind hp p.yields_true fun a _ => hf a

theorem heeds_bind_ofExcept {x : Except ε α} {f : α → Prog S ε β}
    (hf : ∀ a, x = .ok a → (f a).Heeds A P) : ((ofExcept x).bind f).Heeds A P := by
  cases x with
  | ok a => exact hf a rfl
  | error e => trivial

theorem heeds_perform {o : S.Op} {f : S.Res o → Prog S ε β} (ho : P o)
    (hf : ∀ r, A o r → (f r).Heeds A P) : ((perform o).bind f).Heeds A P :=
  ⟨ho, hf⟩

theorem heeds_tryCatch {p : Prog S ε α} {h : ε → Prog S ε α} (hp : p.Heeds A P)
    (hh : ∀ e, (h e).Heeds A P) : (p.tryCatch h).Heeds A P := by
  induction p with
  | ret a => trivial
  | raise e => exact hh e
  | call o k ih => exact ⟨hp.1, fun r hr => ih r (hp.2 r hr)⟩

theorem yields_tryCatch {p : Prog S ε α} {h : ε → Prog S ε α} (hp : p.Yields A R)
    (hh : ∀ e, (h e).Yields A R) : (p.tryCatch h).Yields A R := by
  induction p with
  | ret a => exact hp
  | raise e => exact hh e
  | call o k ih => exact fun r hr => ih r (hp r hr)

theorem yields_perform {o : S.Op} {f : S.Res o → Prog S ε α}
    (hf : ∀ r, A o r → (f r).Yields A R) : ((perform o).bind f).Yields A R :=
  hf

theorem yields_lift {T : Sig} {f : S.Op → T.Op} {g : ∀ o, T.Res (f o) → S.Res o}
    {B : (o : T.Op) → T.Res o → Prop} {p : Prog S ε α} (hp : p.Yields (fun _ _ => True) R) :
    (p.lift f g).Yields B R := by
  induction p with
  | ret a => exact hp
  | raise e => trivial
  | call o k ih => exact fun r _ => ih (g o r) (hp (g o r) trivial)

/-- A program inside another signature is told what it makes of the answers there. -/
theorem heeds_lift {T : Sig} {f : S.Op → T.Op} {g : ∀ o, T.Res (f o) → S.Res o}
    {B : (o : T.Op) → T.Res o → Prop} {P : T.Op → Prop} {p : Prog S ε α}
    (hB : ∀ o r, B (f o) r → A o (g o r)) (hp : p.Heeds A fun o => P (f o)) :
    (p.lift f g).Heeds B P := by
  induction p with
  | ret a => trivial
  | raise e => trivial
  | call o k ih => exact ⟨hp.1, fun r hr => ih (g o r) (hp.2 (g o r) (hB o r hr))⟩

theorem yields_lift_told {T : Sig} {f : S.Op → T.Op} {g : ∀ o, T.Res (f o) → S.Res o}
    {B : (o : T.Op) → T.Res o → Prop} {p : Prog S ε α} (hB : ∀ o r, B (f o) r → A o (g o r))
    (hp : p.Yields A R) : (p.lift f g).Yields B R := by
  induction p with
  | ret a => exact hp
  | raise e => trivial
  | call o k ih => exact fun r hr => ih (g o r) (hp (g o r) (hB o r hr))

theorem heeds_rethrow {f : ε → ε'} {p : Prog S ε α} (hp : p.Heeds A P) :
    (p.rethrow f).Heeds A P := by
  induction p with
  | ret a => trivial
  | raise e => trivial
  | call o k ih => exact ⟨hp.1, fun r hr => ih r (hp.2 r hr)⟩

/-- What a program that has come to its end returns. -/
def returned : Prog S ε α → Option α
  | .ret a => some a
  | .raise _ => none
  | .call _ _ => none

theorem returned_eq_some {p : Prog S ε α} {a : α} : p.returned = some a ↔ p = .ret a := by
  cases p <;> simp [returned]

end Prog

/-- On a path whose answers are in `A` the program has issued only `P`, and goes on so. -/
theorem Follows.heeds {A : (o : S.Op) → S.Res o → Prop} {P : S.Op → Prop} {p q : Prog S ε α}
    {xs : List (Event S)} (h : Follows p xs q) (hA : ∀ x ∈ xs, A x.1 x.2) (hp : p.Heeds A P) :
    (∀ x ∈ xs, P x.1) ∧ q.Heeds A P := by
  induction h with
  | nil p => exact ⟨fun x hx => absurd hx List.not_mem_nil, hp⟩
  | cons _ ih =>
    obtain ⟨hx, hxs⟩ := List.forall_mem_cons.1 hA
    obtain ⟨hall, hq⟩ := ih hxs (hp.2 _ hx)
    exact ⟨List.forall_mem_cons.2 ⟨hp.1, hall⟩, hq⟩

/-- What a program returns, it returns on a path of the answers that it got. -/
theorem Prog.yields_followed {xs : List (Event S)} (p : Prog S ε α) :
    p.Yields (fun o r => ⟨o, r⟩ ∈ xs) fun a =>
      ∃ ys, Follows p ys (.ret a) ∧ ∀ y ∈ ys, y ∈ xs := by
  induction p with
  | ret a => exact ⟨[], .nil _, fun y hy => absurd hy List.not_mem_nil⟩
  | raise e => trivial
  | call o k ih =>
    intro r hr
    refine Prog.yields_mono (fun a ha => ?_) (ih r)
    obtain ⟨ys, hf, hys⟩ := ha
    exact ⟨⟨o, r⟩ :: ys, .cons hf, List.forall_mem_cons.2 ⟨hr, hys⟩⟩

namespace System

section
variable {sys : System S ε α} {c : sys.Config} {acts : List sys.Move}

/-- A call was there from the start, or the schedule spawns it. -/
theorem spawn_of_call {call : sys.Call} (h : call ∈ (sys.run c acts).hist.calls) :
    call ∈ c.hist.calls ∨ .spawn call ∈ acts := by
  induction acts using List.reverseRecOn with
  | nil => exact Or.inl h
  | append_singleton acts a ih =>
    rw [run_snoc] at h
    have hold : call ∈ (sys.run c acts).hist.calls →
        call ∈ c.hist.calls ∨ .spawn call ∈ acts ++ [a] :=
      fun h => (ih h).imp_right fun h => List.mem_append_left _ h
    rcases next_cases (sys.run c acts) a with hn | ⟨call', rfl, -, hn⟩ | ⟨τ, e, o, k, -, -, hn⟩ |
        ⟨τ, -, hn⟩ | ⟨e, -, hn⟩ <;> rw [hn] at h
    · exact hold h
    · rcases List.mem_append.1 h with h | h
      · exact hold h
      · rw [List.mem_singleton.1 h]
        exact Or.inr (List.mem_append_right _ List.mem_cons_self)
    · exact hold h
    · exact hold h
    · exact hold h

/-- What holds of the state at the end of a run and not at its start, an operation of the run has
brought about. -/
theorem entry_of_change {M : sys.State → Prop} (hdrift : ∀ e s, M (sys.drift e s) → M s)
    (h0 : ¬ M c.hist.state) (h : M (sys.run c acts).hist.state) :
    ∃ x ∈ (sys.run c acts).hist.trace, ∃ e s, x.res = (sys.exec e s x.op).1 ∧ ¬ M s ∧
      M (sys.exec e s x.op).2 := by
  induction acts using List.reverseRecOn with
  | nil => exact absurd h h0
  | append_singleton acts a ih =>
    rw [run_snoc] at h ⊢
    have hold : M (sys.run c acts).hist.state →
        ∃ x ∈ (sys.next (sys.run c acts) a).hist.trace, ∃ e s, x.res = (sys.exec e s x.op).1 ∧
          ¬ M s ∧ M (sys.exec e s x.op).2 := by
      intro h
      obtain ⟨x, hx, hchange⟩ := ih h
      exact ⟨x, (trace_next _ a).subset hx, hchange⟩
    rcases next_cases (sys.run c acts) a with hn | ⟨call, -, -, hn⟩ | ⟨τ, e, o, k, -, -, hn⟩ |
        ⟨τ, -, hn⟩ | ⟨e, -, hn⟩
    · exact hold (hn ▸ h)
    · exact hold (by rwa [hn] at h)
    · by_cases hm : M (sys.run c acts).hist.state
      · exact hold hm
      · rw [hn] at h ⊢
        exact ⟨_, List.mem_append_right _ List.mem_cons_self, e, _, rfl, hm, h⟩
    · exact hold (by rwa [hn] at h)
    · rw [hn] at h
      exact hold (hdrift e _ h)

end

/-- `Tells` is what an answer tells of the state. It is true of the state that the operation
leaves, and whatever is done in `Pre` keeps it true. -/
structure Answers (sys : System S ε α) where
  Pre : S.Op → Prop
  Inv : sys.State → Prop
  Onward : sys.State → sys.State → Prop
  Tells : sys.State → (o : S.Op) → S.Res o → Prop
  refl : ∀ s, Onward s s
  trans : ∀ {s s' s''}, Onward s s' → Onward s' s'' → Onward s s''
  step : ∀ e {s o}, Inv s → Pre o → Inv (sys.exec e s o).2 ∧ Onward s (sys.exec e s o).2
  drift : ∀ e {s}, Inv s → Inv (sys.drift e s) ∧ Onward s (sys.drift e s)
  said : ∀ e {s o}, Inv s → Pre o → Tells (sys.exec e s o).2 o (sys.exec e s o).1
  kept : ∀ {s s' o r}, Onward s s' → Tells s o r → Tells s' o r

namespace Answers

variable {sys : System S ε α} (A : sys.Answers)

/-- Every call keeps to `Pre`, as long as its answers are true. -/
def Kept (A : sys.Answers) (h : sys.History) : Prop :=
  ∀ call ∈ h.calls, ∀ s, (sys.body call).Heeds (A.Tells s) A.Pre

private structure Holds (s : sys.State) (h : sys.History) : Prop where
  inv : A.Inv h.state
  onward : A.Onward s h.state
  told : ∀ x ∈ h.trace, A.Tells h.state x.op x.res

variable {A} {s : sys.State} {acts : List sys.Move}

private theorem told_of_holds {h : sys.History} (hh : A.Holds s h) {τ : ℕ} :
    ∀ x ∈ (h.own τ).map Entry.event, A.Tells h.state x.1 x.2 := by
  intro x hx
  obtain ⟨y, hy, rfl⟩ := List.mem_map.1 hx
  exact hh.told y (List.mem_filter.1 hy).1

private theorem holds_run (h0 : A.Inv s) (hpre : A.Kept (sys.run (sys.init s) acts).hist) :
    A.Holds s (sys.run (sys.init s) acts).hist := by
  induction acts using List.reverseRecOn with
  | nil => exact ⟨h0, A.refl s, by simp [init]⟩
  | append_singleton acts a ih =>
    rw [run_snoc] at hpre ⊢
    have hh := ih fun call hc => hpre call ((calls_next _ a).subset hc)
    have hi := hh.inv
    have ho := hh.onward
    have htold := hh.told
    rcases next_cases (sys.run (sys.init s) acts) a with h | ⟨call, -, -, h⟩ |
        ⟨τ, e, o, k, -, hr, h⟩ | ⟨τ, -, h⟩ | ⟨e, -, h⟩
    · rw [h]
      exact ⟨hi, ho, htold⟩
    · rw [h]
      exact ⟨hi, ho, htold⟩
    · obtain ⟨call, hcall, hf⟩ := follows_run s acts hr.1
      have hp : A.Pre o := (hf.heeds (told_of_holds hh)
        (hpre call ((calls_next _ a).subset (List.mem_of_getElem? hcall)) _)).2.1
      obtain ⟨hi', ho'⟩ := A.step e hi hp
      rw [h]
      refine ⟨hi', A.trans ho ho', fun x hx => ?_⟩
      rcases List.mem_append.1 hx with hx | hx
      · exact A.kept ho' (htold x hx)
      · rw [List.mem_singleton.1 hx]
        exact A.said e hi hp
    · rw [h]
      exact ⟨hi, ho, htold⟩
    · obtain ⟨hi', ho'⟩ := A.drift e hi
      rw [h]
      exact ⟨hi', A.trans ho ho', fun x hx => A.kept ho' (htold x hx)⟩

variable (h0 : A.Inv s) (hpre : A.Kept (sys.run (sys.init s) acts).hist)
include h0 hpre

theorem inv_run : A.Inv (sys.run (sys.init s) acts).hist.state := (holds_run h0 hpre).inv

/-- An operation of the run is one that its call is permitted, by the state at the end. -/
theorem heeded_run {P : sys.Call → S.Op → Prop}
    (hP : ∀ call ∈ (sys.run (sys.init s) acts).hist.calls,
      (sys.body call).Heeds (A.Tells (sys.run (sys.init s) acts).hist.state) (P call))
    {x : Entry S} (hx : x ∈ (sys.run (sys.init s) acts).hist.trace) :
    ∃ call, (sys.run (sys.init s) acts).hist.calls[x.tid]? = some call ∧ P call x.op := by
  obtain ⟨p, hp⟩ := task_of_mem s acts hx
  obtain ⟨call, hcall, hf⟩ := follows_run s acts hp
  have hheeds := hf.heeds (told_of_holds (holds_run h0 hpre)) (hP call (List.mem_of_getElem? hcall))
  exact ⟨call, hcall, hheeds.1 _ (Entry.event_mem hx)⟩

/-- An operation of the run is one that its call is permitted, by the answers that the call got. -/
theorem heeded_trace {P : sys.Call → List (Event S) → S.Op → Prop}
    (hP : ∀ call ∈ (sys.run (sys.init s) acts).hist.calls, ∀ xs, (sys.body call).Heeds
      (fun o r => A.Tells (sys.run (sys.init s) acts).hist.state o r ∧ ⟨o, r⟩ ∈ xs) (P call xs))
    {x : Entry S} (hx : x ∈ (sys.run (sys.init s) acts).hist.trace) :
    ∃ call, (sys.run (sys.init s) acts).hist.calls[x.tid]? = some call ∧
      P call (((sys.run (sys.init s) acts).hist.own x.tid).map Entry.event) x.op := by
  obtain ⟨p, hp⟩ := task_of_mem s acts hx
  obtain ⟨call, hcall, hf⟩ := follows_run s acts hp
  have hheeds := hf.heeds (fun x hx => ⟨told_of_holds (holds_run h0 hpre) x hx, hx⟩)
    (hP call (List.mem_of_getElem? hcall) _)
  exact ⟨call, hcall, hheeds.1 _ (Entry.event_mem hx)⟩

/-- What a call has returned is what its program yields, by the state at the end. -/
theorem yielded_run {R : sys.Call → α → Prop}
    (hR : ∀ call, (sys.body call).Yields (A.Tells (sys.run (sys.init s) acts).hist.state) (R call))
    {τ : ℕ} {a : α} (ha : (sys.run (sys.init s) acts).tasks[τ]? = some (.ret a)) :
    ∃ call, (sys.run (sys.init s) acts).hist.calls[τ]? = some call ∧ R call a := by
  obtain ⟨call, hcall, hf⟩ := follows_run s acts ha
  exact ⟨call, hcall, hf.yields (told_of_holds (holds_run h0 hpre)) (hR call)⟩

/-- What a call has returned is what its program yields of the answers that it got. -/
theorem yielded_trace {R : sys.Call → List (Event S) → α → Prop}
    (hR : ∀ call xs, (sys.body call).Yields
      (fun o r => A.Tells (sys.run (sys.init s) acts).hist.state o r ∧ ⟨o, r⟩ ∈ xs) (R call xs))
    {τ : ℕ} {a : α} (ha : (sys.run (sys.init s) acts).tasks[τ]? = some (.ret a)) :
    ∃ call, (sys.run (sys.init s) acts).hist.calls[τ]? = some call ∧
      R call (((sys.run (sys.init s) acts).hist.own τ).map Entry.event) a := by
  obtain ⟨call, hcall, hf⟩ := follows_run s acts ha
  exact ⟨call, hcall, hf.yields (fun x hx => ⟨told_of_holds (holds_run h0 hpre) x hx, hx⟩)
    (hR call _)⟩

end Answers
end System
end Interleave
