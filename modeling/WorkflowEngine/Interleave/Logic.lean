import WorkflowEngine.Interleave.System

/-! Rely-guarantee reasoning for systems of programs. A logic consists of an
invariant of the history, a preorder `Rely` that every step respects, and a
precondition `Pre` for each operation. `wp` says that a task meets the
precondition of every operation it issues although the others move between its
operations. `Sound.good_run` derives the invariant, and the precondition of
every operation about to be performed, for every schedule. -/

namespace Interleave

variable {S : Sig} {ε α β : Type} {sys : System S ε α}

/-- The others moved: `τ` added nothing to the trace. -/
structure Quiet (τ : ℕ) (h h' : sys.History) : Prop where
  calls : h.calls <+: h'.calls
  trace : ∃ new, h'.trace = h.trace ++ new ∧ ∀ x ∈ new, x.tid ≠ τ

theorem Quiet.refl (τ : ℕ) (h : sys.History) : Quiet τ h h :=
  ⟨List.prefix_refl _, [], by simp, by simp⟩

theorem Quiet.trans {τ : ℕ} {h h' h'' : sys.History} (h1 : Quiet τ h h') (h2 : Quiet τ h' h'') :
    Quiet τ h h'' := by
  obtain ⟨n1, e1, q1⟩ := h1.trace
  obtain ⟨n2, e2, q2⟩ := h2.trace
  refine ⟨h1.calls.trans h2.calls, n1 ++ n2, by rw [e2, e1, List.append_assoc], fun x hx => ?_⟩
  rcases List.mem_append.1 hx with hx | hx
  · exact q1 x hx
  · exact q2 x hx

theorem Quiet.mem {τ : ℕ} {h h' : sys.History} (q : Quiet τ h h') {x : Entry S}
    (hx : x ∈ h.trace) : x ∈ h'.trace := by
  obtain ⟨new, e, -⟩ := q.trace
  rw [e]
  exact List.mem_append_left _ hx

/-- An entry of `τ` was there before the others moved. -/
theorem Quiet.mem_own {τ : ℕ} {h h' : sys.History} (q : Quiet τ h h') {x : Entry S}
    (hx : x ∈ h'.trace) (hτ : x.tid = τ) : x ∈ h.trace := by
  obtain ⟨new, e, hn⟩ := q.trace
  rw [e] at hx
  rcases List.mem_append.1 hx with hx | hx
  · exact hx
  · exact absurd hτ (hn x hx)

theorem Quiet.own {τ : ℕ} {h h' : sys.History} (q : Quiet τ h h') : h'.own τ = h.own τ := by
  obtain ⟨new, e, hn⟩ := q.trace
  have hnew : new.filter (fun x => x.tid = τ) = [] := by
    refine List.filter_eq_nil_iff.2 fun x hx => ?_
    simpa using hn x hx
  rw [Hist.own, e, List.filter_append, hnew, List.append_nil]
  rfl

structure Logic (sys : System S ε α) where
  Inv : sys.History → Prop
  Rely : sys.History → sys.History → Prop
  Pre : ℕ → S.Op → sys.History → Prop

namespace Logic

variable (L : Logic sys)

/-- `p`, run as task `τ` from `h`, keeps to the preconditions and ends in `Q`. The
interference of the other tasks comes before each operation. -/
def wp (τ : ℕ) : Prog S ε β → (Except ε β → sys.History → Prop) → sys.History → Prop
  | .ret a, Q, h => Q (.ok a) h
  | .raise e, Q, h => Q (.error e) h
  | .call o k, Q, h => ∀ h', L.Rely h h' → Quiet τ h h' → L.Inv h' →
      L.Pre τ o h' ∧ ∀ e, wp τ (k (sys.exec e h'.state o).1) Q (sys.after h' τ o e)

variable {L} {τ : ℕ} {Q : Except ε β → sys.History → Prop}

@[simp] theorem wp_ret {a : β} {h : sys.History} : L.wp τ (.ret a) Q h ↔ Q (.ok a) h := Iff.rfl

@[simp] theorem wp_raise {e : ε} {h : sys.History} : L.wp τ (.raise e) Q h ↔ Q (.error e) h :=
  Iff.rfl

theorem wp_call {o : S.Op} {k : S.Res o → Prog S ε β} {h : sys.History} :
    L.wp τ (.call o k) Q h ↔ ∀ h', L.Rely h h' → Quiet τ h h' → L.Inv h' →
      L.Pre τ o h' ∧ ∀ e, L.wp τ (k (sys.exec e h'.state o).1) Q (sys.after h' τ o e) := Iff.rfl

theorem wp_ofExcept {x : Except ε β} {h : sys.History} : L.wp τ (.ofExcept x) Q h ↔ Q x h := by
  cases x <;> rfl

theorem wp_mono {p : Prog S ε β} {Q' : Except ε β → sys.History → Prop} {h : sys.History}
    (hQ : ∀ r h', Q r h' → Q' r h') (hp : L.wp τ p Q h) : L.wp τ p Q' h := by
  induction p generalizing h with
  | ret a => exact hQ _ _ hp
  | raise e => exact hQ _ _ hp
  | call o k ih =>
    intro h' hr hq hi
    obtain ⟨hpre, hk⟩ := hp h' hr hq hi
    exact ⟨hpre, fun e => ih _ (hk e)⟩

/-- What follows a program starts in the history the program ended in. -/
theorem wp_bind {γ : Type} {p : Prog S ε γ} {f : γ → Prog S ε β} {h : sys.History} :
    L.wp τ (p.bind f) Q h ↔ L.wp τ p (fun r h' => match r with
      | .ok a => L.wp τ (f a) Q h'
      | .error e => Q (.error e) h') h := by
  induction p generalizing h with
  | ret a => rfl
  | raise e => rfl
  | call o k ih => simp only [Prog.bind, wp_call, ih]

theorem wp_ite {c : Prop} [Decidable c] {p q : Prog S ε β} {h : sys.History}
    (hp : c → L.wp τ p Q h) (hq : ¬ c → L.wp τ q Q h) : L.wp τ (if c then p else q) Q h := by
  by_cases hc : c
  · rw [if_pos hc]
    exact hp hc
  · rw [if_neg hc]
    exact hq hc

theorem wp_bind_ofExcept {γ : Type} {x : Except ε γ} {f : γ → Prog S ε β} {h : sys.History}
    (herror : ∀ e, x = .error e → Q (.error e) h) (hok : ∀ a, x = .ok a → L.wp τ (f a) Q h) :
    L.wp τ ((Prog.ofExcept x).bind f) Q h := by
  cases x with
  | ok a => exact hok a rfl
  | error e => exact herror e rfl

theorem wp_tryCatch {p : Prog S ε β} {f : ε → Prog S ε β} {h : sys.History} :
    L.wp τ (p.tryCatch f) Q h ↔ L.wp τ p (fun r h' => match r with
      | .ok a => Q (.ok a) h'
      | .error e => L.wp τ (f e) Q h') h := by
  induction p generalizing h with
  | ret a => rfl
  | raise e => rfl
  | call o k ih => simp only [Prog.tryCatch, wp_call, ih]

/-- The frame rule: a program whose operations all satisfy `P` keeps an assertion that the
others and the operations of `P` keep. -/
theorem wp_frame {P : S.Op → Prop} {J : sys.History → Prop} {p : Prog S ε β} {h : sys.History}
    (hp : p.Issues P) (hrely : ∀ h h', J h → L.Rely h h' → Quiet τ h h' → J h')
    (hop : ∀ h o, J h → L.Inv h → P o → L.Pre τ o h ∧ ∀ e, J (sys.after h τ o e))
    (hJ : J h) : L.wp τ p (fun _ h' => J h') h := by
  induction p generalizing h with
  | ret a => exact hJ
  | raise e => exact hJ
  | call o k ih =>
    intro h' hr hq hi
    obtain ⟨hpre, hafter⟩ := hop h' o (hrely h h' hJ hr hq) hi hp.1
    exact ⟨hpre, fun e => ih _ (hp.2 _) (hafter e)⟩

theorem wp_rely {p : Prog S ε β} {h h' : sys.History}
    (htrans : ∀ a b c, L.Rely a b → L.Rely b c → L.Rely a c)
    (hr : L.Rely h h') (hq : Quiet τ h h') (hp : L.wp τ p (fun _ _ => True) h) :
    L.wp τ p (fun _ _ => True) h' := by
  cases p with
  | ret a => trivial
  | raise e => trivial
  | call o k => exact fun h'' hr' hq' hi => hp h'' (htrans _ _ _ hr hr') (hq.trans hq') hi

/-- `Rely` is a preorder, and an operation whose precondition holds respects it and keeps
the invariant. -/
structure Stepwise (L : Logic sys) : Prop where
  refl : ∀ h, L.Rely h h
  trans : ∀ a b c, L.Rely a b → L.Rely b c → L.Rely a c
  step : ∀ τ o e h, L.Inv h → L.Pre τ o h →
    L.Inv (sys.after h τ o e) ∧ L.Rely h (sys.after h τ o e)

/-- A task's own operations respect `Rely` too, so what persists under it need not be framed
through the task's programs. -/
theorem Stepwise.wp_rely_post (hL : L.Stepwise) {p : Prog S ε β} {h : sys.History}
    (hp : L.wp τ p Q h) : L.wp τ p (fun r h' => Q r h' ∧ L.Rely h h') h := by
  induction p generalizing h with
  | ret a => exact ⟨hp, hL.refl h⟩
  | raise e => exact ⟨hp, hL.refl h⟩
  | call o k ih =>
    intro h' hr hq hi
    obtain ⟨hpre, hk⟩ := hp h' hr hq hi
    refine ⟨hpre, fun e => wp_mono (fun r h'' hQ => ⟨hQ.1, ?_⟩) (ih _ (hk e))⟩
    exact hL.trans _ _ _ hr (hL.trans _ _ _ (hL.step τ o e h' hi hpre).2 hQ.2)

/-- What a program returns, from answers that stay true while the others move. -/
theorem Stepwise.wp_yields (hL : L.Stepwise) {P : S.Op → Prop}
    {A : sys.History → (o : S.Op) → S.Res o → Prop} {R : sys.History → β → Prop}
    {p : Prog S ε β} {h : sys.History} (hp : p.Issues P) (hpre : ∀ h o, L.Inv h → P o → L.Pre τ o h)
    (hA : ∀ h o e h', L.Inv h → P o → L.Rely (sys.after h τ o e) h' →
      A h' o (sys.exec e h.state o).1)
    (hy : ∀ h', L.Rely h h' → p.Yields (A h') (R h')) :
    L.wp τ p (fun r h' => ∀ a, r = .ok a → R h' a) h := by
  induction p generalizing h with
  | ret a =>
    rintro _ ⟨⟩
    exact hy h (hL.refl h)
  | raise e => exact fun _ he => by cases he
  | call o k ih =>
    intro h' hr _ hi
    refine ⟨hpre h' o hi hp.1, fun e => ih _ (hp.2 _) fun h'' hr'' => ?_⟩
    have hstep := (hL.step τ o e h' hi (hpre h' o hi hp.1)).2
    exact hy h'' (hL.trans _ _ _ hr (hL.trans _ _ _ hstep hr'')) _ (hA h' o e h'' hi hp.1 hr'')

/-- Sequencing: what follows starts later, in what the first program ended in. -/
theorem Stepwise.wp_seq (hL : L.Stepwise) {γ : Type} {p : Prog S ε γ} {f : γ → Prog S ε β}
    {R : Except ε γ → sys.History → Prop} {h : sys.History} (hp : L.wp τ p R h)
    (hf : ∀ a h', L.Rely h h' → R (.ok a) h' → L.wp τ (f a) Q h')
    (he : ∀ e h', L.Rely h h' → R (.error e) h' → Q (.error e) h') : L.wp τ (p.bind f) Q h := by
  refine wp_bind.2 (wp_mono (fun r h' hR => ?_) (hL.wp_rely_post hp))
  cases r with
  | ok a => exact hf a h' hR.2 hR.1
  | error e => exact he e h' hR.2 hR.1

/-- The handler starts where the program raised. -/
theorem Stepwise.wp_catch (hL : L.Stepwise) {p : Prog S ε β} {f : ε → Prog S ε β}
    {R : Except ε β → sys.History → Prop} {h : sys.History} (hp : L.wp τ p R h)
    (hf : ∀ a h', L.Rely h h' → R (.ok a) h' → Q (.ok a) h')
    (he : ∀ e h', L.Rely h h' → R (.error e) h' → L.wp τ (f e) Q h') :
    L.wp τ (p.tryCatch f) Q h := by
  refine wp_tryCatch.2 (wp_mono (fun r h' hR => ?_) (hL.wp_rely_post hp))
  cases r with
  | ok a => exact hf a h' hR.2 hR.1
  | error e => exact he e h' hR.2 hR.1

/-- The obligations of a logic: one for each kind of step, and one for each call. -/
structure Sound (L : Logic sys) : Prop extends Stepwise L where
  spawn : ∀ h call, L.Inv h → sys.admits h call = true →
    L.Inv (sys.spawned h call) ∧ L.Rely h (sys.spawned h call)
  crash : ∀ h τ, L.Inv h → L.Inv (sys.lost h τ) ∧ L.Rely h (sys.lost h τ)
  drift : ∀ h e, L.Inv h → L.Inv (sys.drifted h e) ∧ L.Rely h (sys.drifted h e)
  body : ∀ h call, L.Inv h → sys.admits h call = true →
    (∀ x ∈ h.trace, x.tid ≠ h.calls.length) →
    L.wp h.calls.length (sys.body call) (fun _ _ => True) (sys.spawned h call)

/-- The invariant of configurations: the logic's own invariant, and every live task keeps to
its preconditions from here on. -/
structure Good (L : Logic sys) (c : sys.Config) : Prop where
  inv : L.Inv c.hist
  length : c.tasks.length = c.hist.calls.length
  bound : ∀ x ∈ c.hist.trace, x.tid < c.hist.calls.length
  tasks : ∀ τ p, c.tasks[τ]? = some p → τ ∉ c.hist.crashed → L.wp τ p (fun _ _ => True) c.hist

theorem Good.pre (hL : L.Sound) {c : sys.Config} (hc : L.Good c) {τ : ℕ} {o : S.Op}
    {k : S.Res o → Prog S ε α} (hr : sys.Ready c τ o k) : L.Pre τ o c.hist :=
  (hc.tasks τ _ hr.1 hr.2 c.hist (hL.refl _) (Quiet.refl _ _) hc.inv).1

private theorem good_spawn (hL : L.Sound) {c : sys.Config} (hc : L.Good c) {call : sys.Call}
    (ha : sys.admits c.hist call = true) :
    L.Good ⟨sys.spawned c.hist call, c.tasks ++ [sys.body call]⟩ := by
  obtain ⟨hi, hr⟩ := hL.spawn c.hist call hc.inv ha
  refine ⟨hi, by simp [System.spawned, hc.length], fun x hx => ?_, fun τ p hp hτ => ?_⟩
  · have := hc.bound x hx
    simp only [System.spawned, List.length_append, List.length_singleton]
    omega
  · have hq : Quiet τ c.hist (sys.spawned c.hist call) :=
      ⟨List.prefix_append _ _, [], by simp [System.spawned], by simp⟩
    rcases Nat.lt_or_ge τ c.tasks.length with hlt | hge
    · rw [List.getElem?_append_left hlt] at hp
      exact wp_rely hL.trans hr hq (hc.tasks τ p hp hτ)
    · rw [List.getElem?_append_right hge] at hp
      have hz : τ - c.tasks.length = 0 := by
        by_contra hne
        rw [List.getElem?_eq_none (by simp; omega)] at hp
        cases hp
      have he : τ = c.hist.calls.length := by rw [← hc.length]; omega
      rw [hz] at hp
      cases hp
      subst he
      exact hL.body c.hist call hc.inv ha fun x hx => Nat.ne_of_lt (hc.bound x hx)

private theorem good_run_step (hL : L.Sound) {c : sys.Config} (hc : L.Good c) {τ : ℕ} {o : S.Op}
    {k : S.Res o → Prog S ε α} (hr : sys.Ready c τ o k) (e : sys.Choice) :
    L.Good ⟨sys.after c.hist τ o e, c.tasks.set τ (k (sys.exec e c.hist.state o).1)⟩ := by
  obtain ⟨hi, hrely⟩ := hL.step τ o e c.hist hc.inv (hc.pre hL hr)
  have hlt : τ < c.tasks.length := (List.getElem?_eq_some_iff.1 hr.1).1
  refine ⟨hi, by simp [System.after, hc.length], fun x hx => ?_, fun τ' p hp hτ => ?_⟩
  · rcases List.mem_append.1 hx with hx | hx
    · exact hc.bound x hx
    · rw [List.mem_singleton.1 hx]
      exact hc.length ▸ hlt
  · by_cases he : τ' = τ
    · subst he
      rw [List.getElem?_set_self hlt] at hp
      cases hp
      exact (hc.tasks τ' _ hr.1 hr.2 c.hist (hL.refl _) (Quiet.refl _ _) hc.inv).2 e
    · rw [List.getElem?_set_ne (Ne.symm he)] at hp
      exact wp_rely hL.trans hrely
        ⟨List.prefix_refl _, _, rfl, fun x hx => by rw [List.mem_singleton.1 hx]; exact Ne.symm he⟩
        (hc.tasks τ' p hp hτ)

/-- A move that leaves the trace, the calls and the remaining programs alone. -/
private theorem good_aside (hL : L.Sound) {c : sys.Config} (hc : L.Good c) {h' : sys.History}
    (ht : h'.trace = c.hist.trace) (hcalls : h'.calls = c.hist.calls)
    (hcr : ∀ τ ∈ c.hist.crashed, τ ∈ h'.crashed) (hi : L.Inv h') (hr : L.Rely c.hist h') :
    L.Good ⟨h', c.tasks⟩ := by
  refine ⟨hi, hcalls ▸ hc.length, by simpa only [ht, hcalls] using hc.bound, fun τ p hp hτ => ?_⟩
  exact wp_rely hL.trans hr ⟨hcalls ▸ List.prefix_refl _, [], by simp [ht], by simp⟩
    (hc.tasks τ p hp fun h => hτ (hcr τ h))

theorem good_next (hL : L.Sound) {c : sys.Config} (hc : L.Good c) (a : sys.Move) :
    L.Good (sys.next c a) := by
  rcases System.next_cases c a with h | ⟨call, -, ha, h⟩ | ⟨τ, e, o, k, -, hr, h⟩ |
      ⟨τ, -, h⟩ | ⟨e, -, h⟩ <;> rw [h]
  · exact hc
  · exact good_spawn hL hc ha
  · exact good_run_step hL hc hr e
  · obtain ⟨hi, hr⟩ := hL.crash c.hist τ hc.inv
    exact good_aside hL hc rfl rfl (fun _ h => List.mem_cons_of_mem _ h) hi hr
  · obtain ⟨hi, hr⟩ := hL.drift c.hist e hc.inv
    exact good_aside hL hc rfl rfl (fun _ h => h) hi hr

/-- Soundness: the invariant and the preconditions hold along every schedule. -/
theorem Sound.good_run (hL : L.Sound) {s : sys.State} (h0 : L.Inv (sys.init s).hist)
    (acts : List sys.Move) : L.Good (sys.run (sys.init s) acts) := by
  refine System.run_induction (G := fun _ _ => True) ⟨h0, rfl, by simp [System.init], ?_⟩
    (fun _ a hc _ => good_next hL hc a) acts (System.guarded_true _ _)
  intro τ p hp
  simp [System.init] at hp

theorem rely_next (hL : L.Sound) {c : sys.Config} (hc : L.Good c) (a : sys.Move) :
    L.Rely c.hist (sys.next c a).hist := by
  rcases System.next_cases c a with h | ⟨call, -, ha, h⟩ | ⟨τ, e, o, k, -, hr, h⟩ |
      ⟨τ, -, h⟩ | ⟨e, -, h⟩ <;> rw [h]
  · exact hL.refl _
  · exact (hL.spawn c.hist call hc.inv ha).2
  · exact (hL.step τ o e c.hist hc.inv (hc.pre hL hr)).2
  · exact (hL.crash c.hist τ hc.inv).2
  · exact (hL.drift c.hist e hc.inv).2

/-- A run respects `Rely` from any of its moments to any later one. -/
theorem Sound.rely_run (hL : L.Sound) {c : sys.Config} (hc : L.Good c) (acts : List sys.Move) :
    L.Rely c.hist (sys.run c acts).hist := by
  induction acts generalizing c with
  | nil => exact hL.refl _
  | cons a acts ih => exact hL.trans _ _ _ (rely_next hL hc a) (ih (good_next hL hc a))

/-- The obligations for what an ended task has come to: its program ends in `Q`, and `Q` stays
true while the others move. -/
structure Ends (L : Logic sys) (Q : ℕ → sys.Call → Except ε α → sys.History → Prop) : Prop where
  body : ∀ h call, L.Inv h → sys.admits h call = true →
    (∀ x ∈ h.trace, x.tid ≠ h.calls.length) →
    L.wp h.calls.length (sys.body call) (Q h.calls.length call) (sys.spawned h call)
  stable : ∀ τ call r h h', Q τ call r h → L.Rely h h' → Quiet τ h h' → Q τ call r h'

/-- Every task that has not crashed before its end is on its way to `Q`. -/
private def Heads (L : Logic sys) (Q : ℕ → sys.Call → Except ε α → sys.History → Prop)
    (c : sys.Config) : Prop :=
  ∀ τ p call, c.tasks[τ]? = some p → c.hist.calls[τ]? = some call →
    (τ ∈ c.hist.crashed → ∀ o k, p ≠ .call o k) → L.wp τ p (Q τ call) c.hist

variable {R : ℕ → sys.Call → Except ε α → sys.History → Prop}

private theorem wp_rely_ends (hL : L.Sound) (hR : L.Ends R) {τ : ℕ} {call : sys.Call}
    {p : Prog S ε α} {h h' : sys.History} (hr : L.Rely h h') (hq : Quiet τ h h')
    (hp : L.wp τ p (R τ call) h) : L.wp τ p (R τ call) h' := by
  cases p with
  | ret a => exact hR.stable τ call _ h h' hp hr hq
  | raise e => exact hR.stable τ call _ h h' hp hr hq
  | call o k => exact fun h'' hr' hq' hi => hp h'' (hL.trans _ _ _ hr hr') (hq.trans hq') hi

private theorem heads_spawn (hL : L.Sound) (hR : L.Ends R) {c : sys.Config} (hc : L.Good c)
    (hh : L.Heads R c) {call : sys.Call} (ha : sys.admits c.hist call = true) :
    L.Heads R ⟨sys.spawned c.hist call, c.tasks ++ [sys.body call]⟩ := by
  intro τ p call' hp hcall hcr
  rcases Nat.lt_or_ge τ c.tasks.length with hlt | hge
  · rw [List.getElem?_append_left hlt] at hp
    simp only [System.spawned] at hcall
    rw [List.getElem?_append_left (hc.length ▸ hlt)] at hcall
    exact wp_rely_ends hL hR (hL.spawn c.hist call hc.inv ha).2
      ⟨List.prefix_append _ _, [], by simp [System.spawned], by simp⟩ (hh τ p call' hp hcall hcr)
  · have hτ : τ = c.hist.calls.length := by
      have := (List.getElem?_eq_some_iff.1 hp).1
      simp only [List.length_append, List.length_singleton] at this
      rw [← hc.length]
      omega
    subst hτ
    rw [← hc.length, List.getElem?_concat_length] at hp
    simp only [System.spawned, List.getElem?_concat_length] at hcall
    cases hp
    cases hcall
    exact hR.body c.hist call hc.inv ha fun x hx => Nat.ne_of_lt (hc.bound x hx)

private theorem heads_run_step (hL : L.Sound) (hR : L.Ends R) {c : sys.Config} (hc : L.Good c)
    (hh : L.Heads R c) {τ : ℕ} {o : S.Op} {k : S.Res o → Prog S ε α} (hr : sys.Ready c τ o k)
    (e : sys.Choice) :
    L.Heads R ⟨sys.after c.hist τ o e, c.tasks.set τ (k (sys.exec e c.hist.state o).1)⟩ := by
  intro τ' p call hp hcall hcr
  have hlt : τ < c.tasks.length := (List.getElem?_eq_some_iff.1 hr.1).1
  by_cases he : τ' = τ
  · subst he
    rw [List.getElem?_set_self hlt] at hp
    cases hp
    have hwp := hh τ' _ call hr.1 hcall fun hmem => absurd hmem hr.2
    exact (hwp c.hist (hL.refl _) (Quiet.refl _ _) hc.inv).2 e
  · rw [List.getElem?_set_ne (Ne.symm he)] at hp
    exact wp_rely_ends hL hR (hL.step τ o e c.hist hc.inv (hc.pre hL hr)).2
      ⟨List.prefix_refl _, _, rfl, fun x hx => by rw [List.mem_singleton.1 hx]; exact Ne.symm he⟩
      (hh τ' p call hp hcall hcr)

/-- What holds of every task that has come to its end, in every run. -/
theorem Sound.ends_run (hL : L.Sound) (hR : L.Ends R) {s : sys.State}
    (h0 : L.Inv (sys.init s).hist) (acts : List sys.Move) {τ : ℕ} {call : sys.Call}
    {p : Prog S ε α} (hp : (sys.run (sys.init s) acts).tasks[τ]? = some p)
    (hcall : (sys.run (sys.init s) acts).hist.calls[τ]? = some call) :
    (∀ a, p = .ret a → R τ call (.ok a) (sys.run (sys.init s) acts).hist) ∧
    ∀ e, p = .raise e → R τ call (.error e) (sys.run (sys.init s) acts).hist := by
  have hgood := hL.good_run h0
  have hheads : L.Heads R (sys.run (sys.init s) acts) := by
    refine System.run_induction (G := fun _ _ => True) (J := L.Heads R)
      (fun τ p call hp => by simp [System.init] at hp) (fun acts a hh _ => ?_) acts
      (System.guarded_true _ _)
    have hc := hgood acts
    rcases System.next_cases (sys.run (sys.init s) acts) a with h | ⟨call, -, ha, h⟩ |
        ⟨τ, e, o, k, -, hr, h⟩ | ⟨τ, -, h⟩ | ⟨e, -, h⟩ <;> rw [h]
    · exact hh
    · exact heads_spawn hL hR hc hh ha
    · exact heads_run_step hL hR hc hh hr e
    · intro τ' p call hp hcall hcr
      exact wp_rely_ends hL hR (hL.crash _ τ hc.inv).2
        ⟨List.prefix_refl _, [], by simp [System.lost],
        by simp⟩ (hh τ' p call hp hcall fun hm => hcr (List.mem_cons_of_mem _ hm))
    · intro τ' p call hp hcall hcr
      exact wp_rely_ends hL hR (hL.drift _ e hc.inv).2
        ⟨List.prefix_refl _, [], by simp [System.drifted], by simp⟩ (hh τ' p call hp hcall hcr)
  refine ⟨?_, ?_⟩
  · rintro a rfl
    exact hheads τ _ call hp hcall fun _ o k ho => by cases ho
  · rintro e rfl
    exact hheads τ _ call hp hcall fun _ o k ho => by cases ho

end Logic
end Interleave
