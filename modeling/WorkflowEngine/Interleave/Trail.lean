import WorkflowEngine.Interleave.System

/-! Where a task stands. The operations that a task has performed, with the answers that it
got, are a path of its program, and the rest of the program is what that path leads to. -/

namespace Interleave

variable {S : Sig} {ε α β : Type}

/-- An operation with its answer. -/
abbrev Event (S : Sig) := (o : S.Op) × S.Res o

/-- Where a list with one more item is split. -/
theorem split_snoc {γ : Type} {xs pre post : List γ} {x y : γ} (h : xs ++ [x] = pre ++ y :: post) :
    (∃ post', post = post' ++ [x] ∧ xs = pre ++ y :: post') ∨ post = [] ∧ y = x ∧ pre = xs := by
  rcases List.eq_nil_or_concat post with rfl | ⟨post', z, rfl⟩
  · obtain ⟨rfl, hx⟩ := List.append_inj' h rfl
    cases hx
    exact Or.inr ⟨rfl, rfl, rfl⟩
  · rw [List.concat_eq_append, ← List.cons_append, ← List.append_assoc] at h
    obtain ⟨rfl, hx⟩ := List.append_inj' h rfl
    cases hx
    exact Or.inl ⟨post', List.concat_eq_append .., rfl⟩

/-- An item of two lists in a row is in the first or in the second. -/
theorem split_append {γ : Type} {xs ys pre post : List γ} {x : γ}
    (h : xs ++ ys = pre ++ x :: post) :
    (∃ post', xs = pre ++ x :: post' ∧ post = post' ++ ys) ∨
      ∃ pre', pre = xs ++ pre' ∧ ys = pre' ++ x :: post := by
  rcases List.append_eq_append_iff.1 h with ⟨zs, rfl, hys⟩ | ⟨zs, rfl, hpost⟩
  · exact Or.inr ⟨zs, rfl, hys⟩
  · cases zs with
    | nil => exact Or.inr ⟨[], by simp, hpost.symm⟩
    | cons z zs =>
      obtain ⟨rfl, rfl⟩ := List.cons.inj hpost
      exact Or.inl ⟨zs, rfl, rfl⟩

def Entry.event (x : Entry S) : Event S := ⟨x.op, x.res⟩

theorem Entry.event_mem {σ κ : Type} {h : Hist S σ κ} {x : Entry S} (hx : x ∈ h.trace) :
    x.event ∈ (h.own x.tid).map Entry.event :=
  List.mem_map_of_mem (List.mem_filter.2 ⟨hx, decide_eq_true rfl⟩)

theorem Entry.eq_of_event {x : Entry S} {τ : ℕ} {o : S.Op} {r : S.Res o} (ht : x.tid = τ)
    (he : x.event = ⟨o, r⟩) : x = ⟨τ, o, r⟩ := by
  obtain ⟨t, o', r'⟩ := x
  obtain rfl : t = τ := ht
  cases he
  rfl

theorem Entry.own_event_iff {σ κ : Type} {h : Hist S σ κ} {τ : ℕ} {o : S.Op} {r : S.Res o} :
    (⟨o, r⟩ : Event S) ∈ (h.own τ).map Entry.event ↔ (⟨τ, o, r⟩ : Entry S) ∈ h.trace := by
  constructor
  · intro hx
    obtain ⟨x, hown, he⟩ := List.mem_map.1 hx
    obtain ⟨hm, ht⟩ := List.mem_filter.1 hown
    rw [Entry.eq_of_event (of_decide_eq_true ht) he] at hm
    exact hm
  · exact Entry.event_mem

/-- The events of a task, where two of its transactions follow one another. -/
theorem own_split {trace pre mid post : List (Entry S)} {τ : ℕ} {x y : Entry S}
    (h : trace = pre ++ x :: (mid ++ y :: post)) (hx : x.tid = τ) (hy : y.tid = τ)  :
    ∃ before between after, (trace.filter fun z => decide (z.tid = τ)).map Entry.event =
      before ++ x.event :: (between ++ y.event :: after) ∧
      between = (mid.filter fun z => decide (z.tid = τ)).map Entry.event ∧
      after = (post.filter fun z => decide (z.tid = τ)).map Entry.event := by
  subst h
  refine ⟨(pre.filter fun z => decide (z.tid = τ)).map Entry.event, _, _, ?_, rfl, rfl⟩
  simp [hx, hy]

/-- Two events that a task has performed one after the other, in the whole trace. -/
theorem split_own {trace : List (Entry S)} {τ : ℕ} {xs ys : List (Event S)}
    {x y : Event S}
    (h : (trace.filter fun z => decide (z.tid = τ)).map Entry.event = xs ++ x :: y :: ys) :
    ∃ pre mid post x' y', trace = pre ++ x' :: (mid ++ y' :: post) ∧ x'.tid = τ ∧ x'.event = x ∧
      y'.tid = τ ∧ y'.event = y ∧ ∀ z ∈ mid, z.tid ≠ τ := by
  obtain ⟨as, bs, hfilter, -, hbs⟩ := List.map_eq_append_iff.1 h
  obtain ⟨x', bs', rfl, hx, hbs'⟩ := List.map_eq_cons_iff.1 hbs
  obtain ⟨y', bs'', rfl, hy, -⟩ := List.map_eq_cons_iff.1 hbs'
  obtain ⟨l1, l2, rfl, -, hl2⟩ := List.filter_eq_append_iff.1 hfilter
  obtain ⟨m1, m2, rfl, -, hxt, hm2⟩ := List.filter_eq_cons_iff.1 hl2
  obtain ⟨n1, n2, rfl, hn1, hyt, -⟩ := List.filter_eq_cons_iff.1 hm2
  refine ⟨l1 ++ m1, n1, n2, x', y', by simp, by simpa using hxt, hx, by simpa using hyt, hy,
    fun z hz => ?_⟩
  simpa using hn1 z hz

/-- `q` is left of `p` after `xs`. -/
inductive Follows : Prog S ε α → List (Event S) → Prog S ε α → Prop where
  | nil (p : Prog S ε α) : Follows p [] p
  | cons {o : S.Op} {k : S.Res o → Prog S ε α} {r : S.Res o} {xs : List (Event S)}
    {q : Prog S ε α} : Follows (k r) xs q → Follows (.call o k) (⟨o, r⟩ :: xs) q

namespace Follows

variable {p q : Prog S ε α} {xs : List (Event S)}

theorem snoc {o : S.Op} {k : S.Res o → Prog S ε α} (h : Follows p xs (.call o k)) (r : S.Res o) :
    Follows p (xs ++ [⟨o, r⟩]) (k r) := by
  generalize hq : Prog.call o k = q at h
  induction h with
  | nil p =>
    subst hq
    exact .cons (.nil _)
  | cons _ ih => exact .cons (ih hq)

theorem of_ret {a : α} (h : Follows (.ret a : Prog S ε α) xs q) : xs = [] ∧ q = .ret a := by
  cases h
  exact ⟨rfl, rfl⟩

theorem of_raise {e : ε} (h : Follows (.raise e : Prog S ε α) xs q) : xs = [] ∧ q = .raise e := by
  cases h
  exact ⟨rfl, rfl⟩

/-- A path of a sequence is a path of its first part, or goes on in the second. -/
theorem of_bind {p : Prog S ε β} {f : β → Prog S ε α} (h : Follows (p.bind f) xs q) :
    (∃ p', Follows p xs p' ∧ q = p'.bind f) ∨
    ∃ ys zs a, xs = ys ++ zs ∧ Follows p ys (.ret a) ∧ Follows (f a) zs q := by
  induction p generalizing xs with
  | ret a => exact Or.inr ⟨[], xs, a, rfl, .nil _, h⟩
  | raise e =>
    obtain ⟨rfl, rfl⟩ := of_raise h
    exact Or.inl ⟨.raise e, .nil _, rfl⟩
  | call o k ih =>
    cases h with
    | nil => exact Or.inl ⟨_, .nil _, rfl⟩
    | cons h =>
      rcases ih _ h with ⟨p', hp, hq⟩ | ⟨ys, zs, a, rfl, hy, hz⟩
      · exact Or.inl ⟨p', .cons hp, hq⟩
      · exact Or.inr ⟨_ :: ys, zs, a, rfl, .cons hy, hz⟩

/-- A sequence that has come to its end has come to the end of both parts. -/
theorem of_bind_ret {p : Prog S ε β} {f : β → Prog S ε α} {a : α}
    (h : Follows (p.bind f) xs (.ret a)) :
    ∃ ys zs b, xs = ys ++ zs ∧ Follows p ys (.ret b) ∧ Follows (f b) zs (.ret a) := by
  rcases h.of_bind with ⟨q, hq, he⟩ | hsplit
  · cases q with
    | ret b =>
      refine ⟨xs, [], b, by simp, hq, ?_⟩
      have he : Prog.ret a = f b := he
      rw [← he]
      exact .nil _
    | raise e => cases he
    | call o k => cases he
  · exact hsplit

/-- A path of a program whose result is only wrapped up. -/
theorem of_map {p : Prog S ε β} {f : β → α} (h : Follows (p.bind fun b => .ret (f b)) xs q) :
    ∃ q', Follows p xs q' := by
  rcases h.of_bind with ⟨q', hq, -⟩ | ⟨ys, zs, b, rfl, hy, hz⟩
  · exact ⟨q', hq⟩
  · obtain ⟨rfl, -⟩ := hz.of_ret
    exact ⟨_, (List.append_nil ys).symm ▸ hy⟩

theorem issues {P : S.Op → Prop} (h : Follows p xs q) (hp : p.Issues P) :
    (∀ x ∈ xs, P x.1) ∧ q.Issues P := by
  induction h with
  | nil p => exact ⟨by simp, hp⟩
  | cons _ ih =>
    obtain ⟨hxs, hq⟩ := ih (hp.2 _)
    refine ⟨fun x hx => ?_, hq⟩
    rcases List.mem_cons.1 hx with rfl | hx
    · exact hp.1
    · exact hxs x hx

/-- A path with an operation that the first part never issues goes on in the second. -/
theorem beyond {p : Prog S ε β} {f : β → Prog S ε α} {P : S.Op → Prop}
    (h : Follows (p.bind f) xs q) (hp : p.Issues P) {x : Event S} (hx : x ∈ xs) (hn : ¬ P x.1) :
    ∃ ys zs a, xs = ys ++ zs ∧ Follows p ys (.ret a) ∧ Follows (f a) zs q ∧ x ∈ zs := by
  have himp : ∀ {r : Prog S ε β} {ys : List (Event S)}, Follows p ys r → x ∉ ys :=
    fun hf hy => hn ((hf.issues hp).1 x hy)
  rcases h.of_bind with ⟨p', hf, -⟩ | ⟨ys, zs, a, rfl, hf, hz⟩
  · exact absurd hx (himp hf)
  · exact ⟨ys, zs, a, rfl, hf, hz, (List.mem_append.1 hx).resolve_left (himp hf)⟩

/-- What is left of a program yields what the program does. -/
theorem yields {A : (o : S.Op) → S.Res o → Prop} {R : α → Prop} (h : Follows p xs q)
    (hA : ∀ x ∈ xs, A x.1 x.2) (hp : p.Yields A R) : q.Yields A R := by
  induction h with
  | nil p => exact hp
  | cons _ ih =>
    refine ih (fun x hx => hA x (List.mem_cons_of_mem _ hx)) (hp _ ?_)
    exact hA _ List.mem_cons_self

/-- A path that begins with an operation. -/
theorem of_perform {o : S.Op} {f : S.Res o → Prog S ε α} {x : Event S}
    (h : Follows ((Prog.perform o).bind f) xs q) (hx : x ∈ xs) :
    ∃ r ys, xs = ⟨o, r⟩ :: ys ∧ Follows (f r) ys q := by
  change Follows (.call o f) xs q at h
  cases h with
  | nil => cases hx
  | cons h => exact ⟨_, _, rfl, h⟩

/-- The operation has not been performed yet, or the path begins with it. -/
theorem perform_cases {o : S.Op} {f : S.Res o → Prog S ε α}
    (h : Follows ((Prog.perform o).bind f) xs q) :
    xs = [] ∧ q = .call o f ∨ ∃ r ys, xs = ⟨o, r⟩ :: ys ∧ Follows (f r) ys q := by
  change Follows (.call o f) xs q at h
  cases h with
  | nil => exact Or.inl ⟨rfl, rfl⟩
  | cons h => exact Or.inr ⟨_, _, rfl, h⟩

theorem of_ite {c : Prop} [Decidable c] {p p' : Prog S ε α}
    (h : Follows (if c then p else p') xs q) : c ∧ Follows p xs q ∨ ¬ c ∧ Follows p' xs q := by
  by_cases hc : c
  · rw [if_pos hc] at h
    exact Or.inl ⟨hc, h⟩
  · rw [if_neg hc] at h
    exact Or.inr ⟨hc, h⟩

theorem of_perform_ret {o : S.Op} {f : S.Res o → Prog S ε α} {a : α}
    (h : Follows ((Prog.perform o).bind f) xs (.ret a)) :
    ∃ r ys, xs = ⟨o, r⟩ :: ys ∧ Follows (f r) ys (.ret a) := by
  change Follows (.call o f) xs (.ret a) at h
  cases h with
  | cons h => exact ⟨_, _, rfl, h⟩

/-- A path that goes on from a value that was computed. -/
theorem of_ofExcept {e : Except ε β} {f : β → Prog S ε α} {x : Event S}
    (h : Follows ((Prog.ofExcept e).bind f) xs q) (hx : x ∈ xs) :
    ∃ b, e = .ok b ∧ Follows (f b) xs q := by
  cases e with
  | ok b => exact ⟨b, rfl, h⟩
  | error e =>
    obtain ⟨rfl, -⟩ := of_raise h
    cases hx

theorem of_ofExcept_ret {e : Except ε α} {a : α}
    (h : Follows (Prog.ofExcept e : Prog S ε α) xs (.ret a)) : xs = [] ∧ e = .ok a := by
  cases e with
  | ok b =>
    obtain ⟨rfl, hb⟩ := of_ret h
    cases hb
    exact ⟨rfl, rfl⟩
  | error e => cases (of_raise h).2

/-- A path of a sequence, from paths of its parts. -/
theorem seq {p : Prog S ε β} {f : β → Prog S ε α} {b : β} {ys : List (Event S)}
    (h : Follows p xs (.ret b)) (h' : Follows (f b) ys q) : Follows (p.bind f) (xs ++ ys) q := by
  generalize hr : Prog.ret b = r at h
  induction h with
  | nil p =>
    subst hr
    exact h'
  | cons _ ih => exact .cons (ih hr)

theorem once {P R : S.Op → Prop} {before after : List (Event S)} {x : Event S} (h : Follows p xs q)
    (hp : p.Once P R)
    (hxs : xs = before ++ x :: after) (hx : ¬ P x.1) : R x.1 ∧ ∀ y ∈ before, P y.1 := by
  induction h generalizing before with
  | nil p => simp at hxs
  | @cons o k r xs q h ih =>
    cases before with
    | nil =>
      obtain ⟨rfl, -⟩ := List.cons.inj hxs
      rcases hp with ⟨ho, -⟩ | ⟨ho, -⟩
      · exact absurd ho hx
      · exact ⟨ho, fun y hy => absurd hy List.not_mem_nil⟩
    | cons y before =>
      obtain ⟨rfl, htail⟩ := List.cons.inj hxs
      rcases hp with ⟨ho, hk⟩ | ⟨ho, hk⟩
      · obtain ⟨hR, hbefore⟩ := ih (hk r) htail
        refine ⟨hR, fun z hz => ?_⟩
        rcases List.mem_cons.1 hz with rfl | hz
        · exact ho
        · exact hbefore z hz
      · subst htail
        exact absurd ((h.issues (hk r)).1 x (by simp)) hx

/-- Where the operation comes that a program waits for, if it comes. -/
theorem until_split {P R : S.Op → Prop} {Q : (o : S.Op) → S.Res o → S.Op → Prop}
    (h : Follows p xs q) (hp : p.Until P R Q) :
    (∀ x ∈ xs, P x.1) ∨ ∃ before x after, xs = before ++ x :: after ∧ (∀ y ∈ before, P y.1) ∧
      R x.1 ∧ ∀ y ∈ after, Q x.1 x.2 y.1 := by
  induction h with
  | nil p => exact Or.inl fun x hx => absurd hx List.not_mem_nil
  | @cons o k r xs q h ih =>
    rcases hp with ⟨ho, hk⟩ | ⟨ho, hk⟩
    · rcases ih (hk r) with hall | ⟨before, x, after, rfl, hbefore, hx, hafter⟩
      · exact Or.inl (List.forall_mem_cons.2 ⟨ho, hall⟩)
      · exact Or.inr ⟨_ :: before, x, after, rfl, List.forall_mem_cons.2 ⟨ho, hbefore⟩, hx, hafter⟩
    · exact Or.inr ⟨[], ⟨o, r⟩, xs, rfl, fun x hx => absurd hx List.not_mem_nil, ho,
        (h.issues (hk r)).1⟩

end Follows

namespace System

variable {sys : System S ε α}

/-- Every task stands where its own past has led its program. -/
private structure Stands (c : sys.Config) : Prop where
  length : c.tasks.length = c.hist.calls.length
  bound : ∀ x ∈ c.hist.trace, x.tid < c.hist.calls.length
  follows : ∀ (τ : ℕ) (call : sys.Call) (p : Prog S ε α), c.hist.calls[τ]? = some call →
    c.tasks[τ]? = some p → Follows (sys.body call) ((c.hist.own τ).map Entry.event) p

private theorem stands_spawn {c : sys.Config} (hs : Stands c) (call : sys.Call) :
    @Stands S ε α sys ⟨sys.spawned c.hist call, c.tasks ++ [sys.body call]⟩ := by
  refine ⟨by simp [spawned, hs.length], fun x hx => ?_, fun τ call' p hc hp => ?_⟩
  · have := hs.bound x hx
    simp only [spawned, List.length_append, List.length_singleton]
    omega
  · simp only [spawned] at hc
    rcases Nat.lt_or_ge τ c.tasks.length with hlt | hge
    · rw [List.getElem?_append_left hlt] at hp
      rw [List.getElem?_append_left (hs.length ▸ hlt)] at hc
      exact hs.follows τ call' p hc hp
    · rw [List.getElem?_append_right hge] at hp
      rw [List.getElem?_append_right (hs.length ▸ hge), ← hs.length] at hc
      cases hz : τ - c.tasks.length with
      | succ n =>
        rw [hz] at hp
        cases hp
      | zero =>
        rw [hz] at hc hp
        cases hc
        cases hp
        have hown : (sys.spawned c.hist call).own τ = [] := by
          refine List.filter_eq_nil_iff.2 fun x hx => ?_
          have := hs.bound x hx
          have hle := hs.length
          simp only [decide_eq_true_eq]
          omega
        rw [hown]
        exact .nil _

private theorem stands_run_step {c : sys.Config} (hs : Stands c) {τ : ℕ} {o : S.Op}
    {k : S.Res o → Prog S ε α} (hr : sys.Ready c τ o k) (e : sys.Choice) :
    @Stands S ε α sys
      ⟨sys.after c.hist τ o e, c.tasks.set τ (k (sys.exec e c.hist.state o).1)⟩ := by
  have hlt : τ < c.tasks.length := (List.getElem?_eq_some_iff.1 hr.1).1
  refine ⟨by simp [after, hs.length], fun x hx => ?_, fun τ' call p hc hp => ?_⟩
  · rcases List.mem_append.1 hx with hx | hx
    · exact hs.bound x hx
    · rw [List.mem_singleton.1 hx]
      exact hs.length ▸ hlt
  · by_cases he : τ' = τ
    · subst he
      rw [List.getElem?_set_self hlt] at hp
      cases hp
      rw [own_after, List.map_append]
      exact (hs.follows τ' call _ hc hr.1).snoc _
    · rw [List.getElem?_set_ne (Ne.symm he)] at hp
      rw [own_after_ne _ he]
      exact hs.follows τ' call p hc hp

private theorem stands_run (s : sys.State) (acts : List sys.Move) :
    Stands (sys.run (sys.init s) acts) := by
  refine run_induction (G := fun _ _ => True) ⟨rfl, by simp [init], by simp [init]⟩
    (fun acts a hs _ => ?_) acts (guarded_true _ _)
  rcases next_cases (sys.run (sys.init s) acts) a with h | ⟨call, -, -, h⟩ |
      ⟨τ, e, o, k, -, hr, h⟩ | ⟨τ, -, h⟩ | ⟨e, -, h⟩ <;> rw [h]
  · exact hs
  · exact stands_spawn hs call
  · exact stands_run_step hs hr e
  · exact ⟨hs.length, hs.bound, hs.follows⟩
  · exact ⟨hs.length, hs.bound, hs.follows⟩

theorem follows_run (s : sys.State) (acts : List sys.Move) {τ : ℕ} {p : Prog S ε α}
    (hp : (sys.run (sys.init s) acts).tasks[τ]? = some p) :
    ∃ call, (sys.run (sys.init s) acts).hist.calls[τ]? = some call ∧
      Follows (sys.body call) (((sys.run (sys.init s) acts).hist.own τ).map Entry.event) p := by
  have hs := stands_run s acts
  have hlt := (List.getElem?_eq_some_iff.1 hp).1
  have hc := List.getElem?_eq_getElem (hs.length ▸ hlt)
  exact ⟨_, hc, hs.follows τ _ p hc hp⟩

/-- Whoever has performed an operation is one of the tasks. -/
theorem task_of_mem (s : sys.State) (acts : List sys.Move) {x : Entry S}
    (hx : x ∈ (sys.run (sys.init s) acts).hist.trace) :
    ∃ p, (sys.run (sys.init s) acts).tasks[x.tid]? = some p := by
  have hs := stands_run s acts
  exact ⟨_, List.getElem?_eq_getElem (hs.length ▸ hs.bound x hx)⟩

theorem call_of_mem (s : sys.State) (acts : List sys.Move) {x : Entry S}
    (hx : x ∈ (sys.run (sys.init s) acts).hist.trace) :
    ∃ call, (sys.run (sys.init s) acts).hist.calls[x.tid]? = some call := by
  have hs := stands_run s acts
  exact ⟨_, List.getElem?_eq_getElem (hs.bound x hx)⟩

/-- A call whose program issues only `P` has left no other trace, in any run. -/
theorem op_of_issues {P : S.Op → Prop} (s : sys.State) (acts : List sys.Move) {x : Entry S}
    (hx : x ∈ (sys.run (sys.init s) acts).hist.trace) {call : sys.Call}
    (hc : (sys.run (sys.init s) acts).hist.calls[x.tid]? = some call)
    (hi : (sys.body call).Issues P) : P x.op := by
  obtain ⟨p, hp⟩ := task_of_mem s acts hx
  obtain ⟨call', hc', hf⟩ := follows_run s acts hp
  rw [hc] at hc'
  cases hc'
  exact (hf.issues hi).1 _ (Entry.event_mem hx)

/-- What a task waits to perform, its program issues. -/
theorem op_of_ready {P : S.Op → Prop} (s : sys.State) (acts : List sys.Move) {τ : ℕ} {o : S.Op}
    {k : S.Res o → Prog S ε α} (hr : Ready sys (sys.run (sys.init s) acts) τ o k)
    (hi : ∀ call ∈ (sys.run (sys.init s) acts).hist.calls, (sys.body call).Issues P) : P o := by
  obtain ⟨call, hc, hf⟩ := follows_run s acts hr.1
  exact (hf.issues (hi call (List.mem_of_getElem? hc))).2.1

theorem admitted_run (s : sys.State) (acts : List sys.Move) :
    ∀ call ∈ (sys.run (sys.init s) acts).hist.calls, ∃ h, sys.admits h call = true := by
  refine run_induction (G := fun _ _ => True)
    (J := fun c => ∀ call ∈ c.hist.calls, ∃ h, sys.admits h call = true) (by simp [init])
    (fun acts a ih _ => ?_) acts (guarded_true _ _)
  rcases next_cases (sys.run (sys.init s) acts) a with h | ⟨call, -, ha, h⟩ |
      ⟨τ, e, o, k, -, hr, h⟩ | ⟨τ, -, h⟩ | ⟨e, -, h⟩ <;> rw [h]
  · exact ih
  · intro call' hc
    rcases List.mem_append.1 hc with hc | hc
    · exact ih call' hc
    · rw [List.mem_singleton.1 hc]
      exact ⟨_, ha⟩
  · exact ih
  · exact ih
  · exact ih

/-- The run that has left a part of the trace, and the move that adds the next entry. -/
theorem run_split {c : sys.Config} (acts : List sys.Move) {pre post : List (Entry S)} {x : Entry S}
    (h : (sys.run c acts).hist.trace = pre ++ x :: post)
    (hpre : c.hist.trace.length ≤ pre.length) :
    ∃ before a after, acts = before ++ a :: after ∧ (sys.run c before).hist.trace = pre ∧
      (sys.next (sys.run c before) a).hist.trace = pre ++ [x] := by
  induction acts using List.reverseRecOn generalizing post with
  | nil =>
    have hlength := congrArg List.length h
    simp only [run_nil, List.length_append, List.length_cons] at hlength
    omega
  | append_singleton acts a ih =>
    rw [run_snoc] at h
    have hold : ∀ post', (sys.run c acts).hist.trace = pre ++ x :: post' →
        ∃ before a' after, acts ++ [a] = before ++ a' :: after ∧
          (sys.run c before).hist.trace = pre ∧
          (sys.next (sys.run c before) a').hist.trace = pre ++ [x] := by
      intro post' hold
      obtain ⟨before, a', after, rfl, hb, ha⟩ := ih hold
      exact ⟨before, a', after ++ [a], by simp, hb, ha⟩
    rcases next_cases (sys.run c acts) a with hn | ⟨call, -, -, hn⟩ | ⟨τ, e, o, k, -, hr, hn⟩ |
        ⟨τ, -, hn⟩ | ⟨e, -, hn⟩
    · exact hold post (by rw [← h, hn])
    · exact hold post (by rw [← h, hn]; rfl)
    · have htrace : (sys.next (sys.run c acts) a).hist.trace = (sys.run c acts).hist.trace ++
          [⟨τ, o, (sys.exec e (sys.run c acts).hist.state o).1⟩] := by rw [hn]; rfl
      rcases split_snoc (htrace.symm.trans h) with ⟨post', -, hxs⟩ | ⟨-, hx, hxs⟩
      · exact hold post' hxs
      · refine ⟨acts, a, [], rfl, hxs.symm, ?_⟩
        rw [htrace, hx, hxs]
    · exact hold post (by rw [← h, hn]; rfl)
    · exact hold post (by rw [← h, hn]; rfl)

/-- Two entries of the trace, and the run between them. -/
theorem run_between {c : sys.Config} (acts : List sys.Move) {pre mid post : List (Entry S)}
    {x y : Entry S} (h : (sys.run c acts).hist.trace = pre ++ x :: (mid ++ y :: post))
    (hpre : c.hist.trace.length ≤ pre.length) :
    ∃ c0 a between b, (∃ before, c0 = sys.run c before) ∧ c0.hist.trace = pre ∧
      (sys.next c0 a).hist.trace = pre ++ [x] ∧
      (sys.run (sys.next c0 a) between).hist.trace = pre ++ [x] ++ mid ∧
      (sys.next (sys.run (sys.next c0 a) between) b).hist.trace = pre ++ [x] ++ mid ++ [y] := by
  obtain ⟨before, a, after, rfl, hbefore, ha⟩ := run_split acts h hpre
  have hrest : (sys.run (sys.next (sys.run c before) a) after).hist.trace =
      (pre ++ [x] ++ mid) ++ y :: post := by
    rw [run_append] at h
    rw [List.append_assoc, List.append_assoc]
    exact h
  obtain ⟨between, b, after, rfl, hbetween, hb⟩ := run_split after hrest (by
    rw [ha, @List.length_append _ _ mid]
    exact Nat.le_add_right _ _)
  exact ⟨sys.run c before, a, between, b, ⟨before, rfl⟩, hbefore, ha, hbetween, hb⟩

end System
end Interleave
