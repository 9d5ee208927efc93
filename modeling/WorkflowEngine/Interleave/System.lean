import Mathlib.Data.List.Induction
import WorkflowEngine.Interleave.Prog

/-! A pool of programs over one shared state. A schedule spawns calls, lets a
task take its next operation, crashes a task, or lets the environment move; the
schedule also makes every choice that the operations leave open, so that a run
is a function of its schedule. The history of a run keeps the shared state, who
issued which operation with which answer, the calls and the crashed tasks. -/

namespace Interleave

structure Entry (S : Sig) where
  tid : ℕ
  op : S.Op
  res : S.Res op

structure Hist (S : Sig) (σ κ : Type) where
  state : σ
  trace : List (Entry S)
  calls : List κ
  crashed : List ℕ

/-- The operations of one task. -/
def Hist.own {S : Sig} {σ κ : Type} (h : Hist S σ κ) (τ : ℕ) : List (Entry S) :=
  h.trace.filter fun x => x.tid = τ

theorem getElem?_of_extends {κ : Type} {calls calls' : List κ} (hp : calls <+: calls') {i : ℕ}
    {call : κ} (hc : calls[i]? = some call) : calls'[i]? = some call := by
  obtain ⟨new, rfl⟩ := hp
  rw [List.getElem?_append_left (List.getElem?_eq_some_iff.1 hc).1]
  exact hc

structure System (S : Sig) (ε α : Type) where
  State : Type
  Choice : Type
  Call : Type
  exec : Choice → State → (o : S.Op) → S.Res o × State
  drift : Choice → State → State
  admits : Hist S State Call → Call → Bool
  body : Call → Prog S ε α

/-- One decision of the scheduler. -/
inductive Act (κ χ : Type) where
  | spawn (call : κ)
  | run (tid : ℕ) (choice : χ)
  | crash (tid : ℕ)
  | drift (choice : χ)

namespace System

variable {S : Sig} {ε α : Type} (sys : System S ε α)

abbrev History := Hist S sys.State sys.Call

/-- The history after task `τ` performed `o`. -/
def after (h : sys.History) (τ : ℕ) (o : S.Op) (e : sys.Choice) : sys.History :=
  { h with
    state := (sys.exec e h.state o).2
    trace := h.trace ++ [⟨τ, o, (sys.exec e h.state o).1⟩] }

def spawned (h : sys.History) (call : sys.Call) : sys.History :=
  { h with calls := h.calls ++ [call] }

def lost (h : sys.History) (τ : ℕ) : sys.History := { h with crashed := τ :: h.crashed }

def drifted (h : sys.History) (e : sys.Choice) : sys.History :=
  { h with state := sys.drift e h.state }

/-- A history with the remaining program of every task; the task of `calls[τ]` is `tasks[τ]`. -/
structure Config where
  hist : sys.History
  tasks : List (Prog S ε α)

def init (s : sys.State) : sys.Config := ⟨⟨s, [], [], []⟩, []⟩

abbrev Move := Act sys.Call sys.Choice

def next (c : sys.Config) : sys.Move → sys.Config
  | .spawn call =>
    if sys.admits c.hist call then ⟨sys.spawned c.hist call, c.tasks ++ [sys.body call]⟩ else c
  | .run τ e =>
    match c.tasks[τ]? with
    | some (.call o k) =>
      if τ ∈ c.hist.crashed then c
      else ⟨sys.after c.hist τ o e, c.tasks.set τ (k (sys.exec e c.hist.state o).1)⟩
    | _ => c
  | .crash τ => ⟨sys.lost c.hist τ, c.tasks⟩
  | .drift e => ⟨sys.drifted c.hist e, c.tasks⟩

def run (c : sys.Config) (acts : List sys.Move) : sys.Config := acts.foldl sys.next c

/-- Task `τ` waits to perform `o` and continue with `k`. -/
def Ready (c : sys.Config) (τ : ℕ) (o : S.Op) (k : S.Res o → Prog S ε α) : Prop :=
  c.tasks[τ]? = some (.call o k) ∧ τ ∉ c.hist.crashed

/-- The task has not come to its end, and has not crashed. -/
def live (c : sys.Config) (τ : ℕ) : Bool :=
  (match c.tasks[τ]? with
    | some (.call ..) => true
    | _ => false) && decide (τ ∉ c.hist.crashed)

/-- The operation that a decision performs. -/
def performs (c : sys.Config) : sys.Move → Option S.Op
  | .run τ _ => match c.tasks[τ]? with
    | some (.call o _) => if τ ∈ c.hist.crashed then none else some o
    | _ => none
  | _ => none

variable {sys}

theorem performs_of_ready {c : sys.Config} {τ : ℕ} {o : S.Op} {k : S.Res o → Prog S ε α}
    (h : sys.Ready c τ o k) (e : sys.Choice) : sys.performs c (.run τ e) = some o := by
  simp [performs, h.1, h.2]

theorem ready_of_performs {c : sys.Config} {a : sys.Move} {o : S.Op}
    (h : sys.performs c a = some o) : ∃ τ e k, a = .run τ e ∧ sys.Ready c τ o k := by
  cases a with
  | run τ e =>
    cases ht : c.tasks[τ]? with
    | none => simp [performs, ht] at h
    | some p =>
      cases p with
      | call o' k =>
        by_cases hc : τ ∈ c.hist.crashed
        · simp [performs, ht, hc] at h
        · simp only [performs, ht, hc, if_false, Option.some.injEq] at h
          subst h
          exact ⟨τ, e, k, rfl, ht, hc⟩
      | _ => simp [performs, ht] at h
  | _ => cases h

theorem live_iff {c : sys.Config} {τ : ℕ} : sys.live c τ = true ↔ ∃ o k, sys.Ready c τ o k := by
  unfold live Ready
  cases ht : c.tasks[τ]? with
  | none => simp
  | some p => cases p <;> simp

theorem lt_of_live {c : sys.Config} {τ : ℕ} (h : sys.live c τ = true) : τ < c.tasks.length := by
  by_contra hge
  simp [live, List.getElem?_eq_none (Nat.le_of_not_lt hge)] at h

@[simp] theorem own_after (h : sys.History) (τ : ℕ) (o : S.Op) (e : sys.Choice) :
    (sys.after h τ o e).own τ = h.own τ ++ [⟨τ, o, (sys.exec e h.state o).1⟩] := by
  simp [Hist.own, after]

theorem own_after_ne (h : sys.History) {τ τ' : ℕ} (hne : τ' ≠ τ) (o : S.Op) (e : sys.Choice) :
    (sys.after h τ o e).own τ' = h.own τ' := by
  simp [Hist.own, after, Ne.symm hne]

@[simp] theorem run_nil (c : sys.Config) : sys.run c [] = c := rfl

theorem run_snoc (c : sys.Config) (acts : List sys.Move) (a : sys.Move) :
    sys.run c (acts ++ [a]) = sys.next (sys.run c acts) a := by
  simp [run]

theorem run_append (c : sys.Config) (acts acts' : List sys.Move) :
    sys.run c (acts ++ acts') = sys.run (sys.run c acts) acts' := by
  simp [run]

theorem next_run {c : sys.Config} {τ : ℕ} {o : S.Op} {k : S.Res o → Prog S ε α}
    (h : sys.Ready c τ o k) (e : sys.Choice) :
    sys.next c (.run τ e) =
      ⟨sys.after c.hist τ o e, c.tasks.set τ (k (sys.exec e c.hist.state o).1)⟩ := by
  simp [next, h.1, h.2]

/-- Everything that one decision of the scheduler can do. -/
theorem next_cases (c : sys.Config) (a : sys.Move) :
    sys.next c a = c ∨
    (∃ call, a = .spawn call ∧ sys.admits c.hist call = true ∧
      sys.next c a = ⟨sys.spawned c.hist call, c.tasks ++ [sys.body call]⟩) ∨
    (∃ τ e o k, a = .run τ e ∧ sys.Ready c τ o k ∧
      sys.next c a = ⟨sys.after c.hist τ o e, c.tasks.set τ (k (sys.exec e c.hist.state o).1)⟩) ∨
    (∃ τ, a = .crash τ ∧ sys.next c a = ⟨sys.lost c.hist τ, c.tasks⟩) ∨
    (∃ e, a = .drift e ∧ sys.next c a = ⟨sys.drifted c.hist e, c.tasks⟩) := by
  cases a with
  | spawn call =>
    by_cases h : sys.admits c.hist call = true
    · exact Or.inr (Or.inl ⟨call, rfl, h, by simp [next, h]⟩)
    · exact Or.inl (by simp [next, h])
  | run τ e =>
    by_cases hc : τ ∈ c.hist.crashed
    · left
      simp only [next, hc, if_true]
      split <;> rfl
    · cases ht : c.tasks[τ]? with
      | none => exact Or.inl (by simp [next, ht])
      | some p =>
        cases p with
        | ret a => exact Or.inl (by simp [next, ht])
        | raise e' => exact Or.inl (by simp [next, ht])
        | call o k =>
          exact Or.inr (Or.inr (Or.inl ⟨τ, e, o, k, rfl, ⟨ht, hc⟩, next_run ⟨ht, hc⟩ e⟩))
  | crash τ => exact Or.inr (Or.inr (Or.inr (Or.inl ⟨τ, rfl, rfl⟩)))
  | drift e => exact Or.inr (Or.inr (Or.inr (Or.inr ⟨e, rfl, rfl⟩)))

theorem calls_next (c : sys.Config) (a : sys.Move) : c.hist.calls <+:
    (sys.next c a).hist.calls := by
  rcases next_cases c a with hn | ⟨call, -, -, hn⟩ | ⟨τ, e, o, k, -, -, hn⟩ | ⟨τ, -, hn⟩ |
      ⟨e, -, hn⟩
  · exact ⟨[], by simp [hn]⟩
  · exact ⟨[call], by simp [hn, spawned]⟩
  · exact ⟨[], by simp [hn, after]⟩
  · exact ⟨[], by simp [hn, lost]⟩
  · exact ⟨[], by simp [hn, drifted]⟩

theorem calls_run (c : sys.Config) (acts : List sys.Move) :
    c.hist.calls <+: (sys.run c acts).hist.calls := by
  induction acts generalizing c with
  | nil => exact List.prefix_refl _
  | cons a acts ih => exact (calls_next c a).trans (ih _)

theorem trace_next (c : sys.Config) (a : sys.Move) : c.hist.trace <+:
    (sys.next c a).hist.trace := by
  rcases next_cases c a with hn | ⟨call, -, -, hn⟩ | ⟨τ, e, o, k, -, -, hn⟩ | ⟨τ, -, hn⟩ |
      ⟨e, -, hn⟩
  · exact ⟨[], by simp [hn]⟩
  · exact ⟨[], by simp [hn, spawned]⟩
  · exact ⟨[⟨τ, o, (sys.exec e c.hist.state o).1⟩], by simp [hn, after]⟩
  · exact ⟨[], by simp [hn, lost]⟩
  · exact ⟨[], by simp [hn, drifted]⟩

theorem trace_run (c : sys.Config) (acts : List sys.Move) :
    c.hist.trace <+: (sys.run c acts).hist.trace := by
  induction acts generalizing c with
  | nil => exact List.prefix_refl _
  | cons a acts ih => exact (trace_next c a).trans (ih _)

/-- The call of a task that was admitted. -/
theorem call_of_spawn {c : sys.Config} {call : sys.Call} (ha : sys.admits c.hist call = true)
    (acts : List sys.Move) :
    (sys.run c (.spawn call :: acts)).hist.calls[c.hist.calls.length]? = some call := by
  refine getElem?_of_extends (calls_run (sys.next c (.spawn call)) acts) ?_
  simp [next, ha, spawned]

/-- A decision that adds an entry to the trace let its task perform that operation. -/
theorem exec_of_next {c : sys.Config} {a : sys.Move} {x : Entry S}
    (h : (sys.next c a).hist.trace = c.hist.trace ++ [x]) :
    ∃ e k, sys.Ready c x.tid x.op k ∧ x.res = (sys.exec e c.hist.state x.op).1 ∧
      (sys.next c a).hist.state = (sys.exec e c.hist.state x.op).2 := by
  have hne : ∀ t : List (Entry S), t ≠ t ++ [x] :=
    fun t ht => by simpa using congrArg List.length ht
  rcases next_cases c a with hn | ⟨call, -, -, hn⟩ | ⟨τ, e, o, k, -, hr, hn⟩ | ⟨τ, -, hn⟩ |
      ⟨e, -, hn⟩ <;> rw [hn] at h ⊢
  · exact absurd h (hne _)
  · exact absurd h (hne _)
  · have hx := List.singleton_inj.1 (List.append_cancel_left h)
    subst hx
    exact ⟨e, k, hr, rfl, rfl⟩
  · exact absurd h (hne _)
  · exact absurd h (hne _)

theorem performs_of_next {c : sys.Config} {a : sys.Move} {x : Entry S}
    (h : (sys.next c a).hist.trace = c.hist.trace ++ [x]) : sys.performs c a = some x.op := by
  have hne : ∀ t : List (Entry S), t ≠ t ++ [x] :=
    fun t ht => by simpa using congrArg List.length ht
  rcases next_cases c a with hn | ⟨call, -, -, hn⟩ | ⟨τ, e, o, k, rfl, hr, hn⟩ | ⟨τ, -, hn⟩ |
      ⟨e, -, hn⟩ <;> rw [hn] at h
  · exact absurd h (hne _)
  · exact absurd h (hne _)
  · obtain rfl := List.singleton_inj.1 (List.append_cancel_left h)
    exact performs_of_ready hr e
  · exact absurd h (hne _)
  · exact absurd h (hne _)

/-- A crashed task stays crashed, and does nothing more. -/
theorem crashed_run {c : sys.Config} {τ : ℕ} (h : τ ∈ c.hist.crashed) (acts : List sys.Move) :
    τ ∈ (sys.run c acts).hist.crashed ∧
      ∀ x ∈ (sys.run c acts).hist.trace, x.tid = τ → x ∈ c.hist.trace := by
  induction acts generalizing c with
  | nil => exact ⟨h, fun x hx _ => hx⟩
  | cons a acts ih =>
    have hstep : τ ∈ (sys.next c a).hist.crashed ∧
        ∀ x ∈ (sys.next c a).hist.trace, x.tid = τ → x ∈ c.hist.trace := by
      rcases next_cases c a with hn | ⟨call, -, -, hn⟩ | ⟨τ', e, o, k, -, hr, hn⟩ | ⟨τ', -, hn⟩ |
          ⟨e, -, hn⟩ <;> rw [hn]
      · exact ⟨h, fun x hx _ => hx⟩
      · exact ⟨h, fun x hx _ => hx⟩
      · refine ⟨h, fun x hx hτ => (List.mem_append.1 hx).resolve_right fun hlast => ?_⟩
        rw [List.mem_singleton.1 hlast] at hτ
        obtain rfl : τ' = τ := hτ
        exact hr.2 h
      · exact ⟨List.mem_cons_of_mem _ h, fun x hx _ => hx⟩
      · exact ⟨h, fun x hx _ => hx⟩
    obtain ⟨hcrashed, hown⟩ := ih hstep.1
    exact ⟨hcrashed, fun x hx hτ => hstep.2 x (hown x hx hτ) hτ⟩

/-- Every decision of the run meets `G` in the configuration it is taken in. -/
def Guarded (G : sys.Config → sys.Move → Prop) (c : sys.Config) : List sys.Move → Prop
  | [] => True
  | a :: acts => G c a ∧ Guarded G (sys.next c a) acts

instance Guarded.decidable {G : sys.Config → sys.Move → Prop} [∀ c a, Decidable (G c a)] :
    ∀ (c : sys.Config) (acts : List sys.Move), Decidable (Guarded G c acts)
  | _, [] => isTrue trivial
  | c, a :: acts => @instDecidableAnd _ _ _ (Guarded.decidable (sys.next c a) acts)

theorem Guarded.mono {G G' : sys.Config → sys.Move → Prop} (hG : ∀ c a, G c a → G' c a)
    {c : sys.Config} {acts : List sys.Move} (h : Guarded G c acts) : Guarded G' c acts := by
  induction acts generalizing c with
  | nil => trivial
  | cons a acts ih => exact ⟨hG c a h.1, ih h.2⟩

theorem guarded_append {G : sys.Config → sys.Move → Prop} {c : sys.Config}
    {acts acts' : List sys.Move} :
    Guarded G c (acts ++ acts') ↔ Guarded G c acts ∧ Guarded G (sys.run c acts) acts' := by
  induction acts generalizing c with
  | nil => simp [Guarded]
  | cons b acts ih =>
    rw [List.cons_append, Guarded, Guarded, ih, and_assoc]
    rfl

theorem guarded_snoc {G : sys.Config → sys.Move → Prop} {c : sys.Config} {acts : List sys.Move}
    {a : sys.Move} :
    Guarded G c (acts ++ [a]) ↔ Guarded G c acts ∧ G (sys.run c acts) a := by
  simp [guarded_append, Guarded]

/-- It matters only what is asked of the states of the run. -/
theorem guarded_congr {G G' : sys.Config → sys.Move → Prop} {c : sys.Config}
    (hG : ∀ acts a, G (sys.run c acts) a ↔ G' (sys.run c acts) a) (acts : List sys.Move) :
    Guarded G c acts ↔ Guarded G' c acts := by
  induction acts using List.reverseRecOn with
  | nil => exact Iff.rfl
  | append_singleton acts a ih => rw [guarded_snoc, guarded_snoc, ih, hG]

theorem guarded_true (c : sys.Config) (acts : List sys.Move) :
    Guarded (fun _ _ => True) c acts := by
  induction acts generalizing c with
  | nil => trivial
  | cons a acts ih => exact ⟨trivial, ih _⟩

/-- Induction over a run whose every decision meets `G`. -/
theorem run_induction {G : sys.Config → sys.Move → Prop} {J : sys.Config → Prop} {c : sys.Config}
    (h0 : J c) (hstep : ∀ acts a, J (sys.run c acts) → G (sys.run c acts) a →
      J (sys.next (sys.run c acts) a)) (acts : List sys.Move) (hG : Guarded G c acts) :
    J (sys.run c acts) := by
  induction acts using List.reverseRecOn with
  | nil => exact h0
  | append_singleton acts a ih =>
    obtain ⟨hpre, ha⟩ := guarded_snoc.1 hG
    rw [run_snoc]
    exact hstep acts a (ih hpre) ha

end System
end Interleave
