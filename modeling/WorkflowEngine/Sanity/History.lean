import WorkflowEngine.Sanity.Mono
import WorkflowEngine.Spec.Engine

/-! Reading a run of the engine: who claimed an action, who called its connector,
and what a later moment of the same run keeps of an earlier one. -/

namespace WorkflowEngine

open Interleave Engine

variable {X : Sig} {W : World X}

/-- `τ` won the compare-and-set on the action. -/
def Claimed (h : Log W) (τ : ℕ) (id : String) : Prop :=
  (⟨τ, Op.tx (.claimAction id), Except.ok true⟩ : Entry (sig X)) ∈ h.trace

/-- `τ` called `connector.dispatch` for the action. -/
def Called (h : Log W) (τ : ℕ) (id : String) (command : ActionCommand) : Prop :=
  (⟨τ, Op.dispatchCalled id command, ()⟩ : Entry (sig X)) ∈ h.trace

/-- The call returned an outcome to `τ`. -/
def Returned (h : Log W) (τ : ℕ) (id : String) (status : ActionStatus) : Prop :=
  (⟨τ, Op.dispatchReturned id status, ()⟩ : Entry (sig X)) ∈ h.trace

/-- `insert_action` created the action during the run. -/
def Created (h : Log W) (record : ActionRecord) : Prop :=
  ∃ τ v, (⟨τ, Op.tx (.insertAction record v), Except.ok ()⟩ : Entry (sig X)) ∈ h.trace

def isCall (p : String → ActionCommand → Bool) : Entry (sig X) → Bool
  | ⟨_, .dispatchCalled id command, _⟩ => p id command
  | _ => false

/-- How often `connector.dispatch` was called for an action, or for an idempotency key. -/
def callsOf (h : Log W) (id : String) : ℕ := h.trace.countP (isCall fun i _ => i = id)

def callsFor (h : Log W) (key : String) : ℕ :=
  h.trace.countP (isCall fun _ c => c.idempotencyKey = key)

theorem exists_of_isCall {h : Log W} {p : String → ActionCommand → Bool} {x : Entry (sig X)}
    (hx : x ∈ h.trace) (hp : isCall p x = true) :
    ∃ id c, Called h x.tid id c ∧ p id c = true := by
  obtain ⟨τ, o, r⟩ := x
  cases o with
  | dispatchCalled id c => exact ⟨id, c, hx, hp⟩
  | _ => cases hp

/-- The action is stored and has left `AUTHORIZED`. -/
def LeftAuthorized (db : Db) (id : String) : Prop :=
  ∃ a, db.action? id = some a ∧ a.status ≠ .authorized

/-- The record belongs to a stored action, whatever its status was when it was read. -/
def Genuine (db : Db) (a : ActionRecord) : Prop :=
  ∃ b, db.action? a.actionId = some b ∧ b.command = a.command

instance (db : Db) (a : ActionRecord) : Decidable (Genuine db a) :=
  decidable_of_iff ((db.action? a.actionId).any fun b => b.command = a.command) (by
    cases h : db.action? a.actionId <;> simp [Genuine, h])

/-- The record is an earlier version of the stored action. -/
def Snapshot (db : Db) (a : ActionRecord) : Prop :=
  ∃ b, db.action? a.actionId = some b ∧ a.Follows b

section
variable {db db' : Db}

theorem LeftAuthorized.mono (hg : db.Grows db') {id : String} (h : LeftAuthorized db id) :
    LeftAuthorized db' id := by
  obtain ⟨a, ha, hs⟩ := h
  obtain ⟨b, hb, hab⟩ := hg.actions id a ha
  exact ⟨b, hb, hab.status.ne_authorized hs⟩

theorem Genuine.mono (hg : db.Grows db') {a : ActionRecord} (h : Genuine db a) :
    Genuine db' a := by
  obtain ⟨b, hb, hc⟩ := h
  obtain ⟨c, hc', hbc⟩ := hg.actions _ b hb
  exact ⟨c, hc', hbc.command.trans hc⟩

theorem Snapshot.of_mem {a : ActionRecord} (h : a ∈ db.actions.rows) : Snapshot db a :=
  ⟨a, (Relational.Table.mem_rows ActionColumn.id).1 h, .refl a⟩

theorem Snapshot.of_action? {id : String} {a : ActionRecord} (h : db.action? id = some a) :
    Snapshot db a := .of_mem (Relational.Table.get?_eq_some.1 h).1

theorem Snapshot.mono (hg : db.Grows db') {a : ActionRecord} (h : Snapshot db a) :
    Snapshot db' a := by
  obtain ⟨b, hb, hab⟩ := h
  obtain ⟨c, hc, hbc⟩ := hg.actions _ b hb
  exact ⟨c, hc, hab.trans hbc⟩

theorem Snapshot.genuine {a : ActionRecord} (h : Snapshot db a) : Genuine db a := by
  obtain ⟨b, hb, hab⟩ := h
  exact ⟨b, hb, hab.command⟩

theorem Snapshot.left {a : ActionRecord} (h : Snapshot db a) (hs : a.status ≠ .authorized) :
    LeftAuthorized db a.actionId := by
  obtain ⟨b, hb, hab⟩ := h
  exact ⟨b, hb, hab.status.ne_authorized hs⟩

end

/-- `h'` is a later moment of the run of `h`. -/
structure Later (h h' : Log W) : Prop where
  db : h.state.db.Grows h'.state.db
  clock : h.state.clock ≤ h'.state.clock
  trace : h.trace <+: h'.trace
  calls : h.calls <+: h'.calls

theorem Later.refl (h : Log W) : Later h h :=
  ⟨.refl _, le_rfl, List.prefix_refl _, List.prefix_refl _⟩

theorem Later.trans {h h' h'' : Log W} (h1 : Later h h') (h2 : Later h' h'') : Later h h'' :=
  ⟨h1.db.trans h2.db, h1.clock.trans h2.clock, h1.trace.trans h2.trace, h1.calls.trans h2.calls⟩

section
variable {h h' : Log W} (hl : Later h h')
include hl

theorem Later.claimed {τ : ℕ} {id : String} (hc : Claimed h τ id) : Claimed h' τ id :=
  hl.trace.subset hc

theorem Later.called {τ : ℕ} {id : String} {c : ActionCommand} (hc : Called h τ id c) :
    Called h' τ id c := hl.trace.subset hc

theorem Later.returned {τ : ℕ} {id : String} {s : ActionStatus} (hr : Returned h τ id s) :
    Returned h' τ id s := hl.trace.subset hr

end

/-- The operations as the engine issues them. -/
def Op.Disciplined : Op X → Prop
  | .tx o => o.Disciplined
  | _ => True

variable {engine : Engine X} {admits : Admission X W}

theorem later_after {h : Log W} {τ : ℕ} {o : Op X} (hd : o.Disciplined) (e : EngineChoice W) :
    Later h ((engine.system W admits).after h τ o e) := by
  refine ⟨?_, ?_, List.prefix_append _ _, List.prefix_refl _⟩
  · cases o with
    | tx o => exact grows_effect hd (Tx.effect _ e.ids h.state.db o)
    | _ => exact .refl _
  · cases o <;> exact le_rfl

theorem later_spawned (h : Log W) (call : Call X) :
    Later h ((engine.system W admits).spawned h call) :=
  ⟨.refl _, le_rfl, List.prefix_refl _, List.prefix_append _ _⟩

theorem later_lost (h : Log W) (τ : ℕ) : Later h ((engine.system W admits).lost h τ) :=
  ⟨.refl _, le_rfl, List.prefix_refl _, List.prefix_refl _⟩

theorem later_drifted (h : Log W) (e : EngineChoice W) :
    Later h ((engine.system W admits).drifted h e) :=
  ⟨.refl _, Int.le_add_of_nonneg_right (Int.natCast_nonneg _), List.prefix_refl _,
    List.prefix_refl _⟩

end WorkflowEngine
