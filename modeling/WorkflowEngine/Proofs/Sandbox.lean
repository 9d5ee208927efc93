import WorkflowEngine.Proofs.Dispatch
import WorkflowEngine.Spec.Sandbox

/-! Recorded outcomes and sandbox effects agree. Only the task that has an action in
its connector call commits an effect for the key of the action, so what that task
reads of the key stays true until it commits. -/

namespace WorkflowEngine

open Interleave Engine Relational SQLiteCoreStore

variable {Y : Sig} {V : World Y}

/-- The log of an engine over the sandbox. -/
abbrev SandboxLog (V : World Y) := Log V.sandboxed

/-- The effect row of a key. -/
def effectOf (h : SandboxLog V) (key : String) : Option SandboxEffect := h.state.ext.1.effect? key

/-- The entry is an insertion of an effect for the key. -/
def Inserts (key : String) (x : Entry (sig (sandboxSig.sum Y))) : Prop :=
  ∃ τ c pid, c.idempotencyKey = key ∧
    x = ⟨τ, Op.ext (Sum.inl (SandboxOp.insertEffect c pid)), ()⟩

/-- The stored action is still without effect. -/
def Untouched (h : SandboxLog V) (id : String) : Prop :=
  ∃ a, h.state.db.action? id = some a ∧ effectOf h a.command.idempotencyKey = none

/-- The stored action has its effect. -/
def Effected (h : SandboxLog V) (id : String) : Prop :=
  ∃ a row, h.state.db.action? id = some a ∧ effectOf h a.command.idempotencyKey = some row

/-- The invariant of the sandbox. -/
structure SandboxInv (h : SandboxLog V) : Prop where
  /-- A success is recorded only with its effect. -/
  succeeded : ∀ id a, h.state.db.action? id = some a →
    a.status = .succeeded ∨ a.status = .reconciled → Effected h id
  /-- A failure is recorded by the task whose call was rejected, or is from before the run. -/
  failed : ∀ id a, h.state.db.action? id = some a → a.status = .failed →
    Untouched h id ∧ ∀ τ, Claimed h τ id → Returned h τ id .failed
  rejected : ∀ τ id, Returned h τ id .failed → Untouched h id
  command : ∀ key row, effectOf h key = some row →
    ∃ a, h.state.db.actionByKey? key = some a ∧ row.command = a.command
  inserted : ∀ τ c pid, (⟨τ, Op.ext (Sum.inl (SandboxOp.insertEffect c pid)), ()⟩ :
    Entry (sig (sandboxSig.sum Y))) ∈ h.trace → ∃ id, Called h τ id c

/-- Effects stay, and a new one was inserted in between. -/
structure SandboxRely (h h' : SandboxLog V) : Prop where
  effects : ∀ key row, effectOf h key = some row → effectOf h' key = some row
  fresh : ∃ new, h'.trace = h.trace ++ new ∧ ∀ key, effectOf h key = none →
    effectOf h' key = none ∨ ∃ x ∈ new, Inserts key x

def SandboxOp.inserts : (sandboxSig.sum Y).Op → Prop
  | .inl (.insertEffect ..) => True
  | _ => False

/-- The contract of the sandbox. -/
def sandboxContract (V : World Y) (old : String → Prop) : Contract V.sandboxed where
  Old := old
  Inv := SandboxInv
  Rely := SandboxRely
  ExtPre τ o h := match o with
    | .inl (.insertEffect c _) => ∃ id, InCall h τ id c
    | _ => True
  Free o := ¬ SandboxOp.inserts o
  Answer _ id status h := match status with
    | .succeeded => Effected h id
    | .failed => Untouched h id
    | .unknown => True
    | _ => False
  Justified τ id status h := match status with
    | .succeeded => Effected h id
    | .reconciled => Effected h id
    | .failed => Returned h τ id .failed
    | .unknown => True
    | _ => False

section
variable {h h' : SandboxLog V} {τ : ℕ} {id : String}

theorem SandboxRely.refl (h : SandboxLog V) : SandboxRely h h :=
  ⟨fun _ _ hr => hr, [], by simp, fun _ hn => Or.inl hn⟩

theorem SandboxRely.trans {h'' : SandboxLog V} (h1 : SandboxRely h h') (h2 : SandboxRely h' h'') :
    SandboxRely h h'' := by
  obtain ⟨n1, e1, f1⟩ := h1.fresh
  obtain ⟨n2, e2, f2⟩ := h2.fresh
  refine ⟨fun key row hr => h2.effects key row (h1.effects key row hr), n1 ++ n2, ?_,
    fun key hn => ?_⟩
  · rw [e2, e1, List.append_assoc]
  · rcases f1 key hn with hn1 | ⟨x, hx, hins⟩
    · rcases f2 key hn1 with hn2 | ⟨x, hx, hins⟩
      · exact Or.inl hn2
      · exact Or.inr ⟨x, List.mem_append_right _ hx, hins⟩
    · exact Or.inr ⟨x, List.mem_append_left _ hx, hins⟩

/-- A move that leaves the database, the trace and the effects alone. -/
theorem SandboxInv.aside (hs : SandboxInv h) (hdb : h'.state.db = h.state.db)
    (ht : h'.trace = h.trace) (he : h'.state.ext.1.effects = h.state.ext.1.effects) :
    SandboxInv h' ∧ SandboxRely h h' := by
  have heff : ∀ key, effectOf h' key = effectOf h key := fun key => by
    simp only [effectOf, Sandbox.effect?, he]
  refine ⟨⟨?_, ?_, ?_, ?_, ?_⟩, fun key row hr => (heff key).trans hr, [], by simp [ht],
    fun key hn => Or.inl ((heff key).trans hn)⟩ <;>
    simp only [Effected, Untouched, Claimed, Returned, Called, heff, hdb, ht]
  · exact hs.succeeded
  · exact hs.failed
  · exact hs.rejected
  · exact hs.command
  · exact hs.inserted

theorem Effected.later (he : Effected h id) (hl : Later h h') (hr : SandboxRely h h') :
    Effected h' id := by
  obtain ⟨a, row, ha, hrow⟩ := he
  obtain ⟨b, hb, hab⟩ := hl.db.actions id a ha
  exact ⟨b, row, hb, hab.command ▸ hr.effects _ row hrow⟩

/-- What the caller has read of its action stays true while the others move. -/
theorem Untouched.quiet {K : Contract V.sandboxed} {engine : Engine (sandboxSig.sum Y)}
    {admits : Admission _ V.sandboxed} {c : ActionCommand} (hu : Untouched h id)
    (hin : InCall h' τ id c) (hl : Later h h') (hr : SandboxRely h h')
    (hq : @Quiet _ _ _ (engine.system V.sandboxed admits) τ h h') (hi : ActionPlane.Inv K h')
    (hs : SandboxInv h') : Untouched h' id := by
  obtain ⟨a, ha, hnone⟩ := hu
  obtain ⟨b, hb, hab⟩ := hl.db.actions id a ha
  refine ⟨b, hb, hab.command ▸ ?_⟩
  obtain ⟨new, htrace, hfresh⟩ := hr.fresh
  obtain ⟨new', htrace', hother⟩ := hq.trace
  obtain rfl := List.append_cancel_left (htrace.symm.trans htrace')
  rcases hfresh _ hnone with hnone' | ⟨x, hx, τ', c', pid, hk, rfl⟩
  · exact hnone'
  · -- an insertion by another task would be a second call for the key
    obtain ⟨id', hc'⟩ := hs.inserted τ' c' pid (htrace ▸ List.mem_append_right _ hx)
    obtain ⟨-, b', hb', rfl⟩ := hi.called τ id c hin.called
    obtain rfl : b' = b := Option.some.inj (hb'.symm.trans hb)
    obtain ⟨rfl, -⟩ := hi.caller hin.called hc' (by rw [hab.command, hk])
    exact absurd rfl (hother _ hx)

end

section
variable {engine : Engine (sandboxSig.sum Y)} {admits : Admission _ V.sandboxed}
  {old : String → Prop} {h : SandboxLog V} {τ : ℕ} {o : Op (sandboxSig.sum Y)}
  {e : EngineChoice V.sandboxed}

variable (engine admits h τ o e) in
/-- Only an insertion changes the effects, and only for its own key. -/
theorem effect_after (key : String) :
    effectOf ((engine.system V.sandboxed admits).after h τ o e) key = effectOf h key ∨
    ∃ c pid row, o = .ext (.inl (.insertEffect c pid)) ∧ c.idempotencyKey = key ∧
      effectOf h key = none ∧ row.command = c ∧
      effectOf ((engine.system V.sandboxed admits).after h τ o e) key = some row := by
  cases o with
  | ext o =>
    cases o with
    | inl o =>
      cases o with
      | insertEffect c pid =>
        change (h.state.ext.1.insertEffect ⟨c.idempotencyKey, pid, c.action, c,
            e.ext.committedAt⟩).effect? key = h.state.ext.1.effect? key ∨
          ∃ c' pid' row, _ ∧ _ ∧ _ ∧ _ ∧ (h.state.ext.1.insertEffect ⟨c.idempotencyKey, pid,
            c.action, c, e.ext.committedAt⟩).effect? key = some row
        cases hins : h.state.ext.1.effects.insert? ⟨c.idempotencyKey, pid, c.action, c,
            e.ext.committedAt⟩ with
        | none =>
          left
          simp only [Sandbox.insertEffect, Sandbox.effect?, hins, Option.getD_none]
        | some t =>
          have hget := Table.get?_insert? hins .key key
          simp only [Sandbox.insertEffect, Sandbox.effect?, hins, Option.getD_some]
          rw [hget]
          split_ifs with hk
          · subst hk
            exact Or.inr ⟨c, pid, _, rfl, rfl, (Table.rows_of_insert? hins).2 .key, rfl, rfl⟩
          · exact Or.inl rfl
      | _ => exact Or.inl rfl
    | inr o => exact Or.inl rfl
  | _ => exact Or.inl rfl

theorem sandboxRely_after : SandboxRely h ((engine.system V.sandboxed admits).after h τ o e) := by
  refine ⟨fun key row hr => ?_, _, rfl, fun key hn => ?_⟩
  · rcases effect_after engine admits h τ o e key with he | ⟨c, pid, row', -, -, hnone, -⟩
    · exact he.trans hr
    · rw [hnone] at hr
      cases hr
  · rcases effect_after engine admits h τ o e key with he | ⟨c, pid, row', rfl, hk, -⟩
    · exact Or.inl (he.trans hn)
    · exact Or.inr ⟨_, List.mem_singleton_self _, τ, c, pid, hk, rfl⟩

/-- An action that nobody has in a call stays without effect. -/
theorem Untouched.after {K : Contract V.sandboxed} {id : String} (hu : Untouched h id)
    (hi : ActionPlane.Inv K h)
    (hl : Later h ((engine.system V.sandboxed admits).after h τ o e))
    (hpre : ∀ c pid, o = .ext (.inl (.insertEffect c pid)) → ∃ id, InCall h τ id c)
    (hidle : ∀ τ c, ¬ InCall h τ id c) :
    Untouched ((engine.system V.sandboxed admits).after h τ o e) id := by
  obtain ⟨a, ha, hnone⟩ := hu
  obtain ⟨b, hb, hab⟩ := hl.db.actions id a ha
  refine ⟨b, hb, ?_⟩
  rw [hab.command]
  rcases effect_after engine admits h τ o e a.command.idempotencyKey with
    he | ⟨c, pid, row, ho, hk, -, -, -⟩
  · exact he.trans hnone
  · obtain ⟨id', hin⟩ := hpre c pid ho
    obtain ⟨-, a', ha', rfl⟩ := hi.called τ id' c hin.called
    obtain ⟨hma, hida⟩ := Table.get?_eq_some.1 ha
    obtain ⟨hma', hida'⟩ := Table.get?_eq_some.1 ha'
    have haa : a' = a := Table.eq_of_mem (i := ActionColumn.key) hma' hma hk
    obtain rfl : id' = id := by rw [← hida, ← hida', haa]
    exact absurd hin (hidle τ _)

section
variable (hi : ActionPlane.Inv (sandboxContract V old) h) (hs : SandboxInv h)
  (hp : ActionPlane.Pre (sandboxContract V old) τ o h)
include hp

theorem inserts_in_call (c : ActionCommand) (pid : String)
    (ho : o = .ext (.inl (.insertEffect c pid))) : ∃ id, InCall h τ id c := by
  subst ho
  exact hp.2

include hs in
theorem succeeded_after (id : String) (a : ActionRecord)
    (ha : ((engine.system V.sandboxed admits).after h τ o e).state.db.action? id = some a)
    (hst : a.status = .succeeded ∨ a.status = .reconciled) :
    Effected ((engine.system V.sandboxed admits).after h τ o e) id := by
  have hl : Later h ((engine.system V.sandboxed admits).after h τ o e) := later_after hp.1 e
  have hold : Effected h id := by
    rcases ActionPlane.status_after hp ha with hn | hn | ⟨b, hb, -, hsame | hj⟩
    · rw [hn] at hst
      rcases hst with hst | hst <;> cases hst
    · rw [hn] at hst
      rcases hst with hst | hst <;> cases hst
    · exact hs.succeeded id b hb (hsame ▸ hst)
    · rcases hst with hst | hst <;> rw [hst] at hj <;> exact hj
  exact hold.later hl sandboxRely_after

include hi hs in
theorem failed_after (id : String) (a : ActionRecord)
    (ha : ((engine.system V.sandboxed admits).after h τ o e).state.db.action? id = some a)
    (hst : a.status = .failed) :
    Untouched ((engine.system V.sandboxed admits).after h τ o e) id ∧
    ∀ τ', Claimed ((engine.system V.sandboxed admits).after h τ o e) τ' id →
      Returned ((engine.system V.sandboxed admits).after h τ o e) τ' id .failed := by
  have hl : Later h ((engine.system V.sandboxed admits).after h τ o e) := later_after hp.1 e
  have hold : Untouched h id ∧ (∀ τ', Claimed h τ' id → Returned h τ' id .failed) ∧
      LeftAuthorized h.state.db id := by
    rcases ActionPlane.status_after hp ha with hn | hn | ⟨b, hb, -, hsame | hj⟩
    · rw [hn] at hst
      cases hst
    · rw [hn] at hst
      cases hst
    · have hbs : b.status = .failed := hsame.symm.trans hst
      obtain ⟨hu, hret⟩ := hs.failed id b hb hbs
      exact ⟨hu, hret, b, hb, by rw [hbs]; decide⟩
    · rw [hst] at hj
      have hj : Returned h τ id .failed := hj
      obtain ⟨c, hcalled⟩ := hi.returned τ id _ hj
      have hclaim := (hi.called _ _ _ hcalled).1
      refine ⟨hs.rejected τ id hj, fun τ' hc => ?_, hi.left τ id hclaim⟩
      exact hi.owner _ _ id hc hclaim ▸ hj
  obtain ⟨hu, hret, b, hb, hne⟩ := hold
  refine ⟨hu.after hi hl (inserts_in_call hp) fun τ' c hin => ?_, fun τ' hc => ?_⟩
  · exact hin.pending _ (hret τ' (hi.called _ _ _ hin.called).1)
  · rcases ActionPlane.claimed_after hc with hc | ⟨-, ⟨b', hb', hauth⟩, -⟩
    · exact hl.returned (hret τ' hc)
    · obtain rfl : b' = b := Option.some.inj (hb'.symm.trans hb)
      exact absurd hauth hne

include hi hs in
theorem rejected_after (τ' : ℕ) (id : String)
    (hr : Returned ((engine.system V.sandboxed admits).after h τ o e) τ' id .failed) :
    Untouched ((engine.system V.sandboxed admits).after h τ o e) id := by
  have hl : Later h ((engine.system V.sandboxed admits).after h τ o e) := later_after hp.1 e
  rcases ActionPlane.returned_after hr with hr | ⟨rfl, rfl⟩
  · exact (hs.rejected τ' id hr).after hi hl (inserts_in_call hp) (hi.idle hr)
  · exact hp.2.2

include hi hs in
theorem command_after (key : String) (row : SandboxEffect)
    (hrow : effectOf ((engine.system V.sandboxed admits).after h τ o e) key = some row) :
    ∃ a, ((engine.system V.sandboxed admits).after h τ o e).state.db.actionByKey? key = some a ∧
      row.command = a.command := by
  have hl : Later h ((engine.system V.sandboxed admits).after h τ o e) := later_after hp.1 e
  have hold : ∃ a, h.state.db.actionByKey? key = some a ∧ row.command = a.command := by
    rcases effect_after engine admits h τ o e key with he | ⟨c, pid, row', ho, rfl, -, hc, hr'⟩
    · exact hs.command key row (he.symm.trans hrow)
    · obtain rfl : row' = row := Option.some.inj (hr'.symm.trans hrow)
      obtain ⟨id, hin⟩ := inserts_in_call hp c pid ho
      obtain ⟨-, a, ha, hac⟩ := hi.called τ id c hin.called
      exact ⟨a, Table.get?_eq_some.2
        ⟨(Table.get?_eq_some.1 ha).1, congrArg ActionCommand.idempotencyKey hac⟩,
        hc.trans hac.symm⟩
  obtain ⟨a, ha, hac⟩ := hold
  obtain ⟨hma, hka⟩ := Table.get?_eq_some.1 ha
  obtain ⟨b, hb, hab⟩ := hl.db.actions a.actionId a (Table.get?_eq_some.2 ⟨hma, rfl⟩)
  refine ⟨b, Table.get?_eq_some.2 ⟨(Table.get?_eq_some.1 hb).1, ?_⟩, hac.trans hab.command.symm⟩
  exact (congrArg ActionCommand.idempotencyKey hab.command).trans hka

include hi hs in
theorem sandboxInv_after : SandboxInv ((engine.system V.sandboxed admits).after h τ o e) := by
  refine ⟨succeeded_after hs hp, failed_after hi hs hp, rejected_after hi hs hp,
    command_after hi hs hp, fun τ' c pid hmem => ?_⟩
  have hl : Later h ((engine.system V.sandboxed admits).after h τ o e) := later_after hp.1 e
  rcases List.mem_append.1 hmem with hmem | hmem
  · obtain ⟨id, hc⟩ := hs.inserted τ' c pid hmem
    exact ⟨id, hl.called hc⟩
  · injection List.mem_singleton.1 hmem with ht ho hr
    obtain ⟨id, hin⟩ := inserts_in_call hp c pid ho.symm
    exact ⟨id, hl.called (ht ▸ hin.called)⟩

end

end

section
variable {engine : Engine (sandboxSig.sum Y)} {admits : Admission _ V.sandboxed}
  {old : String → Prop} {h : SandboxLog V} {τ : ℕ} {id : String} {c : ActionCommand}

theorem pre_read {o : SandboxOp} (ho : ¬ SandboxOp.inserts (.inl o : (sandboxSig.sum Y).Op)) :
    ActionPlane.Pre (sandboxContract V old) τ (.ext (.inl o)) h := by
  refine ⟨trivial, ?_⟩
  cases o with
  | insertEffect => exact absurd trivial ho
  | _ => trivial

/-- The effect of a stored action, as it is read. -/
theorem wp_effect (hst : ∃ a, h.state.db.action? id = some a ∧ a.command = c) :
    ((sandboxContract V old).logic engine admits).wp τ
      (Task.ext (SQLiteSandboxActionConnector.effect c.idempotencyKey))
      (fun r h' => ∃ found, r = .ok found ∧ (found ≠ none → Effected h' id)) h := by
  intro h1 hr1 _ _
  refine ⟨pre_read (fun hno => hno), fun e1 => ⟨_, rfl, fun hsome => ?_⟩⟩
  obtain ⟨a, ha, rfl⟩ := hst
  obtain ⟨b, hb, hab⟩ := hr1.1.db.actions id a ha
  obtain ⟨row, hrow⟩ := Option.ne_none_iff_exists'.1 hsome
  exact ⟨b, row, hb, hab.command ▸ hrow⟩

/-- The first statement of a call. -/
theorem wp_effect_call (hin : InCall h τ id c) :
    ((sandboxContract V old).logic engine admits).wp τ
      (Task.ext (SQLiteSandboxActionConnector.effect c.idempotencyKey))
      (fun r h' => InCall h' τ id c ∧ ∃ found, r = .ok found ∧ (found ≠ none → Effected h' id) ∧
        (found = none → Untouched h' id)) h := by
  intro h1 hr1 hq1 hi1
  have hin1 := hin.rely hr1.1 hq1
  refine ⟨pre_read (fun hno => hno), fun e1 => ⟨hin1.after _ e1, _, rfl, ?_, ?_⟩⟩ <;>
    obtain ⟨-, a, ha, rfl⟩ := hi1.1.called τ id c hin1.called
  · intro hsome
    obtain ⟨row, hrow⟩ := Option.ne_none_iff_exists'.1 hsome
    exact ⟨a, row, ha, hrow⟩
  · intro hnone
    exact ⟨a, ha, hnone⟩

theorem wp_scenario_call (hin : InCall h τ id c) (hu : Untouched h id) :
    ((sandboxContract V old).logic engine admits).wp τ
      (Task.ext (SQLiteSandboxActionConnector.scenario c.idempotencyKey))
      (fun _ h' => InCall h' τ id c ∧ Untouched h' id) h := by
  intro h1 hr1 hq1 hi1
  have hin1 := hin.rely hr1.1 hq1
  have hu1 : Untouched h1 id := hu.quiet hin1 hr1.1 hr1.2 hq1 hi1.1 hi1.2
  exact ⟨pre_read (fun hno => hno), fun e1 => ⟨hin1.after _ e1, hu1⟩⟩

theorem wp_insertEffect (pid : String) (hin : InCall h τ id c) :
    ((sandboxContract V old).logic engine admits).wp τ
      (Task.ext (Prog.perform (S := sandboxSig.sum Y) (.inl (.insertEffect c pid))))
      (fun _ h' => InCall h' τ id c) h := by
  intro h1 hr1 hq1 _
  have hin1 := hin.rely hr1.1 hq1
  exact ⟨⟨trivial, id, hin1⟩, fun e1 => hin1.after _ e1⟩

section
variable (hL : ((sandboxContract V old).logic engine admits).Stepwise)
include hL

/-- A commit answers with the effect, or raises. -/
theorem wp_commit (sandbox : SQLiteSandboxActionConnector) (hin : InCall h τ id c) :
    ((sandboxContract V old).logic engine admits).wp τ (Task.ext (sandbox.commit c))
      (fun r h' => InCall h' τ id c ∧ ∀ row, r = .ok row → Effected h' id) h := by
  refine wp_ext_seq hL (wp_insertEffect _ hin) (fun _ h1 _ hin1 => ?_)
    fun _ h1 _ hin1 => ⟨hin1, fun _ hr => by cases hr⟩
  refine wp_ext_seq hL (wp_effect_call hin1) (fun found h2 _ hread => ?_)
    fun _ h2 _ hread => ⟨hread.1, fun _ hr => by cases hr⟩
  obtain ⟨hin2, _, he, hsome, -⟩ := hread
  cases he
  cases found with
  | none => exact ⟨hin2, fun _ hr => by cases hr⟩
  | some row => exact ⟨hin2, fun _ _ => hsome (Option.some_ne_none row)⟩

theorem wp_sandboxDispatch (sandbox : SQLiteSandboxActionConnector) (hin : InCall h τ id c) :
    ((sandboxContract V old).logic engine admits).wp τ (Task.ext (sandbox.dispatch c))
      (fun r h' => InCall h' τ id c ∧ ∀ outcome, r = .ok outcome →
        (sandboxContract V old).Answer τ id outcome.status h') h := by
  refine wp_ext_seq hL (wp_effect_call hin) (fun found h1 _ hread => ?_)
    fun _ h1 _ hread => ⟨hread.1, fun _ hr => by cases hr⟩
  obtain ⟨hin1, _, he, hsome, hnone⟩ := hread
  cases he
  cases found with
  | some existing =>
    refine ⟨hin1, fun outcome hr => ?_⟩
    cases hr
    exact hsome (Option.some_ne_none existing)
  | none =>
    refine wp_ext_seq hL (wp_scenario_call hin1 (hnone rfl)) (fun scenario h2 _ hu => ?_)
      fun _ h2 _ hu => ⟨hu.1, fun _ hr => by cases hr⟩
    cases scenario with
    | rejected =>
      refine ⟨hu.1, fun outcome hr => ?_⟩
      cases hr
      exact hu.2
    | timeoutBeforeCommit =>
      refine ⟨hu.1, fun outcome hr => ?_⟩
      cases hr
      trivial
    | timeoutAfterCommit =>
      refine wp_ext_seq hL (wp_commit hL sandbox hu.1) (fun row h3 _ hc => ?_)
        fun _ h3 _ hc => ⟨hc.1, fun _ hr => by cases hr⟩
      refine ⟨hc.1, fun outcome hr => ?_⟩
      cases hr
      trivial
    | success =>
      refine wp_ext_seq hL (wp_commit hL sandbox hu.1) (fun row h3 _ hc => ?_)
        fun _ h3 _ hc => ⟨hc.1, fun _ hr => by cases hr⟩
      refine ⟨hc.1, fun outcome hr => ?_⟩
      cases hr
      exact hc.2 row rfl

theorem wp_sandboxReconcile (prior : Option Fields)
    (hst : ∃ a, h.state.db.action? id = some a ∧ a.command = c) :
    ((sandboxContract V old).logic engine admits).wp τ
      (Task.ext (SQLiteSandboxActionConnector.reconcile c prior))
      (fun r h' => ∀ outcome, r = .ok outcome → (sandboxContract V old).Justified τ id
        (if outcome.status = .succeeded then .reconciled else outcome.status) h') h := by
  refine wp_ext_seq hL (wp_effect hst) (fun found h1 _ hread => ?_) fun _ _ _ _ _ hr => by cases hr
  obtain ⟨_, he, hsome⟩ := hread
  cases he
  cases found with
  | none =>
    rintro outcome hr
    cases hr
    trivial
  | some row =>
    rintro outcome hr
    cases hr
    exact hsome (Option.some_ne_none row)

end

end

section
variable {engine : Engine Y} {sandbox : SQLiteSandboxActionConnector}
  {admits : Admission _ V.sandboxed} {old : String → Prop}

theorem sandbox_stepwise :
    ((sandboxContract V old).logic (engine.backedBy sandbox.connector) admits).Stepwise where
  refl h := ⟨.refl h, .refl h⟩
  trans _ _ _ h1 h2 := ⟨h1.1.trans h2.1, h1.2.trans h2.2⟩
  step _ _ e _ hi hp := ⟨⟨ActionPlane.inv_after hi.1 hp, sandboxInv_after hi.1 hi.2 hp⟩,
    later_after hp.1 e, sandboxRely_after⟩

theorem effects_drift (e : SandboxChoice V) (s : Sandbox × V.State) :
    (V.sandboxed.drift e s).1.effects = s.1.effects := by
  obtain ⟨committedAt, scenario, rest⟩ := e
  cases scenario with
  | none => rfl
  | some scenario =>
    obtain ⟨key, scenario⟩ := scenario
    rfl

theorem sandbox_lawful :
    (sandboxContract V old).Lawful (engine.backedBy sandbox.connector) admits where
  refl := .refl
  trans _ _ _ := .trans
  step _ _ _ _ hi hs hp := ⟨sandboxInv_after hi hs hp, sandboxRely_after⟩
  spawn _ _ hs := hs.aside rfl rfl rfl
  crash _ _ hs := hs.aside rfl rfl rfl
  drift h e hs := by
    refine hs.aside rfl rfl ?_
    exact effects_drift e.ext h.state.ext
  free τ o h hf := by
    cases o with
    | inl o =>
      cases o with
      | insertEffect => exact absurd trivial hf
      | _ => trivial
    | inr o => trivial
  justified τ id s h h' hj hl hr := by
    cases s with
    | succeeded => exact Effected.later hj hl hr
    | reconciled => exact Effected.later hj hl hr
    | failed => exact hl.returned hj
    | _ => exact hj
  unknown _ _ _ := trivial
  answered τ id c s h h' ha hin hl hr hq hi hs := by
    cases s with
    | succeeded => exact Effected.later ha hl hr
    | failed => exact Untouched.quiet ha hin hl hr hq hi hs
    | _ => exact ha
  answer τ id s h e ha := by
    cases s with
    | succeeded => exact ha
    | failed => exact List.mem_append_right _ (List.mem_singleton.2 rfl)
    | unknown => trivial
    | _ => cases ha
  dispatch τ id c pinned resolved h hres hin _ := by
    rw [connector_of_backedBy hres]
    exact wp_sandboxDispatch sandbox_stepwise sandbox hin
  reconcile τ id c pinned resolved prior h hres hst := by
    rw [connector_of_backedBy hres]
    exact wp_sandboxReconcile sandbox_stepwise prior hst
  resources resourceType resourceId :=
    Prog.issues_lift (Prog.Issues.mono (fun _ _ hno => hno) (Prog.issues_true _))
  requireActive policy hp packageId := by
    obtain ⟨resolver, rfl⟩ := policy_of_backedBy hp
    exact Prog.issues_lift (Prog.Issues.mono (fun _ _ hno => hno) (Prog.issues_true _))
  snapshot policy hp packageId signature := by
    obtain ⟨resolver, rfl⟩ := policy_of_backedBy hp
    exact Prog.issues_lift (Prog.Issues.mono (fun _ _ hno => hno) (Prog.issues_true _))

end

/-- Submissions, dispatches of any held record, the workers, proposals: every entry point but
the recording of an outcome by hand. Scenarios change at any moment. -/
def sandboxCalls : Admission (sandboxSig.sum Y) V.sandboxed
  | _, .recordOutcome .. => false
  | _, .outside _ => false
  | h, call => openCalls h call

theorem sandboxCalls_sound (engine : Engine Y) (sandbox : SQLiteSandboxActionConnector)
    (V : World Y) (old : String → Prop) :
    ((sandboxContract V old).logic (engine.backedBy sandbox.connector) sandboxCalls).Sound := by
  refine sandbox_lawful.sound fun h call hc => ?_
  cases call with
  | dispatch a => exact (decide_eq_true_iff (p := Genuine h.state.db a)).1 hc
  | reconcile a => exact (decide_eq_true_iff (p := Genuine h.state.db a)).1 hc
  | recordOutcome id status outcome => cases hc
  | transaction o => cases hc
  | outside p => cases hc
  | _ => trivial

/-- What is recorded of the actions agrees with the effects at the provider. -/
structure Agreement (db : Db) (sandbox : Sandbox) : Prop where
  succeeded : ∀ id a, db.action? id = some a → a.status = .succeeded ∨ a.status = .reconciled →
    ∃ row, sandbox.effect? a.command.idempotencyKey = some row
  failed : ∀ id a, db.action? id = some a → a.status = .failed →
    sandbox.effect? a.command.idempotencyKey = none
  once : ∀ key, sandbox.effects.rows.countP (fun row => row.idempotencyKey = key) ≤ 1
  command : ∀ key row, sandbox.effect? key = some row →
    ∃ a, db.actionByKey? key = some a ∧ row.command = a.command

theorem SandboxInv.agreement {h : SandboxLog V} (hs : SandboxInv h) :
    Agreement h.state.db h.state.ext.1 := by
  refine ⟨fun id a ha hst => ?_, fun id a ha hst => ?_, fun key => ?_, hs.command⟩
  · obtain ⟨b, row, hb, hrow⟩ := hs.succeeded id a ha hst
    obtain rfl : b = a := Option.some.inj (hb.symm.trans ha)
    exact ⟨row, hrow⟩
  · obtain ⟨b, hb, hnone⟩ := (hs.failed id a ha hst).1
    obtain rfl : b = a := Option.some.inj (hb.symm.trans ha)
    exact hnone
  · have hle := Table.count_le_one h.state.ext.1.effects .key key fun _ => true
    refine le_trans (List.countP_mono_left fun row _ hrow => ?_) hle
    rw [Bool.and_true]
    exact decide_eq_true (of_decide_eq_true hrow)

theorem Agreement.init {engine : Engine (sandboxSig.sum Y)} {admits : Admission _ V.sandboxed}
    {s : EngineState V.sandboxed} (hs : Agreement s.db s.ext.1) :
    SandboxInv ((engine.system V.sandboxed admits).init s).hist := by
  refine ⟨fun id a ha hst => ?_, fun id a ha hst => ⟨⟨a, ha, hs.failed id a ha hst⟩, ?_⟩, ?_,
    hs.command, ?_⟩
  · obtain ⟨row, hrow⟩ := hs.succeeded id a ha hst
    exact ⟨a, row, ha, hrow⟩
  · simp [Claimed, System.init]
  · simp [Returned, System.init]
  · simp [System.init]

/-- Recorded outcomes and effects agree at every moment of every run, and an action that is
`FAILED` never gets an effect. -/
theorem outcomes_and_effects_agree (engine : Engine Y) (sandbox : SQLiteSandboxActionConnector)
    (V : World Y) (s : EngineState V.sandboxed) (hs : Agreement s.db s.ext.1)
    (acts acts' : List ((engine.backedBy sandbox.connector).system V.sandboxed sandboxCalls).Move) :
    Agreement
      ((engine.backedBy sandbox.connector).history V.sandboxed sandboxCalls s acts).state.db
      ((engine.backedBy sandbox.connector).history V.sandboxed sandboxCalls s acts).state.ext.1 ∧
    ∀ id a, ((engine.backedBy sandbox.connector).history V.sandboxed sandboxCalls s
        acts).state.db.action? id = some a → a.status = .failed →
      ((engine.backedBy sandbox.connector).history V.sandboxed sandboxCalls s
        (acts ++ acts')).state.ext.1.effect? a.command.idempotencyKey = none := by
  have hsound := sandboxCalls_sound engine sandbox V fun oid => ∃ r, s.db.outbox? oid = some r
  have hgood := hsound.good_run (s := s) ⟨ActionPlane.inv_init fun _ => Iff.rfl, hs.init⟩
  refine ⟨(hgood acts).inv.2.agreement, fun id a ha hst => ?_⟩
  have hlater := (hsound.rely_run (hgood acts) acts').1
  rw [← System.run_append] at hlater
  obtain ⟨b, hb, hab⟩ := hlater.db.actions id a ha
  have hba := hab.final (Or.inr (Or.inl hst))
  subst hba
  exact (hgood (acts ++ acts')).inv.2.agreement.failed id b hb hst

/-- An engine with an action to back, over nothing else. -/
def plainEngine : Engine ⟨Empty, Empty.elim⟩ where
  gateway := { connectors := .mapping fun _ => some ⟨fun _ => throw .assertionError,
    fun _ _ => throw .assertionError⟩ }
  resources _ _ := return none

def toySandbox : SQLiteSandboxActionConnector := ⟨fun key => key⟩

def noteRequest : ConsequentialActionRequest where
  caseId := "C-1"
  customerId := "U-1"
  procedureId := "proc"
  procedureVersion := "1"
  policyPackageId := "P-1"
  idempotencyKey := "key-1"
  payload := .addCaseNote "n" note_fits
  keyMin := keyMin_one
  keyMax := keyMax_one

abbrev SandboxMove :=
  ((plainEngine.backedBy toySandbox.connector).system World.isolated.sandboxed sandboxCalls).Move

def sandboxMoves (τ n : ℕ) : List SandboxMove :=
  (List.range n).map fun i =>
    .run τ ⟨fun j => toString τ ++ "." ++ toString i ++ "." ++ toString j, 0, "t", none, ()⟩

/-- The provider times out after its commit, and a sweep finds the effect. -/
def timedOut : List SandboxMove :=
  .drift ⟨toString, 0, "t", some ("key-1", .timeoutAfterCommit), ()⟩ ::
    .spawn (.submit noteRequest "agent") :: sandboxMoves 0 18 ++
    .drift ⟨toString, 31000000, "t", none, ()⟩ :: .spawn (.sweep 30 10) :: sandboxMoves 1 7

def sandboxHistory (acts : List SandboxMove) : SandboxLog World.isolated :=
  (plainEngine.backedBy toySandbox.connector).history World.isolated.sandboxed sandboxCalls
    ⟨.empty, 0, .empty, ()⟩ acts

/-- The reconciled action has its effect. -/
theorem outcomes_and_effects_agree_timed_out : ∃ a row,
    (sandboxHistory timedOut).state.db.action? "ACT-0.5.0" = some a ∧ a.status = .reconciled ∧
    (sandboxHistory timedOut).state.ext.1.effect? a.command.idempotencyKey = some row := by
  have hstatus : ((sandboxHistory timedOut).state.db.action? "ACT-0.5.0").map
      ActionRecord.status = some .reconciled := by decide +kernel
  obtain ⟨a, ha, hst⟩ := Option.map_eq_some_iff.1 hstatus
  obtain ⟨hagree, -⟩ := outcomes_and_effects_agree plainEngine toySandbox World.isolated
    ⟨.empty, 0, .empty, ()⟩ ⟨fun _ _ ha => (by cases ha), fun _ _ ha => (by cases ha),
      fun _ => Nat.zero_le 1, fun _ _ hr => (by cases hr)⟩ timedOut []
  obtain ⟨row, hrow⟩ := hagree.succeeded "ACT-0.5.0" a ha (Or.inr hst)
  exact ⟨a, row, ha, hst, hrow⟩

end WorkflowEngine
