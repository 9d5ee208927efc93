import WorkflowEngine.Interleave.Trail
import WorkflowEngine.Proofs.EngineTasks

/-! Dispatch and delivery of actions, whatever the connectors do: the provider is
called at most once for an action, and no authorized action is lost by the
outbox. -/

namespace WorkflowEngine

open Interleave Engine Relational SQLiteCoreStore

variable {X : Sig} {W : World X} {engine : Engine X} {admits : Admission X W}

theorem InCall.rely {h h' : (engine.system W admits).History} {τ : ℕ} {id : String}
    {c : ActionCommand} (hin : InCall h τ id c) (hl : Later h h') (hq : Quiet τ h h') :
    InCall h' τ id c :=
  ⟨hl.called hin.called, fun s hs => hin.pending s (hq.mem_own hs rfl)⟩

theorem InCall.after {h : Log W} {τ : ℕ} {id : String} {c : ActionCommand} (hin : InCall h τ id c)
    (o : X.Op) (e : EngineChoice W) :
    InCall ((engine.system W admits).after h τ (.ext o) e) τ id c := by
  refine ⟨List.mem_append_left _ hin.called, fun s hs => ?_⟩
  rcases ActionPlane.returned_after hs with hs | ⟨-, ho⟩
  · exact hin.pending s hs
  · cases ho

theorem connector_of_backedBy {S Y : Sig} {connector : ActionConnector (S.sum Y)}
    {engine : Engine Y}
    {command : ActionCommand} {pinned : Bool} {resolved : ResolvedActionConnector (S.sum Y)}
    (h : (engine.backedBy connector).gateway.resolveConnector command pinned = .ok resolved) :
    resolved.connector = connector := by
  have hmap : ∀ x : Except PyErr (ResolvedActionConnector Y),
      x.map (ResolvedActionConnector.backedBy connector) = .ok resolved →
      resolved.connector = connector := by
    intro x hx
    cases x with
    | error e => cases hx
    | ok r =>
      cases hx
      rfl
  simp only [ActionGateway.resolveConnector, Engine.backedBy] at h
  cases hc : engine.gateway.connectors with
  | mapping get =>
    simp only [hc, Connectors.backedBy] at h
    cases hg : get command.action with
    | none =>
      simp only [hg, Option.map_none] at h
      cases h
    | some r =>
      simp only [hg, Option.map_some] at h
      cases h
      rfl
  | resolver resolve =>
    simp only [hc, Connectors.backedBy] at h
    split_ifs at h
    · exact hmap _ h
    · exact hmap _ h

/-- The other parts of a backed engine do not reach the connector's signature. -/
theorem policy_of_backedBy {S Y : Sig} {connector : ActionConnector (S.sum Y)} {engine : Engine Y}
    {policy : PolicyResolver (S.sum Y)}
    (h : (engine.backedBy connector).gateway.policy = some policy) :
    ∃ resolver : PolicyResolver Y, policy = resolver.beside := by
  simp only [ActionGateway.policy, Engine.backedBy] at h
  cases hr : engine.gateway.policyResolver with
  | some resolver =>
    simp only [hr, Option.map_some, Option.some_or] at h
    exact ⟨resolver, (Option.some.inj h).symm⟩
  | none =>
    simp only [hr, Option.map_none, Option.none_or] at h
    obtain ⟨resolver, -, he⟩ := Option.map_eq_some_iff.1 h
    exact ⟨resolver, he.symm⟩

/-- Nothing is known of the connectors: they may answer anything and do anything outside. The
core database keeps `I`. -/
def Contract.arbitrary (W : World X) (old : String → Prop) (I : Db → Prop) : Contract W where
  Old := old
  Inv h := I h.state.db
  Rely _ _ := True
  ExtPre _ _ _ := True
  Free _ := True
  Answer _ _ _ _ := True
  Justified _ _ _ _ := True

/-- The transactions of the engine keep `I`. -/
def Kept (I : Db → Prop) : Prop :=
  ∀ now ids db db' (o : Tx) (r : o.Res), o.Disciplined → Tx.Effect now ids db o r db' →
    I db → I db'

theorem Contract.arbitrary_lawful {I : Db → Prop} (hI : Kept I) (old : String → Prop) :
    (Contract.arbitrary W old I).Lawful engine admits where
  refl _ := trivial
  trans _ _ _ _ _ := trivial
  step τ o e h _ hk hp := by
    refine ⟨?_, trivial⟩
    cases o with
    | tx o => exact hI _ _ _ _ o _ hp.1 (Tx.effect h.state.clock e.ids h.state.db o) hk
    | _ => exact hk
  spawn _ _ hk := ⟨hk, trivial⟩
  crash _ _ hk := ⟨hk, trivial⟩
  drift _ _ hk := ⟨hk, trivial⟩
  free _ _ _ _ := trivial
  justified _ _ _ _ _ _ _ _ := trivial
  unknown _ _ _ := trivial
  answered _ _ _ _ _ _ _ _ _ _ _ _ _ := trivial
  answer _ _ _ _ _ _ := trivial
  dispatch τ id c pinned resolved h _ hin _ := by
    have hext := issues_ext (P := Op.IsExt) (fun _ => trivial) (resolved.connector.dispatch c)
    refine Logic.wp_mono (fun r h' hJ => ⟨hJ, fun _ _ => trivial⟩) (Logic.wp_frame hext
      (fun h h' hJ hr hq => InCall.rely hJ hr.1 hq) (fun h o hJ _ ho => ?_) hin)
    cases o with
    | ext o => exact ⟨⟨trivial, trivial⟩, fun e => InCall.after hJ o e⟩
    | _ => cases ho
  reconcile τ id c pinned resolved prior h _ _ := by
    refine Logic.wp_mono (fun _ _ _ _ _ => trivial) (Logic.wp_frame (J := fun _ => True)
      (issues_ext (P := Op.IsExt) (fun _ => trivial) _) (fun _ _ _ _ _ => trivial)
        (fun h o _ _ ho => ?_) trivial)
    cases o with
    | ext o => exact ⟨⟨trivial, trivial⟩, fun _ => trivial⟩
    | _ => cases ho
  resources _ _ := Prog.issues_true _
  requireActive _ _ _ := Prog.issues_true _
  snapshot _ _ _ _ := Prog.issues_true _

/-- Every entry point is open. A record that a caller holds belongs to a stored action; its
status may be any, so it may be as stale as it likes. -/
def openCalls : Admission X W
  | h, .dispatch a => Genuine h.state.db a
  | h, .reconcile a => Genuine h.state.db a
  | _, .transaction _ => false
  | _, _ => true

theorem admissible_of_openCalls {h : Log W} {call : Call X} (hc : openCalls h call = true)
    (old : String → Prop) (I : Db → Prop) : Admissible (Contract.arbitrary W old I) h call := by
  cases call with
  | dispatch a => exact (decide_eq_true_iff (p := Genuine h.state.db a)).1 hc
  | reconcile a => exact (decide_eq_true_iff (p := Genuine h.state.db a)).1 hc
  | recordOutcome id status outcome => exact fun _ _ => trivial
  | transaction o => cases hc
  | outside p => exact p.issues_true
  | _ => trivial

section
variable (engine : Engine X) (W : World X) (s : EngineState W)

theorem openCalls_sound {I : Db → Prop} (hI : Kept I) (old : String → Prop) :
    ((Contract.arbitrary W old I).logic engine openCalls).Sound :=
  (Contract.arbitrary_lawful hI old).sound fun _ _ hc => admissible_of_openCalls hc old I

/-- The contract of a run from `s`, which knows the outbox of `s`. -/
def runContract (I : Db → Prop) : Contract W :=
  .arbitrary W (fun oid => ∃ r, s.db.outbox? oid = some r) I

theorem openCalls_good {I : Db → Prop} (hI : Kept I) (hs : I s.db)
    (acts : List (engine.system W openCalls).Move) :
    ((runContract W s I).logic engine openCalls).Good
      ((engine.system W openCalls).run ((engine.system W openCalls).init s) acts) :=
  (openCalls_sound engine W hI _).good_run ⟨ActionPlane.inv_init fun _ => Iff.rfl, hs⟩ acts

theorem kept_true : Kept fun _ => True := fun _ _ _ _ _ _ _ _ _ => trivial

end

/-- Calls with one idempotency key are calls for one action. -/
theorem ActionPlane.Inv.callsFor_le {K : Contract W} {h : Log W} (hi : ActionPlane.Inv K h)
    (key : String) : callsFor h key ≤ 1 := by
  by_cases hz : callsFor h key = 0
  · omega
  · obtain ⟨x, hx, hcall⟩ := List.countP_pos_iff.1 (Nat.pos_of_ne_zero hz)
    obtain ⟨id, c, hc, hkey⟩ := exists_of_isCall hx hcall
    refine le_trans (List.countP_mono_left fun y hy hycall => ?_) (hi.once id)
    obtain ⟨τ, o, r⟩ := y
    cases o with
    | dispatchCalled id' c' =>
      have hkeys : c'.idempotencyKey = c.idempotencyKey :=
        (of_decide_eq_true hycall).trans (of_decide_eq_true hkey).symm
      exact decide_eq_true (hi.caller hy hc hkeys).2
    | _ => cases hycall

/-- The two ways into `ActionGateway.reconcile`. -/
def Call.reconciles : Call X → Prop
  | .reconcile _ => True
  | .sweep .. => True
  | _ => False

theorem issues_body_reconciles (engine : Engine X) {call : Call X} (hc : call.reconciles) :
    (engine.body call).Issues Op.reconciles := by
  cases call with
  | reconcile a =>
    exact Prog.issues_bind (engine.gateway.issues_reconcile a) fun _ => trivial
  | sweep staleSeconds limit =>
    exact Prog.issues_bind (ReconciliationWorker.issues_runOnce _ limit) fun _ => trivial
  | _ => cases hc

/-- In every run from any store, `connector.dispatch` is called at most once for an action
and at most once for an idempotency key, and never by a reconciliation. -/
theorem dispatch_at_most_once (engine : Engine X) (W : World X) (s : EngineState W)
    (acts : List (engine.system W openCalls).Move) :
    (∀ id, callsOf (engine.history W openCalls s acts) id ≤ 1) ∧
    (∀ key, callsFor (engine.history W openCalls s acts) key ≤ 1) ∧
    ∀ x ∈ (engine.history W openCalls s acts).trace, ∀ call,
      (engine.history W openCalls s acts).calls[x.tid]? = some call → call.reconciles →
      ∀ id c, x.op ≠ .dispatchCalled id c := by
  have hi := (openCalls_good engine W s kept_true trivial acts).inv.1
  refine ⟨hi.once, hi.callsFor_le, fun x hx call hc hr id c hop => ?_⟩
  have hx := @System.op_of_issues _ _ _ (engine.system W openCalls) Op.reconciles s acts x hx call
    hc (issues_body_reconciles engine hr)
  rw [hop] at hx
  exact hx

/-- The row was written during the run from `s`. -/
def WrittenSince (s : EngineState W) (r : OutboxRecord) : Prop :=
  s.db.outbox? r.outboxId = none

/-- In every run from any store: an action that the run created and that is `AUTHORIZED` has
its dispatch message in the outbox, and no message of the run that names it is `DELIVERED`;
and the action of a delivered message has left `AUTHORIZED` for the rest of the run. -/
theorem authorized_not_lost (engine : Engine X) (W : World X) (s : EngineState W)
    (acts acts' : List (engine.system W openCalls).Move) :
    (∀ record a, Created (engine.history W openCalls s acts) record →
      (engine.history W openCalls s acts).state.db.action? record.actionId = some a →
      a.status = .authorized →
      (∃ r ∈ (engine.history W openCalls s acts).state.db.outbox.rows, WrittenSince s r ∧
        r.topic = "action.dispatch" ∧ r.aggregateId = record.actionId ∧
        r.names record.actionId ∧ r.status ≠ .delivered) ∧
      ∀ r ∈ (engine.history W openCalls s acts).state.db.outbox.rows, WrittenSince s r →
        r.names record.actionId → r.status ≠ .delivered) ∧
    ∀ r ∈ (engine.history W openCalls s acts).state.db.outbox.rows, WrittenSince s r →
      r.status = .delivered → ∀ id, r.names id →
      LeftAuthorized (engine.history W openCalls s (acts ++ acts')).state.db id := by
  have hgood := openCalls_good engine W s kept_true trivial acts
  have hi := hgood.inv.1
  have hnew : ∀ r, WrittenSince s r → ¬ (runContract W s fun _ => True).Old r.outboxId := by
    rintro r hw ⟨r', hr'⟩
    rw [hw] at hr'
    cases hr'
  have hdel : ∀ r ∈ (engine.history W openCalls s acts).state.db.outbox.rows, WrittenSince s r →
      r.status = .delivered → ∀ id, r.names id →
      LeftAuthorized (engine.history W openCalls s acts).state.db id := fun r hr hw hs id hn =>
    hi.delivered r.outboxId r ((Table.mem_rows ()).1 hr) (hnew r hw) hs id hn
  have hwait : ∀ id a, (engine.history W openCalls s acts).state.db.action? id = some a →
      a.status = .authorized →
      ∀ r ∈ (engine.history W openCalls s acts).state.db.outbox.rows, WrittenSince s r →
        r.names id → r.status ≠ .delivered := by
    intro id a ha hs r hr hw hn hd
    obtain ⟨b, hb, hne⟩ := hdel r hr hw hd id hn
    rw [ha] at hb
    cases hb
    exact hne hs
  refine ⟨fun record a hc ha hs => ⟨?_, hwait _ a ha hs⟩, fun r hr hw hs id hn => ?_⟩
  · obtain ⟨oid, r, hr, hold, hm⟩ := hi.posted record hc
    obtain ⟨hrow, rfl⟩ := Table.get?_eq_some.1 hr
    simp only [OutboxRecord.message, Prod.mk.injEq] at hm
    have hn : r.names record.actionId := by simp [OutboxRecord.names, hm.2.2, Fields.get?]
    have hw : WrittenSince s r := by
      by_contra hne
      exact hold (Option.ne_none_iff_exists'.1 hne)
    exact ⟨r, hrow, hw, hm.1, hm.2.1, hn, hwait _ a ha hs r hrow hw hn⟩
  · have hlater := ((openCalls_sound engine W kept_true _).rely_run hgood acts').1
    rw [← System.run_append] at hlater
    exact (hdel r hr hw hs id hn).mono hlater.db

end WorkflowEngine
