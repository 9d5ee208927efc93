import WorkflowEngine.Spec.Engine

/-! The footprint of the engine's programs: which operations they can issue, whatever
the store and the connectors answer. -/

namespace WorkflowEngine

open Interleave SQLiteCoreStore

variable {X : Sig}

/-- The operations of a reconciliation. -/
def Op.reconciles : Op X → Prop
  | .tx (.getAction _) => True
  | .tx (.listActions ..) => True
  | .tx (.transitionAction ..) => True
  | .now => True
  | .reconcileCalled _ => True
  | .ext _ => True
  | _ => False

/-- The operations of a dispatch. -/
def Op.dispatches : Op X → Prop
  | .tx (.claimAction _) => True
  | .dispatchCalled .. => True
  | .dispatchReturned .. => True
  | o => o.reconciles

theorem Op.dispatches_of_reconciles {o : Op X} (h : o.reconciles) : o.dispatches := by
  unfold dispatches
  split <;> trivial

/-- A program of the outside world, run by a task. -/
theorem issues_ext {α : Type} {P : Op X → Prop} (hP : ∀ o, P (.ext o)) (p : Prog X PyErr α) :
    (Task.ext p).Issues P :=
  Prog.issues_lift (Prog.Issues.mono (fun o _ => hP o) p.issues_true)

theorem issues_tx {P : Op X → Prop} {o : Tx} (h : P (.tx o)) : (Task.tx o).Issues P :=
  (Prog.issues_perform _).2 h

theorem issues_attempt {α : Type} {P : Op X → Prop} {o : Tx} {h : o.Res = Except PyErr α}
    (ho : P (.tx o)) : (Task.attempt o h).Issues P :=
  Prog.issues_bind (issues_tx ho) fun _ => Prog.issues_ofExcept _

theorem issues_recordOutcome_as {P : Op X → Prop} {id : String} {status : ActionStatus}
    (hget : ∀ id, P (.tx (.getAction id)))
    (hmove : ∀ expected outcome, P (.tx (.transitionAction id expected status outcome)))
    (outcome : Option Fields) :
    (CaseKernel.recordOutcome id status outcome : Task X ActionRecord).Issues P := by
  simp only [CaseKernel.recordOutcome, Prog.bind_eq, Prog.throw_eq, Prog.bind_raise]
  split_ifs
  · refine Prog.issues_bind (issues_tx (hget _)) fun (found : Option ActionRecord) => ?_
    cases found with
    | none => trivial
    | some current =>
      dsimp only
      split_ifs
      · refine Prog.issues_bind (issues_attempt (hmove ..)) fun _ => ?_
        refine Prog.issues_bind (issues_tx (hget _)) fun found => ?_
        split <;> trivial
      · trivial
  · trivial

theorem issues_recordOutcome_of {P : Op X → Prop} {id : String}
    (hget : ∀ id, P (.tx (.getAction id)))
    (hmove : ∀ expected status outcome, P (.tx (.transitionAction id expected status outcome)))
    (status : ActionStatus) (outcome : Option Fields) :
    (CaseKernel.recordOutcome id status outcome : Task X ActionRecord).Issues P :=
  issues_recordOutcome_as hget (fun expected outcome => hmove expected status outcome) outcome

theorem issues_recordOutcome (id : String) (status : ActionStatus) (outcome : Option Fields) :
    (CaseKernel.recordOutcome id status outcome : Task X ActionRecord).Issues Op.reconciles :=
  issues_recordOutcome_of (fun _ => trivial) (fun _ _ _ => trivial) status outcome

namespace ActionGateway

variable (gateway : ActionGateway X)

theorem issues_query (a : ActionRecord) : (gateway.query a).Issues Op.reconciles := by
  refine Prog.issues_bind (Prog.issues_ofExcept _) fun resolved => ?_
  refine Prog.issues_bind (issues_ext (fun _ => trivial) _) fun outcome => ?_
  split_ifs <;> exact issues_recordOutcome ..

theorem issues_reconcile (a : ActionRecord) : (gateway.reconcile a).Issues Op.reconciles := by
  refine Prog.issues_bind ((Prog.issues_perform _).2 trivial) fun _ => ?_
  refine Prog.issues_bind ?_ fun row => ?_
  · unfold markStale
    split_ifs
    · exact issues_recordOutcome ..
    · trivial
  · split_ifs
    · trivial
    · exact gateway.issues_query row

/-- The lookups of the gateway's policy do only what `P` allows. -/
def PolicyIssues (P : Op X → Prop) : Prop :=
  ∀ policy, gateway.policy = some policy →
    (∀ k, (policy.requireActive k).Issues fun o => P (.ext o)) ∧
    ∀ k signature, (policy.requireAuthorizationSnapshot k signature).Issues fun o => P (.ext o)

theorem policyIssues_of_ext {P : Op X → Prop} (h : ∀ o, P (.ext o)) : gateway.PolicyIssues P :=
  fun _ _ => ⟨fun _ => (Prog.issues_true _).mono fun o _ => h o,
    fun _ _ => (Prog.issues_true _).mono fun o _ => h o⟩

theorem issues_checkSnapshot_of {P : Op X → Prop} (hpolicy : gateway.PolicyIssues P)
    (command : ActionCommand) : (gateway.checkSnapshot command).Issues P := by
  unfold checkSnapshot
  cases hp : gateway.policy with
  | none => trivial
  | some policy =>
    refine Prog.issues_bind (Prog.issues_lift ?_) fun _ => Prog.issues_ofExcept _
    split
    · exact (hpolicy policy hp).1 _
    · exact (hpolicy policy hp).2 _ _

theorem issues_checkSnapshot (command : ActionCommand) :
    (gateway.checkSnapshot command).Issues Op.reconciles :=
  gateway.issues_checkSnapshot_of (gateway.policyIssues_of_ext fun _ => trivial) command

theorem issues_callConnector_of {P : Op X → Prop} {connector : ActionConnector X} {a : ActionRecord}
    (hconnector : (connector.dispatch a.command).Issues fun o => P (.ext o))
    (hcalled : P (.dispatchCalled a.actionId a.command))
    (hreturned : ∀ status, P (.dispatchReturned a.actionId status)) :
    (callConnector connector a).Issues P := by
  refine Prog.issues_bind ((Prog.issues_perform _).2 hcalled) fun _ => ?_
  refine Prog.issues_tryCatch ?_ fun _ => trivial
  refine Prog.issues_bind (Prog.issues_lift hconnector) fun outcome => ?_
  exact Prog.issues_bind ((Prog.issues_perform _).2 (hreturned _)) fun _ => trivial

/-- The operations of `dispatch`, by what the policy and the connector do. -/
theorem issues_dispatch_of {P : Op X → Prop} {a : ActionRecord} (hpolicy : gateway.PolicyIssues P)
    (hconnector : ∀ resolved, gateway.resolveConnector a.command true = .ok resolved →
      (resolved.connector.dispatch a.command).Issues fun o => P (.ext o))
    (hclaim : P (.tx (.claimAction a.actionId))) (hget : ∀ id, P (.tx (.getAction id)))
    (hmove : ∀ id expected status outcome, P (.tx (.transitionAction id expected status outcome)))
    (hcalled : P (.dispatchCalled a.actionId a.command))
    (hreturned : ∀ status, P (.dispatchReturned a.actionId status)) :
    (gateway.dispatch a).Issues P := by
  simp only [dispatch, Prog.bind_eq, Prog.pure_eq]
  split_ifs
  · trivial
  · refine Prog.issues_bind (gateway.issues_checkSnapshot_of hpolicy _) fun _ => ?_
    refine Prog.issues_bind_ofExcept fun resolved hresolved => ?_
    refine Prog.issues_bind ?_ fun ⟨row, claimed⟩ => ?_
    · refine Prog.issues_bind (issues_attempt hclaim) fun claimed => ?_
      refine Prog.issues_bind (issues_tx (hget _)) fun found => ?_
      split <;> trivial
    · dsimp only
      split_ifs
      · trivial
      · refine Prog.issues_bind (issues_callConnector_of (hconnector resolved hresolved) hcalled
          hreturned) fun outcome => ?_
        exact issues_recordOutcome_of hget (hmove _) _ _

theorem issues_dispatch (a : ActionRecord) : (gateway.dispatch a).Issues Op.dispatches :=
  gateway.issues_dispatch_of (gateway.policyIssues_of_ext fun _ => trivial)
    (fun _ _ => (Prog.issues_true _).mono fun _ _ => trivial) trivial (fun _ => trivial)
    (fun _ _ _ _ => trivial) trivial fun _ => trivial

end ActionGateway

/-- `get_action` answers with the row of its id. -/
def Op.ownRow : (o : Op X) → o.Res → Prop
  | .tx (.getAction id), (found : Option ActionRecord) => ∀ a, found = some a → a.actionId = id
  | _, _ => True

theorem Op.ownRow_exec {W : World X} (e : EngineChoice W) (s : EngineState W) (o : Op X) :
    Op.ownRow o (Engine.exec W e s o).1 := by
  cases o with
  | tx o =>
    cases o with
    | getAction id => exact fun a ha => (Relational.Table.get?_eq_some.1 ha).2
    | _ => trivial
  | _ => trivial

/-- `get_action` answers for the id with a row in `Q`. -/
def Op.reads (id : String) (Q : ActionRecord → Prop) : (o : Op X) → o.Res → Prop
  | .tx (.getAction id'), (found : Option ActionRecord) => id' = id → ∀ a, found = some a → Q a
  | _, _ => True

theorem recordOutcome_yields (id : String) (status : ActionStatus) (outcome : Option Fields)
    (Q : ActionRecord → Prop) :
    (CaseKernel.recordOutcome id status outcome : Task X ActionRecord).Yields
    (Op.reads id Q) Q := by
  simp only [CaseKernel.recordOutcome, Prog.bind_eq, Prog.throw_eq, Prog.bind_raise]
  split_ifs
  · refine Prog.yields_skip fun (found : Option ActionRecord) => ?_
    cases found with
    | none => trivial
    | some current =>
      dsimp only
      split_ifs
      · refine Prog.yields_skip fun _ => ?_
        rintro (_ | row) hr
        · trivial
        · exact hr rfl row rfl
      · trivial
  · trivial

theorem Op.reads_of_ownRow {id : String} {o : Op X} {r : o.Res} (h : Op.ownRow o r) :
    Op.reads id (fun a => a.actionId = id) o r := by
  cases o with
  | tx o =>
    cases o with
    | getAction id' => exact fun he a ha => (h a ha).trans he
    | _ => trivial
  | _ => trivial

/-- A dispatch returns the action that it was given, or what it has read of the same. -/
theorem ActionGateway.dispatch_yields (gateway : ActionGateway X) {a : ActionRecord}
    {Q : ActionRecord → Prop} (hQ : Q a) :
    (gateway.dispatch a).Yields (Op.reads a.actionId Q) Q := by
  simp only [dispatch, Prog.bind_eq, Prog.pure_eq]
  split_ifs
  · exact hQ
  · refine Prog.yields_skip fun _ => Prog.yields_skip fun resolved => ?_
    refine Prog.yields_bind (R := fun r => Q r.1) ?_ fun r hr => ?_
    · refine Prog.yields_skip fun claimed => ?_
      rintro (_ | row) hr
      · trivial
      · exact hr rfl row rfl
    · obtain ⟨row, claimed⟩ := r
      dsimp only
      split_ifs
      · exact hr
      · exact Prog.yields_skip fun outcome => recordOutcome_yields ..

theorem ActionGateway.dispatch_yields_own (gateway : ActionGateway X) (a : ActionRecord) :
    (gateway.dispatch a).Yields Op.ownRow fun b => b.actionId = a.actionId :=
  Prog.yields_answers (fun _ _ => Op.reads_of_ownRow) (gateway.dispatch_yields rfl)

theorem ReconciliationWorker.issues_reconcileAll (worker : ReconciliationWorker X)
    (actions : List ActionRecord) (run : WorkerRun) :
    (worker.reconcileAll actions run).Issues Op.reconciles := by
  induction actions generalizing run with
  | nil => trivial
  | cons a actions ih =>
    refine Prog.issues_bind (Prog.issues_tryCatch ?_ fun _ => trivial) fun settled => ?_
    · exact Prog.issues_bind (worker.gateway.issues_reconcile a) fun _ => trivial
    · split_ifs <;> exact ih _

theorem ReconciliationWorker.upTo_subset (limit : ℤ) (actions : List ActionRecord) :
    upTo limit actions ⊆ actions := by
  unfold upTo
  split_ifs <;> exact List.take_subset ..

theorem issues_listActions {P : Op X → Prop}
    (hlist : ∀ status limit, P (.tx (.listActions status limit))) (status : Option ActionStatus)
    (limit : ℤ) : (listActions status limit : Task X (List ActionRecord)).Issues P :=
  Prog.issues_bind (Prog.issues_ofExcept _) fun _ => issues_tx (hlist ..)

theorem ReconciliationWorker.issues_runOnce (worker : ReconciliationWorker X) (limit : ℤ) :
    (worker.runOnce limit).Issues Op.reconciles := by
  refine Prog.issues_bind (issues_listActions (fun _ _ => trivial) ..) fun unknown => ?_
  refine Prog.issues_bind (issues_listActions (fun _ _ => trivial) ..) fun dispatched => ?_
  refine Prog.issues_bind ((Prog.issues_perform _).2 trivial) fun now => ?_
  refine Prog.issues_bind (Prog.issues_ofExcept _) fun staleBefore => ?_
  exact worker.issues_reconcileAll ..

theorem issues_claimOutbox {P : Op X → Prop} (hnow : P .now)
    (hclaim : ∀ owner now leaseUntil limit, P (.tx (.claimOutbox owner now leaseUntil limit)))
    (hselect : ∀ ids, P (.tx (.selectOutbox ids))) (owner : String) (leaseSeconds limit : ℤ) :
    (claimOutbox owner leaseSeconds limit : Task X (List OutboxRecord)).Issues P := by
  refine Prog.issues_bind ((Prog.issues_perform _).2 hnow) fun now => ?_
  refine Prog.issues_bind ((Prog.issues_perform _).2 hnow) fun later => ?_
  refine Prog.issues_bind (Prog.issues_ofExcept _) fun leaseUntil => ?_
  refine Prog.issues_bind (Prog.issues_ofExcept _) fun bound => ?_
  refine Prog.issues_bind (issues_tx (hclaim ..)) fun (ids : List String) => ?_
  split_ifs
  · trivial
  · trivial
  · exact issues_tx (hselect ids)

/-- The operations of a delivery worker. -/
def Op.delivers : Op X → Prop
  | .tx (.claimOutbox ..) => True
  | .tx (.selectOutbox _) => True
  | .tx (.updateOutbox ..) => True
  | o => o.dispatches

theorem Op.delivers_of_dispatches {o : Op X} (h : o.dispatches) : o.delivers := by
  unfold delivers
  split <;> trivial

namespace ActionDeliveryWorker

variable (worker : ActionDeliveryWorker X)

theorem issues_updateOutbox (id : String) (status : OutboxStatus) (retryAt : Option Time)
    (error : Option String) :
    (updateOutbox id status retryAt error : Task X OutboxRecord).Issues Op.delivers := by
  refine Prog.issues_bind ((Prog.issues_perform _).2 trivial) fun now => ?_
  refine Prog.issues_bind (issues_tx trivial) fun _ => ?_
  refine Prog.issues_bind (issues_tx trivial) fun rows => ?_
  split <;> trivial

theorem issues_namedAction (record : OutboxRecord) :
    (worker.namedAction record).Issues Op.dispatches := by
  unfold namedAction
  cases record.payload.get? "action_id" with
  | none => trivial
  | some actionId =>
    refine Prog.issues_bind_ofExcept fun key _ => ?_
    cases key with
    | none => trivial
    | some key => exact issues_tx trivial

theorem issues_retryLater (record : OutboxRecord) (exc : PyErr) :
    (worker.retryLater record exc).Issues Op.delivers := by
  unfold retryLater
  split_ifs
  · exact Prog.issues_bind (issues_updateOutbox ..) fun _ => trivial
  · refine Prog.issues_bind ((Prog.issues_perform _).2 trivial) fun now => ?_
    exact Prog.issues_bind (issues_updateOutbox ..) fun _ => trivial

theorem issues_deliver (record : OutboxRecord) : (worker.deliver record).Issues Op.delivers := by
  have hmono : ∀ {α : Type} {p : Task X α}, p.Issues Op.dispatches → p.Issues Op.delivers :=
    fun h => h.mono fun _ => Op.delivers_of_dispatches
  simp only [deliver, Prog.bind_eq, Prog.pure_eq]
  split_ifs
  · exact Prog.issues_bind (issues_updateOutbox ..) fun _ => trivial
  · refine Prog.issues_bind (hmono (worker.issues_namedAction record)) fun found => ?_
    cases found with
    | none => exact Prog.issues_bind (issues_updateOutbox ..) fun _ => trivial
    | some action =>
      refine Prog.issues_tryCatch ?_ fun exc =>
        Prog.issues_bind (worker.issues_retryLater record exc) fun _ => trivial
      refine Prog.issues_bind (hmono (worker.gateway.issues_dispatch action)) fun _ => ?_
      exact Prog.issues_bind (issues_updateOutbox ..) fun _ => trivial

theorem issues_deliverAll (records : List OutboxRecord) (run : WorkerRun) :
    (worker.deliverAll records run).Issues Op.delivers := by
  induction records generalizing run with
  | nil => trivial
  | cons record records ih =>
    refine Prog.issues_bind (worker.issues_deliver record) fun done => ?_
    split_ifs <;> exact ih _

theorem issues_runOnce (limit : ℤ) : (worker.runOnce limit).Issues Op.delivers := by
  refine Prog.issues_bind ?_ fun records => worker.issues_deliverAll records _
  exact issues_claimOutbox trivial (fun _ _ _ _ => trivial) (fun _ => trivial) ..

end ActionDeliveryWorker

/-- The operations of a decision on a proposal. -/
def Op.decides : Op X → Prop
  | .tx (.getProposal _) => True
  | .tx (.getActionByKey _) => True
  | .tx (.transitionProposal _ expected ..) => expected = .pending
  | .now => True
  | _ => False

namespace ActionBridge

theorem issues_getOwned (proposalId customerId : String) (actorId : Option String) :
    (getOwned proposalId customerId actorId : Task X ActionProposal).Issues Op.decides := by
  refine Prog.issues_bind (issues_tx trivial) fun (found : Option ActionProposal) => ?_
  cases found with
  | none => trivial
  | some proposal =>
    simp only [Prog.bind_eq, Prog.throw_eq, Prog.bind_raise]
    split_ifs <;> trivial

theorem issues_expired (expiresAt : Time) :
    (expired expiresAt : Task X Bool).Issues Op.decides :=
  Prog.issues_bind ((Prog.issues_perform _).2 trivial) fun _ => trivial

theorem issues_transition (proposalId : String) (status : ActionProposalStatus)
    (evidence actionId : Option String) :
    (transitionActionProposal proposalId .pending status evidence actionId :
      Task X ActionProposal).Issues Op.decides := by
  refine Prog.issues_bind (issues_attempt rfl) fun _ => ?_
  refine Prog.issues_bind (issues_tx trivial) fun found => ?_
  split <;> trivial

theorem issues_transitionOrCurrent (proposalId : String) (status : ActionProposalStatus)
    (actionId : Option String) :
    (transitionOrCurrent proposalId status actionId : Task X ActionProposal).Issues
      Op.decides := by
  refine Prog.issues_tryCatch (issues_transition ..) fun exc => ?_
  cases exc with
  | actionConflict message =>
    refine Prog.issues_bind (issues_tx trivial) fun found => ?_
    split <;> trivial
  | _ => trivial

theorem issues_cancel (proposalId : String) (context : ActionConfirmationContext) :
    (cancel proposalId context : Task X ActionProposal).Issues Op.decides := by
  refine Prog.issues_bind (issues_getOwned ..) fun proposal => ?_
  split
  · trivial
  · refine Prog.issues_bind (issues_tx trivial) fun (found : Option ActionRecord) => ?_
    cases found with
    | some existing => exact issues_transitionOrCurrent ..
    | none => exact issues_transition ..
  · trivial

theorem issues_status (proposalId customerId : String) (actorId : Option String) :
    (status proposalId customerId actorId : Task X ActionProposal).Issues Op.decides := by
  refine Prog.issues_bind (issues_getOwned ..) fun proposal => ?_
  split_ifs
  · refine Prog.issues_bind (issues_expired _) fun late => ?_
    cases late with
    | true => exact issues_transitionOrCurrent ..
    | false => trivial
  · trivial

theorem issues_recordConfirmed (proposal : ActionProposal) (context : ActionConfirmationContext)
    (action : ActionRecord) :
    (recordConfirmed proposal context action : Task X ActionProposal).Issues Op.decides := by
  refine Prog.issues_tryCatch (issues_transition ..) fun exc => ?_
  cases exc with
  | actionConflict message =>
    refine Prog.issues_bind (issues_getOwned ..) fun current => ?_
    split_ifs <;> trivial
  | _ => trivial

end ActionBridge

/-- The operations of `authorize_action`: the only action it inserts is for its command. -/
def Op.authorizes (command : ActionCommand) : Op X → Prop
  | .tx (.insertAction record _) => record.command = command
  | .tx (.createProposal _) => False
  | .ext _ => False
  | _ => True

theorem issues_verifyFacts {P : Op X → Prop} {command : ActionCommand}
    (hfact : ∀ id name, P (.tx (.getFact id name))) (refs : List (String × String)) :
    (CaseKernel.verifyFacts command refs : Task X Unit).Issues P := by
  induction refs with
  | nil => trivial
  | cons ref refs ih =>
    refine Prog.issues_bind (issues_tx (hfact _ _)) fun fact => ?_
    exact Prog.issues_bind (Prog.issues_ofExcept _) fun _ => ih

/-- The operations of `authorize_action`. -/
theorem issues_authorizeAction_of {P : Op X → Prop} {command : ActionCommand}
    (hkey : ∀ key, P (.tx (.getActionByKey key))) (hfact : ∀ id name, P (.tx (.getFact id name)))
    (hnow : P .now) (huuid : P .uuid)
    (hinsert : ∀ record v, record.command = command → P (.tx (.insertAction record v))) (v : ℤ) :
    (CaseKernel.authorizeAction command v : Task X ActionRecord).Issues P := by
  refine Prog.issues_bind (issues_tx (hkey _)) fun (found : Option ActionRecord) => ?_
  cases found with
  | some duplicate =>
    dsimp only
    split_ifs <;> trivial
  | none =>
    refine Prog.issues_bind (Prog.issues_ofExcept _) fun _ => ?_
    refine Prog.issues_bind (issues_verifyFacts hfact _) fun _ => ?_
    refine Prog.issues_bind ((Prog.issues_perform _).2 hnow) fun now => ?_
    refine Prog.issues_bind ((Prog.issues_perform _).2 huuid) fun hex => ?_
    exact Prog.issues_bind (issues_attempt (hinsert _ _ rfl)) fun _ => trivial

theorem issues_authorizeAction (command : ActionCommand) (v : ℤ) :
    (CaseKernel.authorizeAction command v : Task X ActionRecord).Issues (Op.authorizes command) :=
  issues_authorizeAction_of (fun _ => trivial) (fun _ _ => trivial) trivial trivial
    (fun _ _ h => h) v

/-- The command but for what the gateway stamps on it. -/
structure ActionCommand.StampOf (command stamped : ActionCommand) : Prop where
  caseId : stamped.caseId = command.caseId
  idempotencyKey : stamped.idempotencyKey = command.idempotencyKey
  parameterFactRefs : stamped.parameterFactRefs = command.parameterFactRefs

theorem ActionGateway.issues_authorize (gateway : ActionGateway X) {P : Op X → Prop}
    {command : ActionCommand} (hpolicy : gateway.PolicyIssues P)
    (hcase : ∀ id, P (.tx (.getCase id)))
    (hkey : ∀ key, P (.tx (.getActionByKey key))) (hfact : ∀ id name, P (.tx (.getFact id name)))
    (hnow : P .now) (huuid : P .uuid)
    (hinsert : ∀ record v, command.StampOf record.command → P (.tx (.insertAction record v)))
    (v : ℤ) : (gateway.authorize command v).Issues P := by
  refine Prog.issues_bind (Prog.issues_ofExcept _) fun resolved => ?_
  cases hp : gateway.policy with
  | none =>
    exact issues_authorizeAction_of hkey hfact hnow huuid
      (fun record v hc => hinsert record v ⟨by rw [hc], by rw [hc], by rw [hc]⟩) v
  | some policy =>
    refine Prog.issues_bind (Prog.issues_lift ((hpolicy policy hp).1 _)) fun package => ?_
    refine Prog.issues_bind (issues_tx (hcase _)) fun (found : Option CaseRecord) => ?_
    cases found with
    | none => trivial
    | some case =>
      dsimp only
      split_ifs
      · trivial
      · refine Prog.issues_bind (Prog.issues_ofExcept _) fun _ => ?_
        exact issues_authorizeAction_of hkey hfact hnow huuid
          (fun record v hc => hinsert record v ⟨by rw [hc], by rw [hc], by rw [hc]⟩) v

/-- The idempotency keys of new actions satisfy `P`, and no proposal is created. -/
def Op.keysIn (P : String → Prop) : Op X → Prop
  | .tx (.insertAction record _) => P record.command.idempotencyKey
  | .tx (.createProposal _) => False
  | _ => True

/-- The operations of a submission: no proposal is touched. -/
def Op.submits (P : String → Prop) : Op X → Prop
  | .tx (.insertAction record _) => P record.command.idempotencyKey
  | .tx (.createProposal _) => False
  | .tx (.transitionProposal ..) => False
  | _ => True

section
variable {P : String → Prop}

theorem keys_submits {α : Type} {p : Task X α} (hp : p.Issues (Op.submits P)) :
    p.Issues (Op.keysIn P) := by
  refine hp.mono fun o h => ?_
  cases o with
  | tx o =>
    cases o with
    | insertAction record v => exact h
    | createProposal => exact absurd h id
    | _ => trivial
  | _ => trivial

theorem submits_delivers {α : Type} {p : Task X α} (hp : p.Issues Op.delivers) :
    p.Issues (Op.submits P) := by
  refine hp.mono fun o h => ?_
  cases o with
  | tx o =>
    cases o with
    | insertAction => exact absurd h id
    | createProposal => exact absurd h id
    | transitionProposal => exact absurd h id
    | _ => trivial
  | _ => trivial

theorem submits_dispatch (gateway : ActionGateway X) (a : ActionRecord) :
    (gateway.dispatch a).Issues (Op.submits P) :=
  submits_delivers ((gateway.issues_dispatch a).mono fun _ => Op.delivers_of_dispatches)

theorem submits_reconciles {α : Type} {p : Task X α} (hp : p.Issues Op.reconciles) :
    p.Issues (Op.submits P) :=
  submits_delivers (hp.mono fun _ h => Op.delivers_of_dispatches (Op.dispatches_of_reconciles h))

theorem keys_decides {α : Type} {p : Task X α} (hp : p.Issues Op.decides) :
    p.Issues (Op.keysIn P) := by
  refine hp.mono fun o h => ?_
  cases o with
  | tx o =>
    cases o with
    | insertAction => exact absurd h id
    | createProposal => exact absurd h id
    | _ => trivial
  | _ => trivial

theorem submits_authorizeAction (command : ActionCommand) (hk : P command.idempotencyKey)
    (v : ℤ) : (CaseKernel.authorizeAction command v : Task X ActionRecord).Issues
      (Op.submits P) := by
  refine issues_authorizeAction_of (fun _ => trivial) (fun _ _ => trivial) trivial trivial
    (fun record _ hc => ?_) v
  change P record.command.idempotencyKey
  rw [hc]
  exact hk

theorem submits_authorize (gateway : ActionGateway X) (command : ActionCommand)
    (hk : P command.idempotencyKey) (v : ℤ) :
    (gateway.authorize command v).Issues (Op.submits P) := by
  refine gateway.issues_authorize (gateway.policyIssues_of_ext fun _ => trivial) (fun _ => trivial)
    (fun _ => trivial)
    (fun _ _ => trivial) trivial trivial (fun record _ hc => ?_) v
  change P record.command.idempotencyKey
  rw [hc.idempotencyKey]
  exact hk

end

namespace ConsequentialActionService

variable (service : ConsequentialActionService X) (request : ConsequentialActionRequest)
  {P : String → Prop}

theorem issues_replay {Q : Op X → Prop} {duplicate : ActionRecord}
    (hcase : ∀ id, Q (.tx (.getCase id)))
    (hdispatch : (service.gateway.dispatch duplicate).Issues Q) :
    (service.replay request duplicate).Issues Q := by
  simp only [replay, Prog.bind_eq, Prog.throw_eq, Prog.bind_raise]
  split_ifs
  · trivial
  · refine Prog.issues_bind (issues_tx (hcase _)) fun (found : Option CaseRecord) => ?_
    cases found with
    | none => trivial
    | some case =>
      dsimp only
      split_ifs
      · trivial
      · exact hdispatch

theorem submits_replay (duplicate : ActionRecord) :
    (service.replay request duplicate).Issues (Op.submits P) :=
  issues_replay service request (fun _ => trivial) (submits_dispatch _ duplicate)

theorem issues_commitFacts {Q : Op X → Prop} {action caseId evidenceRef : String}
    (hcase : ∀ id, Q (.tx (.getCase id)))
    (happend : ∀ fact v, fact.evidenceRef = evidenceRef → Q (.tx (.appendFact caseId fact v)))
    (upstream : Fields) (parameters : List String) (case : CaseRecord) :
    (commitFacts action caseId upstream evidenceRef parameters case : Task X CaseRecord).Issues
      Q := by
  induction parameters generalizing case with
  | nil => trivial
  | cons parameter rest ih =>
    unfold commitFacts
    cases upstream.get? parameter with
    | none => trivial
    | some value =>
      refine Prog.issues_bind ?_ fun case => ih case
      refine Prog.issues_bind (issues_attempt (happend _ _ rfl)) fun _ => ?_
      refine Prog.issues_bind (issues_tx (hcase _)) fun found => ?_
      split <;> trivial

theorem submits_commitFacts (action caseId : String) (upstream : Fields)
    (evidenceRef : String) (parameters : List String) (case : CaseRecord) :
    (commitFacts action caseId upstream evidenceRef parameters case : Task X CaseRecord).Issues
      (Op.submits P) :=
  issues_commitFacts (fun _ => trivial) (fun _ _ _ => trivial) upstream parameters case

theorem issues_loadResource_of {Q : Op X → Prop}
    (hresources : ∀ resourceType resourceId,
      (service.resources resourceType resourceId).Issues fun o => Q (.ext o))
    (specification : ActionSpecification) :
    (service.loadResource request specification).Issues Q := by
  simp only [loadResource, Prog.bind_eq, Prog.throw_eq, Prog.pure_eq]
  split_ifs
  · trivial
  · cases request.resource with
    | none => trivial
    | some ref =>
      refine Prog.issues_bind (Prog.issues_lift (hresources _ _)) fun found => ?_
      cases found with
      | none => trivial
      | some resource => exact Prog.issues_bind (Prog.issues_ofExcept _) fun _ => trivial

theorem issues_loadResource {Q : Op X → Prop} (hext : ∀ o, Q (.ext o))
    (specification : ActionSpecification) :
    (service.loadResource request specification).Issues Q :=
  issues_loadResource_of service request
    (fun _ _ => (Prog.issues_true _).mono fun o _ => hext o) specification

theorem issues_openCase {Q : Op X → Prop} (hcase : ∀ id, Q (.tx (.getCase id)))
    (hcreate : ∀ record, Q (.tx (.createCase record))) :
    (openCase request : Task X CaseRecord).Issues Q := by
  refine Prog.issues_bind (issues_tx (hcase _)) fun (found : Option CaseRecord) => ?_
  cases found with
  | none => exact Prog.issues_bind (issues_attempt (hcreate _)) fun _ => trivial
  | some case =>
    simp only [Prog.bind_eq, Prog.throw_eq, Prog.bind_raise]
    split_ifs <;> trivial

theorem submits_openCase : (openCase request : Task X CaseRecord).Issues (Op.submits P) :=
  issues_openCase request (fun _ => trivial) fun _ => trivial

theorem submits_authorizeNew (hk : P request.idempotencyKey) (actorId : String) :
    (service.authorizeNew request actorId).Issues (Op.submits P) := by
  unfold authorizeNew
  cases specification? request.payload.action with
  | none => trivial
  | some specification =>
    refine Prog.issues_bind (issues_loadResource service request (fun _ => trivial) _)
      fun loaded => ?_
    refine Prog.issues_bind (submits_openCase request) fun case => ?_
    refine Prog.issues_bind (submits_commitFacts ..) fun case' => ?_
    apply submits_authorize
    exact hk

theorem submits_submit (hk : P request.idempotencyKey) (actorId : String) :
    (service.submit request actorId).Issues (Op.submits P) := by
  refine Prog.issues_bind (issues_tx trivial) fun (found : Option ActionRecord) => ?_
  cases found with
  | some duplicate => exact submits_replay service request duplicate
  | none =>
    exact Prog.issues_bind (submits_authorizeNew service request hk actorId) fun a =>
      submits_dispatch _ a

end ConsequentialActionService

namespace ActionBridge

variable (bridge : ActionBridge X) (proposal : ActionProposal)
  (context : ActionConfirmationContext)

theorem submits_verifyResourceVersion {P : String → Prop} :
    (bridge.verifyResourceVersion proposal).Issues (Op.submits P) := by
  simp only [verifyResourceVersion, Prog.bind_eq, Prog.throw_eq, Prog.pure_eq]
  split_ifs
  · trivial
  · refine Prog.issues_bind ?_ fun found => ?_
    · unfold loadResource
      split
      · trivial
      · refine Prog.issues_bind (issues_ext (fun _ => trivial) _) fun found => ?_
        cases found <;> trivial
      · trivial
    · cases found with
      | none => trivial
      | some resource =>
        dsimp only
        split_ifs <;> trivial

/-- The request has the key of the proposal. -/
theorem key_of_buildRequest {request : ConsequentialActionRequest}
    (h : bridge.buildRequest proposal context = .ok request) :
    request.idempotencyKey = proposal.idempotencyKey := by
  unfold buildRequest at h
  cases hs : specification? proposal.action with
  | none =>
    simp only [hs] at h
    cases h
  | some specification =>
    cases hp : bridge.validatePayload proposal.payload with
    | none =>
      simp only [hs, hp] at h
      split_ifs at h <;> cases h
    | some payload =>
      simp only [hs, hp] at h
      split_ifs at h <;> cases h <;> rfl

theorem keys_submitPending {P : String → Prop} (hk : P proposal.idempotencyKey) :
    (bridge.submitPending proposal context).Issues (Op.keysIn P) := by
  refine Prog.issues_bind (keys_submits (bridge.submits_verifyResourceVersion proposal)) fun _ => ?_
  refine Prog.issues_bind (Prog.issues_ofExcept _) fun _ => ?_
  refine Prog.issues_bind_ofExcept fun request hr => ?_
  refine Prog.issues_bind (keys_submits (ConsequentialActionService.submits_submit _ request ?_ _))
    fun action => ?_
  · exact bridge.key_of_buildRequest proposal context hr ▸ hk
  · exact keys_decides (issues_recordConfirmed ..)

end ActionBridge
end WorkflowEngine
