import WorkflowEngine.Interleave.Transfer
import WorkflowEngine.Proofs.Dispatch
import WorkflowEngine.Proofs.Disclosure

/-! The action plane under the whole host. The endpoints, the MCP tools, the turns and the workers
are made of the programs of the engine, so what the engine guarantees of dispatch and delivery
holds of all of them together. -/

namespace WorkflowEngine

open Interleave Relational SQLiteCoreStore

section
variable {X : Sig} {api : ApiHost X} {actor : UserContext} {id : String} {α β : Type}

/-- The operations of the endpoints that submit nothing. -/
def Op.prepares : Op X → Prop
  | .tx .initializeStore => True
  | .tx (.getCase _) => True
  | .tx (.getAction _) => True
  | .tx (.getActionByKey _) => True
  | .tx (.getProposal _) => True
  | .tx (.listActionEvents _) => True
  | .tx (.createProposal _) => True
  | .tx (.transitionProposal _ expected ..) => expected = .pending
  | .now => True
  | .uuid => True
  | .ext _ => True
  | _ => False

theorem Op.prepares_of_decides {o : Op X} (ho : o.decides) : o.prepares := by
  cases o with
  | tx o =>
    cases o with
    | getActionByKey | getProposal => trivial
    | transitionProposal => exact ho
    | _ => exact absurd ho id
  | now => trivial
  | _ => exact absurd ho id

namespace ApiTask

theorem prepares_check {x : Except TurnError α} {f : α → ApiTask X β}
    (hf : ∀ a, (f a).Issues Op.prepares) : ((ApiTask.check x).bind f).Issues Op.prepares :=
  Prog.issues_bind (Prog.issues_ofExcept _) hf

theorem prepares_core {p : Task X α} {f : α → ApiTask X β} (hp : p.Issues Op.prepares)
    (hf : ∀ a, (f a).Issues Op.prepares) : ((ApiTask.core p).bind f).Issues Op.prepares :=
  Prog.issues_bind (Prog.issues_rethrow hp) hf

theorem prepares_decides {p : Task X α} (hp : p.Issues Op.decides) :
    (ApiTask.core p).Issues Op.prepares :=
  Prog.issues_rethrow (hp.mono fun _ => Op.prepares_of_decides)

end ApiTask

namespace ApiHost

theorem prepares_initializeStore : (initializeStore : Task X Unit).Issues Op.prepares :=
  issues_attempt trivial

theorem prepares_requireUpstream {f : Unit → ApiTask X α} (hf : (f ()).Issues Op.prepares) :
    (api.requireUpstreamAvailable.bind f).Issues Op.prepares := by
  unfold requireUpstreamAvailable
  split_ifs
  · trivial
  · exact hf

theorem prepares_ownedProposal : (ownedProposal id actor : ApiTask X ActionProposal).Issues
    Op.prepares := by
  refine ApiTask.prepares_core (issues_tx trivial) fun (found : Option ActionProposal) => ?_
  cases found with
  | none => trivial
  | some p =>
    refine ApiTask.prepares_check fun _ => ?_
    dsimp only
    split_ifs <;> trivial

theorem prepares_bridge (intent : ActionIntent) (context : TrustedActionContext)
    (refundPolicy : RefundDecisionService) (ttlSeconds : ℤ) :
    (api.engine.bridge.propose refundPolicy ttlSeconds intent context).Issues Op.prepares :=
  ActionBridge.issues_propose _ (fun _ => trivial) trivial trivial fun _ _ _ _ _ _ => trivial

theorem prepares_propose (request : ActionRequest) :
    (api.propose request).Issues Op.prepares := by
  unfold propose ProposalHost.createActionProposal
  cases requireActionAccess request.actor request.action with
  | error e => trivial
  | ok _ =>
    cases actionPolicy api.proposals.jurisdictionProfile request.action
        request.requestedProcedure with
    | error e => trivial
    | ok found => exact Prog.issues_rethrow (prepares_bridge ..)

theorem prepares_prepareIntents (turn : TurnIntents) (customer : CustomerContext)
    (raws : List Fields) : (api.prepareIntents turn customer raws).Issues Op.prepares := by
  induction raws with
  | nil => trivial
  | cons raw rest ih =>
    refine Prog.issues_bind (Prog.issues_tryCatch ?_ fun _ => trivial) fun prepared =>
      Prog.issues_bind ih fun _ => trivial
    exact ApiTask.prepares_check fun request =>
      Prog.issues_bind (prepares_propose request) fun _ => trivial

/-- A call that submits nothing and runs no worker. -/
theorem prepares_body {call : ApiCall} (hs : call.submitter = none) (hw : call.works = false) :
    (api.body call).Issues Op.prepares := by
  cases call with
  | createRefundCommand | submitConsequentialAction | confirmActionProposal => cases hs
  | runActionWorker | runReconciliationWorker => cases hw
  | createActionProposal request actor =>
    refine Prog.issues_bind ?_ fun _ => trivial
    refine ApiTask.prepares_check fun customer => prepares_requireUpstream ?_
    exact ApiTask.prepares_core prepares_initializeStore fun _ => prepares_propose _
  | getActionProposal id actor =>
    refine Prog.issues_bind ?_ fun _ => trivial
    refine ApiTask.prepares_core prepares_initializeStore fun _ =>
      Prog.issues_bind prepares_ownedProposal fun p => ?_
    exact ApiTask.prepares_decides (ActionBridge.issues_status ..)
  | cancelActionProposal id actor =>
    refine Prog.issues_bind ?_ fun _ => trivial
    refine ApiTask.prepares_core prepares_initializeStore fun _ =>
      Prog.issues_bind prepares_ownedProposal fun p => ?_
    exact ApiTask.prepares_decides (ActionBridge.issues_cancel ..)
  | getActionStatus id actor =>
    refine Prog.issues_bind ?_ fun _ => trivial
    refine ApiTask.prepares_core prepares_initializeStore fun _ =>
      ApiTask.prepares_core (issues_tx trivial) fun (found : Option ActionRecord) => ?_
    cases found with
    | none => trivial
    | some a =>
      refine ApiTask.prepares_core (issues_tx trivial) fun (case : Option CaseRecord) => ?_
      cases case with
      | none => trivial
      | some case =>
        refine ApiTask.prepares_check fun _ => ?_
        dsimp only
        split_ifs
        · trivial
        · exact ApiTask.prepares_core (issues_tx trivial) fun _ => trivial
  | actionsPrepare context action arguments resourceType resourceId =>
    refine Prog.issues_bind ?_ fun _ => trivial
    exact ApiTask.prepares_check fun _ => ApiTask.prepares_check fun trusted =>
      ApiTask.prepares_core (prepares_bridge ..) fun _ => trivial
  | actionsGetStatus context id =>
    refine Prog.issues_bind ?_ fun _ => trivial
    exact ApiTask.prepares_check fun trusted =>
      Prog.issues_bind (ApiTask.prepares_decides (ActionBridge.issues_status ..)) fun _ => trivial
  | converse turn =>
    refine Prog.issues_bind ?_ fun _ => trivial
    exact ApiTask.prepares_check fun customer =>
      ApiTask.prepares_core prepares_initializeStore fun _ => prepares_prepareIntents ..

end ApiHost

end

section
variable {X : Sig} {W : World X} {api : ApiHost X} {I : Db → Prop} {old : String → Prop}
  {h : ApiHost.Log W} {τ : ℕ} {α β : Type}

/-- The history as the engine has it, which does not know the calls of the host. -/
abbrev engineLog (h : ApiHost.Log W) : Engine.Log W := h.forget .initializeStore

/-- The logic of the action plane for the calls of the host. -/
abbrev ApiHost.planeLogic (api : ApiHost X) (W : World X) (old : String → Prop) (I : Db → Prop) :
    Logic (api.system W) :=
  ((Contract.arbitrary W old I).logic api.engine openCalls).hosting .initializeStore api.body

theorem plain_of_prepares {o : Op X} (ho : o.prepares) : Plain (Contract.arbitrary W old I) o := by
  cases o with
  | tx o =>
    cases o with
    | initializeStore | getCase | getAction | getActionByKey | getProposal | listActionEvents
    | createProposal => trivial
    | transitionProposal => exact ho
    | _ => exact absurd ho id
  | now | uuid | ext => trivial
  | _ => exact absurd ho id

namespace ServicePlane

variable (hI : Kept I)
include hI

theorem stepwise : (api.planeLogic W old I).Stepwise :=
  (Contract.arbitrary_lawful hI old).stepwise.hosting

theorem wp_prepares {p : ApiTask X α} (hp : p.Issues Op.prepares) :
    (api.planeLogic W old I).wp τ p (fun _ _ => True) h :=
  Logic.wp_frame (J := fun _ => True) hp (fun _ _ _ _ _ => trivial)
    (fun _ _ _ _ ho => ⟨pre_plain (Contract.arbitrary_lawful hI old :
      (Contract.arbitrary W old I).Lawful api.engine openCalls) (plain_of_prepares ho),
      fun _ => trivial⟩) trivial

omit hI in
/-- Any program that the action plane has verified, of this engine or of one with other resources,
is verified as a part of a call. -/
theorem wp_core (engine : Engine X) {p : Task X α}
    (hp : ((Contract.arbitrary W old I).logic engine openCalls).wp τ p (fun _ _ => True)
      (engineLog h)) :
    (api.planeLogic W old I).wp τ (ApiTask.core p) (fun _ _ => True) h :=
  Logic.wp_mono (fun _ _ _ => trivial)
    (Logic.wp_hosting (L := (Contract.arbitrary W old I).logic engine openCalls) hp)

theorem wp_seq {p : ApiTask X α} {f : α → ApiTask X β}
    (hp : (api.planeLogic W old I).wp τ p (fun _ _ => True) h)
    (hf : ∀ a h', (api.planeLogic W old I).wp τ (f a) (fun _ _ => True) h') :
    (api.planeLogic W old I).wp τ (p.bind f) (fun _ _ => True) h :=
  (stepwise hI).wp_seq hp (fun a h' _ _ => hf a h') fun _ _ _ _ => trivial

theorem wp_check {x : Except TurnError α} {f : α → ApiTask X β}
    (hf : ∀ a h', (api.planeLogic W old I).wp τ (f a) (fun _ _ => True) h') :
    (api.planeLogic W old I).wp τ ((ApiTask.check x).bind f) (fun _ _ => True) h :=
  wp_seq hI (Logic.wp_ofExcept.2 trivial) hf

omit hI in
theorem wp_requireUpstream {f : Unit → ApiTask X α}
    (hf : ∀ h', (api.planeLogic W old I).wp τ (f ()) (fun _ _ => True) h') :
    (api.planeLogic W old I).wp τ (api.requireUpstreamAvailable.bind f) (fun _ _ => True) h := by
  unfold ApiHost.requireUpstreamAvailable
  split_ifs
  · trivial
  · exact hf h

theorem wp_processRefund {arguments : RefundArguments} :
    (api.planeLogic W old I).wp τ (ApiTask.core (api.coreEngine.processRefund arguments))
      (fun _ _ => True) h := by
  simp only [CoreEngine.processRefund]
  split_ifs
  · trivial
  · refine wp_core { api.engine with resources := singleOrder arguments.order } ?_
    cases CoreEngine.refundRequest arguments
        (api.coreEngine.decision arguments).idempotencyKey with
    | error e => trivial
    | ok request => exact wp_submit (Contract.arbitrary_lawful hI old)

theorem wp_runWorker {worker : Option UserContext} {run : Call X}
    (hrun : ∀ h', ((Contract.arbitrary W old I).logic api.engine openCalls).wp τ
      (api.engine.body run) (fun _ _ => True) h') :
    (api.planeLogic W old I).wp τ (api.runWorker worker run) (fun _ _ => True) h := by
  cases worker with
  | none => exact wp_core api.engine (hrun _)
  | some actor => exact wp_check hI fun _ h' => wp_core api.engine (hrun _)

theorem wp_body (call : ApiCall) (h : ApiHost.Log W) :
    (api.planeLogic W old I).wp τ (api.body call) (fun _ _ => True) h := by
  have hlawful : (Contract.arbitrary W old I).Lawful api.engine openCalls :=
    Contract.arbitrary_lawful hI old
  have hprepares : ∀ {β : Type} {p : ApiTask X β} {h : ApiHost.Log W}, p.Issues Op.prepares →
      (api.planeLogic W old I).wp τ p (fun _ _ => True) h := fun hp => wp_prepares hI hp
  cases call with
  | createRefundCommand request actor =>
    refine wp_seq hI ?_ fun _ _ => trivial
    refine wp_check hI fun customer _ => wp_requireUpstream fun _ => ?_
    dsimp only
    split_ifs
    · trivial
    refine wp_seq hI (hprepares (Prog.issues_rethrow (issues_ext (fun _ => trivial) _)))
      fun found _ => ?_
    cases found with
    | none => trivial
    | some order =>
      dsimp only
      split_ifs
      · trivial
      exact wp_seq hI (hprepares (Prog.issues_rethrow ApiHost.prepares_initializeStore))
        fun _ _ => wp_processRefund hI
  | submitConsequentialAction request actor =>
    refine wp_seq hI ?_ fun _ _ => trivial
    refine wp_check hI fun customer _ => wp_check hI fun permission _ => wp_check hI fun _ _ =>
      wp_requireUpstream fun _ => ?_
    dsimp only
    split_ifs
    · trivial
    exact wp_seq hI (hprepares (Prog.issues_rethrow ApiHost.prepares_initializeStore))
      fun _ _ => wp_core api.engine (wp_submit hlawful)
  | confirmActionProposal id actor =>
    refine wp_seq hI ?_ fun _ _ => trivial
    refine wp_requireUpstream fun _ => ?_
    refine wp_seq hI (hprepares (Prog.issues_rethrow ApiHost.prepares_initializeStore)) fun _ _ =>
      wp_seq hI (hprepares ApiHost.prepares_ownedProposal) fun p _ => wp_check hI fun _ _ => ?_
    refine wp_seq hI (hprepares (Prog.issues_rethrow ((Prog.issues_perform _).2 trivial)))
      fun hex _ => ?_
    refine wp_seq hI (wp_core api.engine (wp_confirm hlawful)) fun confirmed _ => ?_
    cases ActionBridge.given confirmed.actionId with
    | none => trivial
    | some actionId =>
      exact hprepares (ApiTask.prepares_core (issues_tx trivial) fun _ => trivial)
  | runActionWorker worker owner leaseSeconds maxAttempts limit =>
    exact wp_seq hI (wp_runWorker hI fun _ => WorkflowEngine.wp_body hlawful trivial)
      fun _ _ => trivial
  | runReconciliationWorker worker staleSeconds limit =>
    exact wp_seq hI (wp_runWorker hI fun _ => WorkflowEngine.wp_body hlawful trivial)
      fun _ _ => trivial
  | _ => exact hprepares (ApiHost.prepares_body rfl rfl)

theorem planeLogic_sound : (api.planeLogic W old I).Sound :=
  (openCalls_sound api.engine W hI old).hosting (fun _ => rfl) fun _ call h => wp_body hI call h

theorem planeLogic_good {s : EngineState W} (hs : I s.db) (acts : List (api.system W).Move) :
    (api.planeLogic W (fun oid => ∃ r, s.db.outbox? oid = some r) I).Good
      ((api.system W).run ((api.system W).init s) acts) := by
  have h0 : ActionPlane.Inv (Contract.arbitrary W (fun oid => ∃ r, s.db.outbox? oid = some r) I)
      ((api.engine.system W openCalls).init s).hist := ActionPlane.inv_init fun _ => Iff.rfl
  exact (planeLogic_sound hI).good_run ⟨h0, hs⟩ acts

end ServicePlane

end

/-- Whatever the endpoints, the MCP tools, the turns and the workers do, a connector is called at
most once for an action and at most once for an idempotency key. -/
theorem host_dispatch_at_most_once {X : Sig} (api : ApiHost X) (W : World X) (s : EngineState W)
    (acts : List (api.system W).Move) :
    (∀ id, (api.history W s acts).trace.countP (isCall fun i _ => i = id) ≤ 1) ∧
    ∀ key, (api.history W s acts).trace.countP (isCall fun _ c => c.idempotencyKey = key) ≤ 1 := by
  have hi := (ServicePlane.planeLogic_good kept_true trivial acts : (api.planeLogic W _ _).Good
    ((api.system W).run ((api.system W).init s) acts)).inv.1
  exact ⟨hi.once, hi.callsFor_le⟩

/-- A stored action that was not there from the start was inserted in the run. -/
theorem created_of_stored {X : Sig} {api : ApiHost X} {W : World X} {s : EngineState W}
    {acts : List (api.system W).Move} {a : ActionRecord}
    (ha : (api.history W s acts).state.db.action? a.actionId = some a)
    (hnew : s.db.action? a.actionId = none) :
    ∃ record, Created (engineLog (api.history W s acts)) record ∧ record.actionId = a.actionId := by
  obtain ⟨x, hx, e, s', hres, hbefore, b, hb⟩ := System.entry_of_change
    (c := (api.system W).init s) (M := fun s => ∃ b, s.db.action? a.actionId = some b)
    (fun _ _ hm => hm) (by rintro ⟨b, hb⟩; cases hnew.symm.trans hb) ⟨a, ha⟩
  obtain ⟨τ, o, r⟩ := x
  cases o with
  | tx o =>
    have heffect := Tx.effect s'.clock e.ids s'.db o
    rcases heffect.action_cases hb with ⟨record, v, rfl, rfl⟩ | ⟨c, hc, -⟩
    · refine ⟨record, ⟨τ, v, ?_⟩, (Table.get?_eq_some.1 hb).2⟩
      have hr : r = ((Tx.insertAction record v).exec s'.clock e.ids s'.db).1 := hres
      have hstored : ∃ b, ((Tx.insertAction record v).exec s'.clock e.ids s'.db).2.action?
        a.actionId = some b := ⟨_, hb⟩
      generalize ((Tx.insertAction record v).exec s'.clock e.ids s'.db).1 = r',
        ((Tx.insertAction record v).exec s'.clock e.ids s'.db).2 = db' at heffect hr hstored
      subst hr
      cases heffect with
      | nothing => exact absurd hstored hbefore
      | inserted => exact hx
    · exact absurd ⟨c, hc⟩ hbefore
  | _ => exact absurd ⟨b, hb⟩ hbefore

/-- An action that the run has stored and that is still `AUTHORIZED` has its message in the outbox,
not yet delivered. -/
theorem host_authorized_pending {X : Sig} (api : ApiHost X) (W : World X) (s : EngineState W)
    (acts : List (api.system W).Move) (a : ActionRecord)
    (ha : (api.history W s acts).state.db.action? a.actionId = some a)
    (hnew : s.db.action? a.actionId = none) (hs : a.status = .authorized) :
    ∃ r ∈ (api.history W s acts).state.db.outbox.rows, WrittenSince s r ∧
      r.topic = "action.dispatch" ∧ r.names a.actionId ∧ r.status ≠ .delivered := by
  have hi := (ServicePlane.planeLogic_good kept_true trivial acts : (api.planeLogic W _ _).Good
    ((api.system W).run ((api.system W).init s) acts)).inv.1
  obtain ⟨record, hc, hid⟩ := created_of_stored ha hnew
  obtain ⟨oid, r, hr, hold, hm⟩ := hi.posted record hc
  obtain ⟨hrow, rfl⟩ := Table.get?_eq_some.1 hr
  simp only [OutboxRecord.message, Prod.mk.injEq] at hm
  have hn : r.names a.actionId := by simp [OutboxRecord.names, hm.2.2, Fields.get?, hid]
  refine ⟨r, hrow, ?_, hm.1, hn, fun hd => ?_⟩
  · by_contra hne
    exact hold (Option.ne_none_iff_exists'.1 hne)
  · obtain ⟨b, hb, hne⟩ := hi.delivered r.outboxId r hr hold hd _ hn
    obtain rfl := Option.some.inj (hb.symm.trans ha)
    exact hne hs

/-- The confirmation of the note has stored its action and not dispatched it yet. -/
def authorizedNote : List DeskMove :=
  .spawn (.createActionProposal deskNote representative) :: deskMoves 0 6 ++
    .spawn (.confirmActionProposal "APR-0.20" representative) :: deskMoves 1 12

theorem host_authorized_pending_note :
    ∃ r ∈ (deskHistory authorizedNote).state.db.outbox.rows,
      WrittenSince (⟨.empty, 0, ()⟩ : EngineState World.isolated) r ∧
        r.topic = "action.dispatch" ∧ r.names "ACT-1.100" ∧ r.status ≠ .delivered := by
  have hstored : ((deskHistory authorizedNote).state.db.action? "ACT-1.100").isSome = true := by
    decide +kernel
  have hstatus : ((deskHistory authorizedNote).state.db.action? "ACT-1.100").map (·.status) =
      some .authorized := by decide +kernel
  obtain ⟨a, ha⟩ := Option.isSome_iff_exists.1 hstored
  rw [ha] at hstatus
  obtain ⟨-, hid⟩ := Table.get?_eq_some.1 ha
  have hid : a.actionId = "ACT-1.100" := hid
  unfold deskHistory at ha ⊢
  rw [← hid] at ha ⊢
  exact host_authorized_pending apiDesk World.isolated ⟨.empty, 0, ()⟩ authorizedNote a ha rfl
    (Option.some.inj hstatus)

/-- The repository has been asked in the call for the order, and has answered with it. -/
def ApiHost.OrderRead {X : Sig} (api : ApiHost X) (orderId : String) (xs : List (Event (sig X)))
    (order : OrderRow) : Prop :=
  ∃ ys, Follows (Task.ext (api.orders orderId) : Task X (Option OrderRow)) ys (.ret (some order)) ∧
    ∀ y ∈ ys, y ∈ xs

/-- The parameters of a refund are those of its order, with the total as the amount. -/
theorem dump_of_refundFields {arguments : RefundArguments} {payload : ActionPayload}
    (h : ActionPayload.validate (CoreEngine.refundFields arguments) = some payload) :
    payload.dump = (CoreEngine.refundFields arguments).tail := by
  have hread : ActionPayload.validate (CoreEngine.refundFields arguments) =
      (ActionPayload.amount? (CoreEngine.refundFields arguments) "refund_amount").map fun amount =>
        .issueRefund arguments.order.orderId arguments.authenticatedCustomerId amount "USD"
          arguments.order.paymentMethod arguments.reason := by
    unfold ActionPayload.validate
    cases ActionPayload.amount? (CoreEngine.refundFields arguments) "refund_amount" <;> rfl
  have hamount : ActionPayload.amount? (CoreEngine.refundFields arguments) "refund_amount" =
      if h : 0 < arguments.order.amount.1 then
        some ⟨arguments.order.amount.1, arguments.order.amount.2, h⟩ else none := rfl
  rw [hread, hamount] at h
  split_ifs at h <;> cases h
  rfl

/-- The command refunds the total of the order to the customer of the order, whom the actor
serves. -/
structure ApiHost.Refunds {X : Sig} (api : ApiHost X) (db : Db) (request : RefundCommandRequest)
    (actor : UserContext) (xs : List (Event (sig X))) (order : OrderRow) (c : ActionCommand) :
    Prop where
  read : api.OrderRead request.orderId.1 xs order
  asked : order.orderId = request.orderId.1
  owner : order.customerId = request.customerId.1
  serves : actor.Serves order.customerId
  access : actor.MayAsk "issue_refund"
  eligible : (api.refundPolicy.evaluate order.orderId (.str order.customerId)
    (.str order.customerId) order.status (order.daysSinceDelivery.getD 0) order.total).eligible =
      true
  action : c.action = "issue_refund"
  parameters : c.parameters = [
    ("order_id", .str order.orderId), ("customer_id", .str order.customerId),
    ("refund_amount", .float order.total.1 order.total.2), ("currency", .str "USD"),
    ("payment_method", .str order.snapshot.paymentMethod), ("reason", .str request.reason.1)]
  byActor : c.actorId = actor.userId
  key : c.idempotencyKey = "refund:" ++ order.orderId
  caseId : c.caseId = refundCommandCaseId order.customerId order.orderId
  stored : db.CaseOf c.caseId order.customerId

theorem ApiHost.refunds_of_granted {X : Sig} {api : ApiHost X} {db : Db}
    {request : RefundCommandRequest} {actor : UserContext} {xs : List (Event (sig X))}
    {order : OrderRow} {r : ConsequentialActionRequest} {c : ActionCommand}
    (hread : api.OrderRead request.orderId.1 xs order) (hid : order.orderId = request.orderId.1)
    (hg : api.RefundGranted db request actor order r) (hfor : c.For r actor.userId) :
    api.Refunds db request actor xs order c := by
  have htag := ActionPayload.action_of_validate hg.payload
  have haction : r.payload.action = "issue_refund" := (Json.str.inj (Option.some.inj htag)).symm
  have hparameters := hfor.asks.parameters.trans (dump_of_refundFields hg.payload)
  have howner := hg.owner
  have hcase := hg.stored
  rw [hg.customerId, ← hfor.asks.caseId, ← howner] at hcase
  refine ⟨hread, hid, howner, ?_, hg.access, ?_, hfor.asks.action.trans haction, ?_, hfor.actor,
    hfor.asks.idempotencyKey.trans hg.key, ?_, hcase⟩
  · rw [howner]
    exact hg.serves
  · have heligible := hg.eligible
    rw [← howner] at heligible
    exact heligible
  · rw [← howner] at hparameters
    exact hparameters
  · rw [hfor.asks.caseId, hg.caseId, howner, hid]

/-- What a refund command may insert: a refund of the order that it has been answered with. -/
def ApiHost.Inserts {X : Sig} (api : ApiHost X) (db : Db) (call : ApiCall)
    (xs : List (Event (sig X))) (o : Op X) : Prop :=
  ∀ request actor, call = .createRefundCommand request actor →
    Op.within { acts := True, inserts := fun c =>
      ∃ order, api.Refunds db request actor xs order c } o

theorem ApiHost.heeds_inserts {X : Sig} {api : ApiHost X} {db : Db}
    (horders : ∀ id, (api.orders id).Yields (fun _ _ => True)
      fun found => ∀ order, found = some order → order.orderId = id)
    (call : ApiCall) (xs : List (Event (sig X))) :
    (api.body call).Heeds
      (fun o r => Op.Tells (ActionProposal.Typed False) db o r ∧ ⟨o, r⟩ ∈ xs)
      (api.Inserts db call xs) := by
  cases call with
  | createRefundCommand request actor =>
    have hread : (Task.ext (api.orders request.orderId.1) : Task X (Option OrderRow)).Yields
        (fun o r => Op.Tells (ActionProposal.Typed False) db o r ∧ ⟨o, r⟩ ∈ xs) fun found =>
        ∀ order, found = some order →
          api.OrderRead request.orderId.1 xs order ∧ order.orderId = request.orderId.1 := by
      refine Prog.yields_mono (fun found hfound order horder => ?_) (Prog.yields_and
        (Prog.yields_answers (fun _ _ h => h.2) (Prog.yields_followed _))
        (Prog.yields_lift (horders request.orderId.1)))
      subst horder
      exact ⟨hfound.1, hfound.2 order rfl⟩
    have hcommand : (api.createRefundCommand request actor).Heeds
        (fun o r => Op.Tells (ActionProposal.Typed False) db o r ∧ ⟨o, r⟩ ∈ xs)
        (Op.within { acts := True, inserts := fun c =>
          ∃ order, api.Refunds db request actor xs order c }) := by
      apply ApiHost.heeds_createRefundCommand (fun _ _ h => h.1) trivial hread
      intro order r c hknown hg hfor
      exact ⟨order, ApiHost.refunds_of_granted hknown.1 hknown.2 hg hfor⟩
    refine Prog.Heeds.mono (fun o h request' actor' he => ?_)
      (Prog.heeds_seq hcommand fun _ => trivial)
    cases he
    exact h
  | _ =>
    refine Prog.heeds_of_issues (Prog.Issues.mono (fun o _ request actor he => ?_)
      (Prog.issues_true _))
    cases he

/-- What a refund command has stored is the refund of the order that the repository has answered it
with, in full, to the customer of that order, under its key; and for this key a connector is called
at most once, whoever else uses it. -/
theorem refund_commands_once {X : Sig} (api : ApiHost X) (W : World X)
    (hv : Validates api.engine.validatePayload)
    (horders : ∀ id, (api.orders id).Yields (fun _ _ => True)
      fun found => ∀ order, found = some order → order.orderId = id)
    (s : EngineState W) (hs : ∀ id p, s.db.proposal? id = some p → p.Made)
    (acts : List (api.system W).Move) (request : RefundCommandRequest) (actor : UserContext)
    (x : Entry (sig X)) (hx : x ∈ (api.history W s acts).trace)
    (hcall : (api.history W s acts).calls[x.tid]? = some (.createRefundCommand request actor))
    (record : ActionRecord) (v : ℤ) (ho : x.op = .tx (.insertAction record v)) :
    (∃ order, api.Refunds (api.history W s acts).state.db request actor
      (((api.history W s acts).own x.tid).map Entry.event) order record.command) ∧
    (api.history W s acts).trace.countP
      (isCall fun _ c => c.idempotencyKey = "refund:" ++ request.orderId.1) ≤ 1 := by
  obtain ⟨call, hcall', hwithin⟩ := System.Answers.heeded_trace (A := apiAnswers api W False)
    (fun id p hp _ => hs id p hp) (apiAnswers_kept hv False.elim)
    (fun call _ xs => ApiHost.heeds_inserts horders call xs) hx
  obtain rfl := Option.some.inj (hcall'.symm.trans hcall)
  have hinserts := hwithin request actor rfl
  rw [ho] at hinserts
  exact ⟨hinserts.2, (host_dispatch_at_most_once api W s acts).2 _⟩

/-- What an operation inserts. -/
def Op.inserted {X : Sig} : Op X → Option (ActionRecord × ℤ)
  | .tx (.insertAction record v) => some (record, v)
  | _ => none

theorem Op.inserted_eq_some {X : Sig} {o : Op X} {record : ActionRecord} {v : ℤ} :
    o.inserted = some (record, v) ↔ o = .tx (.insertAction record v) := by
  cases o with
  | tx o => cases o <;> simp [inserted]
  | _ => simp [inserted]

def deskRefund : RefundCommandRequest where
  customerId := deskNote.customerId
  orderId := ⟨"ORD-1", by decide⟩
  reason := ⟨"damaged", by decide⟩
  consentEvidenceRef := ⟨"consent-1", by decide⟩

/-- The representative has the order refunded. -/
def refundedOrder : List DeskMove :=
  .spawn (.createRefundCommand deskRefund representative) :: deskMoves 0 30

theorem orders_desk (id : String) : (apiDesk.orders id).Yields (fun _ _ => True)
    fun found => ∀ order, found = some order → order.orderId = id := by
  intro order horder
  split_ifs at horder with hid
  cases horder
  exact hid.symm

theorem refund_commands_once_order :
    ∃ x record v, (deskHistory refundedOrder).trace[22]? = some x ∧
      x.op = .tx (.insertAction record v) ∧
      (∃ order, apiDesk.Refunds (deskHistory refundedOrder).state.db deskRefund representative
        (((deskHistory refundedOrder).own x.tid).map Entry.event) order record.command) ∧
      (deskHistory refundedOrder).trace.countP
        (isCall fun _ c => c.idempotencyKey = "refund:" ++ "ORD-1") ≤ 1 := by
  have hinserted : ((deskHistory refundedOrder).trace[22]?.bind fun x => x.op.inserted).isSome =
      true := by decide +kernel
  have htid : (deskHistory refundedOrder).trace[22]?.map (·.tid) = some 0 := by decide +kernel
  obtain ⟨⟨record, v⟩, hrecord⟩ := Option.isSome_iff_exists.1 hinserted
  obtain ⟨x, hx, hop⟩ := Option.bind_eq_some_iff.1 hrecord
  have hop := Op.inserted_eq_some.1 hop
  rw [hx] at htid
  have htid : x.tid = 0 := Option.some.inj htid
  have hspawned : (deskHistory refundedOrder).calls[0]?.isSome = true := by decide +kernel
  obtain ⟨call, hcall⟩ := Option.isSome_iff_exists.1 hspawned
  have hspawn := spawn_of_desk (List.mem_of_getElem? hcall)
  obtain rfl : call = .createRefundCommand deskRefund representative := by
    simpa [refundedOrder, deskMoves] using hspawn
  rw [← htid] at hcall
  unfold deskHistory at hx hcall ⊢
  exact ⟨x, record, v, hx, hop, refund_commands_once apiDesk World.isolated
    ActionPayload.validates orders_desk ⟨.empty, 0, ()⟩ (fun _ _ hp => by cases hp) refundedOrder
    deskRefund representative x (List.mem_of_getElem? hx) hcall record v hop⟩

end WorkflowEngine
