import WorkflowEngine.Proofs.Mediation

/-! What the endpoints answer with. Whoever asks for a proposal or an action is shown it only if it
is his own and of a customer that he serves, however the requests are interleaved; and whoever
submits or prepares one is answered with what the store has of his request. -/

namespace WorkflowEngine

open Interleave Relational SQLiteCoreStore

/-- The record is a former state of the stored proposal. -/
def Db.Shows (db : Db) (id : String) (p : ActionProposal) : Prop :=
  ∃ row, db.proposal? id = some row ∧ p.Becomes row

section
variable {X : Sig} {Q : ActionProposal → Prop} {db : Db} {id : String} {p : ActionProposal}

theorem yields_getProposal {β : Type} {R : β → Prop} {f : Option ActionProposal → Task X β}
    (hnone : (f none).Yields (Op.Tells Q db) R)
    (hf : ∀ p, db.Shows id p → (f (some p)).Yields (Op.Tells Q db) R) :
    ((SQLiteCoreStore.getActionProposal id).bind f).Yields (Op.Tells Q db) R := by
  refine Prog.yields_bind (R := fun found : Option ActionProposal => ∀ p, found = some p →
    Q p ∧ db.Shows id p) (fun _ hr => hr) fun found hr => ?_
  cases found with
  | none => exact hnone
  | some p => exact hf p (hr p rfl).2

namespace ActionBridge

theorem yields_transition (expected status : ActionProposalStatus)
    (evidence actionId : Option String) :
    (transitionActionProposal id expected status evidence actionId :
      Task X ActionProposal).Yields (Op.Tells Q db) (db.Shows id) :=
  Prog.yields_skip fun _ => yields_getProposal trivial fun _ hp => hp

theorem yields_transitionOrCurrent (status : ActionProposalStatus) (actionId : Option String) :
    (transitionOrCurrent id status actionId : Task X ActionProposal).Yields (Op.Tells Q db)
      (db.Shows id) := by
  refine Prog.yields_tryCatch (yields_transition _ _ _ _) fun exc => ?_
  cases exc with
  | actionConflict message => exact yields_getProposal trivial fun _ hp => hp
  | _ => trivial

theorem Read.shows {customerId : String} {actorId : Option String}
    (h : Read Q db id customerId actorId p) : db.Shows id p := h.stored

theorem yields_status (customerId : String) (actorId : Option String) :
    (status id customerId actorId : Task X ActionProposal).Yields (Op.Tells Q db)
      fun p => db.Shows id p ∧ ∃ q, Read Q db id customerId actorId q := by
  refine Prog.yields_bind (yields_getOwned _ _ _) fun q hq => ?_
  have hnow : (Prog.ret q : Task X ActionProposal).Yields (Op.Tells Q db)
      fun p => db.Shows id p ∧ ∃ q, Read Q db id customerId actorId q := ⟨hq.shows, q, hq⟩
  split_ifs
  · refine Prog.yields_skip fun late => ?_
    cases late with
    | true =>
      refine Prog.yields_mono (fun p hp => ⟨?_, q, hq⟩) (yields_transitionOrCurrent _ _)
      rw [← hq.proposal_id]
      exact hp
    | false => exact hnow
  · exact hnow

theorem yields_cancel (context : ActionConfirmationContext) :
    (cancel id context : Task X ActionProposal).Yields (Op.Tells Q db) (db.Shows id) := by
  refine Prog.yields_bind (yields_getOwned _ _ _) fun q hq => ?_
  split
  · exact hq.shows
  · refine Prog.yields_skip fun (found : Option ActionRecord) => ?_
    cases found with
    | some existing =>
      have hid := hq.proposal_id
      exact hid ▸ yields_transitionOrCurrent _ _
    | none => exact yields_transition _ _ _ _
  · trivial

theorem yields_recordConfirmed (context : ActionConfirmationContext) (action : ActionRecord) :
    (recordConfirmed p context action : Task X ActionProposal).Yields (Op.Tells Q db)
      (db.Shows p.proposalId) := by
  refine Prog.yields_tryCatch (yields_transition _ _ _ _) fun exc => ?_
  cases exc with
  | actionConflict message =>
    refine Prog.yields_bind (yields_getOwned _ _ _) fun current hcurrent => ?_
    split_ifs
    · exact hcurrent.shows
    · trivial
  | _ => trivial

theorem yields_confirm (bridge : ActionBridge X) (context : ActionConfirmationContext) :
    (bridge.confirm id context).Yields (Op.Tells Q db) (db.Shows id) := by
  refine Prog.yields_bind (yields_getOwned _ _ _) fun q hq => ?_
  have hid := hq.proposal_id
  split
  · exact hq.shows
  · refine Prog.yields_skip fun late => ?_
    cases late with
    | true => exact hid ▸ yields_transitionOrCurrent _ _
    | false =>
      refine Prog.yields_skip fun _ => Prog.yields_skip fun _ => Prog.yields_skip fun _ =>
        Prog.yields_skip fun action => ?_
      exact hid ▸ yields_recordConfirmed _ _
  · trivial

end ActionBridge

/-- The record is of a proposal of the actor's own. -/
def ActionProposal.ShownTo (p : ActionProposal) (db : Db) (actor : UserContext) (id : String) :
    Prop :=
  db.Shows id p ∧ p.actorId = actor.userId ∧ actor.Serves p.customerId

theorem shownTo_of_owns {actor : UserContext} (hp : db.Shows id p) (ho : db.Owns actor id) :
    p.ShownTo db actor id := by
  refine ⟨hp, ?_⟩
  obtain ⟨row, hrow, hb⟩ := hp
  obtain ⟨row', hrow', hactor, hserves⟩ := ho
  obtain rfl := Option.some.inj (hrow.symm.trans hrow')
  have hbecame : row.actorId = p.actorId := hb.keeps (·.actorId) fun _ _ _ _ _ => rfl
  rw [← hb.customerId, ← hbecame]
  exact ⟨hactor, hserves⟩

/-- The action is the actor's own, in the case of a customer that he serves. -/
def ActionRecord.ShownTo (a : ActionRecord) (db : Db) (actor : UserContext) (id : String) : Prop :=
  a.actionId = id ∧ a.command.actorId = actor.userId ∧
    ∃ customerId, actor.Serves customerId ∧ db.CaseOf a.command.caseId customerId

/-- The action answers a request that the actor may make, in a case of a customer that he serves. -/
structure ActionRecord.ServedTo (a : ActionRecord) (db : Db) (actor : UserContext)
    (request : ConsequentialActionRequest) : Prop where
  answered : request.AnsweredBy db a
  access : actor.MayAsk request.payload.action
  serves : actor.Serves request.customerId
  case : db.CaseOf request.caseId request.customerId

/-- The proposal is stored as one that the actor may have prepared. -/
structure ActionProposal.PreparedIn (p : ActionProposal) (db : Db) (profile : String)
    (actor : UserContext) : Prop where
  shown : db.Shows p.proposalId p
  prepared : p.PreparedBy profile actor

/-- What a call may be answered with. A confirmation shows the action that the proposal names,
whoever has submitted it. -/
def ApiCall.Answered (profile : String) (db : Db) : ApiCall → ApiReply → Prop
  | .createRefundCommand request actor, reply =>
    ∃ (a : ActionRecord) (r : ConsequentialActionRequest),
      reply = .refund a.actionId a.status a.outcome ∧ a.ServedTo db actor r ∧
      r.payload.action = "issue_refund" ∧ r.customerId = request.customerId.1 ∧
      r.caseId = refundCommandCaseId request.customerId.1 request.orderId.1
  | .submitConsequentialAction request actor, reply =>
    ∃ a, reply = .action a ∧ a.ServedTo db actor request
  | .createActionProposal request actor, reply => ∃ p, reply = .proposal p ∧
    p.PreparedIn db profile actor ∧ p.action = request.action.1 ∧
    p.customerId = request.customerId.1
  | .getActionProposal id actor, reply => ∃ p, reply = .proposal p ∧ p.ShownTo db actor id
  | .cancelActionProposal id actor, reply => ∃ p, reply = .proposal p ∧ p.ShownTo db actor id
  | .confirmActionProposal id actor, reply =>
    ∃ p action, reply = .confirmed p action ∧ p.ShownTo db actor id ∧
      ∀ a, action = some a → p.actionId = some a.actionId ∧ a.StoredIn db
  | .getActionStatus id actor, reply => ∃ a events, reply = .actionStatus a events ∧
    a.StoredIn db ∧ a.ShownTo db actor id ∧ ∀ e ∈ events, e.actionId = id ∧ e ∈ db.events.rows
  | .actionsPrepare context action .., reply => ∃ (p : ActionProposal) (actor : UserContext),
    reply = .safe p.safe ∧ context.request.bind (·.user) = some actor ∧
    p.PreparedIn db profile actor ∧ p.action = action
  | .actionsGetStatus context id, reply => ∃ (p : ActionProposal) (actor : UserContext),
    reply = .safe p.safe ∧ context.request.bind (·.user) = some actor ∧ p.ShownTo db actor id
  | .converse turn, reply => ∃ records, reply = .prepared records ∧
    ∀ p, some p ∈ records → p.PreparedIn db profile turn.actor ∧ p.customerId = turn.customerId
  | .runActionWorker actor .., reply => ∃ run, reply = .worker run ∧ ∀ a, actor = some a →
    a.role = .admin ∨ a.hasPermission "admin:write" = true
  | .runReconciliationWorker actor .., reply => ∃ run, reply = .worker run ∧ ∀ a, actor = some a →
    a.role = .admin ∨ a.hasPermission "admin:write" = true

namespace ApiHost

variable {api : ApiHost X} {actor : UserContext}

theorem Found.proposal_id (h : Found Q db actor id p) : p.proposalId = id := by
  obtain ⟨row, hrow, hb⟩ := h.stored
  exact (hb.keeps (·.proposalId) fun _ _ _ _ _ => rfl).symm.trans (Table.get?_eq_some.1 hrow).2

theorem yields_getActionProposal :
    (getActionProposal id actor : ApiTask X ActionProposal).Yields (Op.Tells Q db)
      (·.ShownTo db actor id) := by
  refine Prog.yields_skip fun _ => Prog.yields_bind (yields_ownedProposal _ _) fun q hq => ?_
  rw [hq.proposal_id]
  exact Prog.yields_rethrow (Prog.yields_mono
    (fun p (hp : db.Shows id p ∧ _) => shownTo_of_owns hp.1 hq.owns)
      (ActionBridge.yields_status _ _))

theorem yields_cancelActionProposal :
    (cancelActionProposal id actor : ApiTask X ActionProposal).Yields (Op.Tells Q db)
      (·.ShownTo db actor id) := by
  refine Prog.yields_skip fun _ => Prog.yields_bind (yields_ownedProposal _ _) fun q hq => ?_
  exact Prog.yields_rethrow (Prog.yields_mono (fun p hp => shownTo_of_owns hp hq.owns)
    (ActionBridge.yields_cancel _))

theorem yields_getAction : (getAction id : Task X (Option ActionRecord)).Yields (Op.Tells Q db)
    fun found => ∀ a, found = some a → a.actionId = id ∧ a.StoredIn db :=
  fun _ hr => hr

theorem given_eq_some {text : Option String} {t : String} (h : ActionBridge.given text = some t) :
    text = some t := by
  unfold ActionBridge.given at h
  split at h
  · cases h
  · exact h

theorem yields_confirmActionProposal :
    (api.confirmActionProposal id actor).Yields (Op.Tells Q db) fun r =>
      r.1.ShownTo db actor id ∧
        ∀ a, r.2 = some a → r.1.actionId = some a.actionId ∧ a.StoredIn db := by
  refine Prog.yields_skip fun _ => Prog.yields_skip fun _ =>
    Prog.yields_bind (yields_ownedProposal _ _) fun q hq => ?_
  refine Prog.yields_skip fun _ => Prog.yields_skip fun hex => ?_
  refine Prog.yields_bind (R := fun p => p.ShownTo db actor id) (Prog.yields_rethrow
    (Prog.yields_mono (fun p hp => shownTo_of_owns hp hq.owns) (ActionBridge.yields_confirm _ _)))
    fun confirmed hconfirmed => ?_
  cases hgiven : ActionBridge.given confirmed.actionId with
  | none => exact ⟨hconfirmed, fun a ha => by cases ha⟩
  | some actionId =>
    refine Prog.yields_bind (Prog.yields_rethrow yields_getAction) fun found hfound => ?_
    refine ⟨hconfirmed, fun a ha => ?_⟩
    obtain ⟨hid, hstored⟩ := hfound a ha
    exact ⟨hid.symm ▸ given_eq_some hgiven, hstored⟩

theorem yields_getActionStatus :
    (getActionStatus id actor : ApiTask X (ActionRecord × List ActionEvent)).Yields
      (Op.Tells Q db) fun r => r.1.StoredIn db ∧ r.1.ShownTo db actor id ∧
        ∀ e ∈ r.2, e.actionId = id ∧ e ∈ db.events.rows := by
  refine Prog.yields_skip fun _ => ?_
  refine Prog.yields_bind (Prog.yields_rethrow yields_getAction) fun found hfound => ?_
  cases found with
  | none => trivial
  | some a =>
    obtain ⟨hid, hstored⟩ := hfound a rfl
    refine Prog.yields_bind (R := fun found : Option CaseRecord => ∀ c, found = some c →
      db.CaseOf a.command.caseId c.customerId) (fun _ hr => hr) fun found hcase => ?_
    cases found with
    | none => trivial
    | some case =>
      refine ApiTask.yields_check fun customer hc => ?_
      dsimp only
      split_ifs with hactor
      · trivial
      · refine Prog.yields_bind (R := fun events : List ActionEvent => ∀ e ∈ events,
          e.actionId = id ∧ e ∈ db.events.rows) (fun _ hr => hr) fun events hevents => ?_
        exact ⟨hstored, ⟨hid, not_not.1 hactor, case.customerId, (serves_of_resolve hc).2,
          hcase case rfl⟩, hevents⟩

/-- A submission that answers has found or made the case of the request's customer. -/
theorem yields_submit_case (service : ConsequentialActionService X)
    (request : ConsequentialActionRequest) (actorId : String) :
    (service.submit request actorId).Yields (Op.Tells Q db)
      fun _ => db.CaseOf request.caseId request.customerId := by
  refine Prog.yields_skip fun (found : Option ActionRecord) => ?_
  cases found with
  | none =>
    refine Prog.yields_bind (R := fun _ => db.CaseOf request.caseId request.customerId) ?_
      fun a hcase => Prog.yields_const hcase _
    unfold ConsequentialActionService.authorizeNew
    cases specification? request.payload.action with
    | none => trivial
    | some specification =>
      refine Prog.yields_skip fun loaded => ?_
      exact Prog.yields_bind ConsequentialActionService.yields_openCase fun _ hcase =>
        Prog.yields_const hcase _
  | some duplicate =>
    simp only [ConsequentialActionService.replay, Prog.bind_eq, Prog.throw_eq, Prog.bind_raise]
    split_ifs with hmatches
    · trivial
    · refine Prog.yields_bind (R := fun found : Option CaseRecord => ∀ c, found = some c →
        db.CaseOf duplicate.command.caseId c.customerId) (fun _ hr => hr) fun found hcase => ?_
      cases found with
      | none => trivial
      | some case =>
        dsimp only
        split_ifs with hcustomer
        · trivial
        · have hid := (ConsequentialActionRequest.replayMatches_iff.1 (by simpa using hmatches)).1
          have hcase := hcase case rfl
          rw [hid, not_not.1 hcustomer] at hcase
          exact Prog.yields_const hcase _

theorem yields_submit_served (service : ConsequentialActionService X)
    {request : ConsequentialActionRequest} (haccess : actor.MayAsk request.payload.action)
    (hserves : actor.Serves request.customerId) (actorId : String) :
    (service.submit request actorId).Yields (Op.Tells Q db) (·.ServedTo db actor request) :=
  Prog.yields_mono (fun _ h => ⟨h.1, haccess, hserves, h.2⟩) (Prog.yields_and
    (Prog.yields_answers (fun _ _ => Op.trueOf_of_tells) (yields_submit service request actorId))
    (yields_submit_case service request actorId))

theorem yields_createRefundCommand {request : RefundCommandRequest} :
    (api.createRefundCommand request actor).Yields (Op.Tells Q db) fun a =>
      ∃ r : ConsequentialActionRequest, a.ServedTo db actor r ∧
        r.payload.action = "issue_refund" ∧ r.customerId = request.customerId.1 ∧
        r.caseId = refundCommandCaseId request.customerId.1 request.orderId.1 := by
  refine ApiTask.yields_check fun customer hc => Prog.yields_skip fun _ => ?_
  obtain ⟨hid, hserves⟩ := serves_of_resolve hc
  dsimp only
  split_ifs with hrefused
  · trivial
  refine Prog.yields_skip fun (found : Option OrderRow) => ?_
  cases found with
  | none => trivial
  | some order =>
    dsimp only
    split_ifs
    · trivial
    refine Prog.yields_skip fun _ => Prog.yields_rethrow ?_
    simp only [CoreEngine.processRefund]
    split_ifs
    · trivial
    refine Prog.yields_bind (Prog.yields_ofExcept fun r hr => refundRequest_ok hr) fun r hr => ?_
    obtain ⟨hpayload, hcaseId, hcustomer, -⟩ := hr
    rw [hid] at hcaseId hcustomer
    have htag := ActionPayload.action_of_validate hpayload
    have haction : r.payload.action = "issue_refund" := (Json.str.inj (Option.some.inj htag)).symm
    have haccess : actor.MayAsk r.payload.action := by
      rw [haction]
      refine ⟨"refund:write", rfl, ?_⟩
      by_cases hrole : actor.role = .customer
      · exact Or.inl ⟨hrole, rfl⟩
      · exact Or.inr (Or.inr (by simpa [hrole] using hrefused))
    refine Prog.yields_mono (fun a ha => ⟨r, ha, haction, hcustomer, hcaseId⟩)
      (yields_submit_served _ haccess ?_ _)
    rw [hcustomer]
    exact hserves

theorem yields_submitConsequentialAction {request : ConsequentialActionRequest} :
    (api.submitConsequentialAction request actor).Yields (Op.Tells Q db)
      (·.ServedTo db actor request) := by
  refine ApiTask.yields_check fun customer hc => ApiTask.yields_check fun permission hp =>
    ApiTask.yields_check fun _ hgranted => Prog.yields_skip fun _ => ?_
  dsimp only
  split_ifs
  · trivial
  refine Prog.yields_skip fun _ => Prog.yields_rethrow ?_
  exact yields_submit_served _ (mayAsk_of_permissionOf hp hgranted) (serves_of_resolve hc).2 _

/-- A proposal for the actor, which is stored when it is answered. -/
theorem yields_propose {request : ActionRequest}
    (hserves : request.actor.Serves request.customerId) :
    (api.propose request).Yields (Op.Tells Q db) fun p =>
      p.PreparedIn db api.proposals.jurisdictionProfile request.actor ∧
        p.action = request.action ∧ p.customerId = request.customerId := by
  refine ApiTask.yields_check fun prepared hprepared => Prog.yields_rethrow ?_
  obtain ⟨_, haccess, hrest⟩ := Fallible.bind_eq_ok.1 hprepared
  obtain ⟨found, hpolicy, hrest⟩ := Fallible.bind_eq_ok.1 hrest
  cases hrest
  refine ActionBridge.yields_propose_bound _ fun context' prepared now hex hb hcreated => ?_
  have hcustomer := congrArg TrustedActionContext.customerId hb
  exact ⟨⟨hcreated rfl, preparedBy_of_context hb rfl hserves (mayAsk_of_access haccess)
    (governs_of_actionPolicy hpolicy) rfl rfl⟩, rfl, hcustomer⟩

theorem yields_createActionProposal {request : ActionProposalRequest} :
    (api.createActionProposal request actor).Yields (Op.Tells Q db) fun p =>
      p.PreparedIn db api.proposals.jurisdictionProfile actor ∧ p.action = request.action.1 ∧
        p.customerId = request.customerId.1 := by
  refine ApiTask.yields_check fun customer hc => Prog.yields_skip fun _ =>
    Prog.yields_skip fun _ => ?_
  obtain ⟨hid, hserves⟩ := serves_of_resolve hc
  rw [← hid] at hserves ⊢
  refine Prog.yields_mono ?_ (yields_propose ?_)
  · exact fun _ hp => hp
  · exact hserves

theorem yields_prepareIntents {turn : TurnIntents} {customer : CustomerContext}
    (hserves : turn.actor.Serves customer.customerId) (raws : List Fields) :
    (api.prepareIntents turn customer raws).Yields (Op.Tells Q db) fun records =>
      ∀ p, some p ∈ records → p.PreparedIn db api.proposals.jurisdictionProfile turn.actor ∧
        p.customerId = customer.customerId := by
  induction raws with
  | nil =>
    intro p hp
    exact absurd hp List.not_mem_nil
  | cons raw rest ih =>
    have hone : (Prog.tryCatch (do
        let request ← ApiTask.check (turn.request customer raw)
        return some (← api.propose request)) (fun _ => return none) :
          ApiTask X (Option ActionProposal)).Yields (Op.Tells Q db) fun prepared =>
        ∀ p, prepared = some p →
          p.PreparedIn db api.proposals.jurisdictionProfile turn.actor ∧
            p.customerId = customer.customerId := by
      refine Prog.yields_tryCatch ?_ fun _ p hp => by cases hp
      refine ApiTask.yields_check fun request hr => ?_
      obtain ⟨hactor, hcustomer⟩ := TurnIntents.request_fields hr
      rw [← hactor, ← hcustomer] at hserves ⊢
      refine Prog.yields_bind (yields_propose hserves) fun p hp q hq => ?_
      cases hq
      exact ⟨hp.1, hp.2.2⟩
    refine Prog.yields_bind hone fun prepared hprepared => ?_
    refine Prog.yields_bind ih fun records hrecords => ?_
    intro p hp
    rcases List.mem_cons.1 hp with hp | hp
    · exact hprepared p hp.symm
    · exact hrecords p hp

theorem yields_converse {turn : TurnIntents} :
    (api.converse turn).Yields (Op.Tells Q db) fun records => ∀ p, some p ∈ records →
      p.PreparedIn db api.proposals.jurisdictionProfile turn.actor ∧
        p.customerId = turn.customerId := by
  refine ApiTask.yields_check fun customer hc => Prog.yields_skip fun _ => ?_
  obtain ⟨hid, hserves⟩ := serves_of_resolve hc
  rw [← hid] at hserves ⊢
  exact yields_prepareIntents hserves _

theorem yields_actionsPrepare {context : McpContext} {action : String} {arguments : Fields}
    {resourceType resourceId : Option String} :
    (api.actionsPrepare context action arguments resourceType resourceId).Yields (Op.Tells Q db)
      fun shown => ∃ (p : ActionProposal) (actor : UserContext), shown = p.safe ∧
        context.request.bind (·.user) = some actor ∧
        p.PreparedIn db api.proposals.jurisdictionProfile actor ∧ p.action = action := by
  refine ApiTask.yields_check fun _ _ => ApiTask.yields_check fun trusted htrusted => ?_
  obtain ⟨actor, hd⟩ := derived_of_resolve htrusted
  obtain ⟨policy, hgoverns, hpackage, hversion⟩ := hd.policy
  have haccess := hd.access action rfl
  rw [given_of_mayAsk haccess] at hgoverns
  have hproposed : (api.engine.bridge.propose api.proposals.host.refundPolicy
      api.proposals.host.ttlSeconds { action, arguments, resourceType, resourceId }
        trusted).Yields (Op.Tells Q db) fun p =>
      p.PreparedIn db api.proposals.jurisdictionProfile actor ∧ p.action = action := by
    refine ActionBridge.yields_propose_bound _ fun context' prepared now hex hb hcreated => ?_
    exact ⟨⟨hcreated rfl, preparedBy_of_context hb hd.byActor hd.customer haccess hgoverns
      hpackage hversion⟩, rfl⟩
  exact Prog.yields_bind (Prog.yields_rethrow hproposed)
    fun p hp => ⟨p, actor, rfl, hd.user, hp⟩

theorem yields_runWorker {worker : Option UserContext} {run : Call X} :
    (api.runWorker worker run).Yields (Op.Tells Q db) fun _ => ∀ a, worker = some a →
      a.role = .admin ∨ a.hasPermission "admin:write" = true := by
  cases worker with
  | none => exact Prog.yields_mono (fun _ _ _ ha => by cases ha) (Prog.yields_true _)
  | some actor =>
    refine ApiTask.yields_check fun _ hgranted => ?_
    refine Prog.yields_mono (fun _ _ a ha => ?_) (Prog.yields_true _)
    cases ha
    exact permitted_of_require hgranted

theorem yields_actionsGetStatus {context : McpContext} :
    (api.actionsGetStatus context id).Yields (Op.Tells Q db) fun shown =>
      ∃ (p : ActionProposal) (actor : UserContext), shown = p.safe ∧
        context.request.bind (·.user) = some actor ∧
        p.ShownTo db actor id := by
  refine ApiTask.yields_check fun trusted htrusted => ?_
  obtain ⟨actor, hd⟩ := derived_of_resolve htrusted
  refine Prog.yields_bind (Prog.yields_rethrow (ActionBridge.yields_status _ _))
    fun p hp => ⟨p, actor, rfl, hd.user, ?_⟩
  obtain ⟨hshows, q, hq⟩ := hp
  refine shownTo_of_owns hshows ?_
  obtain ⟨row, hrow, hb⟩ := hq.stored
  have hbecame : row.actorId = q.actorId := hb.keeps (·.actorId) fun _ _ _ _ _ => rfl
  refine ⟨row, hrow, (hbecame.trans (hq.actor _ rfl)).trans hd.byActor, ?_⟩
  rw [hb.customerId, hq.customer]
  exact hd.customer

theorem yields_body (call : ApiCall) :
    (api.body call).Yields (Op.Tells Q db)
      (call.Answered api.proposals.jurisdictionProfile db) := by
  cases call with
  | createRefundCommand request actor =>
    refine Prog.yields_bind yields_createRefundCommand fun a ha => ?_
    obtain ⟨r, hserved, hcustomer, hcase⟩ := ha
    exact ⟨a, r, rfl, hserved, hcustomer, hcase⟩
  | submitConsequentialAction request actor =>
    exact Prog.yields_bind yields_submitConsequentialAction fun a ha => ⟨a, rfl, ha⟩
  | createActionProposal request actor =>
    exact Prog.yields_bind yields_createActionProposal fun p hp => ⟨p, rfl, hp⟩
  | getActionProposal id actor =>
    exact Prog.yields_bind yields_getActionProposal fun p hp => ⟨p, rfl, hp⟩
  | cancelActionProposal id actor =>
    exact Prog.yields_bind yields_cancelActionProposal fun p hp => ⟨p, rfl, hp⟩
  | confirmActionProposal id actor =>
    exact Prog.yields_bind yields_confirmActionProposal fun p hp => ⟨p.1, p.2, rfl, hp⟩
  | getActionStatus id actor =>
    exact Prog.yields_bind yields_getActionStatus fun a ha => ⟨a.1, a.2, rfl, ha⟩
  | actionsPrepare context action arguments resourceType resourceId =>
    refine Prog.yields_bind yields_actionsPrepare fun shown hshown => ?_
    obtain ⟨p, actor, rfl, hp⟩ := hshown
    exact ⟨p, actor, rfl, hp⟩
  | actionsGetStatus context id =>
    refine Prog.yields_bind yields_actionsGetStatus fun shown hshown => ?_
    obtain ⟨p, actor, rfl, hp⟩ := hshown
    exact ⟨p, actor, rfl, hp⟩
  | converse turn =>
    exact Prog.yields_bind yields_converse fun records hrecords => ⟨records, rfl, hrecords⟩
  | runActionWorker actor owner leaseSeconds maxAttempts limit =>
    exact Prog.yields_bind yields_runWorker fun run hrun => ⟨run, rfl, hrun⟩
  | runReconciliationWorker actor staleSeconds limit =>
    exact Prog.yields_bind yields_runWorker fun run hrun => ⟨run, rfl, hrun⟩

end ApiHost

end

end WorkflowEngine
