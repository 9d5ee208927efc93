import WorkflowEngine.Sanity.Endpoints

/-! What each endpoint keeps to. An endpoint checks its actor against the permissions and the
customer before it calls the core, and the answers of the store connect these checks with what
the core then inserts, creates or decides. -/

namespace WorkflowEngine

open Interleave Relational SQLiteCoreStore

/-- The customer context that `resolve_customer_context` grants. -/
def UserContext.Serves (actor : UserContext) (customerId : String) : Prop :=
  if actor.role = .customer then actor.userId = customerId
  else actor.hasPermission "customer:read" = true

/-- The actor has the permission for the action. Customers need none for a refund. -/
def UserContext.MayAsk (actor : UserContext) (action : String) : Prop :=
  ∃ permission, actionPermissions.lookup action = some permission ∧
    (actor.role = .customer ∧ action = "issue_refund" ∨ actor.role = .admin ∨
      actor.hasPermission permission = true)

theorem serves_of_resolve {actor : UserContext} {customerId : String} {customer : CustomerContext}
    (h : resolveCustomerContext actor customerId = .ok customer) :
    customer.customerId = customerId ∧ actor.Serves customerId := by
  unfold resolveCustomerContext at h
  unfold UserContext.Serves
  split_ifs at h ⊢ with hrole hid hread <;> cases h
  · exact ⟨rfl, not_not.1 hid⟩
  · exact ⟨rfl, by simpa using hread⟩

theorem permitted_of_require {actor : UserContext} {permission : String}
    (h : requirePermission actor permission = .ok ()) :
    actor.role = .admin ∨ actor.hasPermission permission = true := by
  unfold requirePermission at h
  split_ifs at h with hp
  by_cases hadmin : actor.role = .admin
  · exact Or.inl hadmin
  · exact Or.inr (by simpa [hadmin] using hp)

theorem mayAsk_of_access {actor : UserContext} {action : String}
    (h : requireActionAccess actor action = .ok ()) : actor.MayAsk action := by
  unfold requireActionAccess at h
  cases hl : actionPermissions.lookup action with
  | none =>
    rw [hl] at h
    cases h
  | some permission =>
    simp only [hl] at h
    refine ⟨permission, hl, ?_⟩
    split_ifs at h with hself
    · exact Or.inl hself
    · exact Or.inr (permitted_of_require h)

/-- A policy of the procedure that allows the action. -/
def Governs (profile action procedureId : String) (policy : HostPolicy) : Prop :=
  (policyByProcedure profile).lookup procedureId = some policy ∧ action ∈ policy.allowedActions

theorem governs_default {profile action : String} {found : String × HostPolicy}
    (h : defaultPolicy profile action = .ok found) : Governs profile action found.1 found.2 := by
  unfold defaultPolicy at h
  cases hl : defaultProcedureByAction.lookup action with
  | none =>
    rw [hl] at h
    cases h
  | some procedureId =>
    simp only [hl] at h
    cases hp : (policyByProcedure profile).lookup procedureId with
    | none =>
      rw [hp] at h
      cases h
    | some policy =>
      rw [hp] at h
      cases h
      refine ⟨hp, ?_⟩
      -- the table of default procedures names an allowing one for each of its actions
      obtain ⟨l1, l2, hsplit, -⟩ := List.lookup_eq_some_iff.1 hl
      have hmem : (action, procedureId) ∈ defaultProcedureByAction := hsplit ▸ by simp
      simp only [defaultProcedureByAction, List.mem_cons, Prod.mk.injEq, List.not_mem_nil,
        or_false] at hmem
      rcases hmem with ⟨rfl, rfl⟩ | ⟨rfl, rfl⟩ | ⟨rfl, rfl⟩ | ⟨rfl, rfl⟩ | ⟨rfl, rfl⟩ | ⟨rfl, rfl⟩ |
        ⟨rfl, rfl⟩ | ⟨rfl, rfl⟩ | ⟨rfl, rfl⟩ | ⟨rfl, rfl⟩ <;> cases hp <;>
        simp [activeRefundPolicy, activeRegEPolicy, activeFraudPolicy]

theorem governs_of_actionPolicy {profile action : String} {requested : Option String}
    {found : String × HostPolicy} (h : actionPolicy profile action requested = .ok found) :
    Governs profile action found.1 found.2 := by
  have hchosen : ∀ chosen : String × HostPolicy,
      (policyByProcedure profile).lookup chosen.1 = some chosen.2 →
      (if action ∈ chosen.2.allowedActions then .ok chosen else defaultPolicy profile action) =
        .ok found → Governs profile action found.1 found.2 := by
    intro chosen hlookup hif
    split_ifs at hif with hin
    · cases hif
      exact ⟨hlookup, hin⟩
    · exact governs_default hif
  unfold actionPolicy at h
  dsimp only at h
  cases hr : requested.bind fun procedureId =>
      ((policyByProcedure profile).lookup procedureId).map (procedureId, ·) with
  | some chosen =>
    simp only [hr] at h
    obtain ⟨procedureId, -, hp⟩ := Option.bind_eq_some_iff.1 hr
    obtain ⟨policy, hpolicy, rfl⟩ := Option.map_eq_some_iff.1 hp
    exact hchosen _ hpolicy h
  | none =>
    simp only [hr] at h
    obtain ⟨chosen, hd, h⟩ := Fallible.bind_eq_ok.1 h
    exact hchosen chosen (governs_default hd).1 h

/-- The action is one that the actor may ask for. The payload of a proposal may name another action
than the proposal, unless its arguments are tagged with it (`tagged`) or it is a refund. -/
structure Mediated (tagged : Prop) (db : Db) (actor : UserContext) (command : ActionCommand) :
    Prop where
  byActor : command.actorId = actor.userId
  access : ∃ asked, actor.MayAsk asked ∧
    (tagged ∨ asked = "issue_refund" → command.action = asked)
  case : ∃ customerId, actor.Serves customerId ∧ db.CaseOf command.caseId customerId

namespace ActionProposal

/-- The payload of a proposal whose arguments are tagged, or that is a refund, is its own. -/
def Typed (tagged : Prop) (p : ActionProposal) : Prop :=
  tagged ∨ p.action = "issue_refund" → p.Made

/-- The proposal is one that the actor may have prepared. -/
structure PreparedBy (profile : String) (actor : UserContext) (p : ActionProposal) : Prop where
  byActor : p.actorId = actor.userId
  customer : actor.Serves p.customerId
  access : actor.MayAsk p.action
  policy : ∃ policy, Governs profile p.action p.procedureId policy ∧
    p.policyPackageId = policy.packageId ∧ p.procedureVersion = policy.version

end ActionProposal

/-- The proposal is the actor's own, for a customer that the actor serves. -/
def Db.Owns (db : Db) (actor : UserContext) (proposalId : String) : Prop :=
  ∃ p, db.proposal? proposalId = some p ∧ p.actorId = actor.userId ∧ actor.Serves p.customerId

/-- An intent is prepared for the actor and the customer of its turn. -/
theorem TurnIntents.request_fields {turn : TurnIntents} {customer : CustomerContext} {raw : Fields}
    {request : ActionRequest} (h : turn.request customer raw = .ok request) :
    request.actor = turn.actor ∧ request.customerId = customer.customerId := by
  obtain ⟨resource, -, h⟩ := Fallible.bind_eq_ok.1 h
  cases ha : raw.get? "action" with
  | none =>
    simp only [ha] at h
    cases h
  | some action =>
    simp only [ha] at h
    obtain ⟨arguments, -, h⟩ := Fallible.bind_eq_ok.1 h
    cases h
    exact ⟨rfl, rfl⟩

namespace ApiTask

variable {X : Sig} {α β : Type} {A : (o : Op X) → o.Res → Prop} {P : Op X → Prop} {R : β → Prop}

theorem heeds_check {x : Except TurnError α} {f : α → ApiTask X β}
    (hf : ∀ a, x = .ok a → (f a).Heeds A P) : ((ApiTask.check x).bind f).Heeds A P := by
  cases x with
  | ok a => exact hf a rfl
  | error e => trivial

theorem yields_check {x : Except TurnError α} {f : α → ApiTask X β}
    (hf : ∀ a, x = .ok a → (f a).Yields A R) : ((ApiTask.check x).bind f).Yields A R := by
  cases x with
  | ok a => exact hf a rfl
  | error e => trivial

theorem heeds_core {p : Task X α} {f : α → ApiTask X β} (hp : p.Heeds A P)
    (hf : ∀ a, (f a).Heeds A P) : ((ApiTask.core p).bind f).Heeds A P :=
  Prog.heeds_seq (Prog.heeds_rethrow hp) hf

end ApiTask

section
variable {X : Sig} {api : ApiHost X} {tagged : Prop} {db : Db} {R : Rights}
  {actor : UserContext}

theorem within_initializeStore :
    (initializeStore : Task X Unit).Issues (Op.within R) :=
  issues_attempt trivial

namespace ApiHost

theorem heeds_requireUpstream {α : Type} {A : (o : Op X) → o.Res → Prop} {P : Op X → Prop}
    {f : Unit → ApiTask X α} (hf : (f ()).Heeds A P) :
    (api.requireUpstreamAvailable.bind f).Heeds A P := by
  unfold requireUpstreamAvailable
  split_ifs
  · trivial
  · exact hf

theorem key_evaluate (service : RefundDecisionService) (orderId status : String)
    (customer owner : Json) (days : ℤ) (amount : ℤ × ℤ) :
    (service.evaluate orderId customer owner status days amount).idempotencyKey =
      "refund:" ++ orderId := by
  unfold RefundDecisionService.evaluate
  dsimp only
  split_ifs <;> rfl

/-- `process_refund` inserts the refund of an eligible order. -/
theorem heeds_processRefund {Q : ActionProposal → Prop} {core : CoreEngine X}
    {arguments : RefundArguments} (hR : R.acts)
    (hI : ∀ request (c : ActionCommand), (core.decision arguments).eligible = true →
      CoreEngine.refundRequest arguments (core.decision arguments).idempotencyKey = .ok request →
      c.For request arguments.actorId → db.CaseOf request.caseId request.customerId →
      R.inserts c) :
    (core.processRefund arguments).Heeds (Op.Tells Q db) (Op.within R) := by
  simp only [CoreEngine.processRefund]
  split_ifs with hel
  · trivial
  · refine Prog.heeds_bind_ofExcept fun request hr => ?_
    exact ConsequentialActionService.heeds_submit _ hR fun c =>
      hI request c (by simpa using hel) hr

theorem refundRequest_ok {arguments : RefundArguments} {key : String}
    {request : ConsequentialActionRequest}
    (h : CoreEngine.refundRequest arguments key = .ok request) :
    ActionPayload.validate (CoreEngine.refundFields arguments) = some request.payload ∧
      request.caseId = arguments.caseId ∧
      request.customerId = arguments.authenticatedCustomerId ∧ request.idempotencyKey = key := by
  unfold CoreEngine.refundRequest at h
  cases hv : ActionPayload.validate (CoreEngine.refundFields arguments) with
  | none =>
    rw [hv] at h
    cases h
  | some payload =>
    simp only [hv] at h
    split_ifs at h
    cases h
    exact ⟨rfl, rfl, rfl, rfl⟩

/-- A refund command: the customer is served, and the refund may be asked for. -/
structure RefundGranted (api : ApiHost X) (db : Db) (request : RefundCommandRequest)
    (actor : UserContext) (order : OrderRow) (r : ConsequentialActionRequest) : Prop where
  serves : actor.Serves request.customerId.1
  access : actor.MayAsk "issue_refund"
  owner : order.customerId = request.customerId.1
  eligible : (api.refundPolicy.evaluate order.orderId (.str request.customerId.1)
    (.str order.customerId) order.status (order.daysSinceDelivery.getD 0) order.total).eligible =
      true
  payload : ActionPayload.validate (CoreEngine.refundFields {
    caseId := refundCommandCaseId request.customerId.1 request.orderId.1
    authenticatedCustomerId := request.customerId.1
    actorId := actor.userId
    policyPackageId := (activeRefundPolicy api.proposals.jurisdictionProfile).packageId
    procedureVersion := "1.0.0"
    order := order.snapshot
    reason := request.reason.1
    consentEvidenceRef := some request.consentEvidenceRef.1 }) = some r.payload
  customerId : r.customerId = request.customerId.1
  caseId : r.caseId = refundCommandCaseId request.customerId.1 request.orderId.1
  key : r.idempotencyKey = "refund:" ++ order.orderId
  stored : db.CaseOf r.caseId r.customerId

theorem heeds_createRefundCommand {Q : ActionProposal → Prop} {request : RefundCommandRequest}
    {A : (o : Op X) → o.Res → Prop} {known : OrderRow → Prop}
    (hA : ∀ o r, A o r → Op.Tells Q db o r)
    (hR : R.acts)
    (horders : (Task.ext (api.orders request.orderId.1) : Task X (Option OrderRow)).Yields A
      fun found => ∀ order, found = some order → known order)
    (hI : ∀ order r (c : ActionCommand), known order → RefundGranted api db request actor order r →
      c.For r actor.userId → R.inserts c) :
    (api.createRefundCommand request actor).Heeds A (Op.within R) := by
  refine ApiTask.heeds_check fun customer hc => heeds_requireUpstream ?_
  obtain ⟨hid, hserves⟩ := serves_of_resolve hc
  dsimp only
  split_ifs with hrefused
  · trivial
  refine Prog.heeds_bind
    (Prog.heeds_rethrow (Prog.heeds_of_issues (issues_ext (fun _ => trivial) _)))
    (Prog.yields_rethrow horders) fun found hfound => ?_
  cases found with
  | none => trivial
  | some order =>
    dsimp only
    split_ifs with howner
    · trivial
    refine ApiTask.heeds_core (Prog.heeds_of_issues within_initializeStore) fun _ => ?_
    refine Prog.heeds_rethrow (Prog.heeds_answers hA
      (heeds_processRefund hR fun r c hel hr hfor hcase => ?_))
    obtain ⟨hpayload, hcaseId, hcustomer, hkey⟩ := refundRequest_ok hr
    refine hI order r c (hfound order rfl)
      ⟨hserves, ⟨"refund:write", rfl, ?_⟩, ?_, ?_, ?_, ?_, ?_, ?_, hcase⟩ hfor
    · by_cases hrole : actor.role = .customer
      · exact Or.inl ⟨hrole, rfl⟩
      · exact Or.inr (Or.inr (by simpa [hrole] using hrefused))
    · exact (not_not.1 howner).trans hid
    · rw [hid] at hel
      exact hel
    · rw [hid] at hpayload
      exact hpayload
    · exact hcustomer.trans hid
    · exact hcaseId.trans (by rw [hid])
    · exact hkey.trans (key_evaluate ..)

theorem mayAsk_of_permissionOf {action permission : String}
    (hp : permissionOf action = .ok permission)
    (hgranted : requirePermission actor permission = .ok ()) : actor.MayAsk action := by
  unfold permissionOf at hp
  cases hl : actionPermissions.lookup action with
  | none =>
    rw [hl] at hp
    cases hp
  | some found =>
    rw [hl] at hp
    cases hp
    exact ⟨permission, hl, Or.inr (permitted_of_require hgranted)⟩

theorem heeds_submitConsequentialAction {Q : ActionProposal → Prop}
    {request : ConsequentialActionRequest} (hR : R.acts)
    (hI : ∀ c : ActionCommand, Mediated tagged db actor c → c.For request actor.userId →
      R.inserts c) :
    (api.submitConsequentialAction request actor).Heeds (Op.Tells Q db) (Op.within R) := by
  refine ApiTask.heeds_check fun customer hc => ApiTask.heeds_check fun permission hp =>
    ApiTask.heeds_check fun _ hgranted => heeds_requireUpstream ?_
  obtain ⟨hid, hserves⟩ := serves_of_resolve hc
  dsimp only
  split_ifs
  · trivial
  refine ApiTask.heeds_core (Prog.heeds_of_issues within_initializeStore) fun _ => ?_
  refine Prog.heeds_rethrow (ConsequentialActionService.heeds_submit _ hR fun c hfor hcase => ?_)
  exact hI c ⟨hfor.actor, ⟨request.payload.action, mayAsk_of_permissionOf hp hgranted,
    fun _ => hfor.asks.action⟩, ⟨request.customerId, hserves, hfor.asks.caseId ▸ hcase⟩⟩ hfor

/-- What the bridge is called with makes the proposal one that the actor may have prepared. -/
theorem preparedBy_of_context {profile : String} {intent : ActionIntent}
    {context context' : TrustedActionContext} {prepared : Prepared} {ttlSeconds : ℤ} {now : Time}
    {hex : String} {policy : HostPolicy} (hb : context.Rebinds context')
    (hactor : context.actorId = actor.userId) (hcustomer : actor.Serves context.customerId)
    (haccess : actor.MayAsk intent.action)
    (hgoverns : Governs profile intent.action context.procedureId policy)
    (hpackage : context.policyPackageId = policy.packageId)
    (hversion : context.procedureVersion = policy.version) :
    (ActionBridge.proposal intent context' prepared ttlSeconds now hex).PreparedBy profile
      actor := by
  rw [hb]
  exact ⟨hactor, hcustomer, haccess, policy, hgoverns, hpackage, hversion⟩

/-- A prepared payload is of the proposal's own action, if the arguments do not name another. -/
theorem typed_of_prepares (hv : Validates api.engine.validatePayload) {intent : ActionIntent}
    {context : TrustedActionContext} {prepared : Prepared} {payload : ActionPayload}
    {ttlSeconds : ℤ} {now : Time} {hex : String} (ht : tagged → intent.Tagged)
    (hp : api.engine.bridge.Prepares intent prepared payload) :
    (ActionBridge.proposal intent context prepared ttlSeconds now hex).Typed tagged := by
  intro hor
  refine ⟨payload, hp.dumped, ?_⟩
  by_cases ha : intent.action = "issue_refund"
  · exact hp.refund ha
  · obtain ⟨fields, hvalid, hget⟩ := hp.generic ha
    have htag := (ht (hor.resolve_right ha)).resolve_left ha
    rw [ActionBridge.genericPayload_action htag, hv.tagged hvalid] at hget
    exact Json.str.inj (Option.some.inj hget)

/-- The rights to prepare proposals for an actor. -/
def preparing (api : ApiHost X) (tagged : Prop) (actor : UserContext) : Rights where
  creates p := p.PreparedBy api.proposals.jurisdictionProfile actor ∧ p.Typed tagged ∧
    p.status = .pending

theorem heeds_propose {Q : ActionProposal → Prop} (hv : Validates api.engine.validatePayload)
    {request : ActionRequest} (ha : request.actor = actor)
    (hserves : actor.Serves request.customerId)
    (ht : tagged → ({ action := request.action, arguments := request.arguments } :
      ActionIntent).Tagged) :
    (api.propose request).Heeds (Op.Tells Q db)
      (Op.within (api.preparing tagged actor)) := by
  subst ha
  refine ApiTask.heeds_check fun prepared hprepared => Prog.heeds_rethrow (Prog.heeds_of_issues ?_)
  obtain ⟨_, haccess, hrest⟩ := Fallible.bind_eq_ok.1 hprepared
  obtain ⟨found, hpolicy, hrest⟩ := Fallible.bind_eq_ok.1 hrest
  cases hrest
  refine ActionBridge.issues_propose_bound _ (fun _ => trivial) trivial trivial
    fun context' prepared payload now hex hb hp => ?_
  exact ⟨preparedBy_of_context hb rfl hserves (mayAsk_of_access haccess)
    (governs_of_actionPolicy hpolicy) rfl rfl, typed_of_prepares hv ht hp, rfl⟩

theorem heeds_createActionProposal {Q : ActionProposal → Prop}
    (hv : Validates api.engine.validatePayload) {request : ActionProposalRequest}
    (ht : tagged → ({ action := request.action.1, arguments := request.arguments } :
      ActionIntent).Tagged) :
    (api.createActionProposal request actor).Heeds (Op.Tells Q db)
      (Op.within (api.preparing tagged actor)) := by
  refine ApiTask.heeds_check fun customer hc => heeds_requireUpstream ?_
  obtain ⟨hid, hserves⟩ := serves_of_resolve hc
  refine ApiTask.heeds_core (Prog.heeds_of_issues within_initializeStore) fun _ => ?_
  refine heeds_propose hv rfl ?_ ?_
  · rw [hid]
    exact hserves
  · exact ht

theorem heeds_prepareIntents {Q : ActionProposal → Prop}
    (hv : Validates api.engine.validatePayload) {turn : TurnIntents} {customer : CustomerContext}
    (hserves : turn.actor.Serves customer.customerId) (raws : List Fields)
    (ht : tagged → ∀ raw ∈ raws, ∀ request, turn.request customer raw = .ok request →
      ({ action := request.action, arguments := request.arguments } : ActionIntent).Tagged) :
    (api.prepareIntents turn customer raws).Heeds (Op.Tells Q db)
      (Op.within (api.preparing tagged turn.actor)) := by
  induction raws with
  | nil => trivial
  | cons raw rest ih =>
    refine Prog.heeds_seq (Prog.heeds_tryCatch ?_ fun _ => trivial) fun prepared => ?_
    · refine ApiTask.heeds_check fun request hr => Prog.heeds_seq ?_ fun _ => trivial
      have hfields := TurnIntents.request_fields hr
      refine heeds_propose hv hfields.1 ?_ fun htag => ht htag raw List.mem_cons_self request hr
      rw [hfields.2]
      exact hserves
    · refine Prog.heeds_seq (ih fun htag raw' hmem => ht htag raw' (List.mem_cons_of_mem _ hmem))
        fun _ => trivial

theorem heeds_converse {Q : ActionProposal → Prop} (hv : Validates api.engine.validatePayload)
    {turn : TurnIntents}
    (ht : tagged → ∀ customer, ∀ raw ∈ turn.pending, ∀ request,
      turn.request customer raw = .ok request →
        ({ action := request.action, arguments := request.arguments } : ActionIntent).Tagged) :
    (api.converse turn).Heeds (Op.Tells Q db)
      (Op.within (api.preparing tagged turn.actor)) := by
  refine ApiTask.heeds_check fun customer hc => ?_
  obtain ⟨hid, hserves⟩ := serves_of_resolve hc
  refine ApiTask.heeds_core (Prog.heeds_of_issues within_initializeStore) fun _ => ?_
  refine heeds_prepareIntents hv ?_ _ fun htag => ht htag customer
  rw [hid]
  exact hserves

/-- What `_owned_proposal` has found. -/
structure Found (Q : ActionProposal → Prop) (db : Db) (actor : UserContext) (id : String)
    (p : ActionProposal) : Prop where
  sound : Q p
  stored : ∃ p', db.proposal? id = some p' ∧ p.Becomes p'
  byActor : p.actorId = actor.userId
  customer : actor.Serves p.customerId

theorem within_ownedProposal (id : String) (actor : UserContext) :
    (ownedProposal id actor : ApiTask X ActionProposal).Issues (Op.within R) := by
  refine Prog.issues_bind (Prog.issues_rethrow (issues_tx trivial))
    fun (found : Option ActionProposal) => ?_
  cases found with
  | none => trivial
  | some p =>
    refine Prog.issues_bind (Prog.issues_ofExcept _) fun _ => ?_
    dsimp only
    split_ifs <;> trivial

theorem yields_ownedProposal {Q : ActionProposal → Prop} (id : String) (actor : UserContext) :
    (ownedProposal id actor : ApiTask X ActionProposal).Yields (Op.Tells Q db)
      (Found Q db actor id) := by
  refine Prog.yields_bind (R := fun found : Option ActionProposal => ∀ p, found = some p →
    Q p ∧ ∃ p', db.proposal? id = some p' ∧ p.Becomes p') (fun _ hr => hr) fun found hr => ?_
  cases found with
  | none => trivial
  | some p =>
    obtain ⟨hQ, hstored⟩ := hr p rfl
    refine ApiTask.yields_check fun customer hc => ?_
    simp only [Prog.bind_eq, Prog.throw_eq, Prog.bind_raise, Prog.pure_eq]
    split_ifs with hactor
    · trivial
    · exact ⟨hQ, hstored, not_not.1 hactor, (serves_of_resolve hc).2⟩

theorem Found.owns {Q : ActionProposal → Prop} {id : String} {p : ActionProposal}
    (h : Found Q db actor id p) : db.Owns actor id := by
  obtain ⟨p', hp', hb⟩ := h.stored
  refine ⟨p', hp', (hb.keeps (·.actorId) fun _ _ _ _ _ => rfl).trans h.byActor, ?_⟩
  rw [hb.customerId]
  exact h.customer

/-- The rights to decide one's own proposals, into one of the statuses. -/
def deciding (db : Db) (actor : UserContext) (statuses : ActionProposalStatus → Prop) : Rights where
  decides id status := statuses status ∧ db.Owns actor id

theorem heeds_getActionProposal {Q : ActionProposal → Prop} {id : String} :
    (getActionProposal id actor : ApiTask X ActionProposal).Heeds (Op.Tells Q db)
      (Op.within (deciding db actor (· = .expired))) := by
  refine ApiTask.heeds_core (Prog.heeds_of_issues within_initializeStore) fun _ => ?_
  refine Prog.heeds_bind (Prog.heeds_of_issues (within_ownedProposal ..))
    (yields_ownedProposal _ _) fun p hp => ?_
  have hid : p.proposalId = id := by
    obtain ⟨p', hp', hb⟩ := hp.stored
    exact (hb.keeps (·.proposalId) fun _ _ _ _ _ => rfl).symm.trans (Table.get?_eq_some.1 hp').2
  refine Prog.heeds_rethrow (ActionBridge.heeds_status fun _ _ => ⟨rfl, ?_⟩)
  rw [hid]
  exact hp.owns

theorem heeds_cancelActionProposal {Q : ActionProposal → Prop} {id : String} :
    (cancelActionProposal id actor : ApiTask X ActionProposal).Heeds (Op.Tells Q db)
      (Op.within (deciding db actor fun status => status = .confirmed ∨ status = .cancelled)) := by
  refine ApiTask.heeds_core (Prog.heeds_of_issues within_initializeStore) fun _ => ?_
  refine Prog.heeds_bind (Prog.heeds_of_issues (within_ownedProposal ..))
    (yields_ownedProposal _ _) fun p hp => ?_
  exact Prog.heeds_rethrow (ActionBridge.heeds_cancel fun _ _ _ hstatus => ⟨hstatus, hp.owns⟩)

/-- A confirmation reads the proposal twice, and submits what the second read found. -/
theorem heeds_confirmActionProposal (hv : Validates api.engine.validatePayload) {id : String}
    (hR : R.acts) (hd : ∀ id status, db.Owns actor id →
      status = .expired ∨ status = .confirmed → R.decides id status)
    (hI : ∀ c, Mediated tagged db actor c → R.inserts c) :
    (api.confirmActionProposal id actor).Heeds
      (Op.Tells (ActionProposal.Typed tagged) db) (Op.within R) := by
  refine heeds_requireUpstream ?_
  refine ApiTask.heeds_core (Prog.heeds_of_issues within_initializeStore) fun _ => ?_
  refine Prog.heeds_bind (Prog.heeds_of_issues (within_ownedProposal ..))
    (yields_ownedProposal _ _) fun p hp => ?_
  refine ApiTask.heeds_check fun _ haccess => ?_
  refine ApiTask.heeds_core (Prog.heeds_of_issues ((Prog.issues_perform _).2 trivial))
    fun hex => ?_
  refine ApiTask.heeds_core (ActionBridge.heeds_confirm _ hR
    (fun _ _ status => hd id status hp.owns)
    fun p' request c hread hbuilt hfor hcase => hI c ?_) fun confirmed => ?_
  · -- the row that both reads have come from
    obtain ⟨row, hrow, hb⟩ := hp.stored
    obtain ⟨row', hrow', hb'⟩ := hread.stored
    obtain rfl := Option.some.inj (hrow.symm.trans hrow')
    have haction : p'.action = p.action := (hb'.keeps (·.action) fun _ _ _ _ _ => rfl).symm.trans
      (hb.keeps (·.action) fun _ _ _ _ _ => rfl)
    refine ⟨hfor.actor, ⟨p.action, mayAsk_of_access haccess, fun htag => ?_⟩,
      p.customerId, hp.customer, ?_⟩
    · obtain ⟨payload, hdump, hpayload⟩ := hread.sound (by rwa [haction])
      have hread : api.engine.validatePayload p'.payload = some request.payload := hbuilt.payload
      rw [hdump, hv.dumped] at hread
      rw [hfor.asks.action, ← Option.some.inj hread, hpayload, haction]
    · have hcustomer : p'.customerId = p.customerId := hread.customer
      rw [hfor.asks.caseId, ← hcustomer, ← hbuilt.customerId]
      exact hcase
  · cases ActionBridge.given confirmed.actionId with
    | none => trivial
    | some actionId =>
      exact ApiTask.heeds_core (Prog.heeds_of_issues (issues_tx trivial)) fun _ => trivial

theorem heeds_getActionStatus {Q : ActionProposal → Prop} {id : String} :
    (getActionStatus id actor : ApiTask X (ActionRecord × List ActionEvent)).Heeds
      (Op.Tells Q db) (Op.within R) := by
  refine ApiTask.heeds_core (Prog.heeds_of_issues within_initializeStore) fun _ => ?_
  refine ApiTask.heeds_core (Prog.heeds_of_issues (issues_tx trivial))
    fun (found : Option ActionRecord) => ?_
  cases found with
  | none => trivial
  | some action =>
    refine ApiTask.heeds_core (Prog.heeds_of_issues (issues_tx trivial))
      fun (case : Option CaseRecord) => ?_
    cases case with
    | none => trivial
    | some case =>
      refine ApiTask.heeds_check fun _ _ => ?_
      dsimp only
      split_ifs
      · trivial
      · exact ApiTask.heeds_core (Prog.heeds_of_issues (issues_tx trivial)) fun _ => trivial

/-- The identity that `_resolve_mcp_action_context` derives. -/
structure Derived (profile : String) (context : McpContext) (action : Option String)
    (actor : UserContext) (trusted : TrustedActionContext) : Prop where
  user : context.request.bind (·.user) = some actor
  byActor : trusted.actorId = actor.userId
  customer : actor.Serves trusted.customerId
  access : ∀ a, action = some a → actor.MayAsk a
  policy : ∃ policy, Governs profile ((ActionBridge.given action).getD "issue_refund")
    trusted.procedureId policy ∧ trusted.policyPackageId = policy.packageId ∧
    trusted.procedureVersion = policy.version

theorem derived_of_resolve {context : McpContext} {action : Option String}
    {arguments : Option Fields} {trusted : TrustedActionContext}
    (h : api.resolveMcpActionContext context action arguments = .ok trusted) :
    ∃ actor, Derived api.proposals.jurisdictionProfile context action actor trusted := by
  unfold resolveMcpActionContext at h
  cases hr : context.request with
  | none =>
    rw [hr] at h
    cases h
  | some request =>
    cases hu : request.user with
    | none =>
      simp only [hr, hu] at h
      cases h
    | some actor =>
      cases hm : api.mcpCustomer actor request.customerId with
      | none =>
        simp only [hr, hu, hm] at h
        cases h
      | some requested =>
        simp only [hr, hu, hm] at h
        obtain ⟨customer, hc, h⟩ := Fallible.bind_eq_ok.1 h
        obtain ⟨hid, hserves⟩ := serves_of_resolve hc
        refine ⟨actor, ?_⟩
        have hrest : ∀ found : String × HostPolicy, actionPolicy api.proposals.jurisdictionProfile
              ((ActionBridge.given action).getD "issue_refund") request.procedureId = .ok found →
            (∀ a, action = some a → actor.MayAsk a) → trusted.actorId = actor.userId →
            trusted.customerId = customer.customerId → trusted.procedureId = found.1 →
            trusted.procedureVersion = found.2.version →
            trusted.policyPackageId = found.2.packageId →
            Derived api.proposals.jurisdictionProfile context action actor trusted := by
          intro found hpolicy haccess hactor hcustomer hprocedure hversion hpackage
          refine ⟨by rw [hr, Option.bind_some, hu], hactor, ?_, haccess, found.2, ?_, hpackage,
            hversion⟩
          · rw [hcustomer, hid]
            exact hserves
          · rw [hprocedure]
            exact governs_of_actionPolicy hpolicy
        cases action with
        | none =>
          obtain ⟨found, hpolicy, h⟩ := Fallible.bind_eq_ok.1 h
          cases h
          exact hrest found hpolicy (fun a ha => by cases ha) rfl rfl rfl rfl rfl
        | some a =>
          obtain ⟨_, haccess, h⟩ := Fallible.bind_eq_ok.1 h
          obtain ⟨found, hpolicy, h⟩ := Fallible.bind_eq_ok.1 h
          cases h
          refine hrest found hpolicy (fun b hb => ?_) rfl rfl rfl rfl rfl
          obtain rfl := Option.some.inj hb
          exact mayAsk_of_access haccess

/-- The empty name has no permission, so the action is the one whose policy was chosen. -/
theorem given_of_mayAsk {action : String} (h : actor.MayAsk action) :
    (ActionBridge.given (some action)).getD "issue_refund" = action := by
  obtain ⟨permission, hl, -⟩ := h
  unfold ActionBridge.given
  split
  · rename_i he
    cases he
    cases hl
  · rfl

theorem heeds_actionsPrepare {Q : ActionProposal → Prop}
    (hv : Validates api.engine.validatePayload) {context : McpContext} {action : String}
    {arguments : Fields} {resourceType resourceId : Option String}
    (ht : tagged → ({ action, arguments } : ActionIntent).Tagged)
    (hR : ∀ actor, context.request.bind (·.user) = some actor →
      (api.preparing tagged actor).Within R) :
    (api.actionsPrepare context action arguments resourceType resourceId).Heeds
      (Op.Tells Q db) (Op.within R) := by
  refine ApiTask.heeds_check fun _ _ => ApiTask.heeds_check fun trusted htrusted => ?_
  obtain ⟨actor, hd⟩ := derived_of_resolve htrusted
  obtain ⟨policy, hgoverns, hpackage, hversion⟩ := hd.policy
  have haccess := hd.access action rfl
  rw [given_of_mayAsk haccess] at hgoverns
  refine ApiTask.heeds_core (Prog.Heeds.mono (Op.within_mono (hR actor hd.user)) ?_)
    fun _ => trivial
  refine Prog.heeds_of_issues (ActionBridge.issues_propose_bound _ (fun _ => trivial) trivial
    trivial fun context' prepared payload now hex hb hp => ?_)
  exact ⟨preparedBy_of_context hb hd.byActor hd.customer haccess hgoverns hpackage hversion,
    typed_of_prepares hv ht hp, rfl⟩

theorem heeds_actionsGetStatus {Q : ActionProposal → Prop} {context : McpContext} {id : String}
    (hR : ∀ actor, context.request.bind (·.user) = some actor →
      ∀ id, db.Owns actor id → R.decides id .expired) :
    (api.actionsGetStatus context id).Heeds (Op.Tells Q db) (Op.within R) := by
  refine ApiTask.heeds_check fun trusted htrusted => ?_
  obtain ⟨actor, hd⟩ := derived_of_resolve htrusted
  refine ApiTask.heeds_core (ActionBridge.heeds_status fun p hp => hR actor hd.user id ?_)
    fun _ => trivial
  obtain ⟨p', hp', hb⟩ := hp.stored
  have hbecame : p'.actorId = p.actorId := hb.keeps (·.actorId) fun _ _ _ _ _ => rfl
  refine ⟨p', hp', (hbecame.trans (hp.actor _ rfl)).trans hd.byActor, ?_⟩
  rw [hb.customerId, hp.customer]
  exact hd.customer

theorem heeds_runWorker {Q : ActionProposal → Prop} {worker : Option UserContext} {run : Call X}
    (hR : R.acts) (hrun : (api.engine.body run).Issues Op.delivers) :
    (api.runWorker worker run).Heeds (Op.Tells Q db) (Op.within R) := by
  have hcore : (ApiTask.core (api.engine.body run)).Heeds (Op.Tells Q db) (Op.within R) :=
    Prog.heeds_rethrow (Prog.heeds_of_issues (within_delivers hR hrun))
  cases worker with
  | none => exact hcore
  | some actor => exact ApiTask.heeds_check fun _ _ => hcore

end ApiHost

end

end WorkflowEngine
