import WorkflowEngine.Interleave.Rethrow
import WorkflowEngine.Spec.Access
import WorkflowEngine.Spec.ActionRequests
import WorkflowEngine.Spec.RefundCommands
import WorkflowEngine.Spec.Refunds

/-! The host's action endpoints (`main.py`) and its MCP server (`mcp/server.py`): who may have
actions prepared, confirmed, executed and read, and the system of everything that they run. -/

namespace WorkflowEngine

open Interleave SQLiteCoreStore

/-- What an endpoint answers with when it answers with no response of its own. -/
inductive ApiError where
  | refused (e : TurnError)
  | notFound (resource resourceId : String)
  | upstreamUnavailable
  deriving DecidableEq

abbrev ApiTask (X : Sig) := Prog (sig X) ApiError

namespace ApiTask

variable {X : Sig} {α : Type}

/-- The exceptions of the core are those of the endpoint. -/
def core (p : Task X α) : ApiTask X α := p.rethrow fun e => .refused (.raised e)

def check (x : Except TurnError α) : ApiTask X α := Prog.ofExcept (x.mapError .refused)

end ApiTask

/-- The columns that `create_refund_command` reads. -/
structure OrderRow extends Order where
  orderDate : Option String

def OrderRow.snapshot (order : OrderRow) : OrderSnapshot where
  orderId := order.orderId
  customerId := order.customerId
  status := order.status
  daysSinceDelivery := order.daysSinceDelivery.getD 0
  amount := order.total
  paymentMethod := (ActionBridge.given order.paymentMethod).getD "original_payment_method"
  evidenceRef := "orders-db:" ++ order.orderId ++ ":" ++ order.orderDate.getD "None"

structure RefundCommandRequest where
  customerId : Text 100
  orderId : Text 100
  reason : {s : String // 3 ≤ s.length ∧ s.length ≤ 1000}
  consentEvidenceRef : {s : String // 3 ≤ s.length ∧ s.length ≤ 500}

/-- Host request for an untrusted intent. -/
structure ActionProposalRequest where
  customerId : Text 100
  action : Text 100
  arguments : Fields := []
  resource : Option AuthoritativeResourceRef := none
  conversationId : Option {s : String // s.length ≤ 300} := none
  messageId : Option {s : String // s.length ≤ 300} := none

/-- The user that the middleware has authenticated, and the headers of the host. -/
structure McpTransport where
  user : Option UserContext
  customerId : Option String := none
  procedureId : Option String := none
  conversationId : Option String := none
  messageId : Option String := none

structure McpContext where
  request : Option McpTransport
  requestId : String

/-- What the endpoints are configured with. -/
structure ApiHost (X : Sig) where
  proposals : ProposalHost X
  /-- `OrderRepository.get_by_id` -/
  orders : String → Prog X PyErr (Option OrderRow)
  refundPolicy : RefundDecisionService := {}
  isDev : Bool
  upstreamDisabled : Bool := false

/-- `_safe_proposal` -/
structure SafeProposal where
  proposalId : String
  action : String
  preview : Fields
  status : ActionProposalStatus
  expiresAt : Time
  actionId : Option String

def ActionProposal.safe (p : ActionProposal) : SafeProposal :=
  ⟨p.proposalId, p.action, p.preview, p.status, p.expiresAt, p.actionId⟩

/-- `_TRUSTED_ARGUMENT_NAMES` -/
def trustedArgumentNames : List String := [
  "actor_id", "customer_id", "case_id", "procedure_id", "procedure_version", "policy_package_id",
  "idempotency_key", "consent_evidence_ref", "approval_evidence_ref", "provider_url", "base_url",
  "connector_binding_id", "connector_binding_version", "contract_version"]

def rejectTrustedArguments (arguments : Fields) : Except TurnError Unit :=
  let rejected := (arguments.map (·.1)).filter (· ∈ trustedArgumentNames)
  if rejected ≠ [] then
    .error (.raised
      (.valueError ("Trusted action context cannot be supplied through MCP arguments: "
      ++ String.intercalate ", " (rejected.insertionSort (· ≤ ·)))))
  else .ok ()

/-- A conversation turn: who asks for which customer, and what the model's tools have left in the
session for `_generate_safe_turn` to prepare. -/
structure TurnIntents where
  actor : UserContext
  customerId : String
  conversationId : String
  messageId : String
  currentProcedure : Option String := none
  pending : List Fields

namespace TurnIntents

/-- `AuthoritativeResourceRef.model_validate(resource_data) if resource_data else None` -/
def resource (raw : Fields) : Except PyErr (Option AuthoritativeResourceRef) :=
  match raw.get? "resource" with
  | none => .ok none
  | some data =>
    if !data.truthy then .ok none
    else match data with
      | .dict kvs => match Fields.get? kvs "resource_type", Fields.get? kvs "resource_id" with
        | some (.str resourceType), some (.str resourceId) => .ok (some ⟨resourceType, resourceId⟩)
        | _, _ => .error (.validationError "AuthoritativeResourceRef")
      | _ => .error (.validationError "AuthoritativeResourceRef")

/-- `dict(raw_intent.get("arguments", {}))` -/
def arguments (raw : Fields) : Except PyErr Fields :=
  match raw.get? "arguments" with
  | none => .ok []
  | some (.dict kvs) => .ok kvs
  | some (.list []) => .ok []
  | some (.str "") => .ok []
  | some _ => .error (.typeError "cannot convert dictionary")

/-- The arguments of `_create_action_proposal` for a queued intent. -/
def request (turn : TurnIntents) (customer : CustomerContext) (raw : Fields) :
    Except TurnError ActionRequest := do
  let resource ← (resource raw).mapError TurnError.raised
  let some action := raw.get? "action" | .error (.raised (.keyError "action"))
  let arguments ← (arguments raw).mapError TurnError.raised
  return {
    actor := turn.actor
    customerId := customer.customerId
    action := action.pyStr
    arguments
    resource
    conversationId := some turn.conversationId
    messageId := some turn.messageId
    requestedProcedure := turn.currentProcedure }

end TurnIntents

namespace ApiHost

variable {X : Sig} (api : ApiHost X)

def engine : Engine X := api.proposals.host.engine

def coreEngine : CoreEngine X := ⟨api.engine.gateway, api.refundPolicy⟩

def requireUpstreamAvailable : ApiTask X Unit :=
  if api.upstreamDisabled then throw .upstreamUnavailable else return ()

/-- Execute a refund only through the deterministic action gateway. -/
def createRefundCommand (request : RefundCommandRequest) (actor : UserContext) :
    ApiTask X ActionRecord := do
  let customer ← .check (resolveCustomerContext actor request.customerId.1)
  api.requireUpstreamAvailable
  if actor.role ≠ .customer ∧ !actor.hasPermission "refund:write" then
    throw (.refused (.authorization "Refund command requires refund write permission"
      (some "refund:write")))
  match ← ApiTask.core (Task.ext (api.orders request.orderId.1)) with
  | none => throw (.notFound "Order" request.orderId.1)
  | some order =>
    if order.customerId ≠ customer.customerId then
      throw (.notFound "Order" request.orderId.1)
    .core initializeStore
    .core (api.coreEngine.processRefund {
      caseId := refundCommandCaseId customer.customerId request.orderId.1
      authenticatedCustomerId := customer.customerId
      actorId := actor.userId
      policyPackageId := (activeRefundPolicy api.proposals.jurisdictionProfile).packageId
      procedureVersion := "1.0.0"
      order := order.snapshot
      reason := request.reason.1
      consentEvidenceRef := some request.consentEvidenceRef.1 })

/-- `ACTION_PERMISSIONS[action]` -/
def permissionOf (action : String) : Except TurnError String :=
  match actionPermissions.lookup action with
  | none => .error (.raised (.keyError action))
  | some permission => .ok permission

def submitConsequentialAction (request : ConsequentialActionRequest) (actor : UserContext) :
    ApiTask X ActionRecord := do
  let customer ← .check (resolveCustomerContext actor request.customerId)
  let permission ← .check (permissionOf request.payload.action)
  .check (requirePermission actor permission)
  api.requireUpstreamAvailable
  if customer.customerId ≠ request.customerId then
    throw (.refused (.authorization "Action customer binding mismatch" none))
  .core initializeStore
  .core (api.engine.service.submit request actor.userId)

/-- `_create_action_proposal`, awaited. -/
def propose (request : ActionRequest) : ApiTask X ActionProposal := do
  let prepared ← .check (api.proposals.createActionProposal request)
  .core prepared

def createActionProposal (request : ActionProposalRequest) (actor : UserContext) :
    ApiTask X ActionProposal := do
  let customer ← .check (resolveCustomerContext actor request.customerId.1)
  api.requireUpstreamAvailable
  .core initializeStore
  api.propose {
    actor
    customerId := customer.customerId
    action := request.action.1
    arguments := request.arguments
    resource := request.resource
    conversationId := request.conversationId.map (·.1)
    messageId := request.messageId.map (·.1) }

/-- `_owned_proposal` -/
def ownedProposal (proposalId : String) (actor : UserContext) : ApiTask X ActionProposal := do
  match ← ApiTask.core (SQLiteCoreStore.getActionProposal proposalId) with
  | none => throw (.notFound "ActionProposal" proposalId)
  | some proposal =>
    let _ ← ApiTask.check (resolveCustomerContext actor proposal.customerId)
    if proposal.actorId ≠ actor.userId then
      throw (.refused (.authorization "Action proposal belongs to a different actor" none))
    return proposal

def getActionProposal (proposalId : String) (actor : UserContext) : ApiTask X ActionProposal := do
  .core initializeStore
  let proposal ← ownedProposal proposalId actor
  .core (ActionBridge.status proposal.proposalId proposal.customerId (some actor.userId))

/-- Capture trusted host confirmation and submit through the typed gateway. -/
def confirmActionProposal (proposalId : String) (actor : UserContext) :
    ApiTask X (ActionProposal × Option ActionRecord) := do
  api.requireUpstreamAvailable
  .core initializeStore
  let proposal ← ownedProposal proposalId actor
  .check (requireActionAccess actor proposal.action)
  let evidence := "host-confirmation:" ++ proposalId ++ ":" ++ (← .core Task.uuid)
  let confirmed ← .core (api.engine.bridge.confirm proposalId {
    actorId := actor.userId
    customerId := proposal.customerId
    consentEvidenceRef := some evidence
    approvalEvidenceRef := some evidence })
  match ActionBridge.given confirmed.actionId with
  | none => return (confirmed, none)
  | some actionId => return (confirmed, ← .core (getAction actionId))

def cancelActionProposal (proposalId : String) (actor : UserContext) :
    ApiTask X ActionProposal := do
  .core initializeStore
  let proposal ← ownedProposal proposalId actor
  .core (ActionBridge.cancel proposalId {
    actorId := actor.userId
    customerId := proposal.customerId })

def getActionStatus (actionId : String) (actor : UserContext) :
    ApiTask X (ActionRecord × List ActionEvent) := do
  .core initializeStore
  match ← ApiTask.core (getAction actionId) with
  | none => throw (.notFound "Action" actionId)
  | some action =>
    match ← ApiTask.core (getCase action.command.caseId) with
    | none => throw (.notFound "Case" action.command.caseId)
    | some case =>
      let _ ← ApiTask.check (resolveCustomerContext actor case.customerId)
      if action.command.actorId ≠ actor.userId then
        throw (.refused (.authorization "Action belongs to a different actor" none))
      return (action, ← .core (listActionEvents actionId))

/-- `X-Workflow-Customer-ID`, the customer himself, or the customer of a development host. -/
def mcpCustomer (actor : UserContext) (header : Option String) : Option String :=
  if actor.role = .customer then ActionBridge.given (some actor.userId)
  else (ActionBridge.given header).or (if api.isDev then some "CUST-456" else none)

/-- Derive MCP identity from authenticated transport metadata, never tool args. -/
def resolveMcpActionContext (context : McpContext) (action : Option String)
    (arguments : Option Fields) : Except TurnError TrustedActionContext := do
  let some request := context.request
    | .error (.authorization "MCP request context is unavailable" none)
  let some actor := request.user
    | .error (.authorization "MCP request is not authenticated" none)
  let some requestedCustomer := api.mcpCustomer actor request.customerId
    | .error (.authorization "MCP host must bind X-Workflow-Customer-ID" none)
  let customer ← resolveCustomerContext actor requestedCustomer
  let selectedAction := (ActionBridge.given action).getD "issue_refund"
  if let some action := action then
    requireActionAccess actor action
  let (procedureId, policy) ←
    actionPolicy api.proposals.jurisdictionProfile selectedAction request.procedureId
  let conversationId := (ActionBridge.given request.conversationId).getD context.requestId
  return {
    actorId := actor.userId
    customerId := customer.customerId
    caseId := actionCaseId api.proposals.upper selectedAction customer.customerId
      (some conversationId) (arguments.getD [])
    procedureId
    procedureVersion := policy.version
    policyPackageId := policy.packageId
    conversationId := some conversationId
    messageId := some ((ActionBridge.given request.messageId).getD context.requestId) }

/-- `actions_prepare` -/
def actionsPrepare (context : McpContext) (action : String) (arguments : Fields)
    (resourceType resourceId : Option String) : ApiTask X SafeProposal := do
  .check (rejectTrustedArguments arguments)
  let trusted ← .check (api.resolveMcpActionContext context (some action) (some arguments))
  let host := api.proposals.host
  let proposal ← .core (api.engine.bridge.propose host.refundPolicy host.ttlSeconds
    { action, arguments, resourceType, resourceId } trusted)
  return proposal.safe

/-- `actions_get_status`, and the resource `actions://proposals/{proposal_id}`. -/
def actionsGetStatus (context : McpContext) (proposalId : String) : ApiTask X SafeProposal := do
  let trusted ← .check (api.resolveMcpActionContext context none none)
  let proposal ← .core (ActionBridge.status proposalId trusted.customerId (some trusted.actorId))
  return proposal.safe

/-- The intents of a turn, one after the other; one that cannot be prepared leaves `none`, in whose
place the response says so. -/
def prepareIntents (turn : TurnIntents) (customer : CustomerContext) :
    List Fields → ApiTask X (List (Option ActionProposal))
  | [] => return []
  | raw :: rest => do
    let prepared ← Prog.tryCatch (do
      let request ← ApiTask.check (turn.request customer raw)
      return some (← api.propose request)) fun _ => return none
    return prepared :: (← prepareIntents turn customer rest)

/-- What a turn makes of its intents, from the request to the endpoint on. -/
def converse (turn : TurnIntents) : ApiTask X (List (Option ActionProposal)) := do
  let customer ← .check (resolveCustomerContext turn.actor turn.customerId)
  .core initializeStore
  api.prepareIntents turn customer turn.pending

end ApiHost

/-- The requests to the endpoints, the turns, and the workers, which an administrator or a process
of its own (`none`) starts. -/
inductive ApiCall where
  | createRefundCommand (request : RefundCommandRequest) (actor : UserContext)
  | submitConsequentialAction (request : ConsequentialActionRequest) (actor : UserContext)
  | createActionProposal (request : ActionProposalRequest) (actor : UserContext)
  | getActionProposal (proposalId : String) (actor : UserContext)
  | confirmActionProposal (proposalId : String) (actor : UserContext)
  | cancelActionProposal (proposalId : String) (actor : UserContext)
  | getActionStatus (actionId : String) (actor : UserContext)
  | actionsPrepare (context : McpContext) (action : String) (arguments : Fields)
      (resourceType resourceId : Option String)
  | actionsGetStatus (context : McpContext) (proposalId : String)
  | converse (turn : TurnIntents)
  | runActionWorker (actor : Option UserContext) (owner : String) (leaseSeconds : ℤ)
      (maxAttempts : ℕ) (limit : ℤ)
  | runReconciliationWorker (actor : Option UserContext) (dispatchStaleSeconds limit : ℤ)

inductive ApiReply where
  | refund (actionId : String) (status : ActionStatus) (outcome : Option Fields)
  | action (record : ActionRecord)
  | actionStatus (record : ActionRecord) (events : List ActionEvent)
  | proposal (record : ActionProposal)
  | confirmed (record : ActionProposal) (action : Option ActionRecord)
  | safe (proposal : SafeProposal)
  | prepared (records : List (Option ActionProposal))
  | worker (reply : Reply)

namespace ApiHost

variable {X : Sig} (api : ApiHost X) (W : World X)

/-- The worker's run, for an administrator or for nobody. -/
def runWorker (actor : Option UserContext) (run : Call X) : ApiTask X Reply := do
  if let some actor := actor then
    .check (requirePermission actor "admin:write")
  .core (api.engine.body run)

def body : ApiCall → ApiTask X ApiReply
  | .createRefundCommand request actor => do
    let result ← api.createRefundCommand request actor
    return .refund result.actionId result.status result.outcome
  | .submitConsequentialAction request actor => do
    return .action (← api.submitConsequentialAction request actor)
  | .createActionProposal request actor => do
    return .proposal (← api.createActionProposal request actor)
  | .getActionProposal proposalId actor => do
    return .proposal (← ApiHost.getActionProposal proposalId actor)
  | .confirmActionProposal proposalId actor => do
    let confirmed ← api.confirmActionProposal proposalId actor
    return .confirmed confirmed.1 confirmed.2
  | .cancelActionProposal proposalId actor => do
    return .proposal (← ApiHost.cancelActionProposal proposalId actor)
  | .getActionStatus actionId actor => do
    let status ← ApiHost.getActionStatus actionId actor
    return .actionStatus status.1 status.2
  | .actionsPrepare context action arguments resourceType resourceId => do
    return .safe (← api.actionsPrepare context action arguments resourceType resourceId)
  | .actionsGetStatus context proposalId => do
    return .safe (← api.actionsGetStatus context proposalId)
  | .converse turn => do
    return .prepared (← api.converse turn)
  | .runActionWorker actor owner leaseSeconds maxAttempts limit => do
    return .worker (← api.runWorker actor (.deliver owner leaseSeconds maxAttempts limit))
  | .runReconciliationWorker actor dispatchStaleSeconds limit => do
    return .worker (← api.runWorker actor (.sweep dispatchStaleSeconds limit))

abbrev Log (W : World X) := Hist (sig X) (EngineState W) ApiCall

/-- All calls over one store. -/
abbrev system : System (sig X) ApiError ApiReply where
  State := EngineState W
  Choice := EngineChoice W
  Call := ApiCall
  exec := Engine.exec W
  drift e s := { s with clock := s.clock + e.elapsed, ext := W.drift e.ext s.ext }
  admits _ _ := true
  body := api.body

/-- The history of the run of a schedule from a state of the stores. -/
def history (s : EngineState W) (acts : List (api.system W).Move) : Log W :=
  ((api.system W).run ((api.system W).init s) acts).hist

end ApiHost
end WorkflowEngine
