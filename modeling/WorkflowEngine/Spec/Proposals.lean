import WorkflowEngine.HashChain.Sha256
import WorkflowEngine.Spec.Domains
import WorkflowEngine.Spec.Engine

/-! The proposing half of `ActionBridge` (`actions/bridge.py`), and the host that offers both
halves: conversations propose actions, and the customer's side confirms or cancels them. -/

namespace WorkflowEngine

open Interleave SQLiteCoreStore

/-- Model-suggested action shape. It deliberately excludes trusted context. -/
structure ActionIntent where
  action : String
  arguments : Fields := []
  resourceType : Option String := none
  resourceId : Option String := none

structure TrustedActionContext where
  actorId : String
  customerId : String
  caseId : String
  procedureId : String
  procedureVersion : String
  policyPackageId : String
  conversationId : Option String := none
  messageId : Option String := none
  connectorBindingId : Option String := none
  connectorBindingVersion : Option String := none
  contractVersion : Option String := none

/-- What a preparation hands to `propose`. -/
structure Prepared where
  payload : Fields
  resource : Option Resource
  preview : Fields
  resourceType : Option String
  resourceId : Option String

namespace ActionBridge

variable {X : Sig} (bridge : ActionBridge X)

/-- `payload[key]` -/
def item (payload : Fields) (key : String) : Except PyErr Json :=
  match payload.get? key with
  | some value => .ok value
  | none => .error (.keyError key)

/-- `intent.resource_id or intent.arguments.get("order_id")`, as a string. -/
def orderId (intent : ActionIntent) : Except PyErr String :=
  match given intent.resourceId, intent.arguments.get? "order_id" with
  | some id, _ => .ok id
  | none, some value =>
    if value.truthy then .ok value.pyStr
    else .error (.valueError "issue_refund requires an order_id")
  | none, none => .error (.valueError "issue_refund requires an order_id")

/-- The decision and the payload of a refund, from the order that was loaded. -/
def refundPayload (refundPolicy : RefundDecisionService) (intent : ActionIntent)
    (context : TrustedActionContext) (order : Fields) : Except PyErr Fields := do
  let orderId ← item order "order_id"
  let customerId ← item order "customer_id"
  let days ← ((order.get? "days_since_delivery").getD (.int 0)).toInt
  let amount ← (((order.get? "refund_amount").or (order.get? "amount")).getD (.int 0)).toFloat
  let decision := refundPolicy.evaluate orderId.pyStr (.str context.customerId)
    (.str customerId.pyStr) ((order.get? "status").getD (.str "delivered")).pyStr days amount
  if !decision.eligible then
    throw (.valueError ("Refund is not eligible: " ++ decision.reason))
  else
    let paymentMethod ← item order "payment_method"
    let reason := match intent.arguments.get? "reason" with
      | some value => if value.truthy then value.pyStr else "customer_request"
      | none => "customer_request"
    return [("action", .str "issue_refund"), ("order_id", .str orderId.pyStr),
      ("customer_id", .str context.customerId),
      ("refund_amount", .float decision.amount.1 decision.amount.2),
      ("currency", .str ((order.get? "currency").getD (.str "USD")).pyStr),
      ("payment_method", .str paymentMethod.pyStr), ("reason", .str reason)]

def prepareRefund (refundPolicy : RefundDecisionService) (intent : ActionIntent)
    (context : TrustedActionContext) : Task X Prepared := do
  let resourceType := (given intent.resourceType).getD "order"
  let orderId ← Prog.ofExcept (orderId intent)
  match ← bridge.loadResource (some resourceType) (some orderId) with
  | none => throw .assertionError
  | some resource =>
    let payload ← Prog.ofExcept (refundPayload refundPolicy intent context resource.payload)
    return {
      payload
      resource := some resource
      preview := payload.filter fun kv => kv.1 ≠ "customer_id"
      resourceType := some resourceType
      resourceId := some orderId }

/-- The authoritative values replace those of the model. -/
def bindAuthoritative (specification : ActionSpecification) (context : TrustedActionContext)
    (payload : Fields) : Option Resource → Except PyErr Fields
  | none => .error (.valueError "This action requires an authoritative resource reference")
  | some resource => do
    let upstream := resource.payload
    match specification.customerBindingParameter with
    | none => pure ()
    | some binding => match upstream.get? binding with
      | none =>
        throw (.valueError ("Authoritative resource is missing customer binding " ++ binding))
      | some value =>
        if value.pyStr ≠ context.customerId then
          throw (.valueError "Authoritative resource does not belong to the serviced customer")
    (specification.authoritativeParameters.insertionSort (· ≤ ·)).foldlM
      (fun payload parameter => match upstream.get? parameter with
        | none => .error (.valueError ("Authoritative resource is missing " ++ parameter))
        | some value => .ok (payload.set parameter value)) payload

/-- `{"action": intent.action, **intent.arguments}` -/
def genericPayload (intent : ActionIntent) : Fields :=
  intent.arguments.foldl (fun payload kv => payload.set kv.1 kv.2) [("action", .str intent.action)]

/-- `model_dump(mode="json")` of a payload model. -/
def dumpPayload (payload : ActionPayload) : Fields :=
  ("action", .str payload.action) :: payload.dump

def prepareGeneric (intent : ActionIntent) (context : TrustedActionContext)
    (specification : ActionSpecification) : Task X Prepared := do
  let resource ← bridge.loadResource intent.resourceType intent.resourceId
  let payload ← Prog.ofExcept (
    if specification.authoritativeParameters.isEmpty then .ok (genericPayload intent)
    else bindAuthoritative specification context (genericPayload intent) resource)
  match bridge.validatePayload payload with
  | none => throw (.validationError "ActionPayload")
  | some validated =>
    return {
      payload := dumpPayload validated
      resource
      preview := [("action", .str intent.action), ("parameters", .dict (dumpPayload validated))]
      resourceType := intent.resourceType
      resourceId := intent.resourceId }

/-- `_idempotency_key`; the digest is over the `repr` of a tuple. -/
def idempotencyKey (action : String) (payload : Fields) (context : TrustedActionContext) : String :=
  if action = "issue_refund" then "refund:" ++ ((payload.get? "order_id").getD .null).pyStr
  else
    let text := "(" ++ String.intercalate ", " [Json.strRepr action, Json.strRepr context.caseId,
      Json.strRepr context.customerId, (Json.dict payload).repr] ++ ")"
    action ++ ":" ++ String.ofList ((Sha256.hexdigest text.toList).take 24)

/-- The connector binding that is current replaces the one of the context. -/
def bindConnector (context : TrustedActionContext) (action : String) :
    Except PyErr TrustedActionContext :=
  match bridge.connectorResolver with
  | none => .ok context
  | some resolve => do
    let resolved ← resolve action
    return { context with
      connectorBindingId := some resolved.bindingId
      connectorBindingVersion := some resolved.bindingVersion
      contractVersion := some resolved.contractVersion }

/-- The `PENDING` record of a proposal. -/
def proposal (intent : ActionIntent) (context : TrustedActionContext) (prepared : Prepared)
    (ttlSeconds : ℤ) (now : Time) (hex : String) : ActionProposal where
  proposalId := "APR-" ++ hex
  action := intent.action
  payload := prepared.payload
  caseId := context.caseId
  customerId := context.customerId
  actorId := context.actorId
  procedureId := context.procedureId
  procedureVersion := context.procedureVersion
  policyPackageId := context.policyPackageId
  idempotencyKey := idempotencyKey intent.action prepared.payload context
  resourceType := prepared.resourceType
  resourceId := prepared.resourceId
  resourceVersion := prepared.resource.map (·.version)
  conversationId := context.conversationId
  messageId := context.messageId
  connectorBindingId := context.connectorBindingId
  connectorBindingVersion := context.connectorBindingVersion
  contractVersion := context.contractVersion
  preview := prepared.preview
  status := .pending
  createdAt := now
  expiresAt := now + seconds ttlSeconds
  updatedAt := now

def propose (refundPolicy : RefundDecisionService) (ttlSeconds : ℤ) (intent : ActionIntent)
    (context : TrustedActionContext) : Task X ActionProposal := do
  match specification? intent.action with
  | none => throw (.valueError ("Unknown consequential action: " ++ intent.action))
  | some specification =>
    let context ← Prog.ofExcept (bridge.bindConnector context intent.action)
    let prepared ←
      if intent.action = "issue_refund" then bridge.prepareRefund refundPolicy intent context
      else bridge.prepareGeneric intent context specification
    let now ← Task.now
    let hex ← Task.uuid
    createActionProposal (proposal intent context prepared ttlSeconds now hex)

end ActionBridge

/-- The engine with what `propose` is configured with. -/
structure Host (X : Sig) where
  engine : Engine X
  refundPolicy : RefundDecisionService := {}
  ttlSeconds : ℤ := 900

/-- A proposal, or any call of the engine. -/
inductive HostCall (X : Sig) where
  | propose (intent : ActionIntent) (context : TrustedActionContext)
  | engine (call : Call X)

namespace Host

variable {X : Sig} (host : Host X) (W : World X)

def body : HostCall X → Task X Reply
  | .propose intent context => do
    let proposal ← host.engine.bridge.propose host.refundPolicy host.ttlSeconds intent context
    return .proposal proposal
  | .engine call => host.engine.body call

/-- The store is reached through the calls only. -/
def admits : HostCall X → Bool
  | .engine (.transaction _) => false
  | _ => true

abbrev Log (W : World X) := Hist (sig X) (EngineState W) (HostCall X)

abbrev system : System (sig X) PyErr Reply where
  State := EngineState W
  Choice := EngineChoice W
  Call := HostCall X
  exec := Engine.exec W
  drift e s := { s with clock := s.clock + e.elapsed, ext := W.drift e.ext s.ext }
  admits _ call := admits call
  body := host.body

end Host
end WorkflowEngine
