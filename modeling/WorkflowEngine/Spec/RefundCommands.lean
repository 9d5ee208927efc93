import WorkflowEngine.Spec.Domains
import WorkflowEngine.Spec.Engine
import WorkflowEngine.Spec.Payloads

/-! The application facade for refunds (`core/service.py`). The submission of a refund gets the
order snapshot, on which the decision was made, as its only resource. -/

namespace WorkflowEngine

open Interleave

structure OrderSnapshot where
  orderId : String
  customerId : String
  status : String
  daysSinceDelivery : ℤ
  amount : ℤ × ℤ
  paymentMethod : String
  evidenceRef : String

/-- The payload that `_SingleOrderResourceProvider` answers with. -/
def OrderSnapshot.payload (order : OrderSnapshot) : Fields := [
  ("order_id", .str order.orderId),
  ("customer_id", .str order.customerId),
  ("status", .str order.status),
  ("days_since_delivery", .int order.daysSinceDelivery),
  ("amount", .float order.amount.1 order.amount.2),
  ("refund_amount", .float order.amount.1 order.amount.2),
  ("currency", .str "USD"),
  ("payment_method", .str order.paymentMethod)]

/-- `_SingleOrderResourceProvider`; `submit` does not read the evidence reference of a resource. -/
def singleOrder {X : Sig} (order : OrderSnapshot) : AuthoritativeResourceProvider X :=
  fun resourceType resourceId =>
    if resourceType ≠ "order" ∨ resourceId ≠ order.orderId then .ret none
    else .ret (some ⟨order.payload, 1⟩)

structure CoreEngine (X : Sig) where
  gateway : ActionGateway X
  refundPolicy : RefundDecisionService := {}

/-- The arguments of `process_refund`. -/
structure RefundArguments where
  caseId : String
  authenticatedCustomerId : String
  actorId : String
  policyPackageId : String
  procedureVersion : String
  order : OrderSnapshot
  reason : String := "customer_request"
  consentEvidenceRef : Option String := none

namespace CoreEngine

variable {X : Sig} (core : CoreEngine X)

def decision (arguments : RefundArguments) : RefundDecision :=
  core.refundPolicy.evaluate arguments.order.orderId (.str arguments.authenticatedCustomerId)
    (.str arguments.order.customerId) arguments.order.status arguments.order.daysSinceDelivery
    arguments.order.amount

/-- The payload of the request, before its model validates it. -/
def refundFields (arguments : RefundArguments) : Fields := [
  ("action", .str "issue_refund"),
  ("order_id", .str arguments.order.orderId),
  ("customer_id", .str arguments.authenticatedCustomerId),
  ("refund_amount", .float arguments.order.amount.1 arguments.order.amount.2),
  ("currency", .str "USD"),
  ("payment_method", .str arguments.order.paymentMethod),
  ("reason", .str arguments.reason)]

/-- The request that the facade submits. -/
def refundRequest (arguments : RefundArguments) (idempotencyKey : String) :
    Except PyErr ConsequentialActionRequest :=
  match ActionPayload.validate (refundFields arguments) with
  | none => .error (.validationError "ConsequentialActionRequest")
  | some payload =>
    if h : 4 ≤ idempotencyKey.length ∧ idempotencyKey.length ≤ 300 then
      .ok {
        caseId := arguments.caseId
        customerId := arguments.authenticatedCustomerId
        procedureId := "cs_refund"
        procedureVersion := arguments.procedureVersion
        policyPackageId := arguments.policyPackageId
        idempotencyKey
        resource := some ⟨"order", arguments.order.orderId⟩
        payload
        consentEvidenceRef := arguments.consentEvidenceRef
        keyMin := h.1
        keyMax := h.2 }
    else .error (.validationError "ConsequentialActionRequest")

def service (order : OrderSnapshot) : ConsequentialActionService X :=
  ⟨core.gateway, singleOrder order⟩

def processRefund (arguments : RefundArguments) : Task X ActionRecord := do
  let decision := core.decision arguments
  if !decision.eligible then
    throw (.valueError ("Refund is not eligible: " ++ decision.reason))
  else
    let request ← Prog.ofExcept (refundRequest arguments decision.idempotencyKey)
    (core.service arguments.order).submit request arguments.actorId

end CoreEngine
end WorkflowEngine
