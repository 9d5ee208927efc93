import WorkflowEngine.Spec.Numbers

/-! The refund decision (`core/domains.py`). -/

namespace WorkflowEngine

structure RefundDecision where
  eligible : Bool
  reason : String
  amount : ℤ × ℤ
  idempotencyKey : String
  deriving DecidableEq

structure RefundDecisionService where
  refundWindowDays : ℤ := 30

/-- The tests are made in this order; the customers are compared as the values they are. -/
def RefundDecisionService.evaluate (service : RefundDecisionService) (orderId : String)
    (authenticatedCustomerId orderCustomerId : Json) (orderStatus : String)
    (daysSinceDelivery : ℤ) (amount : ℤ × ℤ) : RefundDecision :=
  let decide (eligible : Bool) (reason : String) : RefundDecision :=
    ⟨eligible, reason, amount, "refund:" ++ orderId⟩
  if !authenticatedCustomerId.pyEq orderCustomerId then decide false "ownership_mismatch"
  else if orderStatus ∉ ["delivered", "completed"] then decide false "order_not_complete"
  else if daysSinceDelivery > service.refundWindowDays then decide false "outside_refund_window"
  else if amount.1 ≤ 0 then decide false "invalid_amount"
  else decide true "eligible"

end WorkflowEngine
