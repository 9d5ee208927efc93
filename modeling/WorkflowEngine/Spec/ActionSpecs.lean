import Mathlib.Data.List.Basic

/-! The closed inventory of consequential commands (`core/action_specs.py`). -/

namespace WorkflowEngine

structure ActionSpecification where
  name : String
  requiredParameters : List String
  authoritativeParameters : List String
  customerBindingParameter : Option String := none
  requiresConsent : Bool := false
  requiresApproval : Bool := false
  deriving DecidableEq, Repr

def actionSpecifications : List ActionSpecification := [
  { name := "issue_refund"
    requiredParameters :=
      ["order_id", "customer_id", "refund_amount", "currency", "payment_method", "reason"]
    authoritativeParameters :=
      ["order_id", "customer_id", "refund_amount", "currency", "payment_method"]
    requiresConsent := true
    customerBindingParameter := some "customer_id" },
  { name := "issue_store_credit"
    requiredParameters := ["order_id", "customer_id", "amount", "currency", "reason"]
    authoritativeParameters := ["order_id", "customer_id", "amount", "currency"]
    requiresConsent := true
    customerBindingParameter := some "customer_id" },
  { name := "update_case_status"
    requiredParameters := ["target_status", "reason"]
    authoritativeParameters := [] },
  { name := "file_eft_dispute"
    requiredParameters := ["customer_id", "transaction_id", "amount", "dispute_type"]
    authoritativeParameters := ["customer_id", "transaction_id", "amount"]
    requiresConsent := true
    customerBindingParameter := some "customer_id" },
  { name := "issue_provisional_credit"
    requiredParameters := ["customer_id", "dispute_id", "amount"]
    authoritativeParameters := ["customer_id", "dispute_id", "amount"]
    requiresApproval := true
    customerBindingParameter := some "customer_id" },
  { name := "escalate_to_supervisor"
    requiredParameters := ["reason", "priority"]
    authoritativeParameters := [] },
  { name := "add_case_note"
    requiredParameters := ["note"]
    authoritativeParameters := [] },
  { name := "flag_account"
    requiredParameters := ["account_id", "reason", "restriction"]
    authoritativeParameters := ["account_id"]
    requiresApproval := true },
  { name := "submit_sar"
    requiredParameters := ["account_id", "alert_id", "narrative_ref"]
    authoritativeParameters := ["account_id", "alert_id"]
    requiresApproval := true },
  { name := "close_alert"
    requiredParameters := ["alert_id", "resolution"]
    authoritativeParameters := ["alert_id"]
    requiresApproval := true }]

/-- `ACTION_SPECIFICATIONS.get(name)` -/
def specification? (name : String) : Option ActionSpecification :=
  actionSpecifications.find? fun s => s.name = name

theorem specification?_mem {name : String} {s : ActionSpecification}
    (h : specification? name = some s) : s ∈ actionSpecifications ∧ s.name = name :=
  ⟨List.mem_of_find?_eq_some h, by simpa using List.find?_some h⟩

/-- A customer is bound through an authoritative parameter, and every authoritative
parameter is required. -/
theorem specification_coherent : ∀ s ∈ actionSpecifications,
    (∀ p ∈ s.authoritativeParameters, p ∈ s.requiredParameters) ∧
    ∀ b, s.customerBindingParameter = some b → b ∈ s.authoritativeParameters := by
  decide +kernel

end WorkflowEngine
