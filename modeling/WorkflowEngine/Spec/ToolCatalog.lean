import WorkflowEngine.Spec.ActionRequests

/-! The tools that can be given to a model (`tools/catalog.py`), and the check that a tool makes of
the session it is called in (`tools/access.py`). -/

namespace WorkflowEngine

structure ToolControl where
  name : String
  requiredPermission : Option String
  productionModelEnabled : Bool := true
  proposalOnly : Bool
  selfServiceAllowed : Bool

namespace ToolControl

/-- `_read` -/
def read (name : String) (permission : Option String) : ToolControl where
  name
  requiredPermission := permission
  proposalOnly := false
  selfServiceAllowed := false

/-- `_action` -/
def action (name permission : String) (selfService : Bool := false) : ToolControl where
  name
  requiredPermission := some permission
  proposalOnly := true
  selfServiceAllowed := selfService

end ToolControl

open ToolControl in
/-- `TOOL_CATALOG` -/
def toolCatalog : List ToolControl := [
  read "lookup_order" (some "order:read"),
  read "get_customer_profile" (some "customer:read"),
  read "search_orders" (some "order:read"),
  read "lookup_dispute" (some "case:read"),
  read "check_dispute_eligibility" (some "case:read"),
  read "get_knowledge_article" none,
  read "get_fraud_alert" (some "fraud_alert:read"),
  read "get_account_transactions" (some "transaction:read"),
  read "check_device_fingerprint" (some "device:read"),
  action "issue_refund" "refund:write" true,
  action "issue_store_credit" "refund:write",
  action "update_case_status" "case:write",
  action "file_eft_dispute" "case:write",
  action "issue_provisional_credit" "refund:write",
  action "escalate_to_supervisor" "escalation:create",
  action "add_case_note" "case:write",
  action "flag_account" "account:flag",
  action "submit_sar" "sar:submit",
  action "close_alert" "fraud_alert:write"]

def toolControl? (toolName : String) : Option ToolControl :=
  toolCatalog.find? fun control => control.name = toolName

/-- What a session says of the actor and the customer that it was made for. -/
structure SessionActor where
  customerId : Option String
  actorRole : Option String
  actorPermissions : List String

namespace SessionActor

def selfService (actor : SessionActor) (control : ToolControl) : Bool :=
  control.selfServiceAllowed && decide (actor.actorRole = some "customer") &&
    (ActionBridge.given actor.customerId).isSome

def permits (actor : SessionActor) (control : ToolControl) : Bool :=
  control.requiredPermission.all (· ∈ actor.actorPermissions) || actor.selfService control

def authorizeTool (toolName : String) (actor : SessionActor)
    (customerId : Option String := none) : Except TurnError Unit :=
  match toolControl? toolName with
  | none => .error (.raised (.keyError toolName))
  | some control =>
    if !actor.permits control then
      .error (.authorization ("Tool '" ++ toolName ++ "' is not authorized for this actor")
        control.requiredPermission)
    else if customerId.any (actor.customerId ≠ some ·) then
      .error (.authorization
        "Tool customer does not match the authenticated session customer" none)
    else .ok ()

end SessionActor

end WorkflowEngine
