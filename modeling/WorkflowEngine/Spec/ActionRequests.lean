import WorkflowEngine.Spec.CaseIds
import WorkflowEngine.Spec.Channels
import WorkflowEngine.Spec.Proposals

/-! How the host turns what a conversation asks for into a proposal (`main.py`). -/

namespace WorkflowEngine

open Interleave

/-- `ACTION_PERMISSIONS` -/
def actionPermissions : List (String × String) := [
  ("issue_refund", "refund:write"),
  ("issue_store_credit", "refund:write"),
  ("update_case_status", "case:write"),
  ("file_eft_dispute", "case:write"),
  ("issue_provisional_credit", "refund:write"),
  ("escalate_to_supervisor", "escalation:create"),
  ("add_case_note", "case:write"),
  ("flag_account", "account:flag"),
  ("submit_sar", "sar:submit"),
  ("close_alert", "fraud_alert:write")]

/-- `_DEFAULT_PROCEDURE_BY_ACTION` -/
def defaultProcedureByAction : List (String × String) := [
  ("issue_refund", "cs_refund"),
  ("issue_store_credit", "cs_refund"),
  ("update_case_status", "cs_refund"),
  ("file_eft_dispute", "cs_eft_dispute"),
  ("issue_provisional_credit", "cs_eft_dispute"),
  ("escalate_to_supervisor", "cs_refund"),
  ("add_case_note", "cs_refund"),
  ("flag_account", "fraud_alert_triage"),
  ("submit_sar", "fraud_alert_triage"),
  ("close_alert", "fraud_alert_triage")]

/-- What `_action_policy` reads of a package that is active from the start. -/
structure HostPolicy where
  packageId : String
  version : String
  allowedActions : List String

def activeRefundPolicy (jurisdictionProfile : String) : HostPolicy where
  packageId := "refund@1.0.0:" ++ jurisdictionProfile
  version := "1.0.0"
  allowedActions := ["issue_refund", "issue_store_credit", "update_case_status",
    "escalate_to_supervisor", "add_case_note"]

def activeRegEPolicy (jurisdictionProfile : String) : HostPolicy where
  packageId := "reg-e@1.0.0:" ++ jurisdictionProfile
  version := "1.0.0"
  allowedActions := ["file_eft_dispute", "issue_provisional_credit", "escalate_to_supervisor",
    "add_case_note"]

def activeFraudPolicy (jurisdictionProfile : String) : HostPolicy where
  packageId := "fraud@1.0.0:" ++ jurisdictionProfile
  version := "1.0.0"
  allowedActions := ["flag_account", "submit_sar", "close_alert", "escalate_to_supervisor",
    "add_case_note"]

/-- `_POLICY_BY_PROCEDURE` -/
def policyByProcedure (jurisdictionProfile : String) : List (String × HostPolicy) := [
  ("cs_refund", activeRefundPolicy jurisdictionProfile),
  ("cs_eft_dispute", activeRegEPolicy jurisdictionProfile),
  ("fraud_alert_triage", activeFraudPolicy jurisdictionProfile)]

def requireActionAccess (actor : UserContext) (action : String) : Except TurnError Unit :=
  match actionPermissions.lookup action with
  | none => .error (.validation ("Unknown consequential action: " ++ action))
  | some permission =>
    if actor.role = .customer ∧ action = "issue_refund" then .ok ()
    else requirePermission actor permission

/-- The default procedure of an action, with its policy. -/
def defaultPolicy (jurisdictionProfile action : String) : Except TurnError (String × HostPolicy) :=
  match defaultProcedureByAction.lookup action with
  | none => .error (.raised (.keyError action))
  | some procedureId => match (policyByProcedure jurisdictionProfile).lookup procedureId with
    | none => .error (.raised (.keyError procedureId))
    | some policy => .ok (procedureId, policy)

def actionPolicy (jurisdictionProfile action : String) (requestedProcedure : Option String) :
    Except TurnError (String × HostPolicy) := do
  let requested := requestedProcedure.bind fun procedureId =>
    ((policyByProcedure jurisdictionProfile).lookup procedureId).map (procedureId, ·)
  let (procedureId, policy) ← match requested with
    | some chosen => .ok chosen
    | none => defaultPolicy jurisdictionProfile action
  if action ∈ policy.allowedActions then .ok (procedureId, policy)
  else defaultPolicy jurisdictionProfile action

/-- The arguments of `_create_action_proposal`. -/
structure ActionRequest where
  actor : UserContext
  customerId : String
  action : String
  arguments : Fields
  resource : Option AuthoritativeResourceRef := none
  conversationId : Option String := none
  messageId : Option String := none
  requestedProcedure : Option String := none

/-- What the host is configured with. -/
structure ProposalHost (X : Sig) where
  host : Host X
  jurisdictionProfile : String
  /-- Python's `str.upper`. -/
  upper : String → String

namespace ProposalHost

variable {X : Sig} (host : ProposalHost X)

/-- The context that `_create_action_proposal` derives. -/
def trustedContext (request : ActionRequest) (procedureId : String) (policy : HostPolicy) :
    TrustedActionContext where
  actorId := request.actor.userId
  customerId := request.customerId
  caseId := actionCaseId host.upper request.action request.customerId request.conversationId
    request.arguments
  procedureId
  procedureVersion := policy.version
  policyPackageId := policy.packageId
  conversationId := request.conversationId
  messageId := request.messageId

/-- `_create_action_proposal`; it awaits only what the bridge does. -/
def createActionProposal (request : ActionRequest) : Except TurnError (Task X ActionProposal) := do
  requireActionAccess request.actor request.action
  let (procedureId, policy) ←
    actionPolicy host.jurisdictionProfile request.action request.requestedProcedure
  let intent : ActionIntent := {
    action := request.action
    arguments := request.arguments
    resourceType := request.resource.map (·.resourceType)
    resourceId := request.resource.map (·.resourceId) }
  return host.host.engine.bridge.propose host.host.refundPolicy host.host.ttlSeconds intent
    (host.trustedContext request procedureId policy)

end ProposalHost
end WorkflowEngine
