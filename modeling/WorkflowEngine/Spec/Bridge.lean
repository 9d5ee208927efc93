import WorkflowEngine.Spec.ActionService

/-! The decision half of `ActionBridge` (`actions/bridge.py`): confirmation,
cancellation and status of stored proposals. Validation of a stored payload by
the pydantic union is a parameter. -/

namespace WorkflowEngine

open Interleave SQLiteCoreStore

structure ActionConfirmationContext where
  actorId : String
  customerId : String
  consentEvidenceRef : Option String := none
  approvalEvidenceRef : Option String := none

structure ActionBridge (X : Sig) where
  actionService : ConsequentialActionService X
  resources : AuthoritativeResourceProvider X
  connectorResolver : Option (String → Except PyErr (ResolvedActionConnector X)) := none
  validatePayload : Fields → Option ActionPayload

namespace ActionBridge

variable {X : Sig} (bridge : ActionBridge X)

def getOwned (proposalId customerId : String) (actorId : Option String) :
    Task X ActionProposal := do
  match ← getActionProposal proposalId with
  | none => throw (.keyError proposalId)
  | some proposal =>
    if proposal.customerId ≠ customerId then
      throw (.valueError "Action proposal does not belong to this customer")
    if actorId.any (· ≠ proposal.actorId) then
      throw (.valueError "Action proposal does not belong to this actor")
    return proposal

/-- `_expired(expires_at)` -/
def expired (expiresAt : Time) : Task X Bool := do
  return decide (expiresAt ≤ (← Task.now))

/-- A transition from `PENDING` whose conflict is answered by the stored proposal. -/
def transitionOrCurrent (proposalId : String) (status : ActionProposalStatus)
    (actionId : Option String) : Task X ActionProposal :=
  try
    transitionActionProposal proposalId .pending status none actionId
  catch
    | .actionConflict _ => do
      match ← getActionProposal proposalId with
      | some current => pure current
      | none => throw .assertionError
    | exc => throw exc

def expire (proposal : ActionProposal) : Task X ActionProposal :=
  transitionOrCurrent proposal.proposalId .expired none

def recoverConfirmed (proposal : ActionProposal) (action : ActionRecord) : Task X ActionProposal :=
  transitionOrCurrent proposal.proposalId .confirmed (some action.actionId)

/-- A string that is neither absent nor empty. -/
def given : Option String → Option String
  | some "" => none
  | s => s

def loadResource (resourceType resourceId : Option String) : Task X (Option Resource) := do
  match given resourceType, given resourceId with
  | none, none => return none
  | some resourceType, some resourceId =>
    match ← Task.ext (bridge.resources resourceType resourceId) with
    | none => throw (.valueError "Authoritative resource was not found")
    | some resource => return some resource
  | _, _ => throw (.valueError "Both resource_type and resource_id are required")

def verifyResourceVersion (proposal : ActionProposal) : Task X Unit := do
  if proposal.resourceType = none ∨ proposal.resourceId = none then
    return ()
  match ← bridge.loadResource proposal.resourceType proposal.resourceId with
  | none => throw .assertionError
  | some resource =>
    if some resource.version ≠ proposal.resourceVersion then
      throw (.valueError "Authoritative resource version changed after proposal")

def verifyConnectorBinding (proposal : ActionProposal) : Except PyErr Unit :=
  match bridge.connectorResolver with
  | none => .ok ()
  | some resolve => do
    let resolved ← resolve proposal.action
    if (some resolved.bindingId, some resolved.bindingVersion, some resolved.contractVersion) ≠
        (proposal.connectorBindingId, proposal.connectorBindingVersion,
          proposal.contractVersion) then
      throw (.valueError "Action connector binding changed after proposal")

/-- The evidence checks and the typed request of `confirm`. -/
def buildRequest (proposal : ActionProposal) (context : ActionConfirmationContext) :
    Except PyErr ConsequentialActionRequest := do
  let some specification := specification? proposal.action | throw (.keyError proposal.action)
  if specification.requiresConsent && context.consentEvidenceRef.getD "" = "" then
    throw (.valueError ("Action " ++ proposal.action ++ " requires explicit consent evidence"))
  if specification.requiresApproval && context.approvalEvidenceRef.getD "" = "" then
    throw (.valueError ("Action " ++ proposal.action ++ " requires approval evidence"))
  let some payload := bridge.validatePayload proposal.payload
    | throw (.validationError "ConsequentialActionRequest")
  if h : 4 ≤ proposal.idempotencyKey.length ∧ proposal.idempotencyKey.length ≤ 300 then
    return {
      caseId := proposal.caseId
      customerId := proposal.customerId
      procedureId := proposal.procedureId
      procedureVersion := proposal.procedureVersion
      policyPackageId := proposal.policyPackageId
      idempotencyKey := proposal.idempotencyKey
      resource := match given proposal.resourceType, given proposal.resourceId with
        | some resourceType, some resourceId => some ⟨resourceType, resourceId⟩
        | _, _ => none
      payload
      consentEvidenceRef :=
        if specification.requiresConsent then context.consentEvidenceRef else none
      approvalEvidenceRef :=
        if specification.requiresApproval then context.approvalEvidenceRef else none
      connectorBindingId := proposal.connectorBindingId
      connectorBindingVersion := proposal.connectorBindingVersion
      contractVersion := proposal.contractVersion
      keyMin := h.1
      keyMax := h.2 }
  else throw (.validationError "ConsequentialActionRequest")

/-- The transition at the end of `confirm`; a conflict is answered by a confirmed proposal. -/
def recordConfirmed (proposal : ActionProposal) (context : ActionConfirmationContext)
    (action : ActionRecord) : Task X ActionProposal :=
  try
    transitionActionProposal proposal.proposalId .pending .confirmed
      ((given context.consentEvidenceRef).or context.approvalEvidenceRef) (some action.actionId)
  catch
    | .actionConflict message => do
      let current ← getOwned proposal.proposalId context.customerId none
      if current.status = .confirmed then
        pure current
      else
        throw (.actionConflict message)
    | exc => throw exc

/-- `confirm` once the proposal was read as `PENDING` and not expired. -/
def submitPending (proposal : ActionProposal) (context : ActionConfirmationContext) :
    Task X ActionProposal := do
  bridge.verifyResourceVersion proposal
  Prog.ofExcept (bridge.verifyConnectorBinding proposal)
  let request ← Prog.ofExcept (bridge.buildRequest proposal context)
  let action ← bridge.actionService.submit request context.actorId
  recordConfirmed proposal context action

def confirm (proposalId : String) (context : ActionConfirmationContext) :
    Task X ActionProposal := do
  let proposal ← getOwned proposalId context.customerId (some context.actorId)
  match proposal.status with
  | .confirmed => return proposal
  | .pending =>
    if ← expired proposal.expiresAt then
      expire proposal
    else
      bridge.submitPending proposal context
  | status => throw (.valueError ("Action proposal is " ++ status.value))

def cancel (proposalId : String) (context : ActionConfirmationContext) :
    Task X ActionProposal := do
  let proposal ← getOwned proposalId context.customerId (some context.actorId)
  match proposal.status with
  | .cancelled => return proposal
  | .pending =>
    match ← getActionByKey proposal.idempotencyKey with
    | some existing => recoverConfirmed proposal existing
    | none => transitionActionProposal proposalId .pending .cancelled none none
  | status => throw (.valueError ("Action proposal is " ++ status.value))

def status (proposalId customerId : String) (actorId : Option String) : Task X ActionProposal := do
  let proposal ← getOwned proposalId customerId actorId
  if proposal.status = .pending then
    if ← expired proposal.expiresAt then
      expire proposal
    else
      return proposal
  else
    return proposal

end ActionBridge
end WorkflowEngine
