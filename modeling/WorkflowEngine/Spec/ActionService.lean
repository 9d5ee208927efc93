import WorkflowEngine.Spec.Gateway

/-! The typed application service for consequential operations
(`core/action_service.py`). -/

namespace WorkflowEngine

open Interleave SQLiteCoreStore

/-- A `float` field with `gt=0`. -/
structure Amount where
  mantissa : ℤ
  exponent : ℤ
  pos : 0 < mantissa

def Amount.json (a : Amount) : Json := .float a.mantissa a.exponent

inductive DisputeType where
  | unauthorized | error | fraud

def DisputeType.value : DisputeType → String
  | .unauthorized => "unauthorized"
  | .error => "error"
  | .fraud => "fraud"

inductive Priority where
  | low | normal | high | urgent

def Priority.value : Priority → String
  | .low => "low"
  | .normal => "normal"
  | .high => "high"
  | .urgent => "urgent"

inductive Restriction where
  | monitor | restrict | freeze

def Restriction.value : Restriction → String
  | .monitor => "monitor"
  | .restrict => "restrict"
  | .freeze => "freeze"

inductive Resolution where
  | confirmedFraud | falsePositive | escalated

def Resolution.value : Resolution → String
  | .confirmedFraud => "confirmed_fraud"
  | .falsePositive => "false_positive"
  | .escalated => "escalated"

/-- The discriminated union of payload models. -/
inductive ActionPayload where
  | issueRefund (orderId customerId : String) (refundAmount : Amount)
      (currency paymentMethod reason : String)
  | issueStoreCredit (orderId customerId : String) (amount : Amount) (currency reason : String)
  | updateCaseStatus (targetStatus reason : String)
  | fileEftDispute (customerId transactionId : String) (amount : Amount)
      (disputeType : DisputeType)
  | issueProvisionalCredit (customerId disputeId : String) (amount : Amount)
  | escalateToSupervisor (reason : String) (priority : Priority)
  | addCaseNote (note : String) (noteLength : 1 ≤ note.length ∧ note.length ≤ 10000)
  | flagAccount (accountId reason : String) (restriction : Restriction)
  | submitSar (accountId alertId narrativeRef : String)
  | closeAlert (alertId : String) (resolution : Resolution)

namespace ActionPayload

def action : ActionPayload → String
  | .issueRefund .. => "issue_refund"
  | .issueStoreCredit .. => "issue_store_credit"
  | .updateCaseStatus .. => "update_case_status"
  | .fileEftDispute .. => "file_eft_dispute"
  | .issueProvisionalCredit .. => "issue_provisional_credit"
  | .escalateToSupervisor .. => "escalate_to_supervisor"
  | .addCaseNote .. => "add_case_note"
  | .flagAccount .. => "flag_account"
  | .submitSar .. => "submit_sar"
  | .closeAlert .. => "close_alert"

/-- `model_dump(exclude=["action"], mode="json")` -/
def dump : ActionPayload → Fields
  | .issueRefund order customer amount currency method reason => [
      ("order_id", .str order), ("customer_id", .str customer), ("refund_amount", amount.json),
      ("currency", .str currency), ("payment_method", .str method), ("reason", .str reason)]
  | .issueStoreCredit order customer amount currency reason => [
      ("order_id", .str order), ("customer_id", .str customer), ("amount", amount.json),
      ("currency", .str currency), ("reason", .str reason)]
  | .updateCaseStatus target reason => [("target_status", .str target), ("reason", .str reason)]
  | .fileEftDispute customer transaction amount kind => [
      ("customer_id", .str customer), ("transaction_id", .str transaction),
      ("amount", amount.json), ("dispute_type", .str kind.value)]
  | .issueProvisionalCredit customer dispute amount => [
      ("customer_id", .str customer), ("dispute_id", .str dispute), ("amount", amount.json)]
  | .escalateToSupervisor reason priority => [
      ("reason", .str reason), ("priority", .str priority.value)]
  | .addCaseNote note _ => [("note", .str note)]
  | .flagAccount account reason restriction => [
      ("account_id", .str account), ("reason", .str reason),
      ("restriction", .str restriction.value)]
  | .submitSar account alert narrative => [
      ("account_id", .str account), ("alert_id", .str alert), ("narrative_ref", .str narrative)]
  | .closeAlert alert resolution => [
      ("alert_id", .str alert), ("resolution", .str resolution.value)]

/-- Every payload model has a specification, which its fields satisfy. -/
theorem specification_of_action (p : ActionPayload) : ∃ s, specification? p.action = some s ∧
    (∀ q ∈ s.requiredParameters, p.dump.has q = true) ∧
    ∀ b, s.customerBindingParameter = some b → ∃ c, p.dump.get? b = some (.str c) := by
  cases p <;> refine ⟨_, rfl, ?_, ?_⟩ <;>
    simp [dump, Fields.has, Fields.get?, List.lookup_cons]

end ActionPayload

structure AuthoritativeResourceRef where
  resourceType : String
  resourceId : String

structure ConsequentialActionRequest where
  caseId : String
  customerId : String
  procedureId : String
  procedureVersion : String
  policyPackageId : String
  idempotencyKey : String
  resource : Option AuthoritativeResourceRef := none
  payload : ActionPayload
  consentEvidenceRef : Option String := none
  approvalEvidenceRef : Option String := none
  connectorBindingId : Option String := none
  connectorBindingVersion : Option String := none
  contractVersion : Option String := none
  keyMin : 4 ≤ idempotencyKey.length
  keyMax : idempotencyKey.length ≤ 300

theorem note_fits : 1 ≤ "n".length ∧ "n".length ≤ 10000 := by decide

/-- What an adapter returns for a resource. -/
structure Resource where
  payload : Fields
  version : ℤ

abbrev AuthoritativeResourceProvider (X : Sig) := String → String → Prog X PyErr (Option Resource)

structure ConsequentialActionService (X : Sig) where
  gateway : ActionGateway X
  resources : AuthoritativeResourceProvider X

namespace ConsequentialActionService

variable {X : Sig} (service : ConsequentialActionService X)

def normalizeResourcePayload (action : String) (payload : Fields) : Fields :=
  let normalized :=
    if action = "issue_refund" then
      match payload.get? "refund_amount", payload.get? "amount" with
      | none, some amount => payload.set "refund_amount" amount
      | _, _ => payload
    else payload
  if (action = "issue_refund" ∨ action = "issue_store_credit") ∧
      normalized.has "currency" = false then
    normalized.set "currency" (.str "USD")
  else normalized

/-- The comparison of a replayed request with the action its key is bound to. -/
def replayMatches (request : ConsequentialActionRequest) (command : ActionCommand) : Bool :=
  let requested := request.payload.dump
  let parametersMatch :=
    if request.payload.action = "issue_refund" then
      command.parameters.all fun kv => ((requested.get? kv.1).getD .null).pyEq kv.2
    else command.parameters.pyEq requested
  decide (command.caseId = request.caseId) && decide (command.action = request.payload.action) &&
    decide (command.policyPackageId = request.policyPackageId) && parametersMatch

def replay (request : ConsequentialActionRequest) (duplicate : ActionRecord) :
    Task X ActionRecord := do
  if !replayMatches request duplicate.command then
    throw (.valueError "Idempotency key is already bound to a different action request")
  match ← getCase duplicate.command.caseId with
  | none => throw (.valueError "Idempotent action does not belong to this customer")
  | some case =>
    if case.customerId ≠ request.customerId then
      throw (.valueError "Idempotent action does not belong to this customer")
    service.gateway.dispatch duplicate

/-- The customer binding, over the normalized payload. -/
def checkBinding (request : ConsequentialActionRequest) (specification : ActionSpecification)
    (upstream : Fields) : Except PyErr Unit :=
  match specification.customerBindingParameter with
  | none => pure ()
  | some binding => match upstream.get? binding with
    | none =>
      throw (.valueError ("Authoritative resource is missing customer binding " ++ binding))
    | some value =>
      if value.pyStr ≠ request.customerId then
        throw (.valueError "Authoritative resource does not belong to the serviced customer")
      else pure ()

/-- The comparison of one authoritative parameter. -/
def checkParameter (request : ConsequentialActionRequest) (upstream : Fields)
    (parameter : String) : Except PyErr Unit :=
  match upstream.get? parameter with
  | none => throw (.valueError ("Authoritative resource is missing " ++ parameter))
  | some value =>
    if !value.pyEq ((request.payload.dump.get? parameter).getD .null) then
      throw (.valueError
        ("Parameter " ++ parameter ++ " does not match the authoritative resource"))
    else pure ()

def checkUpstream (request : ConsequentialActionRequest) (specification : ActionSpecification)
    (upstream : Fields) : Except PyErr Unit := do
  checkBinding request specification upstream
  specification.authoritativeParameters.forM (checkParameter request upstream)

/-- The normalized upstream payload and its evidence reference. -/
def loadResource (request : ConsequentialActionRequest) (specification : ActionSpecification) :
    Task X (Fields × String) := do
  if specification.authoritativeParameters.isEmpty then
    return ([], "")
  match request.resource with
  | none => throw (.valueError "This action requires an authoritative resource reference")
  | some ref =>
    match ← Task.ext (service.resources ref.resourceType ref.resourceId) with
    | none => throw (.valueError "Authoritative resource was not found")
    | some resource =>
      let upstream := normalizeResourcePayload request.payload.action resource.payload
      Prog.ofExcept (checkUpstream request specification upstream)
      return (upstream, "sandbox:" ++ ref.resourceType ++ ":" ++ ref.resourceId ++ ":v" ++
        toString resource.version)

def openCase (request : ConsequentialActionRequest) : Task X CaseRecord := do
  match ← getCase request.caseId with
  | none =>
    CaseKernel.createCase request.caseId request.customerId request.procedureId
      request.procedureVersion
  | some case =>
    if case.customerId ≠ request.customerId then
      throw (.valueError "Case customer does not match authenticated customer")
    if case.procedureVersion ≠ request.procedureVersion then
      throw (.valueError "Active cases cannot silently switch procedure versions")
    return case

def factName (action parameter : String) : String := action ++ "." ++ parameter

/-- The loop over the sorted authoritative parameters: each commit threads the version that
the previous one returned. -/
def commitFacts (action caseId : String) (upstream : Fields) (evidenceRef : String) :
    List String → CaseRecord → Task X CaseRecord
  | [], case => return case
  | parameter :: rest, case => do
    match upstream.get? parameter with
    | none => throw (.keyError parameter)
    | some value =>
      let case ← CaseKernel.commitFact caseId {
        name := factName action parameter, value, authority := .verified,
        source := "authoritative_resource_adapter", evidenceRef } case.version
      commitFacts action caseId upstream evidenceRef rest case

/-- The command that `submit` builds; the gateway replaces its binding fields. -/
def command (request : ConsequentialActionRequest) (actorId : String)
    (authoritative : List String) : ActionCommand where
  action := request.payload.action
  caseId := request.caseId
  policyPackageId := request.policyPackageId
  actorId := actorId
  idempotencyKey := request.idempotencyKey
  parameters := request.payload.dump
  parameterFactRefs := authoritative.map fun p => (p, factName request.payload.action p)
  requiredFactAuthority := authoritative.map fun p => (p, .verified)
  consentEvidenceRef := request.consentEvidenceRef
  approvalEvidenceRef := request.approvalEvidenceRef
  connectorBindingId := request.connectorBindingId
  connectorBindingVersion := request.connectorBindingVersion
  contractVersion := request.contractVersion
  keyMin := request.keyMin

def authorizeNew (request : ConsequentialActionRequest) (actorId : String) :
    Task X ActionRecord := do
  let some specification := specification? request.payload.action
    | throw (.keyError request.payload.action)
  let (upstream, evidenceRef) ← service.loadResource request specification
  let case ← openCase request
  let authoritative := specification.authoritativeParameters.insertionSort (· ≤ ·)
  let case ← commitFacts request.payload.action request.caseId upstream evidenceRef authoritative
    case
  service.gateway.authorize (command request actorId authoritative) case.version

def submit (request : ConsequentialActionRequest) (actorId : String) : Task X ActionRecord := do
  match ← getActionByKey request.idempotencyKey with
  | some duplicate => service.replay request duplicate
  | none =>
    let authorized ← service.authorizeNew request actorId
    service.gateway.dispatch authorized

end ConsequentialActionService
end WorkflowEngine
