import WorkflowEngine.Interleave.Prog
import WorkflowEngine.Spec.ActionSpecs
import WorkflowEngine.Spec.Store

/-! The operations that an engine task issues, the methods of `SQLiteCoreStore` as
programs over its transactions, and `CaseKernel`. The world outside the core
database (connectors, policy and resource adapters) is a signature `X`. -/

namespace WorkflowEngine

open Interleave

/-- `dispatchCalled` and `dispatchReturned` mark that the gateway calls `connector.dispatch`
for an action, and that the call returned an outcome; the action id is not an argument of
the call. `reconcileCalled` marks a call of the gateway's own `reconcile`. -/
inductive Op (X : Sig) where
  | tx (o : Tx)
  | now
  | uuid
  | dispatchCalled (actionId : String) (command : ActionCommand)
  | dispatchReturned (actionId : String) (status : ActionStatus)
  | reconcileCalled (action : ActionRecord)
  | ext (o : X.Op)

def Op.Res {X : Sig} : Op X → Type
  | .tx o => o.Res
  | .now => Time
  | .uuid => String
  | .dispatchCalled .. => Unit
  | .dispatchReturned .. => Unit
  | .reconcileCalled _ => Unit
  | .ext o => X.Res o

def sig (X : Sig) : Sig := ⟨Op X, Op.Res⟩

variable {X : Sig}

abbrev Task (X : Sig) := Prog (sig X) PyErr

def Task.tx (o : Tx) : Task X o.Res := Prog.perform (S := sig X) (Op.tx o)

/-- A transaction whose exception the caller sees. -/
def Task.attempt {α : Type} (o : Tx) (h : o.Res = Except PyErr α) : Task X α :=
  Prog.bind (Task.tx o) fun r => Prog.ofExcept (cast h r)

/-- `_now()` -/
def Task.now : Task X Time := Prog.perform (S := sig X) Op.now

def Task.uuid : Task X String := Prog.perform (S := sig X) Op.uuid

def Task.ext {α : Type} (p : Prog X PyErr α) : Task X α := p.lift Op.ext fun _ r => r

namespace SQLiteCoreStore

def initializeStore : Task X Unit := Task.attempt .initializeStore rfl

def createCase (record : CaseRecord) : Task X Unit := Task.attempt (.createCase record) rfl

def getCase (caseId : String) : Task X (Option CaseRecord) := Task.tx (.getCase caseId)

def appendFact (caseId : String) (proposal : FactProposal) (expectedVersion : ℤ) :
    Task X CaseRecord := do
  Task.attempt (.appendFact caseId proposal expectedVersion) rfl
  match ← getCase caseId with
  | some record => return record
  | none => throw .assertionError

def getFact (caseId name : String) : Task X (Option FactRecord) := Task.tx (.getFact caseId name)

def insertAction (record : ActionRecord) (expectedVersion : ℤ) : Task X ActionRecord := do
  Task.attempt (.insertAction record expectedVersion) rfl
  return record

def getActionByKey (key : String) : Task X (Option ActionRecord) := Task.tx (.getActionByKey key)

def getAction (actionId : String) : Task X (Option ActionRecord) := Task.tx (.getAction actionId)

def listActions (status : Option ActionStatus) (limit : ℤ) : Task X (List ActionRecord) := do
  let limit ← Prog.ofExcept (sqlInteger limit)
  Task.tx (.listActions status limit.1)

def listActionEvents (actionId : String) : Task X (List ActionEvent) :=
  Task.tx (.listActionEvents actionId)

def transitionAction (actionId : String) (expected status : ActionStatus)
    (outcome : Option Fields) : Task X ActionRecord := do
  Task.attempt (.transitionAction actionId expected status outcome) rfl
  match ← getAction actionId with
  | some row => return row
  | none => throw .assertionError

def claimAction (actionId : String) : Task X (ActionRecord × Bool) := do
  let claimed ← Task.attempt (.claimAction actionId) rfl
  match ← getAction actionId with
  | some row => return (row, claimed)
  | none => throw (.keyError actionId)

def createActionProposal (record : ActionProposal) : Task X ActionProposal := do
  Task.attempt (.createProposal record) rfl
  return record

def getActionProposal (proposalId : String) : Task X (Option ActionProposal) :=
  Task.tx (.getProposal proposalId)

def transitionActionProposal (proposalId : String) (expected status : ActionProposalStatus)
    (confirmationEvidenceRef actionId : Option String) : Task X ActionProposal := do
  Task.attempt (.transitionProposal proposalId expected status confirmationEvidenceRef actionId) rfl
  match ← getActionProposal proposalId with
  | some row => return row
  | none => throw .assertionError

def enqueueOutbox (topic aggregateId : String) (payload : Fields) : Task X OutboxRecord := do
  let now ← Task.now
  let hex ← Task.uuid
  let record : OutboxRecord := {
    outboxId := "OUT-" ++ hex, topic, aggregateId, payload, status := .pending,
    availableAt := now, createdAt := now, updatedAt := now }
  Task.attempt (.insertOutbox record) rfl
  return record

/-- `SQLITE_MAX_VARIABLE_NUMBER`, as SQLite has it by default. -/
def maxVariableNumber : ℕ := 32766

/-- The leases are committed before the statement that reads the rows back is prepared. -/
def claimOutbox (owner : String) (leaseSeconds : ℤ) (limit : ℤ) : Task X (List OutboxRecord) := do
  let now ← Task.now
  let leaseUntil ← Prog.ofExcept (plusSeconds (← Task.now) leaseSeconds)
  let limit ← Prog.ofExcept (sqlInteger limit)
  let ids ← Task.tx (.claimOutbox owner now leaseUntil limit.1)
  if ids.isEmpty then
    return []
  if maxVariableNumber < ids.length then
    throw (.other "OperationalError")
  Task.tx (.selectOutbox ids)

def updateOutbox (outboxId : String) (status : OutboxStatus) (retryAt : Option Time)
    (error : Option String) : Task X OutboxRecord := do
  let now ← Task.now
  Task.tx (.updateOutbox outboxId status retryAt error now)
  let rows ← Task.tx (.selectOutbox [outboxId])
  match rows.head? with
  | some row => return row
  | none => throw (.keyError outboxId)

def completeOutbox (outboxId : String) : Task X OutboxRecord :=
  updateOutbox outboxId .delivered none none

def failOutbox (outboxId error : String) (retryAt : Option Time) (quarantine : Bool) :
    Task X OutboxRecord :=
  updateOutbox outboxId (if quarantine then .quarantined else .failed) retryAt (some error)

end SQLiteCoreStore

namespace CaseKernel

open SQLiteCoreStore

def createCase (caseId customerId procedureId version : String) : Task X CaseRecord := do
  let record : CaseRecord := {
    caseId, customerId, procedureId, procedureVersion := version, status := "active", version := 0 }
  SQLiteCoreStore.createCase record
  return record

def commitFact (caseId : String) (proposal : FactProposal) (expectedVersion : ℤ) :
    Task X CaseRecord :=
  appendFact caseId proposal expectedVersion

/-- `', '.join(sorted(names))` -/
def joinSorted (names : List String) : String :=
  String.intercalate ", " (names.insertionSort (· ≤ ·))

/-- The checks of `authorize_action` that read no state. -/
def checkCommand (command : ActionCommand) : Except PyErr Unit := do
  let some specification := specification? command.action
    | throw (.valueError ("Unknown consequential action: " ++ command.action))
  let missing := specification.requiredParameters.filter fun p => !command.parameters.has p
  if !missing.isEmpty then
    throw (.valueError ("Missing required action parameters: " ++ joinSorted missing))
  if specification.requiresConsent && command.consentEvidenceRef.getD "" = "" then
    throw (.valueError ("Action " ++ command.action ++ " requires explicit consent evidence"))
  if specification.requiresApproval && command.approvalEvidenceRef.getD "" = "" then
    throw (.valueError ("Action " ++ command.action ++ " requires approval evidence"))
  let unverified := specification.authoritativeParameters.filter fun p =>
    (command.parameterFactRefs.lookup p).isNone
  if !unverified.isEmpty then
    throw (.valueError ("Authoritative parameters lack fact references: " ++ joinSorted unverified))

/-- What `authorize_action` requires of the fact that backs one parameter; an absent
parameter is `None`. -/
def checkFact (command : ActionCommand) (parameter factName : String) :
    Option FactRecord → Except PyErr Unit
  | none => throw (.valueError ("Missing required fact: " ++ factName))
  | some fact => do
    let some required := command.requiredFactAuthority.lookup parameter
      | throw (.keyError parameter)
    if fact.authority.rank < required.rank then
      throw (.valueError ("Fact " ++ factName ++ " has insufficient authority"))
    if !((command.parameters.get? parameter).getD .null).pyEq fact.value then
      throw (.valueError ("Parameter " ++ parameter ++ " does not match authoritative fact"))

/-- The loop over `parameter_fact_refs`: one read for each entry. -/
def verifyFacts (command : ActionCommand) : List (String × String) → Task X Unit
  | [] => return ()
  | (parameter, factName) :: rest => do
    let fact ← getFact command.caseId factName
    Prog.ofExcept (checkFact command parameter factName fact)
    verifyFacts command rest

def authorizeAction (command : ActionCommand) (expectedVersion : ℤ) : Task X ActionRecord := do
  match ← getActionByKey command.idempotencyKey with
  | some duplicate =>
    if !duplicate.command.pyEq command then
      throw (.valueError "Idempotency key is already bound to a different action command")
    return duplicate
  | none =>
    Prog.ofExcept (checkCommand command)
    verifyFacts command command.parameterFactRefs
    let now ← Task.now
    let hex ← Task.uuid
    insertAction {
      actionId := "ACT-" ++ hex, command, status := .authorized, createdAt := now,
      updatedAt := now } expectedVersion

def markDispatched (actionId : String) : Task X ActionRecord := do
  return (← claimAction actionId).1

/-- The transition table of `record_outcome`. -/
def allowed : ActionStatus → List ActionStatus
  | .dispatched => [.succeeded, .failed, .unknown]
  | .unknown => [.unknown, .failed, .reconciled]
  | _ => []

def recordOutcome (actionId : String) (status : ActionStatus) (outcome : Option Fields) :
    Task X ActionRecord := do
  if status ∉ [ActionStatus.succeeded, .failed, .unknown, .reconciled] then
    throw (.valueError "Invalid terminal/reconciliation status")
  match ← getAction actionId with
  | none => throw (.keyError actionId)
  | some current =>
    if status ∉ allowed current.status then
      throw (.valueError
        ("Invalid action transition: " ++ current.status.value ++ " -> " ++ status.value))
    transitionAction actionId current.status status outcome

end CaseKernel
end WorkflowEngine
