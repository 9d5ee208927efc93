import WorkflowEngine.Spec.Kernel
import WorkflowEngine.Spec.Policy

/-! `ActionGateway` (`core/gateway.py`): the dispatch and reconciliation boundary. -/

namespace WorkflowEngine

open Interleave SQLiteCoreStore

structure ConnectorOutcome where
  status : ActionStatus
  details : Fields

structure ActionConnector (X : Sig) where
  dispatch : ActionCommand → Prog X PyErr ConnectorOutcome
  reconcile : ActionCommand → Option Fields → Prog X PyErr ConnectorOutcome

structure ResolvedActionConnector (X : Sig) where
  actionName : String
  bindingId : String
  bindingVersion : String
  contractVersion : String
  connector : ActionConnector X

/-- The gateway is given a mapping by action name, or a resolver of pinned bindings. -/
inductive Connectors (X : Sig) where
  | mapping (get : String → Option (ActionConnector X))
  | resolver (resolve : String → Option String → Option String → Option String →
      Except PyErr (ResolvedActionConnector X))

structure ActionGateway (X : Sig) where
  connectors : Connectors X
  policyRegistry : Option (PolicyResolver X) := none
  policyResolver : Option (PolicyResolver X) := none

/-- `needle in haystack` for a string and a JSON value. -/
def pyIn (needle : String) : Json → Except PyErr Bool
  | .list xs => .ok (xs.any fun x => x.pyEq (.str needle))
  | .str s => .ok (decide (needle.toList <:+: s.toList))
  | .dict kvs => .ok (Fields.has kvs needle)
  | _ => .error (.typeError "argument is not iterable")

namespace ActionGateway

variable {X : Sig} (gateway : ActionGateway X)

def resolveConnector (command : ActionCommand) (usePinnedBinding : Bool) :
    Except PyErr (ResolvedActionConnector X) :=
  match gateway.connectors with
  | .resolver resolve =>
    if usePinnedBinding then
      resolve command.action command.connectorBindingId command.connectorBindingVersion
        command.contractVersion
    else resolve command.action none none none
  | .mapping get => match get command.action with
    | none => .error (.valueError ("Unknown action connector: " ++ command.action))
    | some connector => .ok {
        actionName := command.action, bindingId := "legacy", bindingVersion := "1",
        contractVersion := "1", connector }

/-- The allow-list test shared by `authorize` and `dispatch`; JSON null is `None`. -/
def checkAllowed (package : PolicyPackage) (action : String) : Except PyErr Unit :=
  match package.rules.get? "allowed_actions" with
  | none => .ok ()
  | some .null => .ok ()
  | some allowed => do
    if !(← pyIn action allowed) then
      throw (.valueError ("Policy package " ++ package.packageId ++ " does not allow " ++ action))

/-- The resolver, when there is one, decides; the registry is the fallback. -/
def policy : Option (PolicyResolver X) := gateway.policyResolver.or gateway.policyRegistry

def authorize (command : ActionCommand) (expectedVersion : ℤ) : Task X ActionRecord := do
  let resolved ← Prog.ofExcept (gateway.resolveConnector command false)
  let command := { command with
    connectorBindingId := some resolved.bindingId
    connectorBindingVersion := some resolved.bindingVersion
    contractVersion := some resolved.contractVersion }
  match gateway.policy with
  | none => CaseKernel.authorizeAction command expectedVersion
  | some policy =>
    let package ← Task.ext (policy.requireActive command.policyPackageId)
    match ← getCase command.caseId with
    | none => throw (.valueError ("Action case does not exist: " ++ command.caseId))
    | some case =>
      if package.procedureId ≠ case.procedureId then
        throw (.valueError "Policy package procedure does not match the action case procedure")
      Prog.ofExcept (checkAllowed package command.action)
      CaseKernel.authorizeAction
        { command with policyActivationSignature := package.activationSignature } expectedVersion

/-- The policy checks at the head of `dispatch`. Actions of v2 carry no signature. -/
def checkSnapshot (command : ActionCommand) : Task X Unit := do
  match gateway.policy with
  | none => return ()
  | some policy =>
    let package ← Task.ext (match command.policyActivationSignature.getD "" with
      | "" => policy.requireActive command.policyPackageId
      | signature => policy.requireAuthorizationSnapshot command.policyPackageId signature)
    Prog.ofExcept (checkAllowed package command.action)

/-- `connector.dispatch(action.command)`; an exception is an ambiguous outcome. -/
def callConnector (connector : ActionConnector X) (action : ActionRecord) :
    Task X ConnectorOutcome := do
  Prog.perform (S := sig X) (.dispatchCalled action.actionId action.command)
  try
    let outcome ← Task.ext (connector.dispatch action.command)
    Prog.perform (S := sig X) (.dispatchReturned action.actionId outcome.status)
    pure outcome
  catch exc =>
    pure ⟨.unknown, [("reason", .str "connector_exception"), ("error_type", .str exc.typeName)]⟩

def dispatch (action : ActionRecord) : Task X ActionRecord := do
  if action.status ≠ .authorized then
    return action
  gateway.checkSnapshot action.command
  let resolved ← Prog.ofExcept (gateway.resolveConnector action.command true)
  let (claimedAction, claimed) ← claimAction action.actionId
  if !claimed then
    return claimedAction
  let outcome ← callConnector resolved.connector action
  CaseKernel.recordOutcome action.actionId outcome.status (some outcome.details)

/-- The query and its recording, for an action that is `UNKNOWN`. -/
def query (action : ActionRecord) : Task X ActionRecord := do
  let resolved ← Prog.ofExcept (gateway.resolveConnector action.command true)
  let outcome ← Task.ext (resolved.connector.reconcile action.command action.outcome)
  if outcome.status = .succeeded then
    CaseKernel.recordOutcome action.actionId .reconciled (some outcome.details)
  else
    CaseKernel.recordOutcome action.actionId outcome.status (some outcome.details)

/-- A stale `DISPATCHED` record is an interrupted attempt. -/
def markStale (action : ActionRecord) : Task X ActionRecord :=
  if action.status = .dispatched then
    CaseKernel.recordOutcome action.actionId .unknown (some [
      ("reason", .str "dispatch_lease_expired_before_outcome_recorded"),
      ("prior", (action.outcome.map Json.dict).getD .null)])
  else return action

def reconcile (action : ActionRecord) : Task X ActionRecord := do
  Prog.perform (S := sig X) (.reconcileCalled action)
  let action ← markStale action
  if action.status ≠ .unknown then
    return action
  gateway.query action

end ActionGateway
end WorkflowEngine
