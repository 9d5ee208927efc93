import Mathlib.Data.List.Dedup
import Mathlib.Logic.Function.Basic
import WorkflowEngine.HashChain.Sha256
import WorkflowEngine.Spec.ActionSpecs
import WorkflowEngine.Spec.Rest

/-! `ActionConnectorRegistry` and its configuration (`integrations/registry.py`). -/

namespace WorkflowEngine

inductive Environment where
  | dev | staging | production
  deriving DecidableEq

def hexDigits : List Char := "0123456789abcdefABCDEF".toList

structure OpenApiDocument where
  path : String
  sha256 : String
  pattern : sha256.length = 64 ∧ ∀ c ∈ sha256.toList, c ∈ hexDigits

/-- The fields of each transport that the registry reads. -/
inductive ActionTransport where
  | sqlite
  | rest (binding : RestActionBinding) (openapi : OpenApiDocument)
  | python (factory : String)
  | websocket (url : String)

/-- A binding that pydantic has accepted. -/
structure ActionConnectorBinding where
  actionName : String
  bindingId : String
  bindingVersion : String
  contractVersion : String
  enabled : Bool := true
  transport : ActionTransport
  known : (specification? actionName).isSome = true
  bindingIdMin : bindingId ≠ ""
  bindingIdPattern : ∀ c ∈ bindingId.toList, c.isAlphanum = true ∨ c ∈ ['_', '.', ':', '-']
  bindingVersionMin : bindingVersion ≠ ""
  contractVersionMin : contractVersion ≠ ""

/-- `ActionRegistryConfig.unique_active_actions`; `len(set(xs))` is the length without
duplicates. -/
def uniqueActiveActions (bindings : List ActionConnectorBinding) : Except PyErr Unit := do
  let active := (bindings.filter (·.enabled)).map (·.actionName)
  if active.length ≠ active.dedup.length then
    throw (.valueError "Only one enabled binding is allowed per action")
  let identities := bindings.map fun binding => (binding.bindingId, binding.bindingVersion)
  if identities.length ≠ identities.dedup.length then
    throw (.valueError "Binding ID/version pairs must be unique")

structure ActionRegistryConfig where
  version : ℤ := 1
  bindings : List ActionConnectorBinding
  versionMin : 1 ≤ version
  valid : uniqueActiveActions bindings = .ok ()

/-- What the registry is given, and what it finds outside: `loadFactory` builds a candidate from
the factory of a binding, which may lack the methods of a connector. -/
structure RegistryOptions (Y : Interleave.Sig) where
  environment : Environment := .dev
  sqliteConnectors : String → Option (ActionConnector (httpSig.sum Y)) := fun _ => none
  resolveSecret : String → Except PyErr String
  tables : UrlText.Tables
  loadFactory : String → ActionConnectorBinding →
    Except PyErr (Option (ActionConnector (httpSig.sum Y)))
  readBytes : String → Except PyErr (List ℕ)
  loadDocument : String → Except PyErr Fields
  upper : String → String

namespace RegistryOptions

variable {Y : Interleave.Sig} (options : RegistryOptions Y)

/-- `value.items()` -/
def items : Json → Except PyErr Fields
  | .dict kvs => .ok kvs
  | _ => .error (.other "AttributeError")

/-- The operations of one path item, with their method and path. -/
def pathOperations (path : String) (pathItem : Fields) : List (String × String × String) :=
  pathItem.filterMap fun (method, operation) => match operation with
    | .dict operation =>
      let operationId := (Fields.get? operation "operationId").getD .null
      if operationId.truthy then some (operationId.pyStr, options.upper method, path) else none
    | _ => none

/-- The operations of the document; a later one replaces an earlier one. -/
def documentOperations (document : Fields) : Except PyErr (List (String × String × String)) := do
  let paths ← items ((document.get? "paths").getD (.dict []))
  return (paths.flatMap fun (path, pathItem) => match pathItem with
    | .dict pathItem => options.pathOperations path pathItem
    | _ => []).reverse

/-- `_validate_openapi` -/
def validateOpenapi (bindingId : String) (binding : RestActionBinding) (openapi : OpenApiDocument) :
    Except PyErr Unit := do
  let content ← options.readBytes openapi.path
  let actual := (Sha256.digest content).words.flatMap Sha256.hexWord
  if actual.map Char.toLower ≠ openapi.sha256.toList.map Char.toLower then
    throw (.valueError ("OpenAPI digest mismatch for binding " ++ bindingId))
  let operations ← options.documentOperations (← options.loadDocument openapi.path)
  (some binding.execute :: [binding.reconcile]).reduceOption.forM fun operation => do
    if operations.lookup operation.operationId ≠ some (operation.method, operation.path) then
      throw (.valueError ("Configured operation " ++ operation.operationId ++
        " does not match pinned OpenAPI"))

/-- What production forbids. -/
def checkEnvironment (binding : ActionConnectorBinding) : Except PyErr Unit :=
  if options.environment = .production then
    match binding.transport with
    | .sqlite => throw (.valueError "SQLite/demo action bindings are forbidden in production")
    | .rest rest _ => if "https://".isPrefixOf rest.baseUrl then return ()
      else throw (.valueError "Production REST action bindings require HTTPS")
    | .websocket url => if "wss://".isPrefixOf url then return ()
      else throw (.valueError "Production WebSocket action bindings require WSS")
    | .python _ => return ()
  else return ()

/-- The connector that `_build` makes for a binding. -/
def connectorOf (binding : ActionConnectorBinding) :
    Except PyErr (ActionConnector (httpSig.sum Y)) := do
  options.checkEnvironment binding
  match binding.transport with
  | .rest rest openapi =>
    options.validateOpenapi binding.bindingId rest openapi
    return (RestActionConnector.mk rest options.resolveSecret options.tables).connector'
  | .python factory =>
    match ← options.loadFactory factory binding with
    | some connector => return connector
    | none => throw (.typeError "Python action connector must implement dispatch and reconcile")
  | .sqlite =>
    match (options.sqliteConnectors binding.bindingId).or
        (options.sqliteConnectors binding.actionName) with
    | some connector => return connector
    | none => throw (.valueError ("No SQLite connector supplied for binding " ++ binding.bindingId))
  | .websocket _ => throw (.valueError
      "WebSocket action bindings are contract-only; install a Python connector runtime")

end RegistryOptions

structure ActionConnectorRegistry (X : Interleave.Sig) where
  resolved : String × String × String → Option (ResolvedActionConnector X) := fun _ => none
  active : String → Option (ResolvedActionConnector X) := fun _ => none

namespace ActionConnectorRegistry

variable {X Y : Interleave.Sig}

def register (registry : ActionConnectorRegistry X) (binding : ActionConnectorBinding)
    (connector : ActionConnector X) : ActionConnectorRegistry X :=
  let resolved : ResolvedActionConnector X := {
    actionName := binding.actionName
    bindingId := binding.bindingId
    bindingVersion := binding.bindingVersion
    contractVersion := binding.contractVersion
    connector }
  let key := (binding.actionName, binding.bindingId, binding.bindingVersion)
  { resolved := Function.update registry.resolved key (some resolved)
    active := if binding.enabled then
        Function.update registry.active binding.actionName (some resolved)
      else registry.active }

/-- `_build` -/
def build (options : RegistryOptions Y) (config : ActionRegistryConfig) :
    Except PyErr (ActionConnectorRegistry (httpSig.sum Y)) :=
  config.bindings.foldlM (fun registry binding => do
    return registry.register binding (← options.connectorOf binding)) {}

def resolve (registry : ActionConnectorRegistry X) (actionName : String)
    (bindingId bindingVersion contractVersion : Option String) :
    Except PyErr (ResolvedActionConnector X) := do
  if (specification? actionName).isNone then
    throw (.valueError ("Unknown action connector: " ++ actionName))
  if bindingId = none ∧ bindingVersion = none ∧ contractVersion = none then
    match registry.active actionName with
    | some resolved => return resolved
    | none => throw (.valueError ("No enabled action binding: " ++ actionName))
  if bindingId.getD "" = "" ∨ bindingVersion.getD "" = "" ∨ contractVersion.getD "" = "" then
    throw (.valueError
      "Binding ID, binding version, and contract version must be supplied together")
  match registry.resolved (actionName, bindingId.getD "", bindingVersion.getD "") with
  | none => throw (.valueError ("Configured action binding is unavailable: " ++ actionName ++ "/" ++
      bindingId.getD "" ++ "/" ++ bindingVersion.getD ""))
  | some resolved =>
    if resolved.contractVersion ≠ contractVersion.getD "" then
      throw (.valueError ("Configured action contract is unavailable: " ++ actionName ++ "/" ++
        contractVersion.getD ""))
    return resolved

/-- The registry as the resolver of a gateway. -/
def connectors (registry : ActionConnectorRegistry X) : Connectors X := .resolver registry.resolve

end ActionConnectorRegistry
end WorkflowEngine
