import WorkflowEngine.Spec.Engine
import WorkflowEngine.UrlText.Join

/-! `RestActionConnector` (`integrations/registry.py`), and a provider that answers
its requests truthfully at the moment they arrive. -/

namespace WorkflowEngine

open Interleave
open scoped UrlText

structure HttpOperation where
  operationId : String
  method : String := "POST"
  path : String
  body : List (String × String) := []
  query : List (String × String) := []

structure HttpStatusMapping where
  succeeded : List ℕ := [200, 201]
  accepted : List ℕ := [202]
  failed : List ℕ := [400, 401, 403, 404, 409, 422]
  disjoint : succeeded.Disjoint accepted ∧ succeeded.Disjoint failed ∧ accepted.Disjoint failed

theorem HttpStatusMapping.defaults_disjoint :
    [200, 201].Disjoint [202] ∧ [200, 201].Disjoint [400, 401, 403, 404, 409, 422] ∧
      [202].Disjoint [400, 401, 403, 404, 409, 422] := by
  simp [List.Disjoint]

/-- The fields of the binding that are checked or that the connector reads. -/
structure RestActionBinding where
  baseUrl : String
  allowedHosts : List String
  idempotencyHeader : String := "Idempotency-Key"
  secretRef : Option String := none
  authHeader : String := "Authorization"
  authScheme : String := "Bearer"
  execute : HttpOperation
  reconcile : Option HttpOperation := none
  statuses : HttpStatusMapping
  providerOperationIdPointer : Option String := some "provider_operation_id"
  responseFields : List (String × String) := []

/-- `urlparse` raises where a netloc is refused. -/
def urlparse (tables : UrlText.Tables) (url : String) : Except PyErr UrlText.ParseResult :=
  match UrlText.urlparse tables [] url.toList with
  | some parsed => .ok parsed
  | none => .error (.valueError "Invalid IPv6 URL")

def urljoin (tables : UrlText.Tables) (base url : String) : Except PyErr String :=
  match UrlText.urljoin tables base.toList url.toList with
  | some joined => .ok (String.ofList joined)
  | none => .error (.valueError "Invalid IPv6 URL")

/-- `url.rstrip("/")` -/
def rstripSlash (url : String) : String :=
  String.ofList (url.toList.reverse.dropWhile (· = '/')).reverse

/-- `path.lstrip("/")` -/
def lstripSlash (path : String) : String := String.ofList (path.toList.dropWhile (· = '/'))

/-- The validator of `path`. -/
def HttpOperation.requireRelativePath (tables : UrlText.Tables) (value : String) :
    Except PyErr String := do
  let refused := PyErr.valueError "Operation path must be an absolute-path reference"
  if value.toList.head? ≠ some '/' then throw refused
  let parsed ← urlparse tables value
  if parsed.scheme ≠ [] ∨ ['/', '/'] <:+: value.toList then throw refused
  return value

def RestActionBinding.validateRestContract (tables : UrlText.Tables) (binding : RestActionBinding) :
    Except PyErr Unit := do
  let parsed ← urlparse tables binding.baseUrl
  let hostname := (UrlText.hostname tables parsed).getD []
  if parsed.scheme ∉ ["http".toList, "https".toList] ∨ hostname = [] then
    throw (.valueError "REST base_url must be an HTTP(S) origin")
  if String.ofList hostname ∉ binding.allowedHosts then
    throw (.valueError "REST base_url host is outside allowed_hosts")
  let secretRef := (binding.secretRef.getD "").toList
  if secretRef ≠ [] ∧ ¬ "env://".toList <+: secretRef ∧ ¬ "secret://".toList <+: secretRef then
    throw (.valueError
      "Credentials must use env:// or secret:// references; inline secrets are forbidden")
  if binding.statuses.accepted ≠ [] ∧ binding.reconcile.isNone then
    throw (.valueError "Asynchronous HTTP status mappings require a reconciliation operation")

/-- Which operation of the binding a request is for. -/
inductive Endpoint where
  | execute | reconcile
  deriving DecidableEq

/-- `key` names the effect that the request is about. -/
structure HttpRequest where
  endpoint : Endpoint
  key : String
  method : String
  url : String
  headers : List (String × String)
  params : Fields
  json : Option Fields

/-- The body is absent when it is no JSON. A lost response is a timeout or a network error;
other exceptions of the client are not caught. -/
inductive HttpReply where
  | response (statusCode : ℕ) (body : Option Json)
  | lost (typeName : String)
  | raised (exc : PyErr)

def httpSig : Sig := ⟨HttpRequest, fun _ => HttpReply⟩

variable {Y : Sig}

/-- `reply` is what the provider would answer, and `commits` whether it commits the effect of
a request whose response is lost. -/
structure ProviderChoice (V : World Y) where
  reply : HttpReply
  commits : Bool
  rest : V.Choice

/-- A response to `execute` has a succeeded code exactly when the effect is committed. -/
def HttpStatusMapping.commits (statuses : HttpStatusMapping) (commits : Bool) : HttpReply → Bool
  | .response code _ => code ∈ statuses.succeeded
  | _ => commits

/-- A response to `reconcile` has a failed code exactly when no effect is committed; a reply
that would not be truthful is lost. -/
def HttpStatusMapping.truthful (statuses : HttpStatusMapping) (committed : Bool) :
    HttpReply → HttpReply
  | .response code body =>
    if (code ∈ statuses.failed) ↔ committed = false then .response code body
    else .lost "ReadTimeout"
  | reply => reply

/-- The provider keeps the keys of its committed effects. -/
def World.provider (statuses : HttpStatusMapping) (V : World Y) : World (httpSig.sum Y) where
  State := List String × V.State
  Choice := ProviderChoice V
  exec e s
    | .inl request => match HttpRequest.endpoint request with
      | .execute =>
        (e.reply, if statuses.commits e.commits e.reply then (request.key :: s.1, s.2) else s)
      | .reconcile => (statuses.truthful (decide (HttpRequest.key request ∈ s.1)) e.reply, s)
    | .inr o => ((V.exec e.rest s.2 o).1, s.1, (V.exec e.rest s.2 o).2)
  drift e s := (s.1, V.drift e.rest s.2)

/-- The connector with its secret provider, and the tables of the standard library. -/
structure RestActionConnector where
  binding : RestActionBinding
  resolveSecret : String → Except PyErr String
  tables : UrlText.Tables

namespace RestActionConnector

/-- `expression.removeprefix("$.").split(".")` -/
def parts (expression : String) : List String :=
  (if ['$', '.'].isPrefixOf expression.toList then String.ofList (expression.toList.drop 2)
    else expression).splitOn "."

def walk : List String → Json → Option Json
  | [], value => some value
  | part :: rest, .dict kvs => (Fields.get? kvs part).bind (walk rest)
  | _ :: _, _ => none

/-- `_source`: the small mapping language of a binding. -/
def source (command : ActionCommand) (prior : Option Fields) (expression : String) :
    Except PyErr Json :=
  let roots : Fields := [("action", .str command.action), ("case_id", .str command.caseId),
    ("actor_id", .str command.actorId), ("idempotency_key", .str command.idempotencyKey),
    ("parameters", .dict command.parameters), ("prior", .dict (prior.getD []))]
  match walk (parts expression) (.dict roots) with
  | some value => .ok value
  | none => .error (.valueError ("Configured mapping source does not exist: " ++ expression))

/-- `_pointer`: no pointer, or one that leads nowhere, is null. -/
def pointer (document : Json) (pointer : Option String) : Json :=
  match pointer.getD "" with
  | "" => .null
  | pointer => (walk (parts pointer) document).getD .null

variable (connector : RestActionConnector)

def fields (command : ActionCommand) (prior : Option Fields) (mapping : List (String × String)) :
    Except PyErr Fields :=
  mapping.mapM fun kv => do return (kv.1, ← source command prior kv.2)

def requestUrl (operation : HttpOperation) : Except PyErr String :=
  urljoin connector.tables (rstripSlash connector.binding.baseUrl ++ "/")
    (lstripSlash operation.path)

/-- `_request`, with the client's method and JSON body. -/
def request (endpoint : Endpoint) (operation : HttpOperation) (command : ActionCommand)
    (prior : Option Fields) : Except PyErr HttpRequest := do
  let binding := connector.binding
  let headers := [(binding.idempotencyHeader, command.idempotencyKey)]
  let headers ← match binding.secretRef.getD "" with
    | "" => pure headers
    | ref => do
      let secret ← connector.resolveSecret ref
      let value := String.ofList ((binding.authScheme ++ " " ++ secret).toList.dropWhile
        Char.isWhitespace |>.reverse.dropWhile Char.isWhitespace |>.reverse)
      pure (headers.filter (·.1 ≠ binding.authHeader) ++ [(binding.authHeader, value)])
  let body ← fields command prior operation.body
  let query ← fields command prior operation.query
  let url ← connector.requestUrl operation
  return {
    endpoint, key := command.idempotencyKey, method := operation.method, url
    headers, params := query, json := if operation.method = "GET" then none else some body }

/-- The outcome of a response, by the status mapping. -/
def outcome (statusCode : ℕ) (body : Option Json) : ConnectorOutcome :=
  let binding := connector.binding
  let payload := body.getD (.dict [])
  let details : Fields := [("http_status", .int statusCode),
    ("provider_operation_id", pointer payload binding.providerOperationIdPointer),
    ("result", .dict (binding.responseFields.map fun kv => (kv.1, pointer payload (some kv.2))))]
  if statusCode ∈ binding.statuses.succeeded then ⟨.succeeded, details⟩
  else if statusCode ∈ binding.statuses.failed then ⟨.failed, details⟩
  else ⟨.unknown, details ++ [("reason", .str "provider_not_terminal")]⟩

/-- `_execute` -/
def executeOperation (endpoint : Endpoint) (operation : HttpOperation) (command : ActionCommand)
    (prior : Option Fields) : Prog (httpSig.sum Y) PyErr ConnectorOutcome := do
  let request ← Prog.ofExcept (connector.request endpoint operation command prior)
  match ← Prog.perform (S := httpSig.sum Y) (.inl request) with
  | .lost typeName =>
    return ⟨.unknown, [("reason", .str "provider_outcome_ambiguous"),
      ("error_type", .str typeName)]⟩
  | .raised exc => throw exc
  | .response statusCode body => return connector.outcome statusCode body

def dispatch (command : ActionCommand) : Prog (httpSig.sum Y) PyErr ConnectorOutcome :=
  connector.executeOperation .execute connector.binding.execute command none

def reconcile (command : ActionCommand) (prior : Option Fields) :
    Prog (httpSig.sum Y) PyErr ConnectorOutcome :=
  match connector.binding.reconcile with
  | none => return ⟨.unknown, match prior.getD [] with
      | [] => [("reason", .str "reconciliation_not_configured")]
      | prior => prior⟩
  | some operation => connector.executeOperation .reconcile operation command prior

def connector' : ActionConnector (httpSig.sum Y) := ⟨connector.dispatch, connector.reconcile⟩

end RestActionConnector
end WorkflowEngine
