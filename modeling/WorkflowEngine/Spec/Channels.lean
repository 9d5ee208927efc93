import WorkflowEngine.Spec.Conversation

/-! The endpoints that feed the turn pipeline (`main.py`): `/chat` and `/conversations/turns`,
with the customer context (`auth/context.py`), the jurisdiction guard
(`core/jurisdiction.py`) and the IVR normalization (`channels/ivr.py`) that they apply. -/

namespace WorkflowEngine

open Interleave

inductive Role where
  | admin | supervisor | customerServiceRep | fraudAnalyst | readonly | customer | integration
  deriving DecidableEq, Repr

def Role.value : Role → String
  | .admin => "admin"
  | .supervisor => "supervisor"
  | .customerServiceRep => "customer_service_rep"
  | .fraudAnalyst => "fraud_analyst"
  | .readonly => "readonly"
  | .customer => "customer"
  | .integration => "integration"

structure UserContext where
  userId : String
  role : Role
  permissions : List String
  deriving DecidableEq

def UserContext.hasPermission (actor : UserContext) (permission : String) : Bool :=
  permission ∈ actor.permissions

structure CustomerContext where
  actorId : String
  customerId : String
  delegated : Bool
  deriving DecidableEq

/-- Authorize a self-service or delegated staff customer context. -/
def resolveCustomerContext (actor : UserContext) (customerId : String) :
    Except TurnError CustomerContext :=
  if actor.role = .customer then
    if actor.userId ≠ customerId then
      .error (.authorization "Customer identity does not match authenticated subject" none)
    else .ok ⟨actor.userId, customerId, false⟩
  else if !actor.hasPermission "customer:read" then
    .error (.authorization "Customer delegation requires customer read permission"
      (some "customer:read"))
  else .ok ⟨actor.userId, customerId, true⟩

/-- The session owner key, which cannot cross actor/customer pairs. -/
def sessionOwnerId (actorId customerId : String) : String :=
  "actor:" ++ actorId ++ ":customer:" ++ customerId

def requirePermission (actor : UserContext) (permission : String) : Except TurnError Unit :=
  if actor.role ≠ .admin ∧ !actor.hasPermission permission then
    .error (.authorization ("Operation requires " ++ permission) (some permission))
  else .ok ()

structure JurisdictionProfile where
  profileId : String
  recordingConsentRequired : Bool := true
  transcriptionConsentRequired : Bool := true
  secureDtmfRequired : Bool := true

structure JurisdictionDecision where
  allowed : Bool
  enforced : Bool
  blocks : List String
  warnings : List String
  profileId : String

structure JurisdictionGuard where
  profile : JurisdictionProfile
  enforce : Bool

namespace JurisdictionGuard

def findings (guard : JurisdictionGuard) (channel : ChannelKind) (consentSnapshot : Fields)
    (containsDtmfSecret secureDtmfCapture : Bool) : List String :=
  let consents (name : String) := (consentSnapshot.get? name).any Json.truthy
  if channel = .ivr then
    (if guard.profile.recordingConsentRequired && !consents "recording" then
      ["recording_consent_missing"] else []) ++
    (if guard.profile.transcriptionConsentRequired && !consents "transcription" then
      ["transcription_consent_missing"] else []) ++
    (if containsDtmfSecret && guard.profile.secureDtmfRequired && !secureDtmfCapture then
      ["secure_dtmf_capture_required"] else [])
  else []

def evaluateInbound (guard : JurisdictionGuard) (channel : ChannelKind) (consentSnapshot : Fields)
    (containsDtmfSecret secureDtmfCapture : Bool) : JurisdictionDecision :=
  let findings := guard.findings channel consentSnapshot containsDtmfSecret secureDtmfCapture
  { allowed := findings.isEmpty || !guard.enforce
    enforced := guard.enforce
    blocks := if guard.enforce then findings else []
    warnings := if guard.enforce then [] else findings
    profileId := guard.profile.profileId }

end JurisdictionGuard

/-- A confidence is given by its decimal digits, `mantissa * 10 ^ exponent`. -/
abbrev Confidence := ℤ × ℤ

/-- `IvrAdapter.normalize`, which decides whether a transcript has to be read back; the default
`min_verification_confidence` is 0.9. -/
def IvrAdapter.requiresReadback (asrConfidence : Confidence) (interrupted : Bool) : Bool :=
  interrupted || Json.numLt asrConfidence (9, -1)

/-- A string field with `min_length=1`. -/
abbrev Text (maxLength : ℕ) := {s : String // 1 ≤ s.length ∧ s.length ≤ maxLength}

structure ChatRequest where
  message : Text 10000
  sessionId : Option String := none
  messageId : Option String := none
  providerId : Text 100 := ⟨"local-chat", by decide⟩
  userId : Text 100
  deriving DecidableEq

structure ChatResponse where
  response : String
  sessionId : String
  actionProposals : List Fields := []
  deriving DecidableEq

structure ConversationTurnRequest where
  providerId : Text 100 := ⟨"local", by decide⟩
  messageId : Text 300
  conversationId : Text 300
  customerId : Text 100
  channel : ChannelKind
  text : Text 10000
  locale : String := "en-US"
  timezone : String := "America/Chicago"
  sequence : Option ℕ := none
  asrConfidence : Option Confidence := none
  interrupted : Bool := false
  consentSnapshot : Fields := []
  containsDtmfSecret : Bool := false
  secureDtmfCapture : Bool := false
  deriving DecidableEq

namespace TurnTask

/-- `uuid.uuid4().hex` -/
def uuid : TurnTask String := Prog.perform (S := conversationSig) .uuid

/-- `str(uuid.uuid4())` -/
def uuidStr : TurnTask String := do
  let hex := (← uuid).toList
  return String.intercalate "-" (([(0, 8), (8, 4), (12, 4), (16, 4), (20, 12)]).map fun part =>
    String.ofList ((hex.drop part.1).take part.2))

/-- `value or default` -/
def orElse (value : Option String) (default : TurnTask String) : TurnTask String :=
  match value.filter (· ≠ "") with
  | some s => return s
  | none => default

end TurnTask

/-- The namespace of an actor's messages. -/
def providerNamespace (actor : UserContext) (requested : String) : String :=
  if actor.role ∈ [Role.admin, .integration] then requested else "direct-api"

/-- The actor, as `process_turn` is called for a customer. -/
def UserContext.turnActor (actor : UserContext) (customer : CustomerContext) : TurnActor where
  actorId := actor.userId
  actorRole := actor.role.value
  actorPermissions := actor.permissions.insertionSort (· ≤ ·)
  ownerId := sessionOwnerId actor.userId customer.customerId

def chatV1 (request : ChatRequest) (actor : UserContext) : TurnTask ChatResponse := do
  let customer ← Prog.ofExcept (resolveCustomerContext actor request.userId.1)
  let sessionId ← TurnTask.orElse request.sessionId TurnTask.uuidStr
  let messageId ← TurnTask.orElse request.messageId (do return "local:" ++ (← TurnTask.uuid))
  let correlationId ← TurnTask.uuid
  let result ← ConversationService.processTurn {
      providerId := providerNamespace actor request.providerId.1
      messageId := messageId
      conversationId := sessionId
      customerId := customer.customerId
      channel := .chat
      text := request.message.1
      correlationId := correlationId } (actor.turnActor customer)
  if result.duplicate then
    return ⟨"This message was already received.", sessionId, []⟩
  return ⟨result.response.getD "", sessionId, result.actionProposals⟩

/-- The capabilities that an IVR turn brings with it. -/
def ivrCapabilities (request : ConversationTurnRequest) : Except TurnError Fields :=
  if request.channel = .ivr then
    match request.asrConfidence with
    | none => .error (.validation "IVR turns require asr_confidence")
    | some confidence => .ok [
        ("asr_confidence", .float confidence.1 confidence.2),
        ("interrupted", .bool request.interrupted),
        ("requires_readback",
          .bool (IvrAdapter.requiresReadback confidence request.interrupted))]
  else .ok []

def checkJurisdiction (guard : JurisdictionGuard) (request : ConversationTurnRequest) :
    Except TurnError Unit :=
  let decision := guard.evaluateInbound request.channel request.consentSnapshot
    request.containsDtmfSecret request.secureDtmfCapture
  if decision.allowed then .ok ()
  else .error (.jurisdictionBlocked decision.blocks decision.profileId)

def processConversationTurn (guard : JurisdictionGuard) (request : ConversationTurnRequest)
    (actor : UserContext) : TurnTask TurnResult := do
  let customer ← Prog.ofExcept (resolveCustomerContext actor request.customerId.1)
  if actor.role = .integration then
    Prog.ofExcept (requirePermission actor "channel:ingest")
  Prog.ofExcept (checkJurisdiction guard request)
  let capabilities ← Prog.ofExcept (ivrCapabilities request)
  let correlationId ← TurnTask.uuid
  ConversationService.processTurn {
      providerId := providerNamespace actor request.providerId.1
      messageId := request.messageId.1
      conversationId := request.conversationId.1
      customerId := customer.customerId
      channel := request.channel
      text := request.text.1
      locale := request.locale
      timezone := request.timezone
      sequence := request.sequence.map Int.ofNat
      correlationId := correlationId
      consentSnapshot := request.consentSnapshot
      capabilities := capabilities } (actor.turnActor customer)

/-- A turn by any caller of the service, or a request to an endpoint. -/
inductive ConversationCall where
  | turn (envelope : MessageEnvelope) (actor : TurnActor)
  | chat (request : ChatRequest) (actor : UserContext)
  | conversationTurn (request : ConversationTurnRequest) (actor : UserContext)
  deriving DecidableEq

inductive TurnReply where
  | turn (result : TurnResult)
  | chat (response : ChatResponse)

def ConversationCall.body (guard : JurisdictionGuard) : ConversationCall → TurnTask TurnReply
  | .turn envelope actor => do
    return .turn (← ConversationService.processTurn envelope actor)
  | .chat request actor => do
    return .chat (← chatV1 request actor)
  | .conversationTurn request actor => do
    return .turn (← processConversationTurn guard request actor)

/-- What the schedule decides of an operation: the time, a random identifier, and what a
processor ends in. -/
structure TurnChoice where
  now : Time
  uuid : String
  generated : Except PyErr GeneratedTurn

namespace Inbox

def exec (choice : TurnChoice) (inbox : Inbox) :
    (o : conversationSig.Op) → conversationSig.Res o × Inbox
  | .accept envelope => SQLiteCoreStore.acceptMessageResult choice.now inbox envelope
  | .invoke .. => ((), inbox)
  | .generated => (choice.generated, inbox)
  | .uuid => (choice.uuid, inbox)

end Inbox

/-- The turn pipeline as a system of tasks over one inbox. -/
abbrev conversationSystem (guard : JurisdictionGuard) (admits : ConversationCall → Bool) :
    System conversationSig TurnError TurnReply where
  State := Inbox
  Choice := TurnChoice
  Call := ConversationCall
  exec := Inbox.exec
  drift _ inbox := inbox
  admits _ call := admits call
  body := ConversationCall.body guard

abbrev TurnLog := Hist conversationSig Inbox ConversationCall

/-- The history of the run of a schedule from an empty inbox. -/
def turnHistory (guard : JurisdictionGuard) (admits : ConversationCall → Bool)
    (acts : List (conversationSystem guard admits).Move) : TurnLog :=
  ((conversationSystem guard admits).run ((conversationSystem guard admits).init .empty) acts).hist

end WorkflowEngine
