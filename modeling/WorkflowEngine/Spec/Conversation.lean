import WorkflowEngine.Interleave.System
import WorkflowEngine.Spec.Records

/-! The conversation inbox of the SQLite adapter (`core/kernel.py`), and the turn pipeline
over it (`conversation/runtime.py`, `contracts.py` and `service.py`). -/

namespace WorkflowEngine

open Interleave Relational

inductive ChannelKind where
  | chat | ivr
  deriving DecidableEq, Repr

structure MessageEnvelope where
  providerId : String := "local"
  messageId : String
  conversationId : String
  customerId : String
  channel : ChannelKind
  text : String
  locale : String := "en-US"
  timezone : String := "America/Chicago"
  sequence : Option ℤ := none
  correlationId : String
  causationId : Option String := none
  consentSnapshot : Fields := []
  capabilities : Fields := []
  deriving DecidableEq

namespace MessageEnvelope

/-- The primary key of `conversation_inbox_v3`. -/
def key (e : MessageEnvelope) : String × String := (e.providerId, e.messageId)

/-- The primary key of `conversation_sequences`. -/
def conversation (e : MessageEnvelope) : String × String := (e.providerId, e.conversationId)

end MessageEnvelope

inductive OrderingStatus where
  | accepted | quarantined
  deriving DecidableEq, Repr

/-- One row of `conversation_inbox_v3`. -/
structure InboxRow where
  providerId : String
  messageId : String
  conversationId : String
  sequence : Option SqlInteger
  envelopeJson : MessageEnvelope
  orderingStatus : OrderingStatus
  receivedAt : Time
  deriving DecidableEq

namespace InboxRow

def key (row : InboxRow) : String × String := (row.providerId, row.messageId)

/-- The update of a row that is there; its `conversation_id` and `sequence` stay. -/
def update (row : InboxRow) (envelope : MessageEnvelope) (status : OrderingStatus) (now : Time) :
    InboxRow :=
  { row with envelopeJson := envelope, orderingStatus := status, receivedAt := now }

@[simp] theorem key_update (row : InboxRow) (envelope : MessageEnvelope) (status : OrderingStatus)
    (now : Time) : (row.update envelope status now).key = row.key := rfl

end InboxRow

/-- One row of `conversation_sequences`. -/
structure SequenceRow where
  providerId : String
  conversationId : String
  lastSequence : SqlInteger
  updatedAt : Time
  deriving DecidableEq

namespace SequenceRow

def conversation (row : SequenceRow) : String × String := (row.providerId, row.conversationId)

/-- `DO UPDATE SET last_sequence=excluded.last_sequence,updated_at=excluded.updated_at` -/
def merge (old new : SequenceRow) : SequenceRow :=
  { old with lastSequence := new.lastSequence, updatedAt := new.updatedAt }

@[simp] theorem conversation_merge (old new : SequenceRow) :
    (old.merge new).conversation = old.conversation := rfl

end SequenceRow

abbrev InboxMessages := Table Unit (String × String) fun _ => InboxRow.key

abbrev ConversationSequences := Table Unit (String × String) fun _ => SequenceRow.conversation

structure Inbox where
  messages : InboxMessages
  sequences : ConversationSequences

namespace Inbox

def empty : Inbox := ⟨Table.empty, Table.empty⟩

def message? (inbox : Inbox) (key : String × String) : Option InboxRow :=
  inbox.messages.get? () key

/-- `existing and existing[0] != "quarantined"` -/
def holds (inbox : Inbox) (key : String × String) : Bool :=
  (inbox.message? key).any fun row => row.orderingStatus ≠ .quarantined

def lastSequence? (inbox : Inbox) (conversation : String × String) : Option ℤ :=
  (inbox.sequences.get? () conversation).map (·.lastSequence.1)

end Inbox

inductive AcceptanceStatus where
  | accepted | duplicate | quarantined
  deriving DecidableEq, Repr

structure MessageAcceptance where
  accepted : Bool
  status : AcceptanceStatus
  reason : Option String := none
  deriving DecidableEq

/-- Where a sequence number stands to the last one of its conversation. -/
inductive Arrival where
  | next
  | processed
  | gap (expected received : ℤ)

namespace SQLiteCoreStore

def arrival (lastSequence sequence : Option ℤ) : Arrival :=
  match sequence, lastSequence with
  | some received, some last =>
    if received ≤ last then .processed
    else if last + 1 < received then .gap (last + 1) received
    else .next
  | _, _ => .next

def writeMessage (now : Time) (t : InboxMessages) (envelope : MessageEnvelope)
    (status : OrderingStatus) : Except PyErr InboxMessages :=
  match t.get? () envelope.key with
  | some _ => .ok (t.updateWhere (fun row => row.key = envelope.key)
      (fun row => row.update envelope status now) fun _ row => row.key_update envelope status now)
  | none => do
    let sequence ← envelope.sequence.mapM sqlInteger
    match t.insert? {
        providerId := envelope.providerId
        messageId := envelope.messageId
        conversationId := envelope.conversationId
        sequence := sequence
        envelopeJson := envelope
        orderingStatus := status
        receivedAt := now } with
    | some t' => .ok t'
    | none => .error .integrityError

def writeSequence (now : Time) (t : ConversationSequences) (envelope : MessageEnvelope) :
    Except PyErr ConversationSequences :=
  match envelope.sequence with
  | none => .ok t
  | some sequence => do
    let lastSequence ← sqlInteger sequence
    .ok (t.upsert ⟨envelope.providerId, envelope.conversationId, lastSequence, now⟩
      SequenceRow.merge SequenceRow.conversation_merge)

/-- The writes of one transaction, which an exception rolls back. -/
def recordMessage (now : Time) (inbox : Inbox) (envelope : MessageEnvelope)
    (status : OrderingStatus) : Except PyErr Inbox := do
  let messages ← writeMessage now inbox.messages envelope status
  let sequences ← if status = .accepted then writeSequence now inbox.sequences envelope
    else .ok inbox.sequences
  .ok ⟨messages, sequences⟩

def acceptMessageResult (now : Time) (inbox : Inbox) (envelope : MessageEnvelope) :
    Except PyErr MessageAcceptance × Inbox :=
  if inbox.holds envelope.key then
    (.ok ⟨false, .duplicate, some "message_id"⟩, inbox)
  else match arrival (inbox.lastSequence? envelope.conversation) envelope.sequence with
    | .processed => (.ok ⟨false, .duplicate, some "sequence_already_processed"⟩, inbox)
    | .gap expected received =>
      match recordMessage now inbox envelope .quarantined with
      | .error e => (.error e, inbox)
      | .ok inbox' => (.ok ⟨false, .quarantined, some ("sequence_gap:expected=" ++
          toString expected ++ ":received=" ++ toString received)⟩, inbox')
    | .next =>
      match recordMessage now inbox envelope .accepted with
      | .error e => (.error e, inbox)
      | .ok inbox' => (.ok ⟨true, .accepted, none⟩, inbox')

end SQLiteCoreStore

/-- A delivery and its answer. -/
structure Receipt where
  envelope : MessageEnvelope
  answer : Except PyErr MessageAcceptance

namespace Receipt

def accepted (x : Receipt) : Bool :=
  match x.answer with
  | .ok acceptance => acceptance.accepted
  | .error _ => false

def status (x : Receipt) : Option AcceptanceStatus :=
  match x.answer with
  | .ok acceptance => some acceptance.status
  | .error _ => none

end Receipt

/-- The accepted envelopes, in the order of their acceptance. -/
def acceptedOf (xs : List Receipt) : List MessageEnvelope :=
  (xs.filter (·.accepted)).map (·.envelope)

/-- The sequence numbers of a conversation. -/
def sequencesOf (c : String × String) (es : List MessageEnvelope) : List ℤ :=
  (es.filter fun e => e.conversation = c).filterMap (·.sequence)

namespace Inbox

def deliver (run : List Receipt × Inbox) (d : Time × MessageEnvelope) : List Receipt × Inbox :=
  let result := SQLiteCoreStore.acceptMessageResult d.1 run.2 d.2
  (run.1 ++ [⟨d.2, result.1⟩], result.2)

/-- Envelopes given to `accept_message_result` one after the other. -/
def deliverAll (inbox : Inbox) (ds : List (Time × MessageEnvelope)) : List Receipt × Inbox :=
  ds.foldl deliver ([], inbox)

end Inbox

inductive RiskLevel where
  | informational | consequential | regulated
  deriving DecidableEq, Repr

structure ResponseDecision where
  mayStream : Bool
  mayClaimSuccess : Bool
  requiresApprovedContent : Bool
  requiresReadback : Bool
  deriving DecidableEq

def ResponseContract.evaluate (channel : ChannelKind) (risk : RiskLevel)
    (authoritativeStatus : Option String) : ResponseDecision :=
  let consequential := risk ∈ [RiskLevel.consequential, .regulated]
  { mayStream := ¬ consequential
    mayClaimSuccess := authoritativeStatus ∈ [some "succeeded", some "reconciled"]
    requiresApprovedContent := risk = .regulated
    requiresReadback := channel = .ivr ∧ consequential }

structure TurnContext where
  actorId : String
  actorRole : String
  actorPermissions : List String
  customerId : String
  ownerId : String
  conversationId : String
  messageId : String
  channel : ChannelKind
  locale : String
  timezone : String
  deriving DecidableEq

structure GeneratedTurn where
  text : String
  risk : RiskLevel := .informational
  authoritativeStatus : Option String := none
  actionProposals : List Fields := []
  deriving DecidableEq

structure TurnResult where
  accepted : Bool
  duplicate : Bool
  quarantined : Bool := false
  acceptanceStatus : AcceptanceStatus := .accepted
  conversationId : String
  messageId : String
  response : Option String
  risk : RiskLevel
  authoritativeStatus : Option String
  mayStream : Bool
  mayClaimSuccess : Bool
  requiresApprovedContent : Bool
  requiresReadback : Bool
  actionProposals : List Fields := []
  deriving DecidableEq

/-- What a turn does: one transaction of the inbox, the start of its processor and, some time
later, the processor's result. A failure of the processor is an answer. -/
inductive ConversationOp where
  | accept (envelope : MessageEnvelope)
  | invoke (context : TurnContext) (text : String)
  | generated
  | uuid

abbrev conversationSig : Sig where
  Op := ConversationOp
  Res
    | .accept _ => Except PyErr MessageAcceptance
    | .invoke .. => Unit
    | .generated => Except PyErr GeneratedTurn
    | .uuid => String

/-- What an endpoint raises. -/
inductive TurnError where
  | raised (e : PyErr)
  | authorization (message : String) (requiredPermission : Option String)
  | validation (message : String)
  | jurisdictionBlocked (blocks : List String) (profileId : String)
  deriving DecidableEq

abbrev TurnTask := Prog conversationSig TurnError

/-- The identity that `process_turn` is called with. -/
structure TurnActor where
  actorId : String
  actorRole : String
  actorPermissions : List String
  ownerId : String
  deriving DecidableEq

namespace ConversationService

/-- `runtime.accept_result` -/
def acceptResult (envelope : MessageEnvelope) : TurnTask MessageAcceptance := do
  match ← Prog.perform (S := conversationSig) (.accept envelope) with
  | .ok acceptance => return acceptance
  | .error e => throw (.raised e)

def processor (context : TurnContext) (text : String) : TurnTask GeneratedTurn := do
  Prog.perform (S := conversationSig) (.invoke context text)
  match ← Prog.perform (S := conversationSig) .generated with
  | .ok generated => return generated
  | .error e => throw (.raised e)

def suppressed (envelope : MessageEnvelope) (acceptance : MessageAcceptance) : TurnResult where
  accepted := false
  duplicate := acceptance.status = .duplicate
  quarantined := acceptance.status = .quarantined
  acceptanceStatus := acceptance.status
  conversationId := envelope.conversationId
  messageId := envelope.messageId
  response := none
  risk := .informational
  authoritativeStatus := none
  mayStream := false
  mayClaimSuccess := false
  requiresApprovedContent := false
  requiresReadback := false

def context (envelope : MessageEnvelope) (actor : TurnActor) : TurnContext where
  actorId := actor.actorId
  actorRole := actor.actorRole
  actorPermissions := actor.actorPermissions.insertionSort (· ≤ ·)
  customerId := envelope.customerId
  ownerId := actor.ownerId
  conversationId := envelope.conversationId
  messageId := envelope.messageId
  channel := envelope.channel
  locale := envelope.locale
  timezone := envelope.timezone

def respond (envelope : MessageEnvelope) (generated : GeneratedTurn) : TurnResult :=
  let decision := ResponseContract.evaluate envelope.channel generated.risk
    generated.authoritativeStatus
  let inputRequiresReadback := (envelope.capabilities.get? "requires_readback").any Json.truthy
  { accepted := true
    duplicate := false
    conversationId := envelope.conversationId
    messageId := envelope.messageId
    response := some generated.text
    risk := generated.risk
    authoritativeStatus := generated.authoritativeStatus
    mayStream := decision.mayStream
    mayClaimSuccess := decision.mayClaimSuccess
    requiresApprovedContent := decision.requiresApprovedContent
    requiresReadback := decision.requiresReadback || inputRequiresReadback
    actionProposals := generated.actionProposals }

def processTurn (envelope : MessageEnvelope) (actor : TurnActor) : TurnTask TurnResult := do
  let acceptance ← acceptResult envelope
  if !acceptance.accepted then
    return suppressed envelope acceptance
  let generated ← processor (context envelope actor) envelope.text
  return respond envelope generated

end ConversationService
end WorkflowEngine
