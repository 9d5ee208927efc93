import WorkflowEngine.Spec.ActionApi
import WorkflowEngine.Spec.Handoff

/-! The host's handoff endpoints (`main.py`) and the sandbox queue of tickets that stands in for
the human-agent platform (`SQLiteHandoffQueueAdapter` in `integrations/sandbox.py`). -/

namespace WorkflowEngine

open Interleave Relational

structure HandoffRequest where
  handoffId : String
  conversationId : String
  caseId : String
  queue : String
  priority : String := "normal"
  context : Fields
  deriving DecidableEq

structure HandoffReceipt where
  providerId : String
  handoffId : String
  providerTicketId : String
  status : String
  details : Fields := []
  deriving DecidableEq

/-- A row of `sandbox_handoff_tickets`. -/
structure HandoffTicket where
  providerTicketId : String
  handoffId : String
  request : HandoffRequest
  status : String
  updatedAt : Time
  deriving DecidableEq

/-- The unique columns of `sandbox_handoff_tickets`. -/
inductive TicketColumn where
  | primary | handoff
  deriving DecidableEq

instance : Fintype TicketColumn :=
  ⟨⟨[TicketColumn.primary, TicketColumn.handoff], by decide⟩, fun i => by cases i <;> decide⟩

def TicketColumn.of : TicketColumn → HandoffTicket → String
  | .primary => HandoffTicket.providerTicketId
  | .handoff => HandoffTicket.handoffId

abbrev HandoffTickets := Table TicketColumn String TicketColumn.of

inductive TicketOp where
  | getCase (caseId : String)
  | insertOrIgnore (ticket : HandoffTicket)
  | setStatus (providerTicketId status : String) (now : Time)
  | select (providerTicketId : String)

/-- What the endpoints do besides the operations on the handoffs. -/
def ticketSig : Sig where
  Op := TicketOp
  Res
    | .getCase _ => Option CaseRecord
    | .insertOrIgnore _ => Unit
    | .setStatus .. => Except PyErr Unit
    | .select _ => Option HandoffTicket

abbrev deskSig : Sig := handoffSig.sum ticketSig

abbrev TicketTask := Prog deskSig PyErr

abbrev DeskTask := Prog deskSig ApiError

namespace TicketTask

/-- An operation on the tickets or the cases. -/
def tickets (o : TicketOp) : TicketTask (ticketSig.Res o) := Prog.perform (S := deskSig) (.inr o)

/-- An operation of the handoff store. -/
def handoffs (o : HandoffOp) : TicketTask (handoffSig.Res o) :=
  Prog.perform (S := deskSig) (.inl o)

end TicketTask

namespace DeskTask

variable {α : Type}

def provider (p : TicketTask α) : DeskTask α := p.rethrow fun e => .refused (.raised e)

/-- `conversation_runtime`, awaited. -/
def runtime (p : HandoffTask α) : DeskTask α := provider (p.lift Sum.inl fun _ r => r)

def check (x : Except TurnError α) : DeskTask α := Prog.ofExcept (x.mapError .refused)

end DeskTask

namespace SQLiteHandoffQueueAdapter

def providerId : String := "sqlite-handoff-sandbox"

/-- `"TKT-" + hashlib.sha256(request.handoff_id.encode()).hexdigest()[:16].upper()` -/
def ticketId (handoffId : String) : String := "TKT-" ++ caseDigest handoffId

def status (providerTicketId : String) : TicketTask HandoffReceipt := do
  match ← TicketTask.tickets (.select providerTicketId) with
  | none => throw (.keyError providerTicketId)
  | some row =>
    return {
      providerId
      handoffId := row.handoffId
      providerTicketId
      status := row.status
      details := [("simulated", .bool true)] }

def enqueue (request : HandoffRequest) : TicketTask HandoffReceipt := do
  let now : Time ← TicketTask.handoffs .now
  let _ ← TicketTask.tickets (.insertOrIgnore {
    providerTicketId := ticketId request.handoffId
    handoffId := request.handoffId
    request
    status := "queued"
    updatedAt := now })
  status (ticketId request.handoffId)

def setStatus (providerTicketId newStatus : String) : TicketTask HandoffReceipt := do
  let now : Time ← TicketTask.handoffs .now
  let updated : Except PyErr Unit ← TicketTask.tickets (.setStatus providerTicketId newStatus now)
  Prog.ofExcept updated
  status providerTicketId

end SQLiteHandoffQueueAdapter

structure CreateHandoffRequest where
  conversationId : String
  caseId : String
  customerId : String
  queue : String := "customer-service"
  priority : String := "normal"
  context : Fields

/-- The host; `upstreamDisabled` is the mode that has no upstream. -/
structure HandoffDesk where
  upstreamDisabled : Bool := false

namespace HandoffDesk

def requireUpstreamAvailable (desk : HandoffDesk) : DeskTask Unit :=
  if desk.upstreamDisabled then throw .upstreamUnavailable else return ()

/-- `{**request.context, "customer_id": customer.customer_id}` -/
def boundContext (request : CreateHandoffRequest) (customerId : String) : Fields :=
  request.context.set "customer_id" (.str customerId)

/-- Create and enqueue a human-agent handoff. -/
def createHandoff (desk : HandoffDesk) (request : CreateHandoffRequest) (actor : UserContext) :
    DeskTask (HandoffRecord × HandoffReceipt) := do
  let customer ← .check (resolveCustomerContext actor request.customerId)
  .check (requirePermission actor "escalation:create")
  desk.requireUpstreamAvailable
  match ← DeskTask.provider (TicketTask.tickets (.getCase request.caseId)) with
  | none => throw (.notFound "Core case" request.caseId)
  | some case =>
    if case.customerId ≠ customer.customerId then
      throw (.refused (.authorization "Handoff case does not belong to the serviced customer" none))
    let record ← .runtime (ConversationRuntime.requestHandoff request.conversationId request.caseId
      (boundContext request customer.customerId))
    let receipt ← .provider (SQLiteHandoffQueueAdapter.enqueue {
      handoffId := record.handoffId
      conversationId := record.conversationId
      caseId := record.caseId
      queue := request.queue
      priority := request.priority
      context := record.context })
    let queued ← .runtime (ConversationRuntime.transitionHandoff record.handoffId .queued none)
    return (queued, receipt)

def getHandoff (handoffId : String) (actor : UserContext) : DeskTask HandoffRecord := do
  .check (requirePermission actor "case:read")
  match ← DeskTask.provider (TicketTask.handoffs (.get handoffId)) with
  | none => throw (.notFound "Handoff" handoffId)
  | some record => return record

/-- Apply an authenticated human-agent platform status callback. -/
def updateHandoffFromProvider (desk : HandoffDesk) (handoffId : String) (status : HandoffStatus)
    (assignedAgentId : Option String) (actor : UserContext) : DeskTask HandoffRecord := do
  .check (requirePermission actor "provider:callback")
  desk.requireUpstreamAvailable
  .runtime (ConversationRuntime.transitionHandoff handoffId status assignedAgentId)

end HandoffDesk

/-- The requests to the endpoints, and what the platform does to its own tickets. -/
inductive DeskCall where
  | create (request : CreateHandoffRequest) (actor : UserContext)
  | get (handoffId : String) (actor : UserContext)
  | callback (handoffId : String) (status : HandoffStatus) (assignedAgentId : Option String)
      (actor : UserContext)
  | setStatus (providerTicketId status : String)

inductive DeskReply where
  | created (handoff : HandoffRecord) (providerReceipt : HandoffReceipt)
  | handoff (record : HandoffRecord)
  | receipt (receipt : HandoffReceipt)

def HandoffDesk.body (desk : HandoffDesk) : DeskCall → DeskTask DeskReply
  | .create request actor => do
    let created ← desk.createHandoff request actor
    return .created created.1 created.2
  | .get handoffId actor => do
    return .handoff (← getHandoff handoffId actor)
  | .callback handoffId status assignedAgentId actor => do
    return .handoff (← desk.updateHandoffFromProvider handoffId status assignedAgentId actor)
  | .setStatus providerTicketId status => do
    return .receipt (← .provider (SQLiteHandoffQueueAdapter.setStatus providerTicketId status))

structure DeskState where
  handoffs : Handoffs
  cases : Table Unit String fun _ => CaseRecord.caseId
  tickets : HandoffTickets

structure DeskChoice where
  now : Time
  uuid : String
  newCase : CaseRecord

namespace DeskState

/-- What the handoff store sees. -/
def store (s : DeskState) : HandoffState := ⟨s.handoffs, s.cases.rows.map CaseRecord.caseId⟩

/-- The `UPDATE` of `set_status`. -/
def setStatus (s : DeskState) (providerTicketId status : String) (now : Time) :
    Except PyErr Unit × DeskState :=
  let named (t : HandoffTicket) : Bool := decide (t.providerTicketId = providerTicketId)
  let tickets := s.tickets.updateWhere named (fun t => { t with status, updatedAt := now })
    fun i _ => by cases i <;> rfl
  if s.tickets.count named = 1 then (.ok (), { s with tickets })
  else (.error (.keyError providerTicketId), { s with tickets })

def ticketOp (s : DeskState) : (o : TicketOp) → ticketSig.Res o × DeskState
  | .getCase caseId => (s.cases.get? () caseId, s)
  | .insertOrIgnore ticket =>
    ((), { s with tickets := (s.tickets.insert? ticket).getD s.tickets })
  | .setStatus providerTicketId status now => s.setStatus providerTicketId status now
  | .select providerTicketId => (s.tickets.get? .primary providerTicketId, s)

def exec (e : DeskChoice) (s : DeskState) : (o : deskSig.Op) → deskSig.Res o × DeskState
  | .inl o =>
    let done := s.store.exec ⟨e.now, e.uuid, e.newCase.caseId⟩ o
    (done.1, { s with handoffs := done.2.handoffs })
  | .inr o => s.ticketOp o

end DeskState

namespace HandoffDesk

/-- The endpoints under any calls; cases are opened meanwhile. -/
abbrev system (desk : HandoffDesk) : System deskSig ApiError DeskReply where
  State := DeskState
  Choice := DeskChoice
  Call := DeskCall
  exec := DeskState.exec
  drift e s := { s with cases := (s.cases.insert? e.newCase).getD s.cases }
  admits _ _ := true
  body := desk.body

abbrev Log := Hist deskSig DeskState DeskCall

/-- The run of a schedule from a desk without handoffs, over any cases. -/
def run (desk : HandoffDesk) (cases : Table Unit String fun _ => CaseRecord.caseId)
    (acts : List desk.system.Move) : desk.system.Config :=
  desk.system.run (desk.system.init ⟨.empty, cases, .empty⟩) acts

end HandoffDesk
end WorkflowEngine
