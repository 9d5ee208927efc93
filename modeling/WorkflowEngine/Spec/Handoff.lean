import WorkflowEngine.Interleave.System
import WorkflowEngine.Relational.Table
import WorkflowEngine.Spec.Records

/-! Human handoffs: the lifecycle of `ConversationRuntime` (`conversation/runtime.py`), the
`handoffs` table of the core store (`core/kernel.py`), and the provider callback (`main.py`). -/

namespace WorkflowEngine

open Interleave Relational

inductive HandoffStatus where
  | requested | queued | accepted | rejected | timedOut | failed | reassigned | connected
  | resolved | botReentry
  deriving DecidableEq, Repr

namespace HandoffStatus

def value : HandoffStatus → String
  | requested => "requested"
  | queued => "queued"
  | accepted => "accepted"
  | rejected => "rejected"
  | timedOut => "timed_out"
  | failed => "failed"
  | reassigned => "reassigned"
  | connected => "connected"
  | resolved => "resolved"
  | botReentry => "bot_reentry"

def allowed : HandoffStatus → List HandoffStatus
  | requested => [queued, accepted, rejected, failed]
  | queued => [accepted, timedOut, reassigned, failed]
  | reassigned => [accepted, timedOut, failed]
  | accepted => [connected, reassigned, failed]
  | connected => [resolved, botReentry, failed]
  | resolved => [botReentry]
  | timedOut => [reassigned, botReentry]
  | rejected => [botReentry]
  | failed => [reassigned, botReentry]
  | botReentry => []

end HandoffStatus

structure HandoffRecord where
  handoffId : String
  conversationId : String
  caseId : String
  context : Fields
  status : HandoffStatus
  assignedAgentId : Option String := none
  createdAt : Time
  updatedAt : Time
  deriving DecidableEq

abbrev Handoffs := Table Unit String fun _ => HandoffRecord.handoffId

inductive HandoffOp where
  | now
  | uuid
  | create (record : HandoffRecord)
  | get (handoffId : String)
  | transition (handoffId : String) (expected status : HandoffStatus) (agentId : Option String)
      (now : Time)
  deriving DecidableEq

def handoffSig : Sig where
  Op := HandoffOp
  Res
    | .now => Time
    | .uuid => String
    | .create _ => Except PyErr Unit
    | .get _ => Option HandoffRecord
    | .transition .. => Except PyErr Unit

abbrev HandoffTask := Prog handoffSig PyErr

/-- The handoffs, and the ids of the workflow cases. -/
structure HandoffState where
  handoffs : Handoffs
  cases : List String

structure HandoffChoice where
  now : Time
  uuid : String
  newCase : String

namespace SQLiteCoreStore

def createHandoff (s : HandoffState) (record : HandoffRecord) : Except PyErr Unit × HandoffState :=
  if record.caseId ∉ s.cases then (.error (.keyError record.caseId), s)
  else match s.handoffs.insert? { record with assignedAgentId := none } with
    | some handoffs => (.ok (), { s with handoffs })
    | none => (.error .integrityError, s)

/-- The `UPDATE` of `transition_handoff`, which compares and sets the status. -/
def compareAndSet (s : HandoffState) (handoffId : String) (expected status : HandoffStatus)
    (agentId : Option String) (now : Time) : Except PyErr Unit × HandoffState :=
  let matching (r : HandoffRecord) : Bool :=
    decide (r.handoffId = handoffId) && decide (r.status = expected)
  let handoffs := s.handoffs.updateWhere matching
    (fun r => { r with status, assignedAgentId := agentId, updatedAt := now }) fun _ _ => rfl
  if s.handoffs.count matching = 1 then (.ok (), { s with handoffs })
  else (.error (.other "HandoffConflict"), s)

def transitionHandoff (handoffId : String) (expected status : HandoffStatus)
    (agentId : Option String) : HandoffTask HandoffRecord := do
  let now : Time ← Prog.perform (S := handoffSig) .now
  let updated : Except PyErr Unit ←
    Prog.perform (S := handoffSig) (.transition handoffId expected status agentId now)
  Prog.ofExcept updated
  match ← Prog.perform (S := handoffSig) (.get handoffId) with
  | some result => return result
  | none => throw .assertionError

end SQLiteCoreStore

namespace ConversationRuntime

def getHandoff (handoffId : String) : HandoffTask HandoffRecord := do
  match ← Prog.perform (S := handoffSig) (.get handoffId) with
  | some current => return current
  | none => throw (.keyError handoffId)

def requestHandoff (conversationId caseId : String) (context : Fields) :
    HandoffTask HandoffRecord := do
  let now : Time ← Prog.perform (S := handoffSig) .now
  let uuid : String ← Prog.perform (S := handoffSig) .uuid
  let record : HandoffRecord := {
    handoffId := "HO-" ++ uuid, conversationId, caseId, context, status := .requested
    createdAt := now, updatedAt := now }
  let created : Except PyErr Unit ← Prog.perform (S := handoffSig) (.create record)
  Prog.ofExcept created
  return record

def acceptHandoff (handoffId agentId : String) : HandoffTask HandoffRecord := do
  let current ← getHandoff handoffId
  if current.status ≠ .requested then
    throw (.valueError "Only requested handoffs can be accepted")
  else SQLiteCoreStore.transitionHandoff handoffId .requested .accepted (some agentId)

def transitionHandoff (handoffId : String) (status : HandoffStatus) (agentId : Option String) :
    HandoffTask HandoffRecord := do
  let current ← getHandoff handoffId
  if status ∉ current.status.allowed then
    throw (.valueError ("Invalid handoff transition: " ++ current.status.value ++ " -> " ++
      status.value))
  else SQLiteCoreStore.transitionHandoff handoffId current.status status agentId

end ConversationRuntime

/-- The callback of the human-agent platform transitions a handoff. -/
inductive HandoffCall where
  | request (conversationId caseId : String) (context : Fields)
  | accept (handoffId agentId : String)
  | transition (handoffId : String) (status : HandoffStatus) (agentId : Option String)

def HandoffCall.body : HandoffCall → HandoffTask HandoffRecord
  | .request conversationId caseId context =>
    ConversationRuntime.requestHandoff conversationId caseId context
  | .accept handoffId agentId => ConversationRuntime.acceptHandoff handoffId agentId
  | .transition handoffId status agentId =>
    ConversationRuntime.transitionHandoff handoffId status agentId

def HandoffState.exec (e : HandoffChoice) (s : HandoffState) :
    (o : handoffSig.Op) → handoffSig.Res o × HandoffState
  | .now => (e.now, s)
  | .uuid => (e.uuid, s)
  | .create record => SQLiteCoreStore.createHandoff s record
  | .get handoffId => (s.handoffs.get? () handoffId, s)
  | .transition handoffId expected status agentId now =>
    SQLiteCoreStore.compareAndSet s handoffId expected status agentId now

/-- The handoffs under any calls; cases are opened meanwhile. -/
abbrev handoffSystem : System handoffSig PyErr HandoffRecord where
  State := HandoffState
  Choice := HandoffChoice
  Call := HandoffCall
  exec := HandoffState.exec
  drift e s := { s with cases := e.newCase :: s.cases }
  admits _ _ := true
  body := HandoffCall.body

abbrev HandoffLog := handoffSystem.History

/-- The run of a schedule from a store without handoffs. -/
def handoffRun (acts : List handoffSystem.Move) : handoffSystem.Config :=
  handoffSystem.run (handoffSystem.init ⟨.empty, []⟩) acts

end WorkflowEngine
