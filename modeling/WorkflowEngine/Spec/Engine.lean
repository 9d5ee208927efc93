import WorkflowEngine.Interleave.Logic
import WorkflowEngine.Spec.Bridge
import WorkflowEngine.Spec.Workers

/-! The engine as a system of tasks. The shared state is the core database, a clock
that never goes back, and the state of the world outside the core. A schedule
decides the order of all transactions, every `uuid4`, how much time passes and
what the outside world answers. -/

namespace WorkflowEngine

open Interleave

/-- The code behind the connectors and adapters, and the answers it may give. -/
structure World (X : Sig) where
  State : Type
  Choice : Type
  exec : Choice → State → (o : X.Op) → X.Res o × State
  drift : Choice → State → State

structure EngineState {X : Sig} (W : World X) where
  db : Db
  clock : Time
  ext : W.State

/-- `ids` are the fresh identifiers of the step and `elapsed` the time that passes. -/
structure EngineChoice {X : Sig} (W : World X) where
  ids : ℕ → String
  elapsed : ℕ
  ext : W.Choice

structure Engine (X : Sig) where
  gateway : ActionGateway X
  resources : AuthoritativeResourceProvider X
  connectorResolver : Option (String → Except PyErr (ResolvedActionConnector X)) := none
  validatePayload : Fields → Option ActionPayload := fun _ => none
  binding : TextBinding := {}

namespace Engine

variable {X : Sig} (engine : Engine X)

def service : ConsequentialActionService X := ⟨engine.gateway, engine.resources⟩

def bridge : ActionBridge X where
  actionService := engine.service
  resources := engine.resources
  connectorResolver := engine.connectorResolver
  validatePayload := engine.validatePayload

end Engine

section
variable {S Y : Sig}

def PolicyResolver.beside (resolver : PolicyResolver Y) : PolicyResolver (S.sum Y) where
  requireActive packageId := (resolver.requireActive packageId).lift Sum.inr fun _ r => r
  requireAuthorizationSnapshot packageId signature :=
    (resolver.requireAuthorizationSnapshot packageId signature).lift Sum.inr fun _ r => r

def ActionConnector.beside (connector : ActionConnector Y) : ActionConnector (S.sum Y) where
  dispatch command := (connector.dispatch command).lift Sum.inr fun _ r => r
  reconcile command prior := (connector.reconcile command prior).lift Sum.inr fun _ r => r

def Connectors.beside : Connectors Y → Connectors (S.sum Y)
  | .mapping get => .mapping fun action => (get action).map .beside
  | .resolver resolve => .resolver fun action bindingId bindingVersion contractVersion =>
      (resolve action bindingId bindingVersion contractVersion).map fun resolved =>
        { actionName := resolved.actionName
          bindingId := resolved.bindingId
          bindingVersion := resolved.bindingVersion
          contractVersion := resolved.contractVersion
          connector := resolved.connector.beside }

def ResolvedActionConnector.backedBy (connector : ActionConnector (S.sum Y))
    (resolved : ResolvedActionConnector Y) : ResolvedActionConnector (S.sum Y) where
  actionName := resolved.actionName
  bindingId := resolved.bindingId
  bindingVersion := resolved.bindingVersion
  contractVersion := resolved.contractVersion
  connector := connector

def Connectors.backedBy (connector : ActionConnector (S.sum Y)) :
    Connectors Y → Connectors (S.sum Y)
  | .mapping get => .mapping fun action => (get action).map fun _ => connector
  | .resolver resolve => .resolver fun action bindingId bindingVersion contractVersion =>
      (resolve action bindingId bindingVersion contractVersion).map (.backedBy connector)

/-- The engine with one connector behind every action that it can resolve. -/
def Engine.backedBy (connector : ActionConnector (S.sum Y)) (engine : Engine Y) :
    Engine (S.sum Y) where
  gateway := {
    connectors := engine.gateway.connectors.backedBy connector
    policyRegistry := engine.gateway.policyRegistry.map .beside
    policyResolver := engine.gateway.policyResolver.map .beside }
  resources resourceType resourceId :=
    (engine.resources resourceType resourceId).lift Sum.inr fun _ r => r
  connectorResolver := engine.connectorResolver.map fun resolve action =>
    (resolve action).map (.backedBy connector)
  validatePayload := engine.validatePayload
  binding := engine.binding

end

/-- Nothing outside the core. -/
def World.isolated : World ⟨Empty, Empty.elim⟩ where
  State := Unit
  Choice := Unit
  exec _ _ o := o.elim
  drift _ s := s

/-- An engine without connectors: every dispatch raises. -/
def Engine.isolated : Engine ⟨Empty, Empty.elim⟩ where
  gateway := { connectors := .mapping fun _ => none }
  resources _ _ := return none

/-- The entry points. `dispatch` and `reconcile` take a record that the caller has held for
any time, `transaction` is a single store method, `outside` a call of an adapter. -/
inductive Call (X : Sig) where
  | initializeStore
  | submit (request : ConsequentialActionRequest) (actorId : String)
  | authorize (command : ActionCommand) (expectedVersion : ℤ)
  | authorizeAction (command : ActionCommand) (expectedVersion : ℤ)
  | markDispatched (actionId : String)
  | recordOutcome (actionId : String) (status : ActionStatus) (outcome : Option Fields)
  | dispatch (action : ActionRecord)
  | reconcile (action : ActionRecord)
  | deliver (owner : String) (leaseSeconds : ℤ) (maxAttempts : ℕ) (limit : ℤ)
  | sweep (dispatchStaleSeconds : ℤ) (limit : ℤ)
  | confirm (proposalId : String) (context : ActionConfirmationContext)
  | cancel (proposalId : String) (context : ActionConfirmationContext)
  | status (proposalId customerId : String) (actorId : Option String)
  | enqueue (topic aggregateId : String) (payload : Fields)
  | transaction (o : Tx)
  | outside (p : Prog X PyErr Unit)

inductive Reply where
  | action (record : ActionRecord)
  | proposal (record : ActionProposal)
  | worker (run : WorkerRun)
  | done

namespace Engine

variable {X : Sig} (engine : Engine X) (W : World X)

def body : Call X → Task X Reply
  | .initializeStore => do
    SQLiteCoreStore.initializeStore
    return .done
  | .submit request actorId => return .action (← engine.service.submit request actorId)
  | .authorize command v => return .action (← engine.gateway.authorize command v)
  | .authorizeAction command v => return .action (← CaseKernel.authorizeAction command v)
  | .markDispatched actionId => return .action (← CaseKernel.markDispatched actionId)
  | .recordOutcome id status outcome =>
    return .action (← CaseKernel.recordOutcome id status outcome)
  | .dispatch action => return .action (← engine.gateway.dispatch action)
  | .reconcile action => return .action (← engine.gateway.reconcile action)
  | .deliver owner leaseSeconds maxAttempts limit => do
    let worker : ActionDeliveryWorker X := {
      gateway := engine.gateway, owner, leaseSeconds, maxAttempts, binding := engine.binding }
    return .worker (← worker.runOnce limit)
  | .sweep staleSeconds limit => do
    let worker : ReconciliationWorker X := ⟨engine.gateway, staleSeconds⟩
    return .worker (← worker.runOnce limit)
  | .confirm proposalId context => return .proposal (← engine.bridge.confirm proposalId context)
  | .cancel proposalId context => return .proposal (← ActionBridge.cancel proposalId context)
  | .status proposalId customerId actorId =>
    return .proposal (← ActionBridge.status proposalId customerId actorId)
  | .enqueue topic aggregateId payload => do
    let _ ← SQLiteCoreStore.enqueueOutbox topic aggregateId payload
    return .done
  | .transaction o => do
    let _ ← Task.tx o
    return .done
  | .outside p => do
    Task.ext p
    return .done

def exec (e : EngineChoice W) (s : EngineState W) : (o : Op X) → o.Res × EngineState W
  | .tx o => ((o.exec s.clock e.ids s.db).1, { s with db := (o.exec s.clock e.ids s.db).2 })
  | .now => (s.clock, s)
  | .uuid => (e.ids 0, s)
  | .dispatchCalled .. => ((), s)
  | .dispatchReturned .. => ((), s)
  | .reconcileCalled _ => ((), s)
  | .ext o => ((W.exec e.ext s.ext o).1, { s with ext := (W.exec e.ext s.ext o).2 })

/-- The steps of one caller that nothing runs beside; time passes between them. -/
def execAlone (choices : ℕ → EngineChoice W) (s : ℕ × EngineState W) (o : (sig X).Op) :
    (sig X).Res o × (ℕ × EngineState W) :=
  let done := exec W (choices s.1) s.2 o
  (done.1, s.1 + 1, { done.2 with clock := done.2.clock + (choices s.1).elapsed })

/-- What a program answers when it is executed alone, and the state that it leaves. -/
def alone {α : Type} (choices : ℕ → EngineChoice W) (p : Task X α) (s : EngineState W) :
    Except PyErr α × EngineState W :=
  let done := Prog.alone (execAlone W choices) p (0, s)
  (done.1, done.2.2)

/-- The operations that it issues. -/
def issuedAlone {α : Type} (choices : ℕ → EngineChoice W) (p : Task X α) (s : EngineState W) :
    List (Op X) :=
  Prog.issued (execAlone W choices) p (0, s)

/-- The history of a run of the engine. -/
abbrev Log (W : World X) := Hist (sig X) (EngineState W) (Call X)

abbrev Admission (X : Sig) (W : World X) := Log W → Call X → Bool

/-- The engine over a world, open to the calls that `admits` lets in. -/
abbrev system (admits : Admission X W) : System (sig X) PyErr Reply where
  State := EngineState W
  Choice := EngineChoice W
  Call := Call X
  exec := exec W
  drift e s := { s with clock := s.clock + e.elapsed, ext := W.drift e.ext s.ext }
  admits := admits
  body := engine.body

/-- The history of the run of a schedule from a state of the stores. -/
def history (admits : Admission X W) (s : EngineState W)
    (acts : List (engine.system W admits).Move) : Log W :=
  ((engine.system W admits).run ((engine.system W admits).init s) acts).hist

end Engine
end WorkflowEngine
