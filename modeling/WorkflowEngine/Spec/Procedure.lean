import Mathlib.Data.List.Infix
import WorkflowEngine.Spec.Json

/-! Procedures as the loader parses them from YAML, `validate_procedure`
(`procedures/loader.py`) and the `ProcedureExecutor` (`procedures/executor.py`). A procedure is
a dict of any shape, and the functions raise what Python raises on it. The state is kept when a
method raises, as an object keeps it. Hooks and audit entries give nothing back. -/

namespace WorkflowEngine

inductive ProcedureErr where
  | procedureError (message code : String) (details : Fields)
  | valueError (message : String)
  | keyError (key : String)
  | typeError
  | attributeError
  | indexError
  deriving DecidableEq

namespace Json

/-- Lists and dicts are neither members of sets nor keys of dicts. -/
def hashable : Json → Bool
  | .list _ | .dict _ => false
  | _ => true

/-- `iter(v)` -/
def iterate : Json → Except ProcedureErr (List Json)
  | .list xs => .ok xs
  | .dict kvs => .ok (kvs.map fun kv => .str kv.1)
  | .str s => .ok (s.toList.map fun c => .str (String.ofList [c]))
  | _ => .error .typeError

/-- `v[key]` -/
def item (v : Json) (key : String) : Except ProcedureErr Json :=
  match v with
  | .dict kvs => match Fields.get? kvs key with
    | some w => .ok w
    | none => .error (.keyError key)
  | _ => .error .typeError

/-- `key in v` -/
def contains (v : Json) (key : String) : Except ProcedureErr Bool :=
  match v with
  | .dict kvs => .ok (Fields.has kvs key)
  | .list xs => .ok (xs.any fun x => x.pyEq (.str key))
  | .str s => .ok (decide (key.toList <:+: s.toList))
  | _ => .error .typeError

/-- `v.get(key)` -/
def getOrNone (v : Json) (key : String) : Except ProcedureErr Json :=
  match v with
  | .dict kvs => .ok ((Fields.get? kvs key).getD .null)
  | _ => .error .attributeError

/-- `v in s`, for a set. -/
def memberOf (v : Json) (s : List Json) : Except ProcedureErr Bool :=
  if v.hashable then .ok (s.any fun w => w.pyEq v) else .error .typeError

/-- `s.add(v)` -/
def addTo (s : List Json) (v : Json) : Except ProcedureErr (List Json) :=
  if v.hashable then .ok (if s.any fun w => w.pyEq v then s else s ++ [v]) else .error .typeError

end Json

/-- A dict with keys of any hashable type, in insertion order. -/
abbrev PyDict (α : Type) := List (Json × α)

namespace PyDict

variable {α : Type}

def get? (d : PyDict α) (k : Json) : Option α := (d.find? fun kv => kv.1.pyEq k).map Prod.snd

/-- `d[k] = v`; an equal key stays as it is. -/
def set (d : PyDict α) (k : Json) (v : α) : PyDict α :=
  if d.any fun kv => kv.1.pyEq k then d.map fun kv => if kv.1.pyEq k then (kv.1, v) else kv
  else d ++ [(k, v)]

/-- `d[k] = v`, where `k` may be unhashable. -/
def store (d : PyDict α) (k : Json) (v : α) : Except ProcedureErr (PyDict α) :=
  if k.hashable then .ok (d.set k v) else .error .typeError

end PyDict

/-- The fields of a step that name another step. -/
def refFields : List String := ["next_step", "on_success", "on_failure"]

namespace ProcedureLoader

/-- The condition (or option) targets of a step. -/
def checkTargets (validTargets : List Json) (step : Json) (field label : String) :
    Except ProcedureErr Unit := do
  if ← step.contains field then
    let entries ← step.item field
    if entries.truthy then
      (← entries.iterate).forM fun entry => do
        if ← entry.contains "next_step" then
          let target ← entry.item "next_step"
          if !(← target.memberOf validTargets) then
            throw (.valueError ("Step '" ++ (← step.item "id").pyStr ++ "' has " ++ label ++
              " with next_step='" ++ target.pyStr ++ "' which is not a valid step ID or 'end'"))

def checkReference (validTargets : List Json) (step : Json) (refField : String) :
    Except ProcedureErr Unit := do
  if ← step.contains refField then
    let target ← step.item refField
    if !(← target.memberOf validTargets) then
      throw (.valueError ("Step '" ++ (← step.item "id").pyStr ++ "' has " ++ refField ++ "='" ++
        target.pyStr ++ "' which is not a valid step ID or 'end'"))

/-- The required fields of a step, and the tool of a tool call. -/
def checkFields (step : Json) : Except ProcedureErr Unit := do
  if !(← step.contains "id") then
    throw (.valueError "Step missing 'id' field")
  if !(← step.contains "instruction") then
    throw (.valueError ("Step '" ++ (← step.item "id").pyStr ++ "' missing 'instruction' field"))
  if !(← step.contains "action") then
    throw (.valueError ("Step '" ++ (← step.item "id").pyStr ++ "' missing 'action' field"))
  if (← step.item "action").pyEq (.str "tool_call") then
    if !(← step.contains "tool") then
      throw (.valueError ("Step '" ++ (← step.item "id").pyStr ++
        "' has action 'tool_call' but no 'tool' field"))

def validateStep (validTargets : List Json) (step : Json) : Except ProcedureErr Unit := do
  checkFields step
  refFields.forM (checkReference validTargets step)
  checkTargets validTargets step "conditions" "condition"
  checkTargets validTargets step "options" "option"

/-- `{step["id"] for step in procedure["steps"]}` -/
def stepIds (steps : List Json) : Except ProcedureErr (List Json) :=
  steps.foldlM (fun ids step => do Json.addTo ids (← step.item "id")) []

def validateProcedure (procedure : Json) : Except ProcedureErr Bool := do
  let steps ← (← procedure.item "steps").iterate
  let validTargets ← Json.addTo (← stepIds steps) (.str "end")
  steps.forM (validateStep validTargets)
  return true

end ProcedureLoader

inductive StepStatus where
  | pending | active | completed | skipped | failed
  deriving DecidableEq

inductive ProcedureStatus where
  | notStarted | inProgress | completed | escalated | failed | timedOut
  deriving DecidableEq

def ProcedureStatus.value : ProcedureStatus → String
  | notStarted => "not_started"
  | inProgress => "in_progress"
  | completed => "completed"
  | escalated => "escalated"
  | failed => "failed"
  | timedOut => "timed_out"

structure StepExecution where
  stepId : Json
  definition : Json
  status : StepStatus := .pending
  enteredAt : Option String := none
  completedAt : Option String := none
  transitionReason : Option String := none
  deriving DecidableEq

namespace StepExecution

def enter (execution : StepExecution) (now : String) : StepExecution :=
  { execution with status := .active, enteredAt := some now }

def complete (execution : StepExecution) (reason now : String) : StepExecution :=
  { execution with status := .completed, completedAt := some now, transitionReason := some reason }

end StepExecution

/-- `currentStepId` is null where there is no active step. -/
structure ProcedureExecutor where
  procedureId : Json
  procedureName : Json
  steps : PyDict Json
  stepOrder : List Json
  validTransitions : PyDict (List Json)
  status : ProcedureStatus := .notStarted
  currentStepId : Json := .null
  stepExecutions : PyDict StepExecution := []
  startedAt : Option String := none
  completedAt : Option String := none
  deriving DecidableEq

namespace ProcedureExecutor

/-- The targets that the conditions (or options) of a step add. -/
def addEntryTargets (step : Json) (field : String) (targets : List Json) :
    Except ProcedureErr (List Json) := do
  if ← step.contains field then
    let entries ← step.item field
    if entries.truthy then
      (← entries.iterate).foldlM (fun targets entry => do
        let t ← entry.getOrNone "next_step"
        if t.truthy && !t.pyEq (.str "end") then Json.addTo targets t else return targets) targets
    else return targets
  else return targets

def addReference (step : Json) (targets : List Json) (field : String) :
    Except ProcedureErr (List Json) := do
  if ← step.contains field then
    let t ← step.item field
    if !t.pyEq (.str "end") then Json.addTo targets t else return targets
  else return targets

/-- The targets of one step; "end" is always one of them. -/
def stepTargets (step : Json) : Except ProcedureErr (List Json) := do
  let targets ← refFields.foldlM (addReference step) []
  let targets ← addEntryTargets step "conditions" targets
  let targets ← addEntryTargets step "options" targets
  Json.addTo targets (.str "end")

/-- `ProcedureExecutor(procedure)` -/
def init (procedure : Json) : Except ProcedureErr ProcedureExecutor := do
  let procedureId ← procedure.item "id"
  let procedureName ← procedure.item "name"
  let steps ← (← procedure.item "steps").iterate
  let byId ← steps.foldlM (fun d step => do PyDict.store d (← step.item "id") step) []
  let stepOrder ← steps.mapM (·.item "id")
  let validTransitions ← steps.foldlM (fun d step => do
    PyDict.store d (← step.item "id") (← stepTargets step)) []
  return { procedureId, procedureName, steps := byId, stepOrder, validTransitions }

def getCurrentStep (executor : ProcedureExecutor) : Option Json :=
  if executor.currentStepId.truthy then executor.steps.get? executor.currentStepId else none

def getAllowedTools (executor : ProcedureExecutor) : Except ProcedureErr (List Json) :=
  match executor.getCurrentStep with
  | none => return []
  | some step => do
    if !step.truthy then
      return []
    let tools ← if ← step.contains "tool" then pure [← step.item "tool"] else pure []
    if ← step.contains "tools" then
      match ← step.item "tools" with
      | .list names => return tools ++ names
      | _ => return tools
    else return tools

def getValidTransitions (executor : ProcedureExecutor) : List Json :=
  if executor.currentStepId.truthy then
    (executor.validTransitions.get? executor.currentStepId).getD []
  else []

def optional : Option String → Json
  | some s => .str s
  | none => .null

def completedSteps (executor : ProcedureExecutor) : List Json :=
  (executor.stepExecutions.filter fun kv => kv.2.status = .completed).map (·.1)

def getProgress (executor : ProcedureExecutor) : Fields :=
  [("procedure_id", executor.procedureId), ("procedure_name", executor.procedureName),
    ("status", .str executor.status.value), ("current_step", executor.currentStepId),
    ("steps_completed", .list executor.completedSteps),
    ("total_steps", .int executor.steps.length), ("started_at", optional executor.startedAt),
    ("completed_at", optional executor.completedAt)]

end ProcedureExecutor

/-- An executor, the session state that a call is given, and the steps that the call has
entered. -/
structure ExecutorState where
  executor : ProcedureExecutor
  session : Fields
  entered : List Json := []

abbrev ExecutorM := ExceptT ProcedureErr (StateM ExecutorState)

namespace ProcedureExecutor

/-- `_update_session_state` -/
def updateSessionState (stepId : Json) (s : ExecutorState) : ExecutorState :=
  let completed := s.executor.completedSteps
  let session := (((((s.session.set "current_procedure" s.executor.procedureId).set
    "current_procedure_name" s.executor.procedureName).set "current_step" stepId).set
    "steps_completed" (.list completed)).set
    "workflow_status" (.str s.executor.status.value)).set
    "workflow_started_at" (optional s.executor.startedAt)
  { s with session }

/-- The record of a step that is entered. -/
def addExecution (stepId : Json) (execution : StepExecution) (s : ExecutorState) : ExecutorState :=
  let stepExecutions := s.executor.stepExecutions.set stepId execution
  { s with
    executor := { s.executor with stepExecutions, currentStepId := stepId }
    entered := s.entered ++ [stepId] }

def enterStep (stepId : Json) (now : String) : ExecutorM Json := do
  let s ← get
  if !(← stepId.memberOf (s.executor.steps.map (·.1))) then
    throw (.procedureError ("Step '" ++ stepId.pyStr ++ "' does not exist in procedure '" ++
      s.executor.procedureId.pyStr ++ "'") "INVALID_STEP_TRANSITION" [])
  else
    let definition := (s.executor.steps.get? stepId).getD .null
    let execution : StepExecution := { stepId := ← definition.item "id", definition }
    modify (addExecution stepId (execution.enter now))
    modify (updateSessionState stepId)
    return stepId

/-- The clock is read at the start and when the step is entered. -/
def start (now : ℕ → String) : ExecutorM Json := do
  let s ← get
  if s.executor.status = .inProgress then
    throw (.procedureError ("Procedure '" ++ s.executor.procedureId.pyStr ++
      "' is already in progress") "PROCEDURE_ALREADY_ACTIVE" [])
  else
    modify fun s =>
      { s with executor := { s.executor with status := .inProgress, startedAt := some (now 0) } }
    match s.executor.stepOrder with
    | [] => throw .indexError
    | firstStepId :: _ =>
      modify (updateSessionState firstStepId)
      enterStep firstStepId (now 1)

def complete (resolution now : String) : ExecutorM Json := do
  modify fun s =>
    let session := (((s.session.set "workflow_status" (.str "completed")).set
      "workflow_resolution" (.str resolution)).set "workflow_completed_at" (.str now)).set
      "current_step" .null
    { s with
      executor := { s.executor with
        status := .completed, completedAt := some now, currentStepId := .null }
      session }
  return .str "end"

/-- `sorted(targets)`, where "end" is among the targets. -/
def sortedTargets (targets : List Json) : Except ProcedureErr (List String) :=
  match targets.mapM fun | .str s => some s | _ => none with
  | some names => .ok (names.insertionSort (· ≤ ·))
  | none => .error .typeError

/-- `current_exec.complete(reason)`, when there is one. -/
def completeStep (current : Json) (reason now : String) (s : ExecutorState) : ExecutorState :=
  match s.executor.stepExecutions.get? current with
  | none => s
  | some execution =>
    let stepExecutions := s.executor.stepExecutions.set current (execution.complete reason now)
    { s with executor := { s.executor with stepExecutions } }

def transition (target : Json) (reason : String) (now : ℕ → String) : ExecutorM Json := do
  let s ← get
  let current := s.executor.currentStepId
  if current = .null then
    throw (.procedureError "No active step to transition from" "INVALID_PROCEDURE" [])
  else
    let validTargets := (s.executor.validTransitions.get? current).getD []
    if !(← target.memberOf validTargets) then
      let sorted := Json.list ((← sortedTargets validTargets).map .str)
      throw (.procedureError ("Invalid transition from '" ++ current.pyStr ++ "' to '" ++
        target.pyStr ++ "'. Valid targets: " ++ sorted.repr) "INVALID_STEP_TRANSITION"
        [("from_step", current), ("to_step", target), ("valid_targets", sorted)])
    else
      modify (completeStep current reason (now 0))
      if target.pyEq (.str "end") then
        complete reason (now 1)
      else enterStep target (now 1)

def escalate (reason now : String) : ExecutorM Json := do
  modify fun s =>
    let session := ((s.session.set "workflow_status" (.str "escalated")).set
      "escalation_reason" (.str reason)).set "escalated_at" (.str now)
    { s with
      executor := { s.executor with status := .escalated, completedAt := some now }
      session }
  return .str "escalated"

end ProcedureExecutor

inductive ExecutorCall where
  | start
  | transition (target : Json) (reason : String)
  | complete (resolution : String)
  | escalate (reason : String)

/-- A call with the session state that it is given and what the clock shows meanwhile. -/
structure Invocation where
  call : ExecutorCall
  session : Fields
  now : ℕ → String

def Invocation.body (i : Invocation) : ExecutorM Json :=
  match i.call with
  | .start => ProcedureExecutor.start i.now
  | .transition target reason => ProcedureExecutor.transition target reason i.now
  | .complete resolution => ProcedureExecutor.complete resolution (i.now 0)
  | .escalate reason => ProcedureExecutor.escalate reason (i.now 0)

/-- `get_workflow_progress` of `state/workflow_state.py` -/
def getWorkflowProgress (state : Fields) : Fields :=
  let read (key : String) := (state.get? key).getD .null
  [("current_procedure", read "current_procedure"),
    ("current_procedure_name", read "current_procedure_name"),
    ("current_step", read "current_step"),
    ("steps_completed", (state.get? "steps_completed").getD (.list [])),
    ("workflow_status", read "workflow_status"), ("started_at", read "workflow_started_at"),
    ("resolution", read "workflow_resolution"), ("completed_at", read "workflow_completed_at")]

/-- The result of a call, and what it leaves behind. -/
def ProcedureExecutor.invoke (executor : ProcedureExecutor) (i : Invocation) :
    Except ProcedureErr Json × ExecutorState :=
  i.body.run.run { executor, session := i.session }

/-- A step that was entered, by a `start` or by a `transition`. -/
structure EnteredStep where
  byStart : Bool
  step : Json

structure ExecutorRun where
  executor : ProcedureExecutor
  log : List EnteredStep

def ExecutorRun.next (r : ExecutorRun) (i : Invocation) : ExecutorRun where
  executor := (r.executor.invoke i).2.executor
  log := r.log ++ (r.executor.invoke i).2.entered.map fun step =>
    ⟨match i.call with | .start => true | _ => false, step⟩

def ProcedureExecutor.after (executor : ProcedureExecutor) (calls : List Invocation) :
    ExecutorRun :=
  calls.foldl ExecutorRun.next ⟨executor, []⟩

/-- A call on the session state that the calls before it have left. -/
def ExecutorState.call (s : ExecutorState) (call : ExecutorCall) (now : ℕ → String) :
    Except ProcedureErr Json × ExecutorState :=
  s.executor.invoke ⟨call, s.session, now⟩

def ExecutorState.after (s : ExecutorState) (calls : List (ExecutorCall × (ℕ → String))) :
    ExecutorState :=
  calls.foldl (fun s c => (s.call c.1 c.2).2) s

end WorkflowEngine
