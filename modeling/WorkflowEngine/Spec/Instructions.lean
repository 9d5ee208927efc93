import WorkflowEngine.Spec.Procedure

/-! The instructions that the loader writes for an agent (`build_agent_instructions` in
`procedures/loader.py`). -/

namespace WorkflowEngine

/-- A line of the instructions, with the step that it names as the place to go. -/
structure InstructionLine where
  text : String
  target : Option Json := none
  deriving DecidableEq

structure Instructions where
  header : List String
  sections : List (List InstructionLine)
  footer : List String

def Instructions.render (instructions : Instructions) : String :=
  String.intercalate "\n" (instructions.header ++
    instructions.sections.flatMap (·.map (·.text)) ++ instructions.footer)

namespace Json

/-- `v.get(key, default)` -/
def getDefault (v : Json) (key : String) (default : Json) : Except ProcedureErr Json :=
  match v with
  | .dict kvs => .ok ((Fields.get? kvs key).getD default)
  | _ => .error .attributeError

/-- An element that `str.join` takes. -/
def joined : Json → Except ProcedureErr String
  | .str s => .ok s
  | _ => .error .typeError

end Json

namespace ProcedureLoader

variable (strip : String → String)

def goTo (text : String) (target : Json) : InstructionLine := ⟨text ++ target.pyStr, some target⟩

/-- The guidance of a reference field, where the step has it. -/
def referenceLine (step : Json) (field text : String) :
    Except ProcedureErr (List InstructionLine) := do
  if ← step.contains field then return [goTo text (← step.item field)] else return []

def toolGuidance (step : Json) : Except ProcedureErr (List InstructionLine) := do
  if (← step.item "action").pyEq (.str "tool_call") then
    if ← step.contains "tool" then
      let tool := ⟨"  → Use the `" ++ (← step.item "tool").pyStr ++ "` tool to complete this step.",
        none⟩
      let success ← referenceLine step "on_success" "  → If successful, proceed to: "
      let failure ← referenceLine step "on_failure" "  → If it fails, go to: "
      return tool :: success ++ failure
    else return []
  else return []

def collectionGuidance (step : Json) : Except ProcedureErr (List InstructionLine) := do
  if (← step.item "action").pyEq (.str "collect_info") then
    if ← step.contains "required_info" then
      let infos ← (← (← step.item "required_info").iterate).mapM Json.joined
      return [⟨"  → You must collect: " ++ String.intercalate ", " infos, none⟩,
        ⟨"  → IMPORTANT: If this information is already present in the user's message, " ++
          "skip collection and immediately proceed to the next step.", none⟩]
    else return []
  else return []

def conditionLine (cond : Json) : Except ProcedureErr InstructionLine := do
  let conditionText ← cond.getDefault "if" (← cond.getDefault "condition" (.str ""))
  let target ← cond.getDefault "next_step" (.str "end")
  return goTo ("    - If " ++ conditionText.pyStr ++ " → go to ") target

def optionLine (opt : Json) : Except ProcedureErr InstructionLine := do
  let label ← opt.getDefault "label" (.str "")
  let target ← opt.getDefault "next_step" (.str "end")
  return goTo ("    - " ++ label.pyStr ++ " → go to ") target

/-- A headline, and one line for each entry. -/
def entryGuidance (step : Json) (field headline : String)
    (line : Json → Except ProcedureErr InstructionLine) :
    Except ProcedureErr (List InstructionLine) := do
  if ← step.contains field then
    let entries ← step.item field
    if entries.truthy then
      return ⟨headline, none⟩ :: (← (← entries.iterate).mapM line)
    else return []
  else return []

def branchingGuidance (step : Json) : Except ProcedureErr (List InstructionLine) := do
  if (← step.item "action").pyEq (.str "evaluate") then
    entryGuidance step "conditions" "  → Evaluate the following conditions:" conditionLine
  else return []

def optionGuidance (step : Json) : Except ProcedureErr (List InstructionLine) :=
  entryGuidance step "options" "  → Present these options to the user:" optionLine

def linearGuidance (step : Json) : Except ProcedureErr (List InstructionLine) := do
  if ← step.contains "next_step" then
    let action ← step.item "action"
    if action.pyEq (.str "tool_call") || action.pyEq (.str "evaluate") then return []
    else
      let target ← step.item "next_step"
      if target.pyEq (.str "end") then
        return [⟨"  → This is the final step. End the conversation.", none⟩]
      else return [goTo "  → Next step: " target]
  else return []

/-- The section of the step with a number. -/
def stepSection (i : ℕ) (step : Json) : Except ProcedureErr (List InstructionLine) := do
  let id ← step.item "id"
  match ← step.item "instruction" with
  | .str instruction =>
    let tool ← toolGuidance step
    let collection ← collectionGuidance step
    let branching ← branchingGuidance step
    let options ← optionGuidance step
    let linear ← linearGuidance step
    return ⟨"### Step " ++ toString i ++ ": " ++ id.pyStr, none⟩ :: ⟨strip instruction, none⟩ ::
      (tool ++ collection ++ branching ++ options ++ linear ++ [⟨"", none⟩])
  | _ => throw .attributeError

/-- What `build_agent_instructions` writes, line by line. -/
def instructionLines (procedure : Json) (persona : String) : Except ProcedureErr Instructions := do
  let name ← procedure.item "name"
  let description ← procedure.item "description"
  let steps ← (← procedure.item "steps").iterate
  let sections ← (steps.zipIdx 1).mapM fun (step, i) => stepSection strip i step
  return {
    header := [persona, "", "## Procedure: " ++ name.pyStr, description.pyStr, "",
      "## Steps to Follow", "Follow these steps in order, using the branching logic described:", ""]
    sections
    footer := ["## State Tracking", "As you progress through the procedure:",
      "- Store relevant data from tool calls in the conversation state",
      "- Keep track of which steps you have completed",
      "- Reference previously gathered information when needed", ""] }

def buildAgentInstructions (procedure : Json) (persona : String) : Except ProcedureErr String := do
  return (← instructionLines strip procedure persona).render

end ProcedureLoader

end WorkflowEngine
