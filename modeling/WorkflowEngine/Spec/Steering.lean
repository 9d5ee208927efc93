import WorkflowEngine.Interleave.Prog
import WorkflowEngine.Spec.Compliance

/-! Behaviour steering (`agents/guardrails.py`): a response is verified and, as long as it is found
invalid, generated again. -/

namespace WorkflowEngine

open Interleave

/-- The settings that the guardrails read. -/
structure GuardrailSettings where
  reasoningEnabled : Bool := true
  reasoningMaxIterations : ℤ := 2
  complianceEnabled : Bool := true

namespace Guardrails

variable (libs : ReasoningLibs) (settings : GuardrailSettings)

/-! `_run_verification` -/

def findingOf (cv : ComplianceViolation) : Finding where
  ruleId := cv.ruleId
  description := cv.description
  severity := cv.severity
  actualValue := cv.actualValue
  expectedConstraint := cv.expected

def reasoningRails (moment : Moment) (text : String) (state : Fields)
    (currentStep : Option String) (policy : Option ReasoningPolicy) :
    Except PyErr (List Finding × List String) :=
  match policy with
  | none => .ok ([], [])
  | some policy => (ReasoningEngine.verify libs moment text policy state currentStep).map
      fun result => (result.findings, result.citedRules)

def complianceRails (text : String) (state : Fields) (procedureId currentStep : Option String) :
    Except PyErr (List ComplianceViolation) :=
  if settings.complianceEnabled then
    ComplianceChecker.checkAll libs text state currentStep procedureId
  else .ok []

def runVerification (moment : Moment) (text : String) (state : Fields)
    (procedureId currentStep : Option String) (policy : Option ReasoningPolicy) :
    Except PyErr VerificationResult := do
  let (findings, citedRules) ← reasoningRails libs moment text state currentStep policy
  let violations ← complianceRails libs settings text state procedureId currentStep
  let findings := findings ++ violations.map findingOf
  if findings.isEmpty then
    return {
      verdict := .NOT_APPLICABLE
      explanation := "No verifiable claims or applicable rules." }
  return ReasoningEngine.resultOf ReasoningEngine.hintLines "All claims verified." findings
    (citedRules ++ violations.map ComplianceViolation.ruleId)

/-! `steer_response` -/

/-- `_SAFE_FALLBACK` -/
def safeFallback : String :=
  "I apologize, but I'm unable to provide accurate information about your " ++
  "request at this time. Let me connect you with a specialist who can help. " ++
  "Please hold while I transfer your case."

def relevantKeys : List String := ["order_id", "order_total", "order_date", "order_status",
  "customer_id", "customer_name", "refund_amount", "current_step", "current_procedure"]

def extractSessionFacts (state : Fields) : String :=
  let facts := relevantKeys.filterMap fun key =>
    let val := ReasoningEngine.stateValue state key
    if val = .null then none else some (key ++ "=" ++ val.pyStr)
  if facts.isEmpty then "no session facts available" else String.intercalate ", " facts

/-- `x or "unknown"` -/
def orUnknown (x : Option String) : String :=
  match x with
  | some s => if s = "" then "unknown" else s
  | none => "unknown"

def rewritePrompt (verification : VerificationResult) (hint : String) (state : Fields)
    (procedureId currentStep : Option String) : String :=
  "The previous response was found to contain errors by our automated verification system.\n\n" ++
  "Verification verdict: " ++ verification.verdict.value ++ "\n" ++
  "Explanation: " ++ verification.explanation ++ "\n\n" ++
  "Specific issues:\n" ++ hint ++ "\n\n" ++
  "Original customer question context: The customer is in a " ++ orUnknown procedureId ++
  " workflow at step '" ++ orUnknown currentStep ++ "'.\n" ++
  "Session facts: " ++ extractSessionFacts state ++ "\n\n" ++
  "Please generate a corrected response that:\n" ++
  "1. Addresses the customer's needs accurately\n" ++
  "2. Does NOT violate the rules cited above\n" ++
  "3. Uses the actual order/session data provided\n"

/-- What the audit entries of a steered response say. -/
inductive SteeringAudit where
  | verified (citedRules : List String) (iteration : ℕ)
  | violation (result : VerificationResult) (iteration : ℕ)
  | rewrite (iteration : ℕ)
  deriving DecidableEq

/-- What steering asks for: the clock and the solver of a verification, an audit entry, and a new
response. -/
inductive SteerOp where
  | moment
  | audit (entry : SteeringAudit)
  | generate (prompt : String)

abbrev steerSig : Sig where
  Op := SteerOp
  Res
    | .moment => Moment
    | .audit _ => Except PyErr Unit
    | .generate _ => Except PyErr String

abbrev SteerTask := Prog steerSig PyErr

def auditLog (entry : SteeringAudit) : SteerTask Unit := do
  match ← Prog.perform (S := steerSig) (.audit entry) with
  | .ok () => return ()
  | .error e => throw e

/-- The arguments of a call but for its text. -/
structure SteerCall where
  state : Fields
  procedureId : Option String := none
  currentStep : Option String := none
  policy : Option ReasoningPolicy := none
  hasGenerateFn : Bool := false
  maxIterations : ℤ

/-- What the loop assigns. -/
structure Steering where
  text : String
  violations : List GuardrailViolation
  verification : Option VerificationResult := none

/-- The body of the `try`. The text is assigned before it is filtered, and both stay assigned when
what comes next raises. -/
def rewrite (run : Steering) (prompt : String) (iteration : ℕ) : SteerTask (Steering × Bool) := do
  match ← Prog.perform (S := steerSig) (.generate prompt) with
  | .error _ => return (run, false)
  | .ok generated =>
    let filtered := filterResponse libs.tables generated
    let run := { run with text := filtered.1, violations := run.violations ++ filtered.2 }
    match ← Prog.perform (S := steerSig) (.audit (.rewrite (iteration + 1))) with
    | .error _ => return (run, false)
    | .ok () => return (run, true)

/-- The iterations from the given one on. -/
def steerFrom (call : SteerCall) : ℕ → ℕ → Steering → SteerTask Steering
  | 0, _, run => return run
  | rounds + 1, iteration, run => do
    let moment ← Prog.perform (S := steerSig) .moment
    let verification ← Prog.ofExcept (runVerification libs settings moment run.text call.state
      call.procedureId call.currentStep call.policy)
    let run := { run with verification := some verification }
    if verification.isValid then
      auditLog (.verified verification.citedRules iteration)
      return run
    if verification.verdict = .NOT_APPLICABLE then
      return run
    auditLog (.violation verification iteration)
    match verification.rewriteHint with
    | none => return run
    | some hint =>
      if iteration < call.maxIterations ∧ call.hasGenerateFn ∧ hint ≠ "" then
        let (run, again) ← rewrite libs run
          (rewritePrompt verification hint call.state call.procedureId call.currentStep) iteration
        if again then steerFrom call rounds (iteration + 1) run else return run
      else return run

/-- The text that is given out. -/
def released (run : Steering) : String :=
  match run.verification with
  | some verification =>
    if verification.verdict = .INVALID ∧ verification.findings.any (·.severity = .error) then
      safeFallback
    else run.text
  | none => run.text

/-- The policy of the procedure that is given, if any. -/
def policyOf (procedureDef : Option Json) : Except PyErr (Option ReasoningPolicy) :=
  match procedureDef with
  | none => .ok none
  | some procedure =>
    if procedure.truthy then (ReasoningPolicy.ofProcedure libs procedure).map some else .ok none

def steerResponse (text : String) (state : Fields) (procedureId currentStep : Option String)
    (procedureDef : Option Json) (hasGenerateFn : Bool) (maxIterations : Option ℤ) :
    SteerTask (String × List GuardrailViolation × Option VerificationResult) := do
  let maxIterations := maxIterations.getD settings.reasoningMaxIterations
  let filtered := filterResponse libs.tables text
  if !settings.reasoningEnabled then
    return (filtered.1, filtered.2, none)
  let policy ← Prog.ofExcept (policyOf libs procedureDef)
  let run ← steerFrom libs settings
    { state, procedureId, currentStep, policy, hasGenerateFn, maxIterations }
    (maxIterations + 1).toNat 0 ⟨filtered.1, filtered.2, none⟩
  return (released run, run.violations, run.verification)

end Guardrails

end WorkflowEngine
