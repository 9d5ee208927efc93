import Mathlib.Data.Rat.Defs
import WorkflowEngine.Spec.Floats
import WorkflowEngine.Spec.Procedure
import WorkflowEngine.Spec.Timestamps

/-! The reasoning rails (`agents/reasoning.py`): claims taken out of a response, rules taken out of
a procedure, and the verification of the one against the other. A Z3 constraint is the set of
assignments under which it is true. -/

namespace WorkflowEngine

open Regex

inductive FindingSeverity where
  | error
  | warning
  | info
  deriving DecidableEq, Repr

structure Finding where
  ruleId : String
  description : String
  severity : FindingSeverity
  actualValue : Option String := none
  expectedConstraint : Option String := none
  deriving DecidableEq, Repr

/-- Values of the Z3 variables. -/
structure Assignment where
  orderAgeDays : ℤ
  orderTotal : ℚ
  refundAmount : ℚ
  orderStatus : String
  isRefundableCategory : Bool

/-- A `z3.BoolRef`. -/
abbrev Constraint := Assignment → Bool

structure ReasoningRule where
  ruleId : String
  description : String
  constraint : Constraint
  sourceStep : Json

structure ReasoningPolicy where
  procedureId : String
  rules : List ReasoningRule

inductive Verdict where
  | VALID
  | INVALID
  | SATISFIABLE
  | NOT_APPLICABLE
  deriving DecidableEq, Repr

def Verdict.value : Verdict → String
  | .VALID => "VALID"
  | .INVALID => "INVALID"
  | .SATISFIABLE => "SATISFIABLE"
  | .NOT_APPLICABLE => "NOT_APPLICABLE"

structure VerificationResult where
  verdict : Verdict
  findings : List Finding := []
  citedRules : List String := []
  explanation : String := ""
  rewriteHint : Option String := none
  deriving DecidableEq, Repr

def VerificationResult.isValid (result : VerificationResult) : Bool := result.verdict = .VALID

/-- `z3.sat`, `z3.unsat` and `z3.unknown` -/
inductive CheckSatResult where
  | sat
  | unsat
  | unknown
  deriving DecidableEq, Repr

/-- What is not decided here: lower case and dates, `sympy.Rational`, and the Z3 terms that are
made of Python values. -/
structure ReasoningLibs where
  tables : Tables
  lower : String → String
  /-- The time that a text gives in a format. -/
  strptime : String → String → Option Time
  rational : String → Except PyErr ℚ
  realVal : String → Except PyErr ℚ
  stringVal : Json → Except PyErr String
  /-- A boolean variable `==` a value. -/
  boolEq : Json → Except PyErr (Bool → Bool)

/-- The value of a decimal literal. -/
def decimalValue (s : String) : Except PyErr ℚ :=
  match Literal.float? s.toList with
  | some (m, e) => .ok (mkRat (m * 10 ^ e.toNat) (10 ^ (-e).toNat))
  | none => .error (.typeError ("invalid input: " ++ s))

/-- Texts in ASCII, dates without a time. -/
def ReasoningLibs.ascii : ReasoningLibs where
  tables := .ascii
  lower s := String.ofList (s.toList.map Char.toLower)
  strptime date format := match (date.toList.splitOn '-').map Literal.int? with
    | [some year, some month, some day] => if format = "%Y-%m-%d" then
        some (seconds (24 * 60 * 60 * daysFromCivil year month day)) else none
    | _ => none
  rational := decimalValue
  realVal := decimalValue
  stringVal
    | .str s => .ok s
    | _ => .error (.typeError "object is not iterable")
  boolEq
    | .bool b => .ok (· == b)
    | .null => .ok fun _ => false
    | _ => .error (.other "Z3Exception")

/-- What the clock and the solver say at a time; a solver may run out of its own. -/
structure Moment where
  now : Time
  check : List Constraint → CheckSatResult

/-! Claims -/

structure Claims where
  mentionedAmounts : Option (List PyFloat) := none
  mentionedDays : Option (List ℤ) := none
  refundApproved : Bool := false
  refundDenied : Bool := false
  storeCredit : Bool := false
  escalation : Bool := false
  deriving DecidableEq, Repr

namespace Claims

variable (tables : Tables)

def digit : Pattern := .char tables.isDigit

/-- `\s+` -/
def spaces : Pattern := .many1 (.char tables.isSpace)

def digitOrComma : Pattern := .char fun c => tables.isDigit c || c = ','

/-- `\$\s?([\d,]+\.?\d*)` -/
def amountPattern : Pattern := .seqs [.char (· = '$'), .opt (.char tables.isSpace),
  .group 1 (.seqs [.many1 (digitOrComma tables), .opt (.char (· = '.')), .many (digit tables)])]

/-- `(\d+)\s*(?:[-–]\s*(\d+)\s*)?(?:business\s+)?days?` -/
def daysPattern : Pattern := .seqs [.group 1 (.many1 (digit tables)), .many (.char tables.isSpace),
  .opt (.seqs [.char (fun c => c = '-' || c = '–'), .many (.char tables.isSpace),
    .group 2 (.many1 (digit tables)), .many (.char tables.isSpace)]),
  .opt (.seqs [.exactly "business", spaces tables]), .exactly "day", .opt (.exactly "s")]

def refundApprovedPattern : Pattern := .seqs [.boundary, .text "refund", .boundary, .lazily .dot,
  .boundary, .choice [.text "approved", .text "processed", .text "issued", .text "credited"],
  .boundary]

def refundDeniedPattern : Pattern := .seqs [.boundary, .choice [
    .seqs [.text "not", spaces tables, .text "eligible"],
    .seqs [.text "cannot", spaces tables, .text "process"],
    .seqs [.text "outside", .many .dot, .text "window"], .text "denied"], .boundary]

def storeCreditPattern : Pattern :=
  .seqs [.boundary, .text "store", spaces tables, .text "credit", .boundary]

def escalationPattern : Pattern := .seqs [.boundary, .choice [.text "escalat", .text "supervisor",
  .seqs [.text "senior", spaces tables, .text "representative"]], .boundary]

/-- A group of a match, empty where it took no part. -/
def groupText (n : ℕ) (groups : List (ℕ × List Char)) : List Char := (groups.lookup n).getD []

/-- `_AMOUNT_PATTERN.findall(text)` -/
def amountTexts (text : String) : List (List Char) :=
  ((amountPattern tables).findall tables.isWord text.toList).map (groupText 1)

def dayTexts (text : String) : List (List Char × List Char) :=
  ((daysPattern tables).findall tables.isWord text.toList).map
    fun groups => (groupText 1 groups, groupText 2 groups)

/-- `float(a.replace(",", ""))` -/
def amountOf (a : List Char) : Except PyErr PyFloat := floatOfText tables (a.filter (· ≠ ','))

def daysOf (x : List Char × List Char) : Except PyErr (List ℤ) := do
  let first ← intOfDigits tables x.1
  if x.2 = [] then return [first]
  return [first, ← intOfDigits tables x.2]

def claims (r : Pattern) (text : String) : Bool := r.found tables.isWord [] text.toList

/-- An absent entry and an empty one are alike: none is made for no match. -/
def extractClaims (text : String) : Except PyErr Claims := do
  let amounts ← (amountTexts tables text).mapM (amountOf tables)
  let days ← (dayTexts tables text).mapM (daysOf tables)
  return {
    mentionedAmounts := if amounts.isEmpty then none else some amounts
    mentionedDays := if (dayTexts tables text).isEmpty then none else some days.flatten
    refundApproved := claims tables refundApprovedPattern text
    refundDenied := claims tables (refundDeniedPattern tables) text
    storeCredit := claims tables (storeCreditPattern tables) text
    escalation := claims tables (escalationPattern tables) text }

/-- `not claims` -/
def none? (c : Claims) : Bool := c = {}

end Claims

/-! Rules -/

/-- `v.get(key, default)` -/
def Json.getOr (v : Json) (key : String) (default : Json) : Except PyErr Json :=
  match v with
  | .dict kvs => .ok ((Fields.get? kvs key).getD default)
  | _ => .error (.other "AttributeError")

/-- `for x in v` -/
def Json.elements (v : Json) : Except PyErr (List Json) :=
  match v.iterate with
  | .ok xs => .ok xs
  | .error _ => .error (.typeError ("'" ++ v.typeName ++ "' object is not iterable"))

def mentions (text part : String) : Bool := decide (part.toList <:+: text.toList)

namespace ReasoningPolicy

variable (libs : ReasoningLibs)

/-! What the conditions that are understood say. -/

def withinConstraint : Constraint := fun a => a.orderAgeDays ≤ 30 &&
  (a.orderStatus = "delivered" || a.orderStatus = "shipped") && a.isRefundableCategory

def outsideConstraint : Constraint := fun a => 30 < a.orderAgeDays

def processingConstraint : Constraint := fun a => a.orderStatus = "processing"

def parseConditionToZ3 (conditionText nextStep : Json) : Except PyErr (Option Constraint) :=
  match conditionText with
  | .str text =>
    let cond := libs.lower text
    if mentions cond "within 30 days" && nextStep.pyEq (.str "process_refund") then
      .ok (some withinConstraint)
    else if mentions cond "outside 30 days" then .ok (some outsideConstraint)
    else if mentions cond "processing" then .ok (some processingConstraint)
    else .ok none
  | _ => .error (.other "AttributeError")

def conditionRule (procId stepId : String) (sourceStep : Json) (entry : Json × ℕ) :
    Except PyErr (Option ReasoningRule) := do
  let condText ← entry.1.getOr "if" (.str "")
  let nextStep ← entry.1.getOr "next_step" (.str "")
  match ← parseConditionToZ3 libs condText nextStep with
  | some constraint => return some {
      ruleId := procId ++ ":" ++ stepId ++ ":cond_" ++ toString entry.2
      description := "Condition: " ++ condText.pyStr ++ " -> " ++ nextStep.pyStr
      constraint, sourceStep }
  | none => return none

def stepRules (procId : String) (step : Json) : Except PyErr (List ReasoningRule) := do
  let stepId ← step.getOr "id" (.str "")
  let conditions ← step.getOr "conditions" (.list [])
  if !conditions.truthy then return []
  let rules ← (← conditions.elements).zipIdx.mapM (conditionRule libs procId stepId.pyStr stepId)
  return rules.reduceOption

/-- `_add_universal_rules` -/
def universalRules (procId : String) : List ReasoningRule := [
  ⟨procId ++ ":universal:refund_lte_total", "Refund amount must not exceed order total",
    fun a => a.refundAmount ≤ a.orderTotal, .str "*"⟩,
  ⟨procId ++ ":universal:refund_positive", "Refund amount must be positive",
    fun a => 0 < a.refundAmount, .str "*"⟩,
  ⟨procId ++ ":universal:order_total_positive", "Order total must be positive",
    fun a => 0 < a.orderTotal, .str "*"⟩]

def ofProcedure (procedure : Json) : Except PyErr ReasoningPolicy := do
  let procId ← procedure.getOr "id" (.str "unknown")
  let steps ← procedure.getOr "steps" (.list [])
  let rules ← (← steps.elements).mapM (stepRules libs procId.pyStr)
  return ⟨procId.pyStr, rules.flatten ++ universalRules procId.pyStr⟩

end ReasoningPolicy

/-! Verification -/

namespace ReasoningEngine

variable (libs : ReasoningLibs) (moment : Moment)

/-- `session_state.get(key)` -/
def stateValue (state : Fields) (key : String) : Json := (state.get? key).getD .null

def dateFormats : List String := ["%Y-%m-%d", "%Y-%m-%dT%H:%M:%S", "%Y-%m-%d %H:%M:%S"]

/-- `_get_order_age_days`: whole days since the order, in the first format that reads its date. -/
def getOrderAgeDays (state : Fields) : Option ℤ :=
  match stateValue state "order_date" with
  | .str date => if date = "" then none
    else (dateFormats.findSome? (libs.strptime date)).map
      fun t => (moment.now - t) / seconds (24 * 60 * 60)
  | _ => none

def eligibleRules (policy : ReasoningPolicy) : List ReasoningRule :=
  policy.rules.filter fun r =>
    r.sourceStep.pyEq (.str "check_eligibility") && mentions r.description "process_refund"

def eligibilityFacts (age : ℤ) (status : Json) : String :=
  "order_age=" ++ toString age ++ " days, status=" ++ status.pyStr

def eligibilityFinding (rule : ReasoningRule) (age : ℤ) (status : Json)
    (claim : String) : Finding where
  ruleId := rule.ruleId
  description := claim ++ eligibilityFacts age status
  severity := .error
  actualValue := some ("age=" ++ toString age ++ ", status=" ++ status.pyStr)
  expectedConstraint := some "age <= 30 AND status in [delivered, shipped]"

def approvedClaim : String := "Response claims refund approved but order is NOT eligible: "

def deniedClaim : String := "Response claims refund denied but order IS eligible: "

/-- The findings about one rule, as the solver decides it beside the grounded variables. -/
def ruleFindings (claims : Claims) (age : ℤ) (status : Json) (grounded : List Constraint)
    (rule : ReasoningRule) : List Finding :=
  let isEligible : Bool := moment.check (grounded ++ [rule.constraint]) = .sat
  (if claims.refundApproved && !isEligible then
    [eligibilityFinding rule age status approvedClaim] else []) ++
  (if claims.refundDenied && isEligible then
    [eligibilityFinding rule age status deniedClaim] else [])

/-- The findings and the cited rules. -/
def verifyEligibilityClaims (claims : Claims) (policy : ReasoningPolicy) (state : Fields) :
    Except PyErr (List Finding × List String) :=
  if !claims.refundApproved && !claims.refundDenied then .ok ([], [])
  else
    let status := (state.get? "order_status").getD (.str "")
    match getOrderAgeDays libs moment state with
    | none => .ok ([], [])
    | some age => if !status.truthy then .ok ([], [])
      else do
        let statusTerm ← libs.stringVal status
        let category ← libs.boolEq ((state.get? "is_refundable_category").getD (.bool true))
        let grounded : List Constraint := [fun a => a.orderAgeDays = age,
          fun a => a.orderStatus = statusTerm, fun a => category a.isRefundableCategory]
        let rules := eligibleRules policy
        return (rules.flatMap (ruleFindings moment claims age status grounded),
          rules.map ReasoningRule.ruleId)

def amountFinding (ruleId : String) (amount orderTotal : PyFloat) : Finding where
  ruleId := ruleId
  description :=
    "Mentioned amount $" ++ amount.fixed2 ++ " exceeds order total $" ++ orderTotal.fixed2
  severity := .error
  actualValue := some ("$" ++ amount.fixed2)
  expectedConstraint := some ("<= $" ++ orderTotal.fixed2)

/-- What Z3 refutes is cited, once. -/
def citeRefuted (rules : List ReasoningRule) (orderTotal amount : ℚ) (cited : List String) :
    List String :=
  (rules.filter fun r => mentions r.ruleId "refund_lte_total").foldl (fun cited r =>
    if moment.check [fun a => a.orderTotal = orderTotal, fun a => a.refundAmount = amount,
        fun a => !r.constraint a] = .sat ∧ r.ruleId ∉ cited
      then cited ++ [r.ruleId] else cited) cited

def verifyAmount (policy : ReasoningPolicy) (orderTotal : PyFloat) (orderSym : ℚ)
    (found : List Finding × List String) (amount : PyFloat) :
    Except PyErr (List Finding × List String) := do
  let amountSym ← libs.rational amount.repr
  let ruleId := policy.procedureId ++ ":universal:refund_lte_total"
  let (findings, cited) := if orderSym < amountSym then
    (found.1 ++ [amountFinding ruleId amount orderTotal], found.2 ++ [ruleId]) else found
  let totalTerm ← libs.realVal orderTotal.repr
  let amountTerm ← libs.realVal amount.repr
  return (findings, citeRefuted moment policy.rules totalTerm amountTerm cited)

/-- `float(v)`, none where the caller catches `ValueError` and `TypeError`. -/
def floatOrNone (v : Json) : Except PyErr (Option PyFloat) :=
  match v.toPyFloat libs.tables with
  | .ok x => .ok (some x)
  | .error (.valueError _) => .ok none
  | .error (.typeError _) => .ok none
  | .error e => .error e

def verifyAmountClaims (claims : Claims) (policy : ReasoningPolicy) (state : Fields)
    (cited : List String) : Except PyErr (List Finding × List String) :=
  match claims.mentionedAmounts with
  | none => .ok ([], cited)
  | some amounts => do
    let orderTotal := stateValue state "order_total"
    if orderTotal = .null then return ([], cited)
    match ← floatOrNone libs orderTotal with
    | none => return ([], cited)
    | some orderTotal =>
      let orderSym ← libs.rational orderTotal.repr
      amounts.foldlM (verifyAmount libs moment policy orderTotal orderSym) ([], cited)

def stepFinding (ruleId description step expected : String) : Finding where
  ruleId := ruleId
  description := description
  severity := .warning
  actualValue := some step
  expectedConstraint := some expected

def verifyStepClaims (claims : Claims) (currentStep : Option String) : List Finding :=
  match currentStep with
  | none => []
  | some step => if step = "" then [] else
    (if claims.refundApproved && step ∉ ["process_refund", "cancel_order"] then
      [stepFinding "step_compliance:refund_at_wrong_step"
        ("Response claims refund approved at step '" ++ step ++
          "', but refunds should only be issued at 'process_refund' or 'cancel_order' step")
        step "process_refund or cancel_order"] else []) ++
    (if claims.storeCredit && step ∉ ["deny_refund_window", "offer_store_credit"] then
      [stepFinding "step_compliance:store_credit_at_wrong_step"
        ("Response mentions store credit at step '" ++ step ++
          "', but store credit should only be offered at 'deny_refund_window' or " ++
          "'offer_store_credit' step")
        step "deny_refund_window or offer_store_credit"] else [])

/-- One line for each error. -/
def hintLines (errors : List Finding) : String :=
  String.intercalate "\n" (errors.map fun err => match err.expectedConstraint with
    | some expected => if expected = "" then "- " ++ err.description
      else "- " ++ err.description ++ ". Expected: " ++ expected
    | none => "- " ++ err.description)

def buildRewriteHint (errors : List Finding) : String :=
  "The response contains factual errors that violate verified business rules. " ++
    "Please correct the following:\n" ++ hintLines errors

/-- The verdict on findings, with the hint of the caller. -/
def resultOf (hint : List Finding → String) (valid : String) (findings : List Finding)
    (citedRules : List String) : VerificationResult :=
  let errors := findings.filter fun f => f.severity = .error
  let warnings := findings.filter fun f => f.severity = .warning
  if !errors.isEmpty then {
    verdict := .INVALID, findings, citedRules
    explanation := "Found " ++ toString errors.length ++ " error(s): " ++
      String.intercalate "; " (errors.map Finding.description)
    rewriteHint := some (hint errors) }
  else if !warnings.isEmpty then {
    verdict := .SATISFIABLE, findings, citedRules
    explanation := "Response is plausible but has " ++ toString warnings.length ++ " warning(s)." }
  else { verdict := .VALID, findings, citedRules, explanation := valid }

def verify (responseText : String) (policy : ReasoningPolicy) (state : Fields)
    (currentStep : Option String) : Except PyErr VerificationResult := do
  if policy.rules.isEmpty then
    return {
      verdict := .NOT_APPLICABLE
      explanation := "No reasoning rules available for this procedure." }
  let claims ← Claims.extractClaims libs.tables responseText
  if claims.none? then
    return {
      verdict := .NOT_APPLICABLE
      explanation := "No verifiable claims found in the response." }
  let (eligibility, cited) ← verifyEligibilityClaims libs moment claims policy state
  let (amounts, cited) ← verifyAmountClaims libs moment claims policy state cited
  return resultOf buildRewriteHint "All claims verified against formal rules."
    (eligibility ++ amounts ++ verifyStepClaims claims currentStep) cited

end ReasoningEngine

end WorkflowEngine
