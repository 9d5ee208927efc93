import WorkflowEngine.Spec.Guardrails
import WorkflowEngine.Spec.Reasoning

/-! The compliance rails (`agents/compliance.py`). -/

namespace WorkflowEngine

open Regex

structure ComplianceViolation where
  ruleId : String
  description : String
  severity : FindingSeverity
  actualValue : Option String := none
  expected : Option String := none
  deriving DecidableEq, Repr

namespace ComplianceChecker

variable (libs : ReasoningLibs)

local instance lawfulStep : LawfulBEq (Option String) := inferInstance

def spaces : Pattern := .many1 (.char libs.tables.isSpace)

def spaces? : Pattern := .many (.char libs.tables.isSpace)

def digit : Pattern := .char libs.tables.isDigit

def wordChars : Pattern := .many1 (.char libs.tables.isWord)

/-- `\b(?:r|s|…)\b` -/
def anyWord (rs : List Pattern) : Pattern := .seqs [.boundary, .choice rs, .boundary]

/-- `\$\s?[\d,]+\.?\d*` -/
def creditAmount : Pattern := .seqs [.char (· = '$'), .opt (.char libs.tables.isSpace),
  .many1 (Claims.digitOrComma libs.tables), .opt (.char (· = '.')), .many (digit libs)]

/-- `business\s+` -/
def business : Pattern := .seqs [.text "business", spaces libs]

def days : Pattern := .seqs [.text "day", .opt (.text "s")]

/-- `number|#|no` -/
def numberSign : List Pattern := [.text "number", .char (· = '#'), .text "no"]

/-- `_REQUIRED_DISCLOSURES` -/
def requiredDisclosures : List (String × List (String × Pattern)) := [
  ("process_refund", [
    ("timeline_disclosure", .seqs [.boundary, .many1 (digit libs),
      .many1 (.char fun c => libs.tables.isSpace c || c = '-'), .many (digit libs), spaces? libs,
      .opt (business libs), days, .boundary]),
    ("reference_number_disclosure", .seqs [.boundary,
      .choice [.text "reference", .text "ref", .text "confirmation"], spaces? libs,
      .opt (.choice numberSign), .boundary])]),
  ("offer_store_credit", [("credit_amount_disclosure", creditAmount libs)]),
  ("escalate_case", [
    ("case_reference_disclosure", .seqs [.boundary,
      .choice [.text "case", .text "reference", .text "ticket"], spaces? libs,
      .opt (.choice (numberSign ++ [.text "id"])), .boundary])]),
  ("file_dispute", [
    ("dispute_reference_number", .seqs [.boundary,
      .choice [.text "dispute", .text "reference", .text "ref", .text "confirmation"],
      spaces? libs, .opt (.choice (numberSign ++ [.text "id"])), spaces? libs,
      .opt (.char fun c => c = ':' || c = '.'), spaces? libs,
      .choice [.seqs [.text "disp", .opt (.char fun c => c = '-' || libs.tables.isSpace c),
          wordChars libs],
        .seqs [wordChars libs, .char (· = '-'), wordChars libs]]]),
    ("investigation_timeline", anyWord [.seqs [.text "10", spaces libs, .text "business",
        spaces libs, days],
      .seqs [.text "investigate", spaces libs, .text "within"]]),
    ("provisional_credit_notice",
      .seqs [.boundary, .choice [.text "provisional", .text "temporary"],
      spaces libs, .text "credit", .boundary]),
    ("written_acknowledgment", anyWord [.seqs [.text "written", spaces libs,
        .choice [.text "acknowledgment", .text "confirmation"]],
      .seqs [.text "1", spaces libs, .text "business", spaces libs, .text "day"]])]),
  ("assess_provisional_credit", [
    ("credit_amount_disclosure", creditAmount libs),
    ("credit_condition_disclosure",
      anyWord [.text "unless", .text "until", .text "remain", .text "investigation"])]),
  ("close_dispute", [
    ("dispute_summary", anyWord [.text "dispute", .text "filed", .text "reference"]),
    ("next_steps_disclosure", anyWord [.seqs [.text "next", spaces libs, .text "step",
        .opt (.text "s")], .text "investigation", .seqs [.text "result", .opt (.text "s")],
      .text "monitor"])]),
  ("deny_late_dispute", [
    ("timeframe_explanation", anyWord [.seqs [.text "60", spaces libs, days], .text "timeframe",
      .text "window", .text "regulation"]),
    ("alternative_options", anyWord [.text "alternative", .text "option", .text "courtesy",
      .text "escalat", .text "supervisor"])])]

/-- `_PROHIBITED_PATTERNS` -/
def prohibitedPatterns : List (String × Pattern × String) := [
  ("no_investment_advice", .seqs [.boundary,
      .choice [.seqs [.text "you", spaces libs, .text "should"],
        .seqs [.text "i", spaces libs, .text "recommend"]], spaces libs,
      .choice [.text "invest", .seqs [.text "buy", spaces libs, .text "stock"],
        .seqs [.text "sell", spaces libs, .text "stock"]]],
    "Response contains investment advice"),
  ("no_legal_advice", .seqs [.boundary, .text "you", spaces libs,
      .choice [.text "should", .text "could"], spaces libs,
      .choice [.text "sue", .seqs [.text "file", spaces libs, .text "a", spaces libs,
          .text "lawsuit"],
        .seqs [.text "take", spaces libs, .text "legal", spaces libs, .text "action"]], .boundary],
    "Response contains legal advice"),
  ("no_competitor_referral", .seqs [.boundary,
      .choice [.text "try", .text "use", .seqs [.text "switch", spaces libs, .text "to"]],
      spaces libs, .opt (.seqs [.text "our", spaces libs]), .text "competitor"],
    "Response refers customer to competitor")]

def tierExposurePattern : Pattern := anyWord [
  .seqs [.text "tier", spaces? libs, .char fun c => c ∈ ['1', '2', '3']],
  .seqs [.text "liability", spaces libs, .text "tier"],
  .seqs [.text "tier_", .char fun c => c ∈ ['1', '2', '3']]]

def wrongTimelinePattern : Pattern := .seqs [.boundary,
  .choice [.text "30", .text "60", .text "90"], spaces libs, .text "business", spaces libs, days,
  .boundary]

def found (r : Pattern) (response : String) : Bool :=
  r.found libs.tables.isWord [] response.toList

def exceedsTotal (amount orderTotal : PyFloat) : ComplianceViolation where
  ruleId := "financial:amount_exceeds_total"
  description :=
    "Mentioned amount $" ++ amount.fixed2 ++ " exceeds order total $" ++ orderTotal.fixed2
  severity := .error
  actualValue := some ("$" ++ amount.fixed2)
  expected := some ("<= $" ++ orderTotal.fixed2)

def nonPositive (amount : PyFloat) : ComplianceViolation where
  ruleId := "financial:non_positive_amount"
  description := "Mentioned amount $" ++ amount.fixed2 ++ " is not positive"
  severity := .error
  actualValue := some ("$" ++ amount.fixed2)
  expected := some "> $0.00"

def checkAmount (orderTotal : PyFloat) (orderSym : ℚ) (amountStr : List Char) :
    Except PyErr (List ComplianceViolation) := do
  let amount ← Claims.amountOf libs.tables amountStr
  let amountSym ← libs.rational amount.repr
  return (if orderSym < amountSym then [exceedsTotal amount orderTotal] else []) ++
    (if amountSym ≤ 0 then [nonPositive amount] else [])

def checkFinancialCompliance (response : String) (state : Fields) :
    Except PyErr (List ComplianceViolation) := do
  let amounts := Claims.amountTexts libs.tables response
  if amounts.isEmpty then return []
  let orderTotal := ReasoningEngine.stateValue state "order_total"
  if orderTotal = .null then return []
  match ← ReasoningEngine.floatOrNone libs orderTotal with
  | none => return []
  | some orderTotal =>
    let orderSym ← libs.rational orderTotal.repr
    return (← amounts.mapM (checkAmount libs orderTotal orderSym)).flatten

/-- The liability and the disputed amount, none where one of them is no number. -/
def liabilityAndAmount (maxLiability disputedAmount : Json) :
    Except PyErr (Option (PyFloat × PyFloat)) := do
  match ← ReasoningEngine.floatOrNone libs maxLiability with
  | none => return none
  | some liability =>
    match ← ReasoningEngine.floatOrNone libs disputedAmount with
    | none => return none
    | some disputed => return some (liability, disputed)

def checkProvisional (currentStep : Option String) (disputed : PyFloat) (amountStr : List Char) :
    Except PyErr (List ComplianceViolation) := do
  let amount ← Claims.amountOf libs.tables amountStr
  let amountSym ← libs.rational amount.repr
  let disputedSym ← libs.rational disputed.repr
  if currentStep = some "assess_provisional_credit" ∧ disputedSym < amountSym then
    return [{
      ruleId := "reg_e:provisional_credit_exceeds_dispute"
      description := "Provisional credit $" ++ amount.fixed2 ++ " exceeds disputed amount $" ++
        disputed.fixed2
      severity := .error
      actualValue := some ("$" ++ amount.fixed2)
      expected := some ("<= $" ++ disputed.fixed2) }]
  else return []

/-- `max(0, x)`, which is the integer where `x` is not positive. -/
structure Credit where
  repr : String
  fixed2 : String

def expectedCredit (disputed liability : PyFloat) : Credit :=
  let x := disputed.sub liability
  if x.positive then ⟨x.repr, x.fixed2⟩ else ⟨"0", "0.00"⟩

/-- `f"\x7bv:.2f\x7d"` -/
def format2 : Json → Except PyErr String
  | .str _ => .error (.valueError "Unknown format code 'f' for object of type 'str'")
  | v => v.toFloat.map fun x => (PyFloat.finite x.1 x.2).fixed2

/-- `str(v)`; an integer may have too many digits. -/
def strOf : Json → Except PyErr String
  | .int n => if intMaxStrDigits < (toString n.natAbs).length then
      .error (.valueError ("Exceeds the limit (4300 digits) for integer string conversion; " ++
        "use sys.set_int_max_str_digits() to increase the limit"))
    else .ok (toString n)
  | v => .ok v.pyStr

def checkIssuedCredit (disputed liability : PyFloat) (provCredit : Json) :
    Except PyErr (List ComplianceViolation) := do
  if !provCredit.truthy then return []
  if !(← provCredit.getOr "provisional_credit_issued" .null).truthy then return []
  let expected := expectedCredit disputed liability
  let actual ← provCredit.getOr "provisional_credit_amount" (.int 0)
  let expectedSym ← libs.rational expected.repr
  let actualSym ← libs.rational (← strOf actual)
  if actualSym = expectedSym then return []
  let shown ← format2 actual
  return [{
    ruleId := "reg_e:provisional_credit_miscalculated"
    description := "Provisional credit $" ++ shown ++ " != disputed $" ++ disputed.fixed2 ++
      " - liability $" ++ liability.fixed2 ++ " = $" ++ expected.fixed2
    severity := .error
    actualValue := some ("$" ++ shown)
    expected := some ("$" ++ expected.fixed2) }]

def checkLiability (response : String) (state : Fields) (currentStep : Option String)
    (maxLiability disputedAmount : Json) : Except PyErr (List ComplianceViolation) := do
  if maxLiability = .null ∨ disputedAmount = .null then return []
  match ← liabilityAndAmount libs maxLiability disputedAmount with
  | none => return []
  | some (liability, disputed) =>
    let provisional ← (Claims.amountTexts libs.tables response).mapM
      (checkProvisional libs currentStep disputed)
    let issued ← checkIssuedCredit libs disputed liability
      ((state.get? "provisional_credit").getD (.dict []))
    return provisional.flatten ++ issued

/-- `a.get("max_liability") or b.get("max_liability")` -/
def maxLiabilityOf (eligibility disputeData : Json) : Except PyErr Json := do
  let own ← eligibility.getOr "max_liability" .null
  if own.truthy then return own
  disputeData.getOr "max_liability" .null

def checkRegECompliance (response : String) (state : Fields) (currentStep : Option String) :
    Except PyErr (List ComplianceViolation) := do
  let disputeData := (state.get? "dispute_data").getD (.dict [])
  let eligibility := (state.get? "dispute_eligibility").getD (.dict [])
  if !disputeData.truthy && !eligibility.truthy then return []
  let maxLiability ← maxLiabilityOf eligibility disputeData
  let disputedAmount ← disputeData.getOr "amount" .null
  let liability ← checkLiability libs response state currentStep maxLiability disputedAmount
  return liability ++
    (if found libs (tierExposurePattern libs) response then [{
      ruleId := "reg_e:internal_tier_exposed"
      description := "Response exposes internal liability tier system to customer"
      severity := .error }] else []) ++
    (if currentStep ∈ [some "file_dispute", some "close_dispute"] ∧
        found libs (wrongTimelinePattern libs) response then [{
      ruleId := "reg_e:incorrect_timeline_units"
      description := "Investigation timeline uses wrong units. " ++
        "10 business days for initial; 45/90 calendar days for final."
      severity := .warning }] else [])

def missingDisclosure (step disclosureId : String) : ComplianceViolation where
  ruleId := "disclosure:" ++ disclosureId
  description := "Required disclosure '" ++ disclosureId ++ "' missing at step '" ++ step ++ "'"
  severity := .warning
  expected := some ("Disclosure pattern: " ++ disclosureId)

def checkProcedureCompliance (response : String) (currentStep : Option String) :
    List ComplianceViolation :=
  let step := currentStep.getD ""
  let disclosures := ((requiredDisclosures libs).lookup step).getD []
  ((disclosures.filter fun d => !found libs d.2 response).map fun d =>
    missingDisclosure step d.1) ++
    ((prohibitedPatterns libs).filter fun p => found libs p.2.1 response).map fun p => {
      ruleId := "prohibited:" ++ p.1, description := p.2.2, severity := .error }

def checkAll (response : String) (state : Fields) (currentStep procedureId : Option String) :
    Except PyErr (List ComplianceViolation) := do
  let financial ← checkFinancialCompliance libs response state
  let procedural := checkProcedureCompliance libs response currentStep
  if procedureId = some "cs_eft_dispute" ∨
      (ReasoningEngine.stateValue state "dispute_data").truthy ∨
      (ReasoningEngine.stateValue state "dispute_eligibility").truthy then
    return financial ++ procedural ++ (← checkRegECompliance libs response state currentStep)
  return financial ++ procedural

end ComplianceChecker

end WorkflowEngine
