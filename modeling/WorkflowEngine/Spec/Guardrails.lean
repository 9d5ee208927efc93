import WorkflowEngine.Regex.Classes

/-! The pattern rails of agents/guardrails.py: what may not stand in a response, and its
redaction. -/

namespace WorkflowEngine

open Regex

inductive GuardrailSeverity where
  | warning
  | block
  | redact
  deriving DecidableEq, Repr

structure GuardrailViolation where
  rule : String
  description : String
  severity : GuardrailSeverity
  deriving DecidableEq, Repr

structure GuardrailRule where
  pattern : Pattern
  rule : String
  description : String

namespace Guardrails

variable (tables : Tables)

/-- `[_ ]?` -/
def separator : Pattern := .opt (.char fun c => c = '_' || c = ' ')

/-- `_INTERNAL_DATA_PATTERNS` -/
def internalDataPatterns : List GuardrailRule := [
  ⟨.seqs [.boundary, .seqs [.text "step", separator, .text "id"], .boundary, .lazily .dot,
      .char (· = ':')],
    "internal_step_id", "Agent is exposing internal step IDs"⟩,
  ⟨.seqs [.boundary, .seqs [.text "procedure", separator, .text "id"], .boundary, .lazily .dot,
      .char (· = ':')],
    "internal_procedure_id", "Agent is exposing internal procedure IDs"⟩,
  ⟨.seqs [.boundary, .group 1 (.choice [.text "sql", .text "query", .text "database",
      .text "db_path", .text "sqlite"]), .boundary],
    "internal_db_reference", "Agent is referencing internal database details"⟩,
  ⟨.seqs [.boundary, .text "tool_context", .boundary],
    "internal_tool_context", "Agent is referencing internal tool context"⟩,
  ⟨.seqs [.boundary, .seqs [.text "session", separator, .text "state"], .boundary],
    "internal_session_state", "Agent is referencing session state internals"⟩,
  ⟨.seqs [.boundary, .group 1 (.choice [.text "api_key", .text "secret_key", .text "password",
      .text "credential"]), .boundary],
    "sensitive_credential", "Agent is mentioning credentials"⟩]

/-- `\s+` -/
def spaces : Pattern := .many1 (.char tables.isSpace)

/-- `_UNAUTHORIZED_PROMISE_PATTERNS` -/
def unauthorizedPromisePatterns : List GuardrailRule := [
  ⟨.seqs [.boundary, .text "i", spaces tables, .choice [.text "guarantee", .text "promise",
      .text "assure"], spaces tables, .choice [.text "you", .text "that"]],
    "unauthorized_promise", "Agent is making unauthorized guarantees"⟩,
  ⟨.seqs [.boundary, .text "100%", spaces tables, .choice [.text "guaranteed", .text "certain",
      .text "sure"], .boundary],
    "false_certainty", "Agent is expressing false certainty"⟩]

/-- `_COMPLIANCE_PATTERNS` -/
def compliancePatterns : List GuardrailRule := [
  ⟨.seqs [.boundary, .choice [.text "legal", .text "financial"], spaces tables, .text "advice",
      .boundary],
    "unauthorized_advice", "Agent may be providing unauthorized financial/legal advice"⟩,
  ⟨.seqs [.boundary, .choice [.seqs [.text "you", spaces tables, .text "should"],
      .seqs [.text "i", spaces tables, .text "recommend"]], spaces tables,
      .choice [.text "invest", .seqs [.text "buy", spaces tables, .text "stock"],
        .seqs [.text "sell", spaces tables, .text "stock"]]],
    "investment_advice", "Agent is providing investment advice"⟩]

/-- The violations of the rules whose pattern is found. -/
def violationsOf (rules : List GuardrailRule) (severity : GuardrailSeverity) (text : String) :
    List GuardrailViolation :=
  (rules.filter fun r => r.pattern.found tables.isWord [] text.toList).map
    fun r => ⟨r.rule, r.description, severity⟩

def checkResponse (text : String) : List GuardrailViolation :=
  violationsOf tables internalDataPatterns .redact text ++
    violationsOf tables (unauthorizedPromisePatterns tables) .warning text ++
      violationsOf tables (compliancePatterns tables) .warning text

def redactedMark : List Char := "[REDACTED]".toList

/-- Every pattern of that rule is replaced. -/
def redactRule (rule : String) (text : List Char) : List Char :=
  internalDataPatterns.foldl (fun filtered r =>
    if r.rule = rule then r.pattern.sub tables.isWord redactedMark filtered else filtered) text

def redactViolation (filtered : List Char) (v : GuardrailViolation) : List Char :=
  if v.severity = .redact then redactRule tables v.rule filtered else filtered

def filterResponse (text : String) : String × List GuardrailViolation :=
  (String.ofList ((checkResponse tables text).foldl (redactViolation tables) text.toList),
    checkResponse tables text)

end Guardrails

end WorkflowEngine
