import Mathlib.Data.Fintype.Basic
import WorkflowEngine.Relational.Table
import WorkflowEngine.Spec.Json

/-! The records of the case, fact and action kernel (`core/kernel.py`) and the
tables of its SQLite adapter. JSON columns hold the value they encode. -/

namespace WorkflowEngine

open Relational

/-- An instant in microseconds. ISO timestamps in UTC are compared as instants. -/
abbrev Time := ℤ

def seconds (n : ℤ) : Time := n * 1000000

/-- From `datetime.min` to `datetime.max`, counted from the epoch. -/
def Time.IsDatetime (t : Time) : Prop := seconds (-62135596800) ≤ t ∧ t < seconds 253402300800

instance : DecidablePred Time.IsDatetime := fun _ => inferInstanceAs (Decidable (_ ∧ _))

inductive PyErr where
  | valueError (message : String)
  | keyError (key : String)
  | typeError (message : String)
  | assertionError
  | integrityError
  | validationError (model : String)
  | caseConflict (message : String)
  | actionConflict (message : String)
  | other (typeName : String)
  deriving DecidableEq, Repr

/-- `type(exc).__name__` -/
def PyErr.typeName : PyErr → String
  | .valueError _ => "ValueError"
  | .keyError _ => "KeyError"
  | .typeError _ => "TypeError"
  | .assertionError => "AssertionError"
  | .integrityError => "IntegrityError"
  | .validationError _ => "ValidationError"
  | .caseConflict _ => "CaseConflict"
  | .actionConflict _ => "ActionConflict"
  | .other n => n

/-- The values of an `INTEGER` column. -/
abbrev SqlInteger := {n : ℤ // -(2 ^ 63) ≤ n ∧ n < 2 ^ 63}

/-- Binding a Python integer. -/
def sqlInteger (n : ℤ) : Except PyErr SqlInteger :=
  if h : -(2 ^ 63) ≤ n ∧ n < 2 ^ 63 then .ok ⟨n, h⟩ else .error (.other "OverflowError")

theorem sqlInteger_of_fits {n : ℤ} (h : -(2 ^ 63) ≤ n ∧ n < 2 ^ 63) : sqlInteger n = .ok ⟨n, h⟩ :=
  dif_pos h

theorem sqlInteger_overflow {n : ℤ} (h : ¬ (-(2 ^ 63) ≤ n ∧ n < 2 ^ 63)) :
    sqlInteger n = .error (.other "OverflowError") := dif_neg h

/-- `t + timedelta(seconds=n)` -/
def plusSeconds (t : Time) (n : ℤ) : Except PyErr Time :=
  if Time.IsDatetime (t + seconds n) then .ok (t + seconds n) else .error (.other "OverflowError")

theorem plusSeconds_of_datetime {t : Time} {n : ℤ} (h : Time.IsDatetime (t + seconds n)) :
    plusSeconds t n = .ok (t + seconds n) := if_pos h

theorem plusSeconds_overflow {t : Time} {n : ℤ} (h : ¬ Time.IsDatetime (t + seconds n)) :
    plusSeconds t n = .error (.other "OverflowError") := if_neg h

/-- The driver's part in a binding: the text that SQLite makes of a `REAL`, and which strings have
an encoding. A Python string with a lone surrogate has none. -/
structure TextBinding where
  realText : ℤ → ℤ → String := Json.floatRepr
  encodes : String → Bool := fun _ => true

/-- A value that is bound where the column is `TEXT`; none is `NULL`. -/
def sqlText (binding : TextBinding) : Json → Except PyErr (Option String)
  | .null => .ok none
  | .str s => if binding.encodes s then .ok (some s) else .error (.other "UnicodeEncodeError")
  | .bool b => .ok (some (if b then "1" else "0"))
  | .int n => (sqlInteger n).map fun n => some (toString n.1)
  | .float m e => .ok (some (binding.realText m e))
  | _ => .error (.other "ProgrammingError")

inductive FactAuthority where
  | asserted | observed | verified | derived
  deriving DecidableEq, Repr

/-- `_AUTHORITY_RANK` -/
def FactAuthority.rank : FactAuthority → ℕ
  | .asserted => 0
  | .observed => 1
  | .derived => 1
  | .verified => 2

theorem FactAuthority.verified_of_rank {a : FactAuthority} (h : verified.rank ≤ a.rank) :
    a = .verified := by
  cases a <;> simp [rank] at h ⊢

inductive ActionStatus where
  | requested | authorized | dispatched | succeeded | failed | unknown | reconciled
  deriving DecidableEq, Repr

def ActionStatus.value : ActionStatus → String
  | .requested => "requested"
  | .authorized => "authorized"
  | .dispatched => "dispatched"
  | .succeeded => "succeeded"
  | .failed => "failed"
  | .unknown => "unknown"
  | .reconciled => "reconciled"

inductive ActionProposalStatus where
  | pending | confirmed | cancelled | expired
  deriving DecidableEq, Repr

def ActionProposalStatus.value : ActionProposalStatus → String
  | .pending => "pending"
  | .confirmed => "confirmed"
  | .cancelled => "cancelled"
  | .expired => "expired"

inductive OutboxStatus where
  | pending | leased | delivered | failed | quarantined
  deriving DecidableEq, Repr

structure CaseRecord where
  caseId : String
  customerId : String
  procedureId : String
  procedureVersion : String
  status : String
  version : ℤ
  deriving DecidableEq, Repr

structure FactProposal where
  name : String
  value : Json
  authority : FactAuthority
  source : String
  evidenceRef : String
  expiresAt : Option Time := none
  deriving DecidableEq

structure FactRecord extends FactProposal where
  caseId : String
  committedAt : Time
  supersededAt : Option Time := none
  deriving DecidableEq

structure ActionCommand where
  action : String
  caseId : String
  policyPackageId : String
  actorId : String
  idempotencyKey : String
  parameters : Fields
  parameterFactRefs : List (String × String)
  requiredFactAuthority : List (String × FactAuthority)
  consentEvidenceRef : Option String := none
  approvalEvidenceRef : Option String := none
  policyActivationSignature : Option String := none
  connectorBindingId : Option String := none
  connectorBindingVersion : Option String := none
  contractVersion : Option String := none
  keyMin : 4 ≤ idempotencyKey.length
  deriving DecidableEq

-- the keys of the commands in the examples
theorem keyMin_one : 4 ≤ "key-1".length := by decide

theorem keyMin_two : 4 ≤ "key-2".length := by decide

theorem keyMax_one : "key-1".length ≤ 300 := by decide

/-- Equality of dicts whose values are compared by `==`. -/
def dictEq {α : Type} [DecidableEq α] (d d' : List (String × α)) : Bool :=
  d.length == d'.length && d.all fun kv => d'.lookup kv.1 == some kv.2

/-- Pydantic models are equal when their fields are. -/
def ActionCommand.pyEq (a b : ActionCommand) : Bool :=
  a.action == b.action && a.caseId == b.caseId && a.policyPackageId == b.policyPackageId &&
  a.actorId == b.actorId && a.idempotencyKey == b.idempotencyKey &&
  a.parameters.pyEq b.parameters && dictEq a.parameterFactRefs b.parameterFactRefs &&
  dictEq a.requiredFactAuthority b.requiredFactAuthority &&
  a.consentEvidenceRef == b.consentEvidenceRef &&
  a.approvalEvidenceRef == b.approvalEvidenceRef &&
  a.policyActivationSignature == b.policyActivationSignature &&
  a.connectorBindingId == b.connectorBindingId &&
  a.connectorBindingVersion == b.connectorBindingVersion &&
  a.contractVersion == b.contractVersion

/-- Also a row of `action_attempts`: its `idempotency_key` and `case_id` columns are copied
from the command on insertion and never assigned again. -/
structure ActionRecord where
  actionId : String
  command : ActionCommand
  status : ActionStatus
  outcome : Option Fields := none
  createdAt : Time
  updatedAt : Time
  deriving DecidableEq

structure ActionEvent where
  eventId : String
  actionId : String
  status : ActionStatus
  details : Option Fields
  recordedAt : Time
  deriving DecidableEq

structure ActionProposal where
  proposalId : String
  action : String
  payload : Fields
  caseId : String
  customerId : String
  actorId : String
  procedureId : String
  procedureVersion : String
  policyPackageId : String
  idempotencyKey : String
  resourceType : Option String := none
  resourceId : Option String := none
  resourceVersion : Option ℤ := none
  conversationId : Option String := none
  messageId : Option String := none
  connectorBindingId : Option String := none
  connectorBindingVersion : Option String := none
  contractVersion : Option String := none
  preview : Fields := []
  status : ActionProposalStatus
  confirmationEvidenceRef : Option String := none
  actionId : Option String := none
  createdAt : Time
  expiresAt : Time
  updatedAt : Time
  confirmedAt : Option Time := none
  cancelledAt : Option Time := none
  deriving DecidableEq

structure OutboxRecord where
  outboxId : String
  topic : String
  aggregateId : String
  payload : Fields
  status : OutboxStatus
  attempts : ℕ := 0
  availableAt : Time
  leaseOwner : Option String := none
  leaseUntil : Option Time := none
  lastError : Option String := none
  createdAt : Time
  updatedAt : Time
  deriving DecidableEq

/-- The unique columns of `action_attempts`. -/
inductive ActionColumn where
  | id | key
  deriving DecidableEq

instance : Fintype ActionColumn :=
  ⟨⟨[ActionColumn.id, ActionColumn.key], by decide⟩, fun i => by cases i <;> decide⟩

def ActionColumn.of : ActionColumn → ActionRecord → String
  | .id, a => a.actionId
  | .key, a => a.command.idempotencyKey

structure Db where
  migrations : List String
  cases : Table Unit String fun _ => CaseRecord.caseId
  facts : Table Unit (String × String) fun _ (f : FactRecord) => (f.caseId, f.name)
  actions : Table ActionColumn String ActionColumn.of
  events : Table Unit String fun _ => ActionEvent.eventId
  proposals : Table Unit String fun _ => ActionProposal.proposalId
  outbox : Table Unit String fun _ => OutboxRecord.outboxId

namespace Db

def empty : Db := ⟨[], .empty, .empty, .empty, .empty, .empty, .empty⟩

def case? (db : Db) (caseId : String) : Option CaseRecord := db.cases.get? () caseId

def fact? (db : Db) (caseId name : String) : Option FactRecord := db.facts.get? () (caseId, name)

def action? (db : Db) (actionId : String) : Option ActionRecord := db.actions.get? .id actionId

def actionByKey? (db : Db) (key : String) : Option ActionRecord := db.actions.get? .key key

def proposal? (db : Db) (proposalId : String) : Option ActionProposal :=
  db.proposals.get? () proposalId

def outbox? (db : Db) (outboxId : String) : Option OutboxRecord := db.outbox.get? () outboxId

/-- The events of one action in rowid order. -/
def eventsOf (db : Db) (actionId : String) : List ActionEvent :=
  db.events.rows.filter fun e => e.actionId = actionId

end Db
end WorkflowEngine
