import WorkflowEngine.Spec.Conversation
import WorkflowEngine.Spec.Domains
import WorkflowEngine.Spec.Engine

/-! `DatabaseRefundConnector` (`core/connectors.py`) over the tables of the application
database, the migration of `refunds` in `init_db`, and an engine that has the connector
behind its actions. Each repository call is one transaction. -/

namespace WorkflowEngine

open Interleave Relational

/-- The columns of `orders` that the connector reads. -/
structure Order where
  orderId : String
  customerId : String
  total : ℤ × ℤ
  status : String
  daysSinceDelivery : Option ℤ
  paymentMethod : Option String

structure RefundRecord where
  refundId : Option String
  orderId : String
  amount : ℤ × ℤ
  currency : Option String
  status : Option String
  reason : Option String
  refundMethod : Option String
  estimatedDays : Option String
  processedAt : String

namespace RefundRecord

def text (v : Option String) : Json := (v.map Json.str).getD .null

/-- The row as a `dict`. -/
def fields (r : RefundRecord) : Fields :=
  [("refund_id", text r.refundId), ("order_id", .str r.orderId),
    ("amount", .float r.amount.1 r.amount.2), ("currency", text r.currency),
    ("status", text r.status), ("reason", text r.reason), ("refund_method", text r.refundMethod),
    ("estimated_days", text r.estimatedDays), ("processed_at", .str r.processedAt)]

/-- A primary key of text may be `NULL`, in any number of rows. -/
def OtherKey (r r' : RefundRecord) : Prop := r.refundId = none ∨ r.refundId ≠ r'.refundId

instance (r r' : RefundRecord) : Decidable (r.OtherKey r') := inferInstanceAs (Decidable (_ ∨ _))

/-- The rows whose rowid is the least of their order. -/
def earliest : List RefundRecord → List RefundRecord
  | [] => []
  | r :: rows => r :: (earliest rows).filter fun r' => r'.orderId ≠ r.orderId

theorem earliest_sublist (rows : List RefundRecord) : (earliest rows).Sublist rows := by
  induction rows with
  | nil => exact .slnil
  | cons r rows ih => exact (List.filter_sublist.trans ih).cons_cons r

theorem earliest_pairwise (rows : List RefundRecord) :
    (earliest rows).Pairwise fun r r' => r.orderId ≠ r'.orderId := by
  induction rows with
  | nil => exact .nil
  | cons r rows ih =>
    refine List.pairwise_cons.2 ⟨fun r' hr' => ?_, ih.filter _⟩
    exact (of_decide_eq_true (List.mem_filter.1 hr').2).symm

end RefundRecord

/-- `refunds`, in the order of the rowids; `indexed` says that `idx_refunds_order` exists. -/
structure Refunds where
  rows : List RefundRecord
  indexed : Bool
  key : rows.Pairwise RefundRecord.OtherKey
  unique : indexed = true → rows.Pairwise fun r r' => r.orderId ≠ r'.orderId

namespace Refunds

/-- The refunds of `init_db`: one row for each order is kept, then the index is created. -/
def initDb (t : Refunds) : Refunds where
  rows := RefundRecord.earliest t.rows
  indexed := true
  key := t.key.sublist (RefundRecord.earliest_sublist t.rows)
  unique _ := RefundRecord.earliest_pairwise t.rows

/-- `INSERT INTO refunds`; none when a unique column is taken. -/
def insert? (t : Refunds) (row : RefundRecord) : Option Refunds :=
  if h : (∀ r ∈ t.rows, r.OtherKey row) ∧
      (t.indexed = true → ∀ r ∈ t.rows, r.orderId ≠ row.orderId) then
    some {
      rows := t.rows ++ [row]
      indexed := t.indexed
      key := List.pairwise_append.2 ⟨t.key, List.pairwise_singleton _ _, by
        simpa using h.1⟩
      unique := fun hi => List.pairwise_append.2 ⟨t.unique hi, List.pairwise_singleton _ _, by
        simpa using h.2 hi⟩ }
  else none

def getByOrder (t : Refunds) (orderId : Option String) : Option RefundRecord :=
  t.rows.find? fun r => orderId = some r.orderId

end Refunds

/-- The application database: `customers` is joined for its ids. -/
structure AppDb where
  orders : Table Unit String fun _ => Order.orderId
  customers : List String
  refunds : Refunds

namespace AppDb

/-- `OrderRepository.get_by_id`; `NULL` equals nothing. -/
def order? (db : AppDb) (orderId : Option String) : Option Order :=
  (orderId.bind (db.orders.get? ())).filter fun order => decide (order.customerId ∈ db.customers)

def initDb (db : AppDb) : AppDb := { db with refunds := db.refunds.initDb }

end AppDb

inductive RefundOp where
  | order (orderId : Option String)
  | refundByOrder (orderId : Option String)
  | now
  | createRefund (row : RefundRecord)

/-- The repository calls of the connector, beside the operations of `Y`. -/
abbrev refundSig : Sig where
  Op := RefundOp
  Res
    | .order _ => Option Order
    | .refundByOrder _ => Option RefundRecord
    | .now => String
    | .createRefund _ => Except PyErr Unit

/-- What others do to the application database: `init_db` runs again, or orders change. -/
inductive AppChange where
  | none
  | initDb
  | orders (orders : Table Unit String fun _ => Order.orderId) (customers : List String)

def AppChange.apply (db : AppDb) : AppChange → AppDb
  | .none => db
  | .initDb => db.initDb
  | .orders table customers => { db with orders := table, customers := customers }

section
variable {Y : Sig}

structure RefundChoice (V : World Y) where
  now : String
  change : AppChange
  rest : V.Choice

def World.refunding (V : World Y) : World (refundSig.sum Y) where
  State := AppDb × V.State
  Choice := RefundChoice V
  exec e s
    | .inl (.order orderId) => (s.1.order? orderId, s)
    | .inl (.refundByOrder orderId) => (s.1.refunds.getByOrder orderId, s)
    | .inl .now => (e.now, s)
    | .inl (.createRefund row) => match s.1.refunds.insert? row with
      | some refunds => (.ok (), { s.1 with refunds }, s.2)
      | none => (.error .integrityError, s)
    | .inr o => ((V.exec e.rest s.2 o).1, s.1, (V.exec e.rest s.2 o).2)
  drift e s := (e.change.apply s.1, V.drift e.rest s.2)

/-- The connector; `hexdigest` is that of SHA-256. -/
structure DatabaseRefundConnector where
  hexdigest : String → String
  binding : TextBinding := {}

namespace DatabaseRefundConnector

variable (database : DatabaseRefundConnector)

/-- A value that is bound where the column is `TEXT`; none is `NULL`. -/
def bindText : Json → Except PyErr (Option String) := sqlText database.binding

/-- `command.parameters[name]` -/
def parameter (command : ActionCommand) (name : String) : Except PyErr Json :=
  match command.parameters.get? name with
  | some v => .ok v
  | none => .error (.keyError name)

/-- The order that the command names, as it is bound. -/
def orderKey (command : ActionCommand) : Except PyErr (Option String) :=
  (parameter command "order_id").bind database.bindText

def perform (o : RefundOp) : Prog (refundSig.sum Y) PyErr (refundSig.Res o) :=
  Prog.perform (S := refundSig.sum Y) (.inl o)

def refundId (key : String) : String :=
  "REF-" ++ String.ofList (((database.hexdigest key).toList.take 16).map Char.toUpper)

/-- `RefundRepository.create`; `order_id` is `NOT NULL`. -/
def create (refundId : String) (orderId : Option String) (amount : ℤ × ℤ)
    (reason : Option String) (refundMethod processedAt : String) :
    Prog (refundSig.sum Y) PyErr Unit := do
  match orderId with
  | none => throw .integrityError
  | some orderId =>
    Prog.ofExcept (← perform (.createRefund {
      refundId := some refundId, orderId, amount, currency := some "USD",
      status := some "processed", reason, refundMethod := some refundMethod,
      estimatedDays := some "5-7 business days", processedAt }))

/-- `x or y` for a column of text -/
def textOr (v : Option String) (default : String) : String :=
  match v.getD "" with
  | "" => default
  | s => s

def failed (reason : String) : ConnectorOutcome := ⟨.failed, [("reason", .str reason)]⟩

def dispatch (command : ActionCommand) : Prog (refundSig.sum Y) PyErr ConnectorOutcome := do
  let orderId ← Prog.ofExcept (parameter command "order_id")
  let key ← Prog.ofExcept (database.bindText orderId)
  match ← perform (.order key) with
  | none => return failed "order_not_found"
  | some order =>
    let customerId ← Prog.ofExcept (parameter command "customer_id")
    let decision := ({} : RefundDecisionService).evaluate orderId.pyStr customerId
      (.str order.customerId) order.status (order.daysSinceDelivery.getD 0) order.total
    if !decision.eligible then return failed decision.reason
    else
      let amount ← Prog.ofExcept ((parameter command "refund_amount").bind Json.toFloat)
      if !Json.numEq amount order.total then return failed "amount_changed"
      else match ← perform (.refundByOrder key) with
        | some existing => return ⟨.succeeded, existing.fields⟩
        | none =>
          let refundId := database.refundId command.idempotencyKey
          let processedAt ← perform .now
          let reason ← Prog.ofExcept ((parameter command "reason").bind database.bindText)
          create refundId key order.total reason
            (textOr order.paymentMethod "original_payment_method") processedAt
          return ⟨.succeeded, [("refund_id", .str refundId), ("order_id", orderId),
            ("amount", .float order.total.1 order.total.2), ("currency", .str "USD"),
            ("status", .str "processed"), ("processed_at", .str processedAt)]⟩

/-- An empty `prior` is falsy. -/
def reconcile (command : ActionCommand) (prior : Option Fields) :
    Prog (refundSig.sum Y) PyErr ConnectorOutcome := do
  let key ← Prog.ofExcept (database.orderKey command)
  match ← perform (.refundByOrder key) with
  | some refund => return ⟨.succeeded, refund.fields⟩
  | none => match prior.getD [] with
    | [] => return ⟨.unknown, [("reason", .str "provider_outcome_unresolved")]⟩
    | prior => return ⟨.unknown, prior⟩

def connector : ActionConnector (refundSig.sum Y) :=
  ⟨database.dispatch, database.reconcile⟩

end DatabaseRefundConnector

end

end WorkflowEngine
