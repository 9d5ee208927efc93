import WorkflowEngine.Interleave.Rethrow
import WorkflowEngine.Spec.ActionApi
import WorkflowEngine.Spec.Floats
import WorkflowEngine.Spec.ToolCatalog

/-! The tools that the models call (`tools/crm_tools.py`, `tools/dispute_tools.py`,
`tools/fraud_tools.py`, `tools/action_proposals.py`), over the tables they read
(`database/repository.py`) and the state of the session they are called in. A tool stops at each of
its awaits, where other tools of the session run and the tables change. -/

namespace WorkflowEngine

open Interleave

/-- A row of `orders`. -/
structure CrmOrder extends OrderRow where
  merchantName : String
  deliveryDate : Option String
  shippingAddress : Option String

structure OrderItem where
  orderId : String
  name : String
  sku : String
  qty : ℤ
  price : ℤ × ℤ

/-- A row of `customers`, with the columns that no tool reads by name. -/
structure CrmCustomer where
  customerId : String
  name : String
  email : String
  columns : Fields

structure DisputeRow where
  disputeId : String
  customerId : String
  amount : ℤ × ℤ
  status : String
  liabilityTier : Option String
  columns : Fields

structure FraudAlertRow where
  alertId : String
  accountId : String
  severity : String
  riskScore : ℤ
  columns : Fields

structure TransactionRow where
  accountId : String
  amount : ℤ × ℤ
  date : String
  isFlagged : Option ℤ
  columns : Fields

structure DeviceRow where
  accountId : String
  trusted : Option ℤ
  columns : Fields

structure LoginRow where
  accountId : String
  timestamp : String
  isNew : Option ℤ
  columns : Fields

/-- The tables that the tools read. -/
structure CrmDb where
  orders : List CrmOrder := []
  items : List OrderItem := []
  customers : List CrmCustomer := []
  disputes : List DisputeRow := []
  alerts : List FraudAlertRow := []
  transactions : List TransactionRow := []
  devices : List DeviceRow := []
  logins : List LoginRow := []
  indicators : List (String × String) := []

/-- What the tools take from Python's `str` and `datetime`. -/
structure ToolHost where
  /-- `str.lower` -/
  lower : String → String
  /-- Three days before and after `datetime.fromisoformat(date)`, as `strftime` writes them; `none`
  when the text is no date. -/
  daysAround : String → Except PyErr (Option (String × String))
  /-- `(datetime.now() - datetime.fromisoformat(date)).days`, `none` when it raises. -/
  daysSince : Time → String → Option ℤ

/-- `LIKE`: letters of ASCII are equal in both cases. -/
def sqlLike : List Char → List Char → Bool
  | [], text => text.isEmpty
  | '%' :: pattern, text => text.tails.any fun rest => sqlLike pattern rest
  | c :: pattern, text => match text with
    | [] => false
    | d :: text => (decide (c = '_') || decide (c.toLower = d.toLower)) && sqlLike pattern text

/-- `x * y` -/
def PyFloat.mul (x y : ℤ × ℤ) : PyFloat :=
  let a := floatFraction x.1 x.2
  let b := floatFraction y.1 y.2
  let k := (a.2 * b.2).log2
  round (a.1 * b.1 * 5 ^ k) (-k)

/-- `x <= y` of a column and a bound. -/
def PyFloat.atMost (x : ℤ × ℤ) : PyFloat → Bool
  | .finite m e => !Json.numLt (m, e) x
  | .infinite negative => !negative
  | .nan => false

def PyFloat.atLeast (x : ℤ × ℤ) : PyFloat → Bool
  | .finite m e => !Json.numLt x (m, e)
  | .infinite negative => negative
  | .nan => false

structure OrderFilter where
  customerId : String
  merchantName : Option String
  amount : Option (ℤ × ℤ)
  date : Option String

namespace OrderFilter

/-- The conditions on `merchant_name` and `total`. -/
def meets (filter : OrderFilter) (order : CrmOrder) : Bool :=
  (ActionBridge.given filter.merchantName).all (fun merchantName =>
    sqlLike ('%' :: (merchantName.toList ++ ['%'])) order.merchantName.toList) &&
  filter.amount.all fun amount => !Json.numLt (0, 0) amount ||
    (PyFloat.atLeast order.total (PyFloat.mul amount (9, -1)) &&
      PyFloat.atMost order.total (PyFloat.mul amount (11, -1)))

/-- The condition on `order_date`: a range of texts, or a text. -/
abbrev DateBound := Option (String × String ⊕ String)

def dated (bound : DateBound) (order : CrmOrder) : Bool :=
  bound.all fun bound => order.orderDate.any fun orderDate => match bound with
    | .inl (lower, upper) => decide (lower ≤ orderDate) && decide (orderDate ≤ upper)
    | .inr date => decide (orderDate = date)

end OrderFilter

/-- `OrderRepository.get_by_id`: the order with its customer. -/
structure JoinedOrder extends CrmOrder where
  customerName : String
  email : String

/-- `bool` of an integer column. -/
def flagged (column : Option ℤ) : Bool := column.any (· ≠ 0)

namespace CrmDb

variable (db : CrmDb)

def order? (orderId : String) : Option JoinedOrder := do
  let order ← db.orders.find? fun order => order.orderId = orderId
  let customer ← db.customers.find? fun customer => customer.customerId = order.customerId
  return { order with customerName := customer.name, email := customer.email }

def searchOrders (filter : OrderFilter) (bound : OrderFilter.DateBound) : List CrmOrder :=
  (db.orders.filter fun order => decide (order.customerId = filter.customerId) &&
      filter.meets order && OrderFilter.dated bound order).insertionSort
    fun a b => b.orderDate.getD "" ≤ a.orderDate.getD ""

def orderItems (orderId : String) : List OrderItem :=
  db.items.filter fun item => item.orderId = orderId

def customer? (customerId : String) : Option CrmCustomer :=
  db.customers.find? fun customer => customer.customerId = customerId

def dispute? (disputeId : String) : Option DisputeRow :=
  db.disputes.find? fun dispute => dispute.disputeId = disputeId

def alert? (alertId : String) : Option FraudAlertRow :=
  db.alerts.find? fun alert => alert.alertId = alertId

def accountTransactions (accountId : String) : List TransactionRow :=
  (db.transactions.filter fun row => row.accountId = accountId).insertionSort
    fun a b => b.date ≤ a.date

def accountDevices (accountId : String) : List DeviceRow :=
  db.devices.filter fun row => row.accountId = accountId

def loginHistory (accountId : String) : List LoginRow :=
  (db.logins.filter fun row => row.accountId = accountId).insertionSort
    fun a b => b.timestamp ≤ a.timestamp

def riskIndicators (accountId : String) : List String :=
  (db.indicators.filter fun row => row.1 = accountId).map (·.2)

end CrmDb

/-- What `lookup_order` tells of an order. -/
structure OrderData where
  orderId : String
  customerName : String
  customerId : String
  email : String
  merchantName : String
  items : List OrderItem
  total : ℤ × ℤ
  status : String
  orderDate : Option String
  deliveryDate : Option String
  daysSinceDelivery : ℤ
  paymentMethod : Option String
  shippingAddress : Option String

structure OrderMatch where
  orderId : String
  merchantName : String
  total : ℤ × ℤ
  status : String
  orderDate : Option String
  deliveryDate : Option String
  daysSinceDelivery : ℤ
  itemsSummary : String

structure DisputeData extends DisputeRow where
  liabilityDescription : String

structure TransactionData where
  accountId : String
  transactions : List TransactionRow
  flaggedCount : ℕ

/-- Devices and logins come with their `trusted` and `is_new` as booleans. -/
structure DeviceData where
  accountId : String
  knownDevices : List (DeviceRow × Bool)
  recentLogins : List (LoginRow × Bool)
  riskIndicators : List String

/-- The state of a session, as far as the tools read and write it. -/
structure ToolSession extends SessionActor where
  pendingActionIntents : List Fields := []
  orderData : Option OrderData := none
  customerData : Option CrmCustomer := none
  disputeData : Option DisputeData := none
  disputeEligibility : Option Fields := none
  alertData : Option FraudAlertRow := none
  accountId : Option String := none
  transactionData : Option TransactionData := none
  deviceData : Option DeviceData := none

/-- What a tool leaves in the session. -/
inductive SessionUpdate where
  | order (data : OrderData)
  | customer (profile : CrmCustomer)
  | dispute (data : DisputeData)
  | eligibility (result : Fields)
  | alert (alert : FraudAlertRow)
  | transactions (data : TransactionData)
  | devices (data : DeviceData)

namespace ToolSession

variable (session : ToolSession)

def update : SessionUpdate → ToolSession
  | .order data => { session with orderData := some data, customerId := some data.customerId }
  | .customer profile => { session with customerData := some profile }
  | .dispute data => { session with disputeData := some data, customerId := some data.customerId }
  | .eligibility result => { session with disputeEligibility := some result }
  | .alert alert => { session with alertData := some alert, accountId := some alert.accountId }
  | .transactions data => { session with transactionData := some data }
  | .devices data => { session with deviceData := some data }

/-- `_queue`: an intent that is pending already is not queued again. -/
def queue (intent : Fields) : ToolSession :=
  if session.pendingActionIntents.any fun pending => (Json.dict intent).pyEq (.dict pending) then
    session
  else { session with pendingActionIntents := session.pendingActionIntents ++ [intent] }

end ToolSession

/-- What the audit logger is given. -/
structure ToolAudit where
  action : String
  actor : String
  resourceType : String
  resourceId : String
  metadata : Fields

/-- What happens between two awaits of a tool. -/
inductive ToolOp where
  | session
  | now
  | order (orderId : String)
  | search (filter : OrderFilter) (bound : OrderFilter.DateBound)
  | items (orderId : String)
  | customer (customerId : String)
  | dispute (disputeId : String)
  | alert (alertId : String)
  | transactions (accountId : String)
  | devices (accountId : String)
  | logins (accountId : String)
  | indicators (accountId : String)
  | update (update : SessionUpdate)
  | queue (intent : Fields)
  | beginTurn (customerId : String)
  | takeIntents
  | audit (entry : ToolAudit)

abbrev toolSig : Sig where
  Op := ToolOp
  Res
    | .session => ToolSession
    | .now => Time
    | .order _ => Option JoinedOrder
    | .search .. => List CrmOrder
    | .items _ => List OrderItem
    | .customer _ => Option CrmCustomer
    | .dispute _ => Option DisputeRow
    | .alert _ => Option FraudAlertRow
    | .transactions _ => List TransactionRow
    | .devices _ => List DeviceRow
    | .logins _ => List LoginRow
    | .indicators _ => List String
    | .update _ => Unit
    | .queue _ => Unit
    | .beginTurn _ => Unit
    | .takeIntents => List Fields
    | .audit _ => Unit

abbrev ToolTask := Prog toolSig TurnError

inductive ToolReply where
  | notFound (error : String)
  | order (data : OrderData)
  | profile (profile : CrmCustomer)
  | matches (found : List OrderMatch) (message : String)
  | dispute (data : DisputeData)
  | eligibility (result : Fields)
  | alert (alert : FraudAlertRow)
  | transactions (data : TransactionData)
  | devices (data : DeviceData)
  | confirmationRequired (action : String)
  | begun
  | intents (pending : List Fields)

namespace ModelTools

def perform (o : ToolOp) : ToolTask (toolSig.Res o) := Prog.perform (S := toolSig) o

def authorize (toolName : String) (customerId : Option String := none) : ToolTask Unit := do
  let session ← perform .session
  Prog.ofExcept (session.authorizeTool toolName customerId)

/-- `tool_context.state.get("customer_id", default)` -/
def auditActor (default : String) : ToolTask String := do
  let session ← perform .session
  return session.customerId.getD default

section
variable (host : ToolHost)

def daysSinceDelivery (now : Time) (order : CrmOrder) : ℤ :=
  let stored := order.daysSinceDelivery.getD 0
  match ActionBridge.given order.deliveryDate with
  | none => stored
  | some deliveryDate => (host.daysSince now deliveryDate).getD stored

def orderData (order : JoinedOrder) (items : List OrderItem) (daysSinceDelivery : ℤ) :
    OrderData where
  orderId := order.orderId
  customerName := order.customerName
  customerId := order.customerId
  email := order.email
  merchantName := order.merchantName
  items
  total := order.total
  status := order.status
  orderDate := order.orderDate
  deliveryDate := order.deliveryDate
  daysSinceDelivery
  paymentMethod := order.paymentMethod
  shippingAddress := order.shippingAddress

def lookupOrder (orderId : String) : ToolTask ToolReply := do
  authorize "lookup_order"
  match ← perform (.order orderId) with
  | none => return .notFound ("Order " ++ orderId ++ " not found")
  | some order =>
    let session ← perform .session
    if (ActionBridge.given session.customerId).any (order.customerId ≠ ·) then
      return .notFound ("Order " ++ orderId ++ " not found")
    else
      let items ← perform (.items orderId)
      let now ← perform .now
      let data := orderData order items (daysSinceDelivery host now order.toCrmOrder)
      perform (.update (.order data))
      let actor ← auditActor "system"
      perform (.audit {
        action := "order.lookup"
        actor
        resourceType := "order"
        resourceId := orderId
        metadata := [("status", .str order.status),
          ("total", .float order.total.1 order.total.2)] })
      return .order data

def getCustomerProfile (customerId : String) : ToolTask ToolReply := do
  authorize "get_customer_profile" (some customerId)
  match ← perform (.customer customerId) with
  | none => return .notFound ("Customer " ++ customerId ++ " not found")
  | some profile =>
    perform (.update (.customer profile))
    return .profile profile

/-- `OrderRepository.search` -/
def search (filter : OrderFilter) : ToolTask (List CrmOrder) := do
  match ActionBridge.given filter.date with
  | none => perform (.search filter none)
  | some date =>
    match ← Prog.ofExcept ((host.daysAround date).mapError TurnError.raised) with
    | some range => perform (.search filter (some (.inl range)))
    | none => perform (.search filter (some (.inr date)))

def itemsSummary (items : List OrderItem) : String :=
  if items.isEmpty then "no items"
  else String.intercalate ", "
    (items.map fun item => item.name ++ " (x" ++ toString item.qty ++ ")")

def orderMatch (row : CrmOrder) (items : List OrderItem) (now : Time) : OrderMatch where
  orderId := row.orderId
  merchantName := row.merchantName
  total := row.total
  status := row.status
  orderDate := row.orderDate
  deliveryDate := row.deliveryDate
  daysSinceDelivery := daysSinceDelivery host now row
  itemsSummary := itemsSummary items

/-- The matches, each with a summary of its items. -/
def describe : List CrmOrder → ToolTask (List OrderMatch)
  | [] => return []
  | row :: rows => do
    let items ← perform (.items row.orderId)
    let now ← perform .now
    return orderMatch host row items now :: (← describe rows)

/-- A search that finds nothing by its date is made again without it. -/
def searchTwice (filter : OrderFilter) : ToolTask (List CrmOrder) := do
  let rows ← search host filter
  if rows.isEmpty && (ActionBridge.given filter.date).isSome &&
      ((ActionBridge.given filter.merchantName).isSome || filter.amount.any (·.1 ≠ 0)) then
    search host { filter with date := none }
  else return rows

/-- The only match is left in the session as `lookup_order` leaves it. -/
def selectMatch (customerId : String) (found : OrderMatch) : ToolTask ToolReply := do
  match ← perform (.order found.orderId) with
  | none => return .matches [] "The selected order no longer exists."
  | some order =>
    if order.customerId ≠ customerId then
      return .matches [] "No orders found matching that description."
    else
      let items ← perform (.items found.orderId)
      perform (.update (.order (orderData order items found.daysSinceDelivery)))
      return .matches [found]
        ("Found order " ++ found.orderId ++ " from " ++ found.merchantName ++ ".")

def text (value : Option String) : Json := (value.map Json.str).getD .null

def searchOrders (filter : OrderFilter) : ToolTask ToolReply := do
  authorize "search_orders" (some filter.customerId)
  let rows ← searchTwice host filter
  perform (.audit {
    action := "order.search"
    actor := filter.customerId
    resourceType := "order"
    resourceId := "search:" ++ filter.customerId
    metadata := [
      ("merchant_name", text filter.merchantName),
      ("amount", (filter.amount.map fun x => Json.float x.1 x.2).getD .null),
      ("date", text filter.date), ("results_count", .int rows.length)] })
  if rows.isEmpty then return .matches [] "No orders found matching that description."
  else
    match ← describe host rows with
    | [found] => selectMatch filter.customerId found
    | found => return .matches found ("Found " ++ toString found.length ++
        " orders. Please ask the customer to confirm which one.")

end

/-- `_LIABILITY_TIERS`, by its labels. -/
def liabilityLabels : List (String × String) := [
  ("tier_1", "within 2 business days"),
  ("tier_2", "within 60 calendar days"),
  ("tier_3", "beyond 60 calendar days")]

def lookupDispute (disputeId : String) : ToolTask ToolReply := do
  authorize "lookup_dispute"
  match ← perform (.dispute disputeId) with
  | none => return .notFound ("Dispute " ++ disputeId ++ " not found")
  | some dispute =>
    let session ← perform .session
    if some dispute.customerId ≠ session.customerId then
      return .notFound ("Dispute " ++ disputeId ++ " not found")
    else
      let data : DisputeData := { dispute with
        liabilityDescription := (dispute.liabilityTier.bind fun tier =>
          liabilityLabels.lookup tier).getD "unknown" }
      perform (.update (.dispute data))
      let actor ← auditActor "system"
      perform (.audit {
        action := "compliance.check"
        actor
        resourceType := "dispute"
        resourceId := disputeId
        metadata := [("action", .str "lookup"), ("status", .str dispute.status)] })
      return .dispute data

/-- `_calculate_liability_tier`; beyond the 60 days the liability is unlimited. -/
def calculateLiabilityTier (daysSinceDiscovery : ℤ) : String × Option ℤ :=
  if daysSinceDiscovery ≤ 2 then ("tier_1", some 50)
  else if daysSinceDiscovery ≤ 60 then ("tier_2", some 500)
  else ("tier_3", none)

/-- `_REG_E_PAYMENT_METHODS` -/
def regEPaymentMethods : List String := [
  "debit_card", "debit", "ach", "ach_withdrawal", "wire", "p2p", "atm", "electronic_transfer",
  "debit_card_ending_5678", "debit_card_ending_4242", "debit_card_ending_1234"]

def isEftCovered (host : ToolHost) (paymentMethod : String) : Bool :=
  host.lower paymentMethod ∈ regEPaymentMethods

/-- The assessment of a covered transfer. -/
def assess (daysSinceNoticed : ℤ) : Fields :=
  match calculateLiabilityTier daysSinceNoticed with
  | (tier, none) => [
      ("eligible", .bool false), ("reason", .str "outside_60_day_window"),
      ("liability_tier", .str tier), ("days_since_noticed", .int daysSinceNoticed),
      ("message", .str ("The dispute was reported more than 60 days after the statement date. " ++
        "Under Regulation E, the consumer bears full liability for unauthorized " ++
        "transfers reported after the 60-day window.")),
      ("recommendation", .str "deny_late_dispute"), ("max_liability", .str "unlimited")]
  | (tier, some maxLiability) => [
      ("eligible", .bool true), ("liability_tier", .str tier),
      ("max_liability", .float maxLiability 0), ("days_since_noticed", .int daysSinceNoticed),
      ("investigation_deadline_days", .int 10), ("final_deadline_days", .int 45),
      ("provisional_credit_required_after_days", .int 10),
      ("message", .str ("Dispute is eligible under Regulation E. Liability tier: " ++ tier ++
        " (max $" ++ toString maxLiability ++
          ".00). Investigation must begin within 10 business days.")),
      ("recommendation", .str "file_dispute")]

def checkDisputeEligibility (host : ToolHost) (transactionId disputeType : String)
    (daysSinceNoticed : ℤ) (paymentMethod : String) : ToolTask ToolReply := do
  authorize "check_dispute_eligibility"
  if !isEftCovered host paymentMethod then
    let result : Fields := [
      ("eligible", .bool false), ("reason", .str "not_eft"),
      ("message", .str ("The payment method '" ++ paymentMethod ++
        "' is not an electronic fund transfer " ++
        "covered by Regulation E. Credit card disputes are covered under Regulation Z.")),
      ("recommendation", .str "redirect_non_eft")]
    perform (.update (.eligibility result))
    return .eligibility result
  else
    let result := assess daysSinceNoticed
    perform (.update (.eligibility result))
    let actor ← auditActor "system"
    perform (.audit {
      action := "compliance.check"
      actor
      resourceType := "dispute_eligibility"
      resourceId := transactionId
      metadata := [
        ("dispute_type", .str disputeType), ("payment_method", .str paymentMethod),
        ("days_since_noticed", .int daysSinceNoticed),
        ("liability_tier", .str (calculateLiabilityTier daysSinceNoticed).1),
        ("eligible", (result.get? "eligible").getD .null)] })
    return .eligibility result

def getFraudAlert (alertId : String) : ToolTask ToolReply := do
  match ← perform (.alert alertId) with
  | none => return .notFound ("Alert " ++ alertId ++ " not found")
  | some alert =>
    perform (.update (.alert alert))
    let actor ← auditActor "analyst"
    perform (.audit {
      action := "fraud_alert.viewed"
      actor
      resourceType := "fraud_alert"
      resourceId := alertId
      metadata := [("severity", .str alert.severity), ("risk_score", .int alert.riskScore)] })
    return .alert alert

def getAccountTransactions (accountId : String) (days : ℤ) : ToolTask ToolReply := do
  let transactions ← perform (.transactions accountId)
  let flaggedCount := transactions.countP fun row => flagged row.isFlagged
  let data : TransactionData := { accountId, transactions, flaggedCount }
  perform (.update (.transactions data))
  let actor ← auditActor "analyst"
  perform (.audit {
    action := "transactions.viewed"
    actor
    resourceType := "transactions"
    resourceId := accountId
    metadata := [
      ("days", .int days), ("count", .int transactions.length), ("flagged", .int flaggedCount)] })
  return .transactions data

def checkDeviceFingerprint (accountId : String) : ToolTask ToolReply := do
  let devices ← perform (.devices accountId)
  let logins ← perform (.logins accountId)
  let indicators ← perform (.indicators accountId)
  let data : DeviceData := {
    accountId
    knownDevices := devices.map fun device => (device, flagged device.trusted)
    recentLogins := logins.map fun login => (login, flagged login.isNew)
    riskIndicators :=
      if devices.isEmpty && logins.isEmpty then ["unknown_account"] else indicators }
  perform (.update (.devices data))
  let actor ← auditActor "analyst"
  perform (.audit {
    action := "device.check"
    actor
    resourceType := "device_fingerprint"
    resourceId := accountId
    metadata := [
      ("devices_count", .int devices.length), ("logins_count", .int logins.length),
      ("risk_indicators", .list (indicators.map .str))] })
  return .devices data

/-- What stands in the session for a resource; one without an id is left out. -/
def resourceFields : Option (String × String) → Fields
  | none => []
  | some (resourceType, resourceId) =>
    if resourceType = "" ∨ resourceId = "" then []
    else [("resource", .dict [
      ("resource_type", .str resourceType), ("resource_id", .str resourceId)])]

def intentFields (action : String) (arguments : Fields) (resource : Option (String × String)) :
    Fields :=
  ("action", .str action) :: ("arguments", .dict arguments) :: resourceFields resource

/-- `_queue` -/
def queue (action : String) (arguments : Fields) (resource : Option (String × String) := none) :
    ToolTask ToolReply := do
  authorize action
  perform (.queue (intentFields action arguments resource))
  return .confirmationRequired action

def issueRefund (orderId reason : String) : ToolTask ToolReply :=
  queue "issue_refund" [("order_id", .str orderId), ("reason", .str reason)]
    (some ("order", orderId))

def issueStoreCredit (orderId reason : String) : ToolTask ToolReply :=
  queue "issue_store_credit" [("order_id", .str orderId), ("reason", .str reason)]
    (some ("order", orderId))

def updateCaseStatus (caseId status notes : String) : ToolTask ToolReply :=
  queue "update_case_status"
    [("case_id", .str caseId), ("target_status", .str status), ("reason", .str notes)]

structure EftDispute where
  customerId : String
  transactionId : String
  disputeType : String
  amount : ℤ × ℤ
  merchant : String
  transactionDate : String
  reason : String
  accountId : Option String := none
  paymentMethod : String := "debit_card"

def fileEftDispute (dispute : EftDispute) : ToolTask ToolReply :=
  queue "file_eft_dispute" [
    ("customer_id", .str dispute.customerId), ("transaction_id", .str dispute.transactionId),
    ("amount", .float dispute.amount.1 dispute.amount.2),
    ("dispute_type", .str dispute.disputeType), ("merchant", .str dispute.merchant),
    ("transaction_date", .str dispute.transactionDate), ("reason", .str dispute.reason),
    ("account_id", text dispute.accountId), ("payment_method", .str dispute.paymentMethod)]
    (some ("transaction", dispute.transactionId))

def issueProvisionalCredit (disputeId : String) : ToolTask ToolReply := do
  let session ← perform .session
  queue "issue_provisional_credit" [
    ("customer_id", text session.customerId), ("dispute_id", .str disputeId),
    ("amount", (session.disputeData.map fun data =>
      Json.float data.amount.1 data.amount.2).getD .null)]
    (some ("dispute", disputeId))

def escalateToSupervisor (caseId reason priority : String) : ToolTask ToolReply :=
  queue "escalate_to_supervisor"
    [("case_id", .str caseId), ("reason", .str reason), ("priority", .str priority)]

def addCaseNote (caseId note : String) : ToolTask ToolReply :=
  queue "add_case_note" [("case_id", .str caseId), ("note", .str note)]

def flagAccount (accountId reason action : String) : ToolTask ToolReply :=
  queue "flag_account"
    [("account_id", .str accountId), ("reason", .str reason), ("restriction", .str action)]
    (some ("account", accountId))

def submitSar (accountId alertId : String) : ToolTask ToolReply :=
  queue "submit_sar" [
    ("account_id", .str accountId), ("alert_id", .str alertId),
    ("narrative_ref", .str ("conversation-state:" ++ alertId ++ ":findings"))]
    (some ("fraud_alert", alertId))

def closeAlert (alertId resolution : String) : ToolTask ToolReply :=
  queue "close_alert" [("alert_id", .str alertId), ("resolution", .str resolution)]
    (some ("fraud_alert", alertId))

end ModelTools

/-- What `_generate_safe_turn` and the agents that it runs do with a session. -/
inductive SessionCall where
  | beginTurn (customerId : String)
  | takeIntents
  | lookupOrder (orderId : String)
  | getCustomerProfile (customerId : String)
  | searchOrders (filter : OrderFilter)
  | lookupDispute (disputeId : String)
  | checkDisputeEligibility (transactionId disputeType : String) (daysSinceNoticed : ℤ)
      (paymentMethod : String)
  | getFraudAlert (alertId : String)
  | getAccountTransactions (accountId : String) (days : ℤ)
  | checkDeviceFingerprint (accountId : String)
  | issueRefund (orderId reason : String)
  | issueStoreCredit (orderId reason : String)
  | updateCaseStatus (caseId status notes : String)
  | fileEftDispute (dispute : ModelTools.EftDispute)
  | issueProvisionalCredit (disputeId : String)
  | escalateToSupervisor (caseId reason priority : String)
  | addCaseNote (caseId note : String)
  | flagAccount (accountId reason action : String)
  | submitSar (accountId alertId : String)
  | closeAlert (alertId resolution : String)

namespace ToolHost

open ModelTools in
def body (host : ToolHost) : SessionCall → ToolTask ToolReply
  | .beginTurn customerId => do
    perform (.beginTurn customerId)
    return .begun
  | .takeIntents => do
    return .intents (← perform .takeIntents)
  | .lookupOrder orderId => ModelTools.lookupOrder host orderId
  | .getCustomerProfile customerId => ModelTools.getCustomerProfile customerId
  | .searchOrders filter => ModelTools.searchOrders host filter
  | .lookupDispute disputeId => ModelTools.lookupDispute disputeId
  | .checkDisputeEligibility transactionId disputeType daysSinceNoticed paymentMethod =>
    ModelTools.checkDisputeEligibility host transactionId disputeType daysSinceNoticed paymentMethod
  | .getFraudAlert alertId => ModelTools.getFraudAlert alertId
  | .getAccountTransactions accountId days => ModelTools.getAccountTransactions accountId days
  | .checkDeviceFingerprint accountId => ModelTools.checkDeviceFingerprint accountId
  | .issueRefund orderId reason => ModelTools.issueRefund orderId reason
  | .issueStoreCredit orderId reason => ModelTools.issueStoreCredit orderId reason
  | .updateCaseStatus caseId status notes => ModelTools.updateCaseStatus caseId status notes
  | .fileEftDispute dispute => ModelTools.fileEftDispute dispute
  | .issueProvisionalCredit disputeId => ModelTools.issueProvisionalCredit disputeId
  | .escalateToSupervisor caseId reason priority =>
    ModelTools.escalateToSupervisor caseId reason priority
  | .addCaseNote caseId note => ModelTools.addCaseNote caseId note
  | .flagAccount accountId reason action => ModelTools.flagAccount accountId reason action
  | .submitSar accountId alertId => ModelTools.submitSar accountId alertId
  | .closeAlert alertId resolution => ModelTools.closeAlert alertId resolution

end ToolHost

/-- A session, the tables beside it, what has been audited, and the time. The host is taken to hold
the session that the tools write to, as the session service (which this repository only calls) has
it. -/
structure ToolState where
  session : ToolSession
  crm : CrmDb
  audited : List ToolAudit
  clock : Time

/-- What happens beside the tools: time passes, and others write to the tables. -/
structure ToolChoice where
  elapsed : ℕ := 0
  crm : CrmDb → CrmDb := id

namespace ToolState

def exec (s : ToolState) : (o : ToolOp) → toolSig.Res o × ToolState
  | .session => (s.session, s)
  | .now => (s.clock, s)
  | .order orderId => (s.crm.order? orderId, s)
  | .search filter bound => (s.crm.searchOrders filter bound, s)
  | .items orderId => (s.crm.orderItems orderId, s)
  | .customer customerId => (s.crm.customer? customerId, s)
  | .dispute disputeId => (s.crm.dispute? disputeId, s)
  | .alert alertId => (s.crm.alert? alertId, s)
  | .transactions accountId => (s.crm.accountTransactions accountId, s)
  | .devices accountId => (s.crm.accountDevices accountId, s)
  | .logins accountId => (s.crm.loginHistory accountId, s)
  | .indicators accountId => (s.crm.riskIndicators accountId, s)
  | .update update => ((), { s with session := s.session.update update })
  | .queue intent => ((), { s with session := s.session.queue intent })
  | .beginTurn customerId =>
    ((), { s with session := { s.session with customerId := some customerId } })
  | .takeIntents => (s.session.pendingActionIntents,
      { s with session := { s.session with pendingActionIntents := [] } })
  | .audit entry => ((), { s with audited := s.audited ++ [entry] })

end ToolState

namespace ToolHost

/-- The calls of one session. -/
abbrev system (host : ToolHost) : System toolSig TurnError ToolReply where
  State := ToolState
  Choice := ToolChoice
  Call := SessionCall
  exec _ s := s.exec
  drift e s := { s with clock := s.clock + e.elapsed, crm := e.crm s.crm }
  admits _ _ := true
  body := host.body

/-- The session, and the calls of a schedule, each with what is left of it. -/
def conversation (host : ToolHost) (s : ToolState) (acts : List host.system.Move) :
    host.system.Config :=
  host.system.run (host.system.init s) acts

end ToolHost
end WorkflowEngine
