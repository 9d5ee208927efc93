import WorkflowEngine.Proofs.ToolTasks

/-! What a model gets to see through its tools. However the tools of a session are interleaved,
and whatever happens to the tables meanwhile, the session stays that of its customer, and the
orders, profiles and disputes that the tools hand out are his. The tools of fraud operations are not
bound to a customer, and ask for no permission. -/

namespace WorkflowEngine

open Interleave ModelTools

/-- The name under which a tool asks for its permission; those of fraud operations do not ask. -/
def SessionCall.gate : SessionCall → Option String
  | .beginTurn _ => none
  | .takeIntents => none
  | .lookupOrder _ => some "lookup_order"
  | .getCustomerProfile _ => some "get_customer_profile"
  | .searchOrders _ => some "search_orders"
  | .lookupDispute _ => some "lookup_dispute"
  | .checkDisputeEligibility .. => some "check_dispute_eligibility"
  | .getFraudAlert _ => none
  | .getAccountTransactions .. => none
  | .checkDeviceFingerprint _ => none
  | .issueRefund .. => some "issue_refund"
  | .issueStoreCredit .. => some "issue_store_credit"
  | .updateCaseStatus .. => some "update_case_status"
  | .fileEftDispute _ => some "file_eft_dispute"
  | .issueProvisionalCredit _ => some "issue_provisional_credit"
  | .escalateToSupervisor .. => some "escalate_to_supervisor"
  | .addCaseNote .. => some "add_case_note"
  | .flagAccount .. => some "flag_account"
  | .submitSar .. => some "submit_sar"
  | .closeAlert .. => some "close_alert"

/-- The audit entry for a reply that hands out records: its action and its resource. -/
def SessionCall.recordedAs : SessionCall → ToolReply → Option (String × String)
  | .lookupOrder orderId, .order _ => some ("order.lookup", orderId)
  | .searchOrders filter, .matches .. => some ("order.search", "search:" ++ filter.customerId)
  | .lookupDispute disputeId, .dispute _ => some ("compliance.check", disputeId)
  | .getFraudAlert alertId, .alert _ => some ("fraud_alert.viewed", alertId)
  | .getAccountTransactions accountId _, .transactions _ => some ("transactions.viewed", accountId)
  | .checkDeviceFingerprint accountId, .devices _ => some ("device.check", accountId)
  | _, _ => none

/-- What a reply hands out of a customer, the tables have answered to the call, and it is of this
customer; what it hands out of an alert or an account, they have answered for the one that the call
has asked for; what it hands out of intents, tools have queued for the actor, each of them once. -/
def ToolReply.Confined (host : ToolHost) (actor : SessionActor) (customerId : String)
    (call : SessionCall) (xs : List (Event toolSig)) : ToolReply → Prop
  | .order data => ∃ orderId order items days, call = .lookupOrder orderId ∧
      ⟨.order orderId, some order⟩ ∈ xs ∧ ⟨.items orderId, items⟩ ∈ xs ∧
      order.customerId = customerId ∧ data = orderData order items days
  | .profile row => call = .getCustomerProfile customerId ∧
      ⟨.customer customerId, some row⟩ ∈ xs ∧ row.customerId = customerId
  | .matches found _ => ∀ shown ∈ found, ∃ filter bound rows row items now,
      ⟨.search filter bound, rows⟩ ∈ xs ∧ row ∈ rows ∧ ⟨.items row.orderId, items⟩ ∈ xs ∧
      row.customerId = customerId ∧ shown = orderMatch host row items now
  | .dispute data => ∃ disputeId, call = .lookupDispute disputeId ∧
      ⟨.dispute disputeId, some data.toDisputeRow⟩ ∈ xs ∧ data.customerId = customerId
  | .alert row => call = .getFraudAlert row.alertId ∧ ⟨.alert row.alertId, some row⟩ ∈ xs
  | .transactions data => (∃ days, call = .getAccountTransactions data.accountId days) ∧
      ⟨.transactions data.accountId, data.transactions⟩ ∈ xs ∧ data.OneAccount
  | .devices data => call = .checkDeviceFingerprint data.accountId ∧
      ⟨.devices data.accountId, data.knownDevices.map Prod.fst⟩ ∈ xs ∧
      ⟨.logins data.accountId, data.recentLogins.map Prod.fst⟩ ∈ xs ∧ data.OneAccount
  | .intents pending => (∀ raw ∈ pending, QueuedBy actor raw) ∧
      pending.Pairwise fun earlier later => ¬ Repeats earlier later
  | _ => True

/-- What can be said of a call that has come to its end. -/
structure SessionCall.Answered (host : ToolHost) (actor : SessionActor) (customerId : String)
    (audited : List ToolAudit) (call : SessionCall) (xs : List (Event toolSig))
    (reply : ToolReply) : Prop where
  permitted : ∀ toolName, call.gate = some toolName →
    ∃ control, toolControl? toolName = some control ∧ actor.permits control = true
  confined : reply.Confined host actor customerId call xs
  recorded : ∀ action resourceId, call.recordedAs reply = some (action, resourceId) →
    ∃ entry ∈ audited, entry.action = action ∧ entry.resourceId = resourceId ∧
      entry.actor = customerId

section
variable {host : ToolHost} {actor : SessionActor} {customerId : String}
  {audited : List ToolAudit} {xs : List (Event toolSig)}

/-- The answers of a call: true, and of its own trace. -/
abbrev Told (actor : SessionActor) (audited : List ToolAudit) (xs : List (Event toolSig))
    (o : ToolOp) (r : toolSig.Res o) : Prop :=
  o.Tells actor audited r ∧ ⟨o, r⟩ ∈ xs

theorem yields_told (toolName : String) (bound : Option String) :
    (authorize toolName bound).Yields (Told actor audited xs)
      fun _ => actor.authorizeTool toolName bound = .ok () :=
  yields_authorizeTool (fun _ h => h.1) toolName bound

theorem gate_of_authorizeTool (call : SessionCall) {toolName : String} {bound : Option String}
    (hgate : call.gate = some toolName) (h : actor.authorizeTool toolName bound = .ok ()) :
    ∀ name, call.gate = some name →
      ∃ control, toolControl? name = some control ∧ actor.permits control = true := by
  intro name hname
  obtain rfl := Option.some.inj (hgate.symm.trans hname)
  exact (permits_of_authorizeTool h).1

theorem recorded_of_entry {call : SessionCall} {reply : ToolReply} {entry : ToolAudit}
    (hentry : entry ∈ audited)
    (he : call.recordedAs reply = some (entry.action, entry.resourceId))
    (hactor : entry.actor = customerId) (action resourceId : String)
    (h : call.recordedAs reply = some (action, resourceId)) :
    ∃ entry ∈ audited, entry.action = action ∧ entry.resourceId = resourceId ∧
      entry.actor = customerId := by
  cases he.symm.trans h
  exact ⟨entry, hentry, rfl, rfl, hactor⟩

theorem yields_lookupOrder (hc : actor.customerId = some customerId) (hne : customerId ≠ "")
    (orderId : String) :
    (lookupOrder host orderId).Yields (Told actor audited xs)
      (SessionCall.Answered host actor customerId audited (.lookupOrder orderId) xs) := by
  refine Prog.yields_bind (yields_told _ _) fun _ hauth => ?_
  have hgate := gate_of_authorizeTool (.lookupOrder orderId) rfl hauth
  refine Prog.yields_perform fun found hfound => ?_
  cases found with
  | none => exact ⟨hgate, trivial, fun _ _ h => by cases h⟩
  | some order =>
    refine Prog.yields_perform fun current hcurrent => ?_
    split
    case isTrue => exact ⟨hgate, trivial, fun _ _ h => by cases h⟩
    case isFalse hown =>
      have horder := customer_of_given hcurrent.1 hc hne hown
      refine Prog.yields_perform fun items hitems => ?_
      refine Prog.yields_skip fun now => Prog.yields_skip fun _ => ?_
      refine Prog.yields_bind (yields_auditActor (fun _ h => h.1) hc _) fun named hnamed => ?_
      refine Prog.yields_perform fun _ haudit => ?_
      exact ⟨hgate, ⟨orderId, order, items, _, rfl, hfound.2, hitems.2, horder, rfl⟩,
        recorded_of_entry haudit.1 rfl hnamed⟩

theorem yields_getCustomerProfile (hc : actor.customerId = some customerId) (asked : String) :
    (getCustomerProfile asked).Yields (Told actor audited xs)
      (SessionCall.Answered host actor customerId audited (.getCustomerProfile asked) xs) := by
  refine Prog.yields_bind (yields_told _ _) fun _ hauth => ?_
  have hgate := gate_of_authorizeTool (.getCustomerProfile asked) rfl hauth
  have hasked := (permits_of_authorizeTool hauth).2 asked rfl
  obtain rfl : asked = customerId := Option.some.inj (hasked.symm.trans hc)
  refine Prog.yields_perform fun found hfound => ?_
  cases found with
  | none => exact ⟨hgate, trivial, fun _ _ h => by cases h⟩
  | some profile =>
    refine Prog.yields_skip fun _ => ?_
    exact ⟨hgate, ⟨rfl, hfound.2, hfound.1 profile rfl⟩, fun _ _ h => by cases h⟩

/-- The rows are the answer to a search for orders of the customer. -/
abbrev Searched (customerId : String) (xs : List (Event toolSig)) (rows : List CrmOrder) : Prop :=
  (∃ filter bound, (⟨.search filter bound, rows⟩ : Event toolSig) ∈ xs) ∧
    ∀ row ∈ rows, row.customerId = customerId

theorem yields_search (filter : OrderFilter) :
    (search host filter).Yields (Told actor audited xs) (Searched filter.customerId xs) := by
  unfold search
  split
  · exact fun rows hrows => ⟨⟨_, _, hrows.2⟩, hrows.1⟩
  · refine Prog.yields_skip fun range => ?_
    cases range <;> exact fun rows hrows => ⟨⟨_, _, hrows.2⟩, hrows.1⟩

theorem yields_searchTwice (filter : OrderFilter) :
    (searchTwice host filter).Yields (Told actor audited xs) (Searched filter.customerId xs) := by
  refine Prog.yields_bind (yields_search filter) fun rows hrows => ?_
  split
  · exact yields_search { filter with date := none }
  · exact hrows

theorem yields_describe (rows : List CrmOrder) :
    (describe host rows).Yields (Told actor audited xs) fun found =>
      ∀ shown ∈ found, ∃ row ∈ rows, ∃ items now,
        (⟨.items row.orderId, items⟩ : Event toolSig) ∈ xs ∧
        shown = orderMatch host row items now := by
  induction rows with
  | nil =>
    intro shown hshown
    exact absurd hshown List.not_mem_nil
  | cons row rows ih =>
    refine Prog.yields_perform fun items hitems => Prog.yields_skip fun now => ?_
    refine Prog.yields_bind ih fun found hfound => ?_
    intro shown hshown
    rcases List.mem_cons.1 hshown with rfl | hshown
    · exact ⟨row, List.mem_cons_self, items, now, hitems.2, rfl⟩
    · obtain ⟨row', hrow', h⟩ := hfound shown hshown
      exact ⟨row', List.mem_cons_of_mem _ hrow', h⟩

theorem yields_selectMatch {call : SessionCall} {found : OrderMatch} (message : String)
    (h : ToolReply.Confined host actor customerId call xs (.matches [found] message)) :
    (selectMatch customerId found).Yields (Told actor audited xs) fun reply =>
      reply.Confined host actor customerId call xs ∧
        ∃ shown message, reply = .matches shown message := by
  refine Prog.yields_perform fun order _ => ?_
  cases order with
  | none => exact ⟨fun _ hs => absurd hs List.not_mem_nil, _, _, rfl⟩
  | some order =>
    dsimp only
    split
    case isTrue => exact ⟨fun _ hs => absurd hs List.not_mem_nil, _, _, rfl⟩
    case isFalse => exact Prog.yields_skip fun _ => Prog.yields_skip fun _ => ⟨h, _, _, rfl⟩

theorem yields_searchOrders (hc : actor.customerId = some customerId) (filter : OrderFilter) :
    (searchOrders host filter).Yields (Told actor audited xs)
      (SessionCall.Answered host actor customerId audited (.searchOrders filter) xs) := by
  refine Prog.yields_bind (yields_told _ _) fun _ hauth => ?_
  have hgate := gate_of_authorizeTool (.searchOrders filter) rfl hauth
  have hasked := (permits_of_authorizeTool hauth).2 filter.customerId rfl
  obtain rfl : filter.customerId = customerId := Option.some.inj (hasked.symm.trans hc)
  refine Prog.yields_bind (yields_searchTwice filter) fun rows hrows =>
    Prog.yields_perform fun _ haudit => ?_
  have hmatches : ∀ {reply : ToolReply},
      reply.Confined host actor filter.customerId (.searchOrders filter) xs →
      (∃ shown message, reply = .matches shown message) →
        SessionCall.Answered host actor filter.customerId audited (.searchOrders filter) xs
          reply := by
    rintro _ hconfined ⟨shown, message, rfl⟩
    exact ⟨hgate, hconfined, recorded_of_entry haudit.1 rfl rfl⟩
  split
  · exact hmatches (fun _ hs => absurd hs List.not_mem_nil) ⟨_, _, rfl⟩
  · refine Prog.yields_bind (yields_describe rows) fun found hfound => ?_
    have hconfined : ∀ message, ToolReply.Confined host actor filter.customerId
        (.searchOrders filter) xs (.matches found message) := by
      intro message shown hshown
      obtain ⟨row, hrow, items, now, hitems, rfl⟩ := hfound shown hshown
      obtain ⟨⟨filter', bound, hsearch⟩, hcustomer⟩ := hrows
      exact ⟨filter', bound, rows, row, items, now, hsearch, hrow, hitems, hcustomer row hrow, rfl⟩
    split
    · exact Prog.yields_mono (fun _ h => hmatches h.1 h.2) (yields_selectMatch "" (hconfined ""))
    · exact hmatches (hconfined _) ⟨_, _, rfl⟩

theorem yields_lookupDispute (hc : actor.customerId = some customerId) (disputeId : String) :
    (lookupDispute disputeId).Yields (Told actor audited xs)
      (SessionCall.Answered host actor customerId audited (.lookupDispute disputeId) xs) := by
  refine Prog.yields_bind (yields_told _ _) fun _ hauth => ?_
  have hgate := gate_of_authorizeTool (.lookupDispute disputeId) rfl hauth
  refine Prog.yields_perform fun found hfound => ?_
  cases found with
  | none => exact ⟨hgate, trivial, fun _ _ h => by cases h⟩
  | some dispute =>
    refine Prog.yields_perform fun current hcurrent => ?_
    split
    case isTrue => exact ⟨hgate, trivial, fun _ _ h => by cases h⟩
    case isFalse hown =>
      have hcustomer : current.customerId = some customerId := by rw [← hc, ← hcurrent.1]
      have hdispute : dispute.customerId = customerId :=
        Option.some.inj ((not_not.1 hown).trans hcustomer)
      refine Prog.yields_skip fun _ => ?_
      refine Prog.yields_bind (yields_auditActor (fun _ h => h.1) hc _) fun named hnamed => ?_
      refine Prog.yields_perform fun _ haudit => ?_
      exact ⟨hgate, ⟨disputeId, rfl, hfound.2, hdispute⟩, recorded_of_entry haudit.1 rfl hnamed⟩

theorem yields_checkDisputeEligibility (transactionId disputeType : String)
    (daysSinceNoticed : ℤ) (paymentMethod : String) :
    (checkDisputeEligibility host transactionId disputeType daysSinceNoticed
      paymentMethod).Yields (Told actor audited xs)
      (SessionCall.Answered host actor customerId audited
        (.checkDisputeEligibility transactionId disputeType daysSinceNoticed paymentMethod)
          xs) := by
  refine Prog.yields_bind (yields_told _ _) fun _ hauth => ?_
  have hanswered : ∀ result : Fields, SessionCall.Answered host actor customerId audited
      (.checkDisputeEligibility transactionId disputeType daysSinceNoticed paymentMethod) xs
      (.eligibility result) := fun result =>
    ⟨gate_of_authorizeTool _ rfl hauth, trivial, fun _ _ h => by cases h⟩
  split
  · exact Prog.yields_skip fun _ => hanswered _
  · exact Prog.yields_skip fun _ => Prog.yields_skip fun _ => Prog.yields_skip fun _ => hanswered _

theorem yields_getFraudAlert (hc : actor.customerId = some customerId) (alertId : String) :
    (getFraudAlert alertId).Yields (Told actor audited xs)
      (SessionCall.Answered host actor customerId audited (.getFraudAlert alertId) xs) := by
  have hgate : ∀ toolName, (SessionCall.getFraudAlert alertId).gate = some toolName →
      ∃ control, toolControl? toolName = some control ∧ actor.permits control = true :=
    fun _ h => by cases h
  refine Prog.yields_perform fun found hfound => ?_
  cases found with
  | none => exact ⟨hgate, trivial, fun _ _ h => by cases h⟩
  | some alert =>
    obtain rfl : alert.alertId = alertId := hfound.1 alert rfl
    refine Prog.yields_skip fun _ => ?_
    refine Prog.yields_bind (yields_auditActor (fun _ h => h.1) hc _) fun named hnamed => ?_
    refine Prog.yields_perform fun _ haudit => ?_
    exact ⟨hgate, ⟨rfl, hfound.2⟩, recorded_of_entry haudit.1 rfl hnamed⟩

theorem yields_getAccountTransactions (hc : actor.customerId = some customerId)
    (accountId : String) (days : ℤ) :
    (getAccountTransactions accountId days).Yields (Told actor audited xs)
      (SessionCall.Answered host actor customerId audited
        (.getAccountTransactions accountId days) xs) := by
  refine Prog.yields_perform fun transactions hrows => Prog.yields_skip fun _ => ?_
  refine Prog.yields_bind (yields_auditActor (fun _ h => h.1) hc _) fun named hnamed => ?_
  refine Prog.yields_perform fun _ haudit => ?_
  exact ⟨fun _ h => (by cases h), ⟨⟨days, rfl⟩, hrows.2, hrows.1⟩,
    recorded_of_entry haudit.1 rfl hnamed⟩

/-- The rows, when the marks beside them are left out. -/
theorem fst_marked {α β : Type} (mark : α → β) (rows : List α) :
    (rows.map fun row => (row, mark row)).map Prod.fst = rows := by
  induction rows with
  | nil => rfl
  | cons row rows ih =>
    rw [List.map_cons, List.map_cons, ih]

theorem yields_checkDeviceFingerprint (hc : actor.customerId = some customerId)
    (accountId : String) :
    (checkDeviceFingerprint accountId).Yields (Told actor audited xs)
      (SessionCall.Answered host actor customerId audited
        (.checkDeviceFingerprint accountId) xs) := by
  refine Prog.yields_perform fun devices hdevices => ?_
  refine Prog.yields_perform fun logins hlogins => ?_
  refine Prog.yields_skip fun indicators => Prog.yields_skip fun _ => ?_
  refine Prog.yields_bind (yields_auditActor (fun _ h => h.1) hc _) fun named hnamed => ?_
  refine Prog.yields_perform fun _ haudit => ?_
  refine ⟨fun _ h => (by cases h), ⟨rfl, ?_, ?_, oneAccount_of_rows hdevices.1 hlogins.1 _⟩,
    recorded_of_entry haudit.1 rfl hnamed⟩
  · rw [fst_marked]
    exact hdevices.2
  · rw [fst_marked]
    exact hlogins.2

theorem yields_queue {call : SessionCall} {action : String} (hgate : call.gate = some action)
    (hr : ∀ reply, call.recordedAs reply = none) (arguments : Fields)
    (resource : Option (String × String)) :
    (queue action arguments resource).Yields (Told actor audited xs)
      (SessionCall.Answered host actor customerId audited call xs) := by
  refine Prog.yields_bind (yields_told _ _) fun _ hauth => Prog.yields_skip fun _ => ?_
  refine ⟨gate_of_authorizeTool _ hgate hauth, trivial, fun _ _ h => ?_⟩
  cases (hr _).symm.trans h

theorem yields_tool (hc : actor.customerId = some customerId) (hne : customerId ≠ "")
    (call : SessionCall) :
    (host.body call).Yields (Told actor audited xs)
      (SessionCall.Answered host actor customerId audited call xs) := by
  cases call with
  | beginTurn boundId =>
    exact Prog.yields_skip fun _ => ⟨fun _ h => (by cases h), trivial, fun _ _ h => by cases h⟩
  | takeIntents =>
    exact Prog.yields_perform fun pending hpending =>
      ⟨fun _ h => (by cases h), hpending.1, fun _ _ h => by cases h⟩
  | lookupOrder orderId => exact yields_lookupOrder hc hne orderId
  | getCustomerProfile asked => exact yields_getCustomerProfile hc asked
  | searchOrders filter => exact yields_searchOrders hc filter
  | lookupDispute disputeId => exact yields_lookupDispute hc disputeId
  | checkDisputeEligibility => exact yields_checkDisputeEligibility _ _ _ _
  | getFraudAlert alertId => exact yields_getFraudAlert hc alertId
  | getAccountTransactions accountId days => exact yields_getAccountTransactions hc accountId days
  | checkDeviceFingerprint accountId => exact yields_checkDeviceFingerprint hc accountId
  | issueProvisionalCredit disputeId =>
    exact Prog.yields_skip fun _ => yields_queue rfl (fun reply => by cases reply <;> rfl) _ _
  | _ => exact yields_queue rfl (fun reply => by cases reply <;> rfl) _ _

end

section
variable (host : ToolHost) (actor : SessionActor) (customerId : String)
  (hc : actor.customerId = some customerId) (hne : customerId ≠ "") (s : ToolState)
  (acts : List host.system.Move)
  (hturns : ∀ boundId, .beginTurn boundId ∈ (host.conversation s acts).hist.calls →
    boundId = customerId)
  (h0 : s.session.Owned actor customerId)
include hne hturns

theorem sessionAnswers_kept :
    (sessionAnswers host actor customerId hc).Kept (host.conversation s acts).hist := by
  intro call hcall s
  exact heeds_tool hc hne host fun boundId hbound => hturns boundId (hbound ▸ hcall)

include hc h0

/-- A session of one customer stays so, and has only his records, and each intent once. -/
theorem session_isolation :
    (host.conversation s acts).hist.state.session.Owned actor customerId :=
  System.Answers.inv_run (A := sessionAnswers host actor customerId hc) h0
    (sessionAnswers_kept host actor customerId hc hne s acts hturns)

theorem answered_of_returned {τ : ℕ} {reply : ToolReply}
    (ha : (host.conversation s acts).tasks[τ]? = some (.ret reply)) :
    ∃ call, (host.conversation s acts).hist.calls[τ]? = some call ∧
      call.Answered host actor customerId (host.conversation s acts).hist.state.audited
        (((host.conversation s acts).hist.own τ).map Entry.event) reply :=
  System.Answers.yielded_trace (A := sessionAnswers host actor customerId hc) h0
    (sessionAnswers_kept host actor customerId hc hne s acts hturns)
    (fun call _ => yields_tool hc hne call) ha

end

section

/-- A host for texts of ASCII that are no dates. -/
def plainHost : ToolHost where
  lower := String.toLower
  daysAround _ := .ok none
  daysSince _ _ := none

def deskOrder (orderId customerId : String) : CrmOrder where
  orderId
  customerId
  total := (2599, 2)
  status := "delivered"
  daysSinceDelivery := some 3
  paymentMethod := some "card"
  orderDate := some "2026-02-15"
  merchantName := "TechMart"
  deliveryDate := none
  shippingAddress := none

/-- Two customers with an order each. -/
def deskCrm : CrmDb where
  orders := [deskOrder "ORD-1" "CUST-456", deskOrder "ORD-2" "CUST-789"]
  customers :=
    [⟨"CUST-456", "Jane", "jane@example.com", []⟩, ⟨"CUST-789", "Joe", "joe@example.com", []⟩]

def deskSession (customerId : Option String) : ToolSession where
  customerId
  actorRole := some "customer_service_rep"
  actorPermissions := ["order:read", "refund:write"]

/-- The tools take their operations in turns. -/
def inTurns (calls : List SessionCall) (n : ℕ) : List plainHost.system.Move :=
  calls.map .spawn ++
    (List.range n).flatMap fun _ => (List.range calls.length).map fun τ => .run τ {}

def deskTalk (customerId : Option String) (calls : List SessionCall) (n : ℕ) :
    plainHost.system.Config :=
  plainHost.conversation ⟨deskSession customerId, deskCrm, [], 0⟩ (inTurns calls n)

/-- A search, an order of the customer's, and an order of somebody else's. -/
def deskReads : List SessionCall := [
  .searchOrders ⟨"CUST-456", none, none, none⟩, .lookupOrder "ORD-1", .lookupOrder "ORD-2"]

theorem calls_deskTalk {customerId : Option String} {calls : List SessionCall} {n : ℕ}
    {call : SessionCall} (h : call ∈ (deskTalk customerId calls n).hist.calls) : call ∈ calls := by
  have hspawn := (System.spawn_of_call h).resolve_left List.not_mem_nil
  simpa [inTurns] using hspawn

theorem owned_deskSession : (deskSession (some "CUST-456")).Owned
    (deskSession (some "CUST-456")).toSessionActor "CUST-456" where
  byActor := rfl
  order _ h := by cases h
  customer _ h := by cases h
  dispute _ h := by cases h
  alert _ h := by cases h
  transactions _ h := by cases h
  devices _ h := by cases h
  pending _ h := absurd h List.not_mem_nil
  distinct := .nil

theorem session_isolation_reads :
    (deskTalk (some "CUST-456") deskReads 8).hist.state.session.Owned
      (deskSession (some "CUST-456")).toSessionActor "CUST-456" := by
  refine session_isolation plainHost _ "CUST-456" rfl (by decide) _ _ (fun boundId h => ?_)
    owned_deskSession
  have hcall := calls_deskTalk h
  simp [deskReads] at hcall

/-- A session without a customer becomes that of whoever's order it looks up. -/
example : (deskTalk none [.lookupOrder "ORD-2"] 8).hist.state.session.customerId =
    some "CUST-789" := by
  decide +kernel

/-- Nobody asks whether the session may read transactions, or whose account it is. -/
example : "transaction:read" ∉ (deskSession (some "CUST-456")).actorPermissions ∧
    ((deskTalk (some "CUST-456") [.getAccountTransactions "ACC-9" 30] 8).hist.state.session
      ).transactionData.isSome = true := by
  decide +kernel

theorem returned_deskReads :
    (((deskTalk (some "CUST-456") deskReads 8).tasks[0]?).bind Prog.returned).isSome = true := by
  decide +kernel

end

end WorkflowEngine
