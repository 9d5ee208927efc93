import WorkflowEngine.Interleave.Answers
import WorkflowEngine.Spec.ModelTools

/-! What the tools do to the session that they are called in. A tool looks at the session again
after every await on which it depends, so that what it leaves there is of the customer for whom
the session is, whatever the other tools have done meanwhile. -/

namespace WorkflowEngine

open Interleave ModelTools

/-- An intent that a tool queues in a session of the actor. -/
def QueuedBy (actor : SessionActor) (raw : Fields) : Prop :=
  ∃ action arguments resource control, raw = intentFields action arguments resource ∧
    toolControl? action = some control ∧ control.proposalOnly = true ∧
    actor.permits control = true ∧ "action" ∉ arguments.map Prod.fst

/-- The transactions of one account, whoever's it is. -/
def TransactionData.OneAccount (data : TransactionData) : Prop :=
  ∀ row ∈ data.transactions, row.accountId = data.accountId

def DeviceData.OneAccount (data : DeviceData) : Prop :=
  (∀ device ∈ data.knownDevices, device.1.accountId = data.accountId) ∧
    ∀ login ∈ data.recentLogins, login.1.accountId = data.accountId

/-- Two intents that the session would hold for one. -/
abbrev Repeats (pending raw : Fields) : Prop := (Json.dict raw).pyEq (.dict pending) = true

/-- The session is the actor's, and what it holds of orders, profiles and disputes is of the
customer. What the tools of fraud operations have left is of the accounts that they were asked for,
which nothing ties to the customer. -/
structure ToolSession.Owned (session : ToolSession) (actor : SessionActor) (customerId : String) :
    Prop where
  byActor : session.toSessionActor = actor
  order : ∀ data, session.orderData = some data → data.customerId = customerId
  customer : ∀ profile, session.customerData = some profile → profile.customerId = customerId
  dispute : ∀ data, session.disputeData = some data → data.customerId = customerId
  alert : ∀ row, session.alertData = some row → session.accountId = some row.accountId
  transactions : ∀ data, session.transactionData = some data → data.OneAccount
  devices : ∀ data, session.deviceData = some data → data.OneAccount
  pending : ∀ raw ∈ session.pendingActionIntents, QueuedBy actor raw
  distinct : session.pendingActionIntents.Pairwise fun earlier later => ¬ Repeats earlier later

def SessionUpdate.Of (customerId : String) : SessionUpdate → Prop
  | .order data => data.customerId = customerId
  | .customer row => row.customerId = customerId
  | .dispute data => data.customerId = customerId
  | .transactions data => data.OneAccount
  | .devices data => data.OneAccount
  | _ => True

/-- An operation that leaves the session the actor's, and of the customer. -/
def ToolOp.Keeps (actor : SessionActor) (customerId : String) : ToolOp → Prop
  | .update change => change.Of customerId
  | .queue raw => QueuedBy actor raw
  | .beginTurn boundId => boundId = customerId
  | _ => True

/-- What the answers tell, when the session is the actor's. -/
def ToolOp.Tells (actor : SessionActor) (audited : List ToolAudit) :
    (o : ToolOp) → toolSig.Res o → Prop
  | .session, current => current.toSessionActor = actor
  | .customer customerId, found => ∀ profile, found = some profile → profile.customerId = customerId
  | .search filter _, rows => ∀ row ∈ rows, row.customerId = filter.customerId
  | .alert alertId, found => ∀ row, found = some row → row.alertId = alertId
  | .transactions accountId, rows => ∀ row ∈ rows, row.accountId = accountId
  | .devices accountId, rows => ∀ row ∈ rows, row.accountId = accountId
  | .logins accountId, rows => ∀ row ∈ rows, row.accountId = accountId
  | .takeIntents, pending => (∀ raw ∈ pending, QueuedBy actor raw) ∧
      pending.Pairwise fun earlier later => ¬ Repeats earlier later
  | .audit entry, _ => entry ∈ audited
  | _, _ => True

namespace ToolSession

variable {session : ToolSession} {actor : SessionActor} {customerId : String}

theorem Owned.rebound (h : session.Owned actor customerId)
    (hc : actor.customerId = some customerId) :
    ({ session with customerId := some customerId } : ToolSession) = session := by
  have hcustomer : session.customerId = some customerId := by rw [← hc, ← h.byActor]
  rw [← hcustomer]

theorem Owned.update {change : SessionUpdate} (h : session.Owned actor customerId)
    (hc : actor.customerId = some customerId) (hu : change.Of customerId) :
    (session.update change).Owned actor customerId := by
  cases change with
  | order data =>
    obtain rfl : data.customerId = customerId := hu
    have hsame := congrArg toSessionActor (h.rebound hc)
    exact { h with byActor := hsame.trans h.byActor, order := fun _ hd => by cases hd; rfl }
  | dispute data =>
    obtain rfl : data.customerId = customerId := hu
    have hsame := congrArg toSessionActor (h.rebound hc)
    exact { h with byActor := hsame.trans h.byActor, dispute := fun _ hd => by cases hd; rfl }
  | customer profile => exact { h with customer := fun _ hp => by cases hp; exact hu }
  | alert row => exact { h with alert := fun _ hr => by cases hr; rfl }
  | transactions data => exact { h with transactions := fun _ hd => by cases hd; exact hu }
  | devices data => exact { h with devices := fun _ hd => by cases hd; exact hu }
  | eligibility result => exact { h with }

theorem Owned.queue {raw : Fields} (h : session.Owned actor customerId) (hr : QueuedBy actor raw) :
    (session.queue raw).Owned actor customerId := by
  unfold ToolSession.queue
  split
  case isTrue => exact h
  case isFalse hnew =>
    refine { h with pending := fun intent hi => ?_, distinct := ?_ }
    · rcases List.mem_append.1 hi with hi | hi
      · exact h.pending intent hi
      · rw [List.mem_singleton.1 hi]
        exact hr
    · refine List.pairwise_append.2 ⟨h.distinct, List.pairwise_singleton _ _, ?_⟩
      intro earlier he later hl hrepeats
      rw [List.mem_singleton.1 hl] at hrepeats
      exact hnew (List.any_eq_true.2 ⟨earlier, he, hrepeats⟩)

end ToolSession

namespace ToolState

variable {s : ToolState} {actor : SessionActor} {customerId : String} {o : ToolOp}

theorem owned_exec (h : s.session.Owned actor customerId) (hc : actor.customerId = some customerId)
    (ho : o.Keeps actor customerId) : (s.exec o).2.session.Owned actor customerId := by
  cases o with
  | update change => exact h.update hc ho
  | queue raw => exact h.queue ho
  | beginTurn customer =>
    obtain rfl : customer = customerId := ho
    have hsame := h.rebound hc
    change ({ s.session with customerId := some customer } : ToolSession).Owned actor customer
    rw [hsame]
    exact h
  | takeIntents =>
    exact { h with pending := fun _ hi => absurd hi List.not_mem_nil, distinct := .nil }
  | _ => exact h

theorem audited_exec (s : ToolState) (o : ToolOp) : s.audited <+: (s.exec o).2.audited := by
  cases o with
  | audit entry => exact List.prefix_append _ _
  | _ => exact List.prefix_refl _

theorem tells_exec (h : s.session.Owned actor customerId) :
    o.Tells actor (s.exec o).2.audited (s.exec o).1 := by
  cases o with
  | session => exact h.byActor
  | customer id => exact fun profile hp => of_decide_eq_true (List.find?_some hp :)
  | search filter bound =>
    intro row hrow
    have hmeets := (List.mem_filter.1 ((List.mem_insertionSort _).1 hrow)).2
    simp only [Bool.and_eq_true, decide_eq_true_eq] at hmeets
    exact hmeets.1.1
  | alert id => exact fun row hr => of_decide_eq_true (List.find?_some hr :)
  | transactions accountId =>
    intro row hrow
    simpa using (List.mem_filter.1 ((List.mem_insertionSort _).1 hrow)).2
  | devices accountId =>
    intro row hrow
    simpa using (List.mem_filter.1 hrow).2
  | logins accountId =>
    intro row hrow
    simpa using (List.mem_filter.1 ((List.mem_insertionSort _).1 hrow)).2
  | takeIntents => exact ⟨h.pending, h.distinct⟩
  | audit entry => exact List.mem_append_right _ List.mem_cons_self
  | _ => trivial

end ToolState

theorem ToolOp.Tells.later {actor : SessionActor} {audited audited' : List ToolAudit} {o : ToolOp}
    {r : toolSig.Res o} (ha : audited <+: audited') (h : o.Tells actor audited r) :
    o.Tells actor audited' r := by
  cases o with
  | audit entry => exact ha.subset h
  | _ => exact h

/-- A session stays its actor's, and what it has told of him stays true. -/
def sessionAnswers (host : ToolHost) (actor : SessionActor) (customerId : String)
    (hc : actor.customerId = some customerId) : host.system.Answers where
  Pre := ToolOp.Keeps actor customerId
  Inv s := s.session.Owned actor customerId
  Onward s s' := s.audited <+: s'.audited
  Tells s := ToolOp.Tells actor s.audited
  refl _ := List.prefix_refl _
  trans h h' := h.trans h'
  step _ _ _ hi ho := ⟨ToolState.owned_exec hi hc ho, ToolState.audited_exec _ _⟩
  drift _ _ hi := ⟨hi, List.prefix_refl _⟩
  said _ _ _ hi _ := ToolState.tells_exec hi
  kept hl h := h.later hl

section
variable {actor : SessionActor} {customerId : String} {A : (o : ToolOp) → toolSig.Res o → Prop}

theorem permits_of_authorizeTool {toolName : String} {bound : Option String}
    (h : actor.authorizeTool toolName bound = .ok ()) :
    (∃ control, toolControl? toolName = some control ∧ actor.permits control = true) ∧
      ∀ customerId ∈ bound, actor.customerId = some customerId := by
  unfold SessionActor.authorizeTool at h
  split at h
  case h_1 => cases h
  case h_2 control hcontrol =>
    split_ifs at h with hpermits hbound
    refine ⟨⟨control, hcontrol, by simpa using hpermits⟩, fun customerId hmem => ?_⟩
    simpa [Option.mem_def.1 hmem] using hbound

theorem heeds_authorizeTool (toolName : String) (bound : Option String) :
    (authorize toolName bound).Heeds A (ToolOp.Keeps actor customerId) :=
  Prog.heeds_perform trivial fun _ _ => Prog.heeds_of_issues (Prog.issues_ofExcept _)

/-- A session of the actor's passes the check only if the actor does. -/
theorem yields_authorizeTool (hA : ∀ current, A .session current → current.toSessionActor = actor)
    (toolName : String) (bound : Option String) :
    (authorize toolName bound).Yields A fun _ => actor.authorizeTool toolName bound = .ok () := by
  intro current hcurrent
  refine Prog.yields_ofExcept fun _ hok => ?_
  rw [← hA current hcurrent]
  exact hok

theorem yields_auditActor (hA : ∀ current, A .session current → current.toSessionActor = actor)
    (hc : actor.customerId = some customerId) (default : String) :
    (auditActor default).Yields A fun named => named = customerId := by
  intro current hcurrent
  rw [← hA current hcurrent] at hc
  change current.customerId.getD default = customerId
  rw [hc]
  rfl

/-- An order that a session of the customer's does not turn away. -/
theorem customer_of_given {current : ToolSession} {order : JoinedOrder}
    (hcurrent : current.toSessionActor = actor) (hc : actor.customerId = some customerId)
    (hne : customerId ≠ "")
    (h : ¬ (ActionBridge.given current.customerId).any (order.customerId ≠ ·) = true) :
    order.customerId = customerId := by
  rw [← hcurrent] at hc
  simpa [hc, ActionBridge.given, hne] using h

end

section
variable {actor : SessionActor} {customerId : String} {audited : List ToolAudit}

/-- An entry in the audit log for whoever the session is of. -/
theorem issues_record (entry : String → ToolAudit) (reply : ToolReply) {default : String} :
    ((auditActor default).bind fun named => (perform (.audit (entry named))).bind fun _ =>
      .ret reply).Issues (ToolOp.Keeps actor customerId) :=
  Prog.issues_bind ⟨trivial, fun _ => trivial⟩ fun _ => ⟨trivial, fun _ => trivial⟩

theorem heeds_lookupOrder (hc : actor.customerId = some customerId) (hne : customerId ≠ "")
    (host : ToolHost) (orderId : String) :
    (lookupOrder host orderId).Heeds (ToolOp.Tells actor audited)
      (ToolOp.Keeps actor customerId) := by
  refine Prog.heeds_seq (heeds_authorizeTool _ _) fun _ =>
    Prog.heeds_perform trivial fun found _ => ?_
  cases found with
  | none => trivial
  | some order =>
    refine Prog.heeds_perform trivial fun current hcurrent => ?_
    split
    case isTrue => trivial
    case isFalse hown =>
      have horder := customer_of_given hcurrent hc hne hown
      -- the items and the time are read, then the order is left in the session
      refine Prog.heeds_perform trivial fun items _ => ?_
      refine Prog.heeds_perform trivial fun now _ => ?_
      refine Prog.heeds_perform horder fun _ _ => ?_
      exact Prog.heeds_of_issues (issues_record _ _)

theorem heeds_getCustomerProfile (hc : actor.customerId = some customerId) (asked : String) :
    (getCustomerProfile asked).Heeds (ToolOp.Tells actor audited)
      (ToolOp.Keeps actor customerId) := by
  refine Prog.heeds_bind (heeds_authorizeTool _ _) (yields_authorizeTool (fun _ h => h) _ _)
    fun _ hauth => Prog.heeds_perform trivial fun found hfound => ?_
  cases found with
  | none => trivial
  | some profile =>
    have hasked := (permits_of_authorizeTool hauth).2 asked rfl
    have hprofile : profile.customerId = customerId :=
      (hfound profile rfl).trans (Option.some.inj (hasked.symm.trans hc))
    exact Prog.heeds_perform hprofile fun _ _ => trivial

theorem issues_search (host : ToolHost) (filter : OrderFilter) :
    (search host filter).Issues (ToolOp.Keeps actor customerId) := by
  unfold search
  split
  · exact ⟨trivial, fun _ => trivial⟩
  · refine Prog.issues_bind (Prog.issues_ofExcept _) fun range => ?_
    cases range <;> exact ⟨trivial, fun _ => trivial⟩

theorem issues_searchTwice (host : ToolHost) (filter : OrderFilter) :
    (searchTwice host filter).Issues (ToolOp.Keeps actor customerId) := by
  refine Prog.issues_bind (issues_search host filter) fun rows => ?_
  split
  · exact issues_search host _
  · trivial

theorem issues_describe (host : ToolHost) (rows : List CrmOrder) :
    (describe host rows).Issues (ToolOp.Keeps actor customerId) := by
  induction rows with
  | nil => trivial
  | cons row rows ih =>
    refine Prog.issues_bind ⟨trivial, fun _ => trivial⟩ fun items => ?_
    refine Prog.issues_bind ⟨trivial, fun _ => trivial⟩ fun now => ?_
    exact Prog.issues_bind ih fun _ => trivial

theorem heeds_selectMatch (found : OrderMatch) :
    (selectMatch customerId found).Heeds (ToolOp.Tells actor audited)
      (ToolOp.Keeps actor customerId) := by
  refine Prog.heeds_perform trivial fun order _ => ?_
  cases order with
  | none => trivial
  | some order =>
    dsimp only
    split
    case isTrue => trivial
    case isFalse hown =>
      exact Prog.heeds_perform trivial fun _ _ =>
        Prog.heeds_perform (not_not.1 hown) fun _ _ => trivial

theorem heeds_searchOrders (hc : actor.customerId = some customerId) (host : ToolHost)
    (filter : OrderFilter) :
    (searchOrders host filter).Heeds (ToolOp.Tells actor audited)
      (ToolOp.Keeps actor customerId) := by
  refine Prog.heeds_bind (heeds_authorizeTool _ _) (yields_authorizeTool (fun _ h => h) _ _)
    fun _ hauth => ?_
  have hasked := (permits_of_authorizeTool hauth).2 filter.customerId rfl
  obtain rfl := Option.some.inj (hasked.symm.trans hc)
  refine Prog.heeds_seq (Prog.heeds_of_issues (issues_searchTwice host filter)) fun rows =>
    Prog.heeds_perform trivial fun _ _ => ?_
  split
  · trivial
  · refine Prog.heeds_seq (Prog.heeds_of_issues (issues_describe host rows)) fun found => ?_
    split
    · exact heeds_selectMatch _
    · trivial

theorem heeds_lookupDispute (hc : actor.customerId = some customerId) (disputeId : String) :
    (lookupDispute disputeId).Heeds (ToolOp.Tells actor audited)
      (ToolOp.Keeps actor customerId) := by
  refine Prog.heeds_seq (heeds_authorizeTool _ _) fun _ =>
    Prog.heeds_perform trivial fun found _ => ?_
  cases found with
  | none => trivial
  | some dispute =>
    refine Prog.heeds_perform trivial fun current hcurrent => ?_
    split
    case isTrue => trivial
    case isFalse hown =>
      have hcustomer : current.customerId = some customerId := by rw [← hc, ← hcurrent]
      have hdispute : dispute.customerId = customerId :=
        Option.some.inj ((not_not.1 hown).trans hcustomer)
      refine Prog.heeds_perform hdispute fun _ _ => ?_
      exact Prog.heeds_of_issues (issues_record _ _)

theorem heeds_checkDisputeEligibility (host : ToolHost) (transactionId disputeType : String)
    (daysSinceNoticed : ℤ) (paymentMethod : String) :
    (checkDisputeEligibility host transactionId disputeType daysSinceNoticed
      paymentMethod).Heeds (ToolOp.Tells actor audited) (ToolOp.Keeps actor customerId) := by
  refine Prog.heeds_seq (heeds_authorizeTool _ _) fun _ => ?_
  split
  · exact Prog.heeds_perform trivial fun _ _ => trivial
  · exact Prog.heeds_perform trivial fun _ _ => Prog.heeds_of_issues (issues_record _ _)

theorem issues_getFraudAlert (alertId : String) :
    (getFraudAlert alertId).Issues (ToolOp.Keeps actor customerId) := by
  refine Prog.issues_bind ⟨trivial, fun _ => trivial⟩ fun (found : Option FraudAlertRow) => ?_
  cases found with
  | none => trivial
  | some alert =>
    exact ⟨trivial, fun _ => issues_record _ _⟩

theorem heeds_getAccountTransactions (accountId : String) (days : ℤ) :
    (getAccountTransactions accountId days).Heeds (ToolOp.Tells actor audited)
      (ToolOp.Keeps actor customerId) := by
  refine Prog.heeds_perform trivial fun rows hrows => ?_
  have hdata : ∀ flaggedCount, TransactionData.OneAccount ⟨accountId, rows, flaggedCount⟩ :=
    fun _ => hrows
  refine Prog.heeds_perform (hdata _) fun _ _ => ?_
  exact Prog.heeds_of_issues (issues_record _ _)

/-- The rows of both tables, each with its mark. -/
theorem oneAccount_of_rows {accountId : String} {devices : List DeviceRow} {logins : List LoginRow}
    (hd : ∀ row ∈ devices, row.accountId = accountId)
    (hl : ∀ row ∈ logins, row.accountId = accountId) (indicators : List String) :
    DeviceData.OneAccount {
      accountId
      knownDevices := devices.map fun device => (device, flagged device.trusted)
      recentLogins := logins.map fun login => (login, flagged login.isNew)
      riskIndicators := indicators } := by
  refine ⟨fun device hdevice => ?_, fun login hlogin => ?_⟩
  · obtain ⟨row, hrow, rfl⟩ := List.mem_map.1 hdevice
    exact hd row hrow
  · obtain ⟨row, hrow, rfl⟩ := List.mem_map.1 hlogin
    exact hl row hrow

theorem heeds_checkDeviceFingerprint (accountId : String) :
    (checkDeviceFingerprint accountId).Heeds (ToolOp.Tells actor audited)
      (ToolOp.Keeps actor customerId) := by
  refine Prog.heeds_perform trivial fun devices hdevices => ?_
  refine Prog.heeds_perform trivial fun logins hlogins => ?_
  refine Prog.heeds_perform trivial fun indicators _ => ?_
  refine Prog.heeds_perform (oneAccount_of_rows hdevices hlogins _) fun _ _ => ?_
  exact Prog.heeds_of_issues (issues_record _ _)

/-- A consequential tool queues an intent, and does nothing else. -/
theorem heeds_queue {action : String} {arguments : Fields}
    (hact : ∀ control, toolControl? action = some control → control.proposalOnly = true)
    (harg : "action" ∉ arguments.map Prod.fst) (resource : Option (String × String)) :
    (queue action arguments resource).Heeds (ToolOp.Tells actor audited)
      (ToolOp.Keeps actor customerId) := by
  refine Prog.heeds_bind (heeds_authorizeTool _ _) (yields_authorizeTool (fun _ h => h) _ _)
    fun _ hauth => ?_
  obtain ⟨control, hcontrol, hpermits⟩ := (permits_of_authorizeTool hauth).1
  exact Prog.heeds_perform ⟨action, arguments, resource, control, rfl, hcontrol,
    hact control hcontrol, hpermits, harg⟩ fun _ _ => trivial

/-- Every tool leaves the session its actor's, as long as turns are of his customer. -/
theorem heeds_tool (hc : actor.customerId = some customerId) (hne : customerId ≠ "")
    (host : ToolHost) {call : SessionCall}
    (hturn : ∀ boundId, call = .beginTurn boundId → boundId = customerId) :
    (host.body call).Heeds (ToolOp.Tells actor audited) (ToolOp.Keeps actor customerId) := by
  have hproposes : ∀ {action : String} {control : ToolControl},
      toolControl? action = some control → control.proposalOnly = true →
        ∀ control', toolControl? action = some control' → control'.proposalOnly = true :=
    fun h hp control' h' => Option.some.inj (h.symm.trans h') ▸ hp
  cases call with
  | beginTurn boundId => exact Prog.heeds_perform (hturn boundId rfl) fun _ _ => trivial
  | takeIntents => exact Prog.heeds_perform trivial fun _ _ => trivial
  | lookupOrder orderId => exact heeds_lookupOrder hc hne host orderId
  | getCustomerProfile asked => exact heeds_getCustomerProfile hc asked
  | searchOrders filter => exact heeds_searchOrders hc host filter
  | lookupDispute disputeId => exact heeds_lookupDispute hc disputeId
  | checkDisputeEligibility => exact heeds_checkDisputeEligibility host _ _ _ _
  | getFraudAlert alertId => exact Prog.heeds_of_issues (issues_getFraudAlert alertId)
  | getAccountTransactions accountId days => exact heeds_getAccountTransactions accountId days
  | checkDeviceFingerprint accountId => exact heeds_checkDeviceFingerprint accountId
  | issueProvisionalCredit disputeId =>
    exact Prog.heeds_perform trivial fun _ _ => heeds_queue (hproposes rfl rfl) (by simp) _
  | _ => exact heeds_queue (hproposes rfl rfl) (by simp) _

end

end WorkflowEngine
