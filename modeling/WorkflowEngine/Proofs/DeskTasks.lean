import WorkflowEngine.Proofs.EndpointTasks
import WorkflowEngine.Proofs.Handoffs
import WorkflowEngine.Spec.HandoffDesk

/-! What the handoff endpoints keep to. A handoff and its ticket keep what they were opened with,
so that an endpoint that goes on from either still has the case and the customer that it checked. -/

namespace WorkflowEngine

open Interleave Relational

/-- The check of `_require_permission`. -/
def UserContext.May (actor : UserContext) (permission : String) : Prop :=
  actor.role = .admin ∨ actor.hasPermission permission = true

/-- What a handoff was opened with. -/
def HandoffRecord.opening (r : HandoffRecord) : String × String × String × Fields :=
  (r.handoffId, r.conversationId, r.caseId, r.context)

def HandoffTicket.opening (t : HandoffTicket) : String × String × HandoffRequest :=
  (t.providerTicketId, t.handoffId, t.request)

namespace DeskState

/-- The handoff is there, with whatever status. -/
def Holds (s : DeskState) (r : HandoffRecord) : Prop :=
  ∃ r', s.handoffs.get? () r.handoffId = some r' ∧ r'.opening = r.opening

def Queues (s : DeskState) (t : HandoffTicket) : Prop :=
  ∃ t', s.tickets.get? .primary t.providerTicketId = some t' ∧ t'.opening = t.opening

/-- Nothing is closed, or opened anew. -/
structure Onward (s s' : DeskState) : Prop where
  handoffs : ∀ r, s.Holds r → s'.Holds r
  tickets : ∀ t, s.Queues t → s'.Queues t
  cases : ∀ id case, s.cases.get? () id = some case → s'.cases.get? () id = some case

def Tells (s : DeskState) : (o : deskSig.Op) → deskSig.Res o → Prop
  | .inl (.create record), created => created = .ok () → s.Holds record
  | .inl (.get id), found => ∀ r, found = some r → r.handoffId = id ∧ s.Holds r
  | .inr (.getCase id), found => ∀ case, found = some case → s.cases.get? () id = some case
  | .inr (.select id), found => ∀ t, found = some t → t.providerTicketId = id ∧ s.Queues t
  | _, _ => True

end DeskState

/-- The operations that the endpoints issue. -/
def DeskPermitted : deskSig.Op → Prop
  | .inl o => Permitted o
  | .inr _ => True

namespace DeskState

variable {s s' s'' : DeskState}

theorem Onward.refl (s : DeskState) : s.Onward s := ⟨fun _ h => h, fun _ h => h, fun _ _ h => h⟩

theorem Onward.trans (h : s.Onward s') (h' : s'.Onward s'') : s.Onward s'' :=
  ⟨fun r hr => h'.handoffs r (h.handoffs r hr), fun t ht => h'.tickets t (h.tickets t ht),
    fun id case hc => h'.cases id case (h.cases id case hc)⟩

theorem holds_of_get {id : String} {r : HandoffRecord} (h : s.handoffs.get? () id = some r) :
    r.handoffId = id ∧ s.Holds r := by
  have hid : r.handoffId = id := (Table.get?_eq_some.1 h).2
  exact ⟨hid, r, hid ▸ h, rfl⟩

theorem queues_of_get {id : String} {t : HandoffTicket} (h : s.tickets.get? .primary id = some t) :
    t.providerTicketId = id ∧ s.Queues t := by
  have hid : t.providerTicketId = id := (Table.get?_eq_some.1 h).2
  exact ⟨hid, t, hid ▸ h, rfl⟩

theorem Holds.opening_eq {r r' : HandoffRecord} (h : s.Holds r) (h' : s.Holds r')
    (hid : r.handoffId = r'.handoffId) : r.opening = r'.opening := by
  obtain ⟨r1, hr1, ho1⟩ := h
  obtain ⟨r2, hr2, ho2⟩ := h'
  rw [hid, hr2] at hr1
  cases hr1
  exact ho1.symm.trans ho2

/-- A handoff that is kept under every id keeps what it was opened with. -/
theorem onward_of_handoffs (hc : s'.cases = s.cases) (ht : s'.tickets = s.tickets)
    (hh : ∀ id r, s.handoffs.get? () id = some r →
      ∃ r', s'.handoffs.get? () id = some r' ∧ r'.opening = r.opening) : s.Onward s' := by
  refine ⟨?_, fun t h => ?_, fun id case h => ?_⟩
  · rintro r ⟨r1, hr1, ho1⟩
    obtain ⟨r2, hr2, ho2⟩ := hh _ r1 hr1
    exact ⟨r2, hr2, ho2.trans ho1⟩
  · unfold Queues
    rw [ht]
    exact h
  · rw [hc]
    exact h

theorem onward_of_tickets (hh : s'.handoffs = s.handoffs) (hc : s'.cases = s.cases)
    (ht : ∀ id t, s.tickets.get? .primary id = some t →
      ∃ t', s'.tickets.get? .primary id = some t' ∧ t'.opening = t.opening) : s.Onward s' := by
  refine ⟨fun r h => ?_, ?_, fun id case h => ?_⟩
  · unfold Holds
    rw [hh]
    exact h
  · rintro t ⟨t1, ht1, ho1⟩
    obtain ⟨t2, ht2, ho2⟩ := ht _ t1 ht1
    exact ⟨t2, ht2, ho2.trans ho1⟩
  · rw [hc]
    exact h

variable {e : DeskChoice}

theorem onward_handoff (s : DeskState) (o : HandoffOp) : s.Onward (s.exec e (.inl o)).2 := by
  refine onward_of_handoffs rfl rfl fun id r hr => ?_
  cases o with
  | create record =>
    rcases createHandoff_cases s.store record with ⟨-, hs⟩ | ⟨-, hnone, hrow⟩
    · exact ⟨r, (congrArg (fun st : HandoffState => st.handoffs.get? () id) hs).trans hr, rfl⟩
    · refine ⟨r, (hrow id).trans ?_, rfl⟩
      rw [if_neg]
      · exact hr
      · rintro rfl
        cases hnone.symm.trans hr
  | transition id' source target agentId now =>
    cases hres : (SQLiteCoreStore.compareAndSet s.store id' source target agentId now).1 with
    | error err =>
      exact ⟨r, (congrArg (fun st : HandoffState => st.handoffs.get? () id)
        (compareAndSet_error hres)).trans hr, rfl⟩
    | ok u =>
      obtain ⟨current, hcurrent, -, hrow⟩ := compareAndSet_ok hres
      by_cases he : id = id'
      · subst he
        obtain rfl := Option.some.inj (hcurrent.symm.trans hr)
        exact ⟨_, (hrow id).trans (if_pos rfl), rfl⟩
      · exact ⟨r, (hrow id).trans ((if_neg he).trans hr), rfl⟩
  | _ => exact ⟨r, hr, rfl⟩

theorem insertOrIgnore_cases (s : DeskState) (t : HandoffTicket) :
    (s.ticketOp (.insertOrIgnore t)).2 = s ∨
    (∀ id, (s.ticketOp (.insertOrIgnore t)).2.tickets.get? .primary id =
      if id = t.providerTicketId then some t else s.tickets.get? .primary id) ∧
    s.tickets.get? .primary t.providerTicketId = none := by
  cases hi : s.tickets.insert? t with
  | none => exact Or.inl (by simp only [ticketOp, hi, Option.getD_none])
  | some tickets =>
    refine Or.inr ⟨fun id => ?_, (Table.rows_of_insert? hi).2 .primary⟩
    simp only [ticketOp, hi, Option.getD_some]
    exact Table.get?_insert? hi .primary id

theorem setStatus_tickets (s : DeskState) (id status : String) (now : Time) :
    (s.ticketOp (.setStatus id status now)).2 = { s with
      tickets := s.tickets.updateWhere (fun t => decide (t.providerTicketId = id))
        (fun t => { t with status, updatedAt := now }) fun i _ => by cases i <;> rfl } := by
  change (s.setStatus id status now).2 = _
  unfold setStatus
  dsimp only
  split_ifs <;> rfl

theorem onward_ticket (s : DeskState) (o : TicketOp) : s.Onward (s.exec e (.inr o)).2 := by
  cases o with
  | insertOrIgnore t =>
    change s.Onward (s.ticketOp (.insertOrIgnore t)).2
    rcases insertOrIgnore_cases s t with hs | ⟨hget, hnone⟩
    · rw [hs]
      exact .refl s
    · refine onward_of_tickets rfl rfl fun id t' ht' => ⟨t', (hget id).trans ?_, rfl⟩
      rw [if_neg]
      · exact ht'
      · rintro rfl
        cases hnone.symm.trans ht'
  | setStatus id status now =>
    change s.Onward (s.ticketOp (.setStatus id status now)).2
    rw [setStatus_tickets]
    refine onward_of_tickets rfl rfl fun id' t ht => ?_
    rw [Table.get?_updateWhere, ht]
    refine ⟨_, rfl, ?_⟩
    dsimp only
    split_ifs <;> rfl
  | _ => exact .refl s

theorem onward_exec (s : DeskState) (o : deskSig.Op) : s.Onward (s.exec e o).2 := by
  cases o with
  | inl o => exact onward_handoff s o
  | inr o => exact onward_ticket s o

@[simp] theorem handoffs_ticketOp (s : DeskState) (o : TicketOp) :
    (s.ticketOp o).2.handoffs = s.handoffs := by
  cases o with
  | setStatus id status now => rw [setStatus_tickets]
  | _ => rfl

/-- A handoff was there before the operation, or has been created by it. -/
theorem holds_exec {o : deskSig.Op} {r : HandoffRecord} (h : (s.exec e o).2.Holds r) :
    s.Holds r ∨ ∃ record, o = .inl (.create record) ∧ record.opening = r.opening := by
  obtain ⟨r', hr', he⟩ := h
  cases o with
  | inr o =>
    refine Or.inl ⟨r', ?_, he⟩
    rw [← handoffs_ticketOp s o]
    exact hr'
  | inl o =>
    cases o with
    | create record =>
      rcases createHandoff_cases s.store record with ⟨-, hs⟩ | ⟨-, -, hrow⟩
      · exact Or.inl ⟨r', (congrArg (fun st : HandoffState => st.handoffs.get? () r.handoffId)
          hs).symm.trans hr', he⟩
      · have hget := (hrow r.handoffId).symm.trans hr'
        split_ifs at hget with hid
        · cases hget
          exact Or.inr ⟨record, rfl, he⟩
        · exact Or.inl ⟨r', hget, he⟩
    | transition id source target agentId now =>
      cases hres : (SQLiteCoreStore.compareAndSet s.store id source target agentId now).1 with
      | error err =>
        exact Or.inl ⟨r', (congrArg (fun st : HandoffState => st.handoffs.get? () r.handoffId)
          (compareAndSet_error hres)).symm.trans hr', he⟩
      | ok u =>
        obtain ⟨current, hcurrent, -, hrow⟩ := compareAndSet_ok hres
        have hget := (hrow r.handoffId).symm.trans hr'
        split_ifs at hget with hid
        · cases hget
          exact Or.inl ⟨current, hid ▸ hcurrent, he⟩
        · exact Or.inl ⟨r', hget, he⟩
    | _ => exact Or.inl ⟨r', hr', he⟩

theorem queues_exec {o : deskSig.Op} {t : HandoffTicket} (h : (s.exec e o).2.Queues t) :
    s.Queues t ∨ ∃ t', o = .inr (.insertOrIgnore t') ∧ t'.opening = t.opening := by
  obtain ⟨t1, ht1, he⟩ := h
  cases o with
  | inl o => exact Or.inl ⟨t1, ht1, he⟩
  | inr o =>
    cases o with
    | insertOrIgnore t' =>
      rcases insertOrIgnore_cases s t' with hs | ⟨hrow, -⟩
      · exact Or.inl ⟨t1, (congrArg (fun s : DeskState => s.tickets.get? .primary
          t.providerTicketId) hs).symm.trans ht1, he⟩
      · have hget := (hrow t.providerTicketId).symm.trans ht1
        split_ifs at hget with hid
        · cases hget
          exact Or.inr ⟨_, rfl, he⟩
        · exact Or.inl ⟨t1, hget, he⟩
    | setStatus id status now =>
      change (s.ticketOp (.setStatus id status now)).2.tickets.get? _ _ = _ at ht1
      rw [setStatus_tickets, Table.get?_updateWhere] at ht1
      obtain ⟨t2, ht2, rfl⟩ := Option.map_eq_some_iff.1 ht1
      refine Or.inl ⟨t2, ht2, ?_⟩
      rw [← he]
      split_ifs <;> rfl
    | _ => exact Or.inl ⟨t1, ht1, he⟩

theorem tells_exec (s : DeskState) (o : deskSig.Op) : (s.exec e o).2.Tells o (s.exec e o).1 := by
  cases o with
  | inl o =>
    cases o with
    | create record =>
      intro hok
      rcases createHandoff_cases s.store record with ⟨⟨err, herr⟩, -⟩ | ⟨-, -, hrow⟩
      · cases herr.symm.trans hok
      · exact ⟨_, (hrow record.handoffId).trans (if_pos rfl), rfl⟩
    | get id => exact fun r hr => holds_of_get hr
    | _ => trivial
  | inr o =>
    cases o with
    | getCase id => exact fun case hcase => hcase
    | select id => exact fun t ht => queues_of_get ht
    | _ => trivial

theorem Tells.later {o : deskSig.Op} {r : deskSig.Res o} (hon : s.Onward s') (h : s.Tells o r) :
    s'.Tells o r := by
  cases o with
  | inl o =>
    cases o with
    | create record => exact fun hok => hon.handoffs record (h hok)
    | get id => exact fun r hr => ⟨(h r hr).1, hon.handoffs r (h r hr).2⟩
    | _ => trivial
  | inr o =>
    cases o with
    | getCase id => exact fun case hcase => hon.cases id case (h case hcase)
    | select id => exact fun t ht => ⟨(h t ht).1, hon.tickets t (h t ht).2⟩
    | _ => trivial

theorem onward_drift (s : DeskState) (e : DeskChoice) :
    s.Onward { s with cases := (s.cases.insert? e.newCase).getD s.cases } := by
  refine ⟨fun _ h => h, fun _ h => h, fun id case hcase => ?_⟩
  dsimp only
  cases hi : s.cases.insert? e.newCase with
  | none => exact hcase
  | some cases =>
    rw [Option.getD_some, Table.get?_insert? hi]
    rw [if_neg]
    · exact hcase
    · rintro rfl
      cases ((Table.rows_of_insert? hi).2 ()).symm.trans hcase

end DeskState

/-- The answers of the desk stay true. -/
def deskAnswers (desk : HandoffDesk) : desk.system.Answers where
  Pre := DeskPermitted
  Inv _ := True
  Onward := DeskState.Onward
  Tells := DeskState.Tells
  refl := DeskState.Onward.refl
  trans h h' := h.trans h'
  step _ _ _ _ _ := ⟨trivial, DeskState.onward_exec _ _⟩
  drift e _ _ := ⟨trivial, DeskState.onward_drift _ e⟩
  said _ _ _ _ _ := DeskState.tells_exec _ _
  kept hl h := h.later hl

/-- A handoff that the request opens, on a case of its customer, whom the actor serves. -/
structure CreateHandoffRequest.Opens (request : CreateHandoffRequest) (s : DeskState)
    (actor : UserContext) (r : HandoffRecord) : Prop where
  conversation : r.conversationId = request.conversationId
  caseId : r.caseId = request.caseId
  context : r.context = HandoffDesk.boundContext request request.customerId
  permitted : actor.May "escalation:create"
  serves : actor.Serves request.customerId
  owned : ∃ case, s.cases.get? () request.caseId = some case ∧
    case.customerId = request.customerId

/-- The ticket that the request has made for its handoff. -/
structure CreateHandoffRequest.Tickets (request : CreateHandoffRequest) (r : HandoffRecord)
    (t : HandoffTicket) : Prop where
  ticketId : t.providerTicketId = SQLiteHandoffQueueAdapter.ticketId r.handoffId
  handoffId : t.handoffId = r.handoffId
  request : t.request = ⟨r.handoffId, r.conversationId, r.caseId, request.queue, request.priority,
    r.context⟩

/-- An operation that the call may perform, by what the desk holds. -/
def DeskCall.Within (s : DeskState) (call : DeskCall) : deskSig.Op → Prop
  | .inl (.create record) =>
    ∃ request actor, call = .create request actor ∧ request.Opens s actor record
  | .inl (.transition id source target agentId _) =>
    (∃ request actor r t, call = .create request actor ∧ r.handoffId = id ∧ s.Holds r ∧
      request.Opens s actor r ∧ t.providerTicketId = SQLiteHandoffQueueAdapter.ticketId id ∧
      s.Queues t ∧ source = .requested ∧ target = .queued ∧ agentId = none) ∨
    ∃ actor, call = .callback id target agentId actor ∧ actor.May "provider:callback"
  | .inr (.insertOrIgnore t) =>
    ∃ request actor r, call = .create request actor ∧ s.Holds r ∧ request.Opens s actor r ∧
      request.Tickets r t
  | .inr (.setStatus id status _) => call = .setStatus id status
  | _ => True

section
variable {s : DeskState} {α β : Type} {P : deskSig.Op → Prop} {R : α → Prop}
  {A : (o : deskSig.Op) → deskSig.Res o → Prop}

namespace DeskTask

theorem heeds_check {x : Except TurnError α} {f : α → DeskTask β}
    (hf : ∀ a, x = .ok a → (f a).Heeds A P) : ((check x).bind f).Heeds A P := by
  cases x with
  | ok a => exact hf a rfl
  | error e => trivial

theorem yields_check {x : Except TurnError α} {f : α → DeskTask β} {R : β → Prop}
    (hf : ∀ a, x = .ok a → (f a).Yields A R) : ((check x).bind f).Yields A R := by
  cases x with
  | ok a => exact hf a rfl
  | error e => trivial

theorem heeds_runtime {p : HandoffTask α}
    (hp : p.Heeds (fun o r => A (.inl o) r) fun o => P (.inl o)) : (runtime p).Heeds A P :=
  Prog.heeds_rethrow (Prog.heeds_lift (fun _ _ h => h) hp)

theorem yields_runtime {p : HandoffTask α} (hp : p.Yields (fun o r => A (.inl o) r) R) :
    (runtime p).Yields A R :=
  Prog.yields_rethrow (Prog.yields_lift_told (fun _ _ h => h) hp)

end DeskTask

section
variable {conversationId caseId : String} {context : Fields}
  {B : (o : handoffSig.Op) → handoffSig.Res o → Prop}

theorem heeds_requestHandoff (hnow : P (.inl .now)) (huuid : P (.inl .uuid))
    (hcreate : ∀ record : HandoffRecord, record.conversationId = conversationId →
      record.caseId = caseId → record.context = context → record.status = .requested →
      P (.inl (.create record))) :
    (ConversationRuntime.requestHandoff conversationId caseId context).Heeds B
      fun o => P (.inl o) :=
  Prog.heeds_perform hnow fun _ _ => Prog.heeds_perform huuid fun _ _ =>
    Prog.heeds_perform (hcreate _ rfl rfl rfl rfl) fun _ _ =>
      Prog.heeds_bind_ofExcept fun _ _ => trivial

/-- The handoff that is returned is the one that has been inserted. -/
theorem yields_requestHandoff_created :
    (ConversationRuntime.requestHandoff conversationId caseId context).Yields B
      fun record => B (.create record) (Except.ok ()) ∧ record.conversationId = conversationId ∧
        record.caseId = caseId ∧ record.context = context := by
  apply Prog.yields_perform
  intro now _
  apply Prog.yields_perform
  intro uuid _
  apply Prog.yields_perform
  intro created htold
  cases created with
  | error err => trivial
  | ok u => exact ⟨htold, rfl, rfl, rfl⟩

theorem yields_requestHandoff :
    (ConversationRuntime.requestHandoff conversationId caseId context).Yields
      (fun o r => s.Tells (.inl o) r)
      fun record => s.Holds record ∧ record.conversationId = conversationId ∧
        record.caseId = caseId ∧ record.context = context :=
  Prog.yields_mono (fun _ h => ⟨h.1 rfl, h.2⟩) yields_requestHandoff_created

end

section
variable {id : String} {status : HandoffStatus} {agentId : Option String}
  {B : (o : handoffSig.Op) → handoffSig.Res o → Prop}

theorem heeds_transitionHandoff (hget : P (.inl (.get id))) (hnow : P (.inl .now))
    (hstep : ∀ source now, status ∈ source.allowed →
      P (.inl (.transition id source status agentId now))) :
    (ConversationRuntime.transitionHandoff id status agentId).Heeds B fun o => P (.inl o) := by
  refine Prog.heeds_seq (Prog.heeds_perform hget fun found _ => ?_) fun current => ?_
  · cases found <;> trivial
  · split
    · trivial
    case isFalse hallowed =>
      refine Prog.heeds_perform hnow fun now _ =>
        Prog.heeds_perform (hstep current.status now (not_not.1 hallowed)) fun _ _ =>
          Prog.heeds_bind_ofExcept fun _ _ => Prog.heeds_perform hget fun found _ => ?_
      cases found <;> trivial

theorem yields_transitionHandoff :
    (ConversationRuntime.transitionHandoff id status agentId).Yields
      (fun o r => s.Tells (.inl o) r) fun record => record.handoffId = id ∧ s.Holds record := by
  refine Prog.yields_skip fun current => ?_
  split
  · trivial
  · refine Prog.yields_perform fun _ _ => Prog.yields_perform fun _ _ => Prog.yields_skip fun _ =>
      Prog.yields_perform fun found htold => ?_
    cases found with
    | none => trivial
    | some record => exact htold record rfl

end

theorem heeds_status {ticketId : String} (hselect : P (.inr (.select ticketId))) :
    (SQLiteHandoffQueueAdapter.status ticketId).Heeds A P :=
  Prog.heeds_perform hselect fun found _ => by cases found <;> trivial

/-- A receipt is of a ticket in the queue. -/
def DeskState.Receipts (s : DeskState) (ticketId : String) (receipt : HandoffReceipt) : Prop :=
  receipt.providerTicketId = ticketId ∧
    ∃ t, s.Queues t ∧ t.providerTicketId = ticketId ∧ t.handoffId = receipt.handoffId

theorem yields_status {ticketId : String} :
    (SQLiteHandoffQueueAdapter.status ticketId).Yields s.Tells (s.Receipts ticketId) := by
  refine Prog.yields_perform fun found htold => ?_
  cases found with
  | none => trivial
  | some t => exact ⟨rfl, t, (htold t rfl).2, (htold t rfl).1, rfl⟩

section
variable {request : HandoffRequest}

theorem heeds_enqueue (hnow : P (.inl .now))
    (hinsert : ∀ t : HandoffTicket,
      t.providerTicketId = SQLiteHandoffQueueAdapter.ticketId request.handoffId →
      t.handoffId = request.handoffId → t.request = request → P (.inr (.insertOrIgnore t)))
    (hselect : P (.inr (.select (SQLiteHandoffQueueAdapter.ticketId request.handoffId)))) :
    (SQLiteHandoffQueueAdapter.enqueue request).Heeds A P := by
  apply Prog.heeds_perform hnow
  intro now _
  apply Prog.heeds_perform (hinsert _ rfl rfl rfl)
  intro _ _
  exact heeds_status hselect

theorem yields_enqueue : (SQLiteHandoffQueueAdapter.enqueue request).Yields s.Tells
    (s.Receipts (SQLiteHandoffQueueAdapter.ticketId request.handoffId)) := by
  apply Prog.yields_perform
  intro now _
  apply Prog.yields_perform
  intro _ _
  exact yields_status

end

theorem queued_allowed {source : HandoffStatus} (h : HandoffStatus.queued ∈ source.allowed) :
    source = .requested := by
  revert h
  cases source <;> decide

section
variable {desk : HandoffDesk} {request : CreateHandoffRequest} {actor : UserContext}

/-- What the call may perform. -/
def DeskCall.Does (call : DeskCall) (s : DeskState) (o : deskSig.Op) : Prop :=
  DeskPermitted o ∧ call.Within s o

theorem heeds_upstream {f : Unit → DeskTask α} (hf : ∀ u, (f u).Heeds A P) :
    (desk.requireUpstreamAvailable.bind f).Heeds A P := by
  unfold HandoffDesk.requireUpstreamAvailable
  split
  · trivial
  · exact hf ()

theorem yields_upstream {f : Unit → DeskTask α} (hf : ∀ u, (f u).Yields s.Tells R) :
    (desk.requireUpstreamAvailable.bind f).Yields s.Tells R :=
  Prog.yields_skip hf

/-- What the endpoint has checked before it opens a handoff. -/
theorem opens_of_checked {customer : CustomerContext} {case : CaseRecord} {r : HandoffRecord}
    {u : Unit} (hcustomer : resolveCustomerContext actor request.customerId = .ok customer)
    (hmay : requirePermission actor "escalation:create" = .ok u)
    (hcase : s.cases.get? () request.caseId = some case)
    (howner : case.customerId = customer.customerId)
    (hconversation : r.conversationId = request.conversationId)
    (hcaseId : r.caseId = request.caseId)
    (hcontext : r.context = HandoffDesk.boundContext request customer.customerId) :
    request.Opens s actor r := by
  obtain ⟨hid, hserves⟩ := serves_of_resolve hcustomer
  exact ⟨hconversation, hcaseId, hid ▸ hcontext, permitted_of_require hmay, hserves, case, hcase,
    howner.trans hid⟩

theorem heeds_createHandoff :
    (desk.createHandoff request actor).Heeds s.Tells ((DeskCall.create request actor).Does s) := by
  refine DeskTask.heeds_check fun customer hcustomer => DeskTask.heeds_check fun _ hmay =>
    heeds_upstream fun _ => ?_
  refine Prog.heeds_bind (R := fun found => ∀ case, found = some case →
    s.cases.get? () request.caseId = some case) ⟨⟨trivial, trivial⟩, fun _ _ => trivial⟩
    (fun _ h => h) fun found hfound => ?_
  cases found with
  | none => trivial
  | some case =>
    dsimp only
    split
    · trivial
    case isFalse howner =>
      have hopens : ∀ r : HandoffRecord, r.conversationId = request.conversationId →
          r.caseId = request.caseId →
          r.context = HandoffDesk.boundContext request customer.customerId →
          request.Opens s actor r := fun r =>
        opens_of_checked hcustomer hmay (hfound case rfl) (not_not.1 howner)
      -- the handoff is inserted
      have hinsert : ∀ record : HandoffRecord, record.conversationId = request.conversationId →
          record.caseId = request.caseId →
          record.context = HandoffDesk.boundContext request customer.customerId →
          record.status = .requested →
          (DeskCall.create request actor).Does s (.inl (.create record)) := by
        intro record hconversation hcase hcontext hstatus
        exact ⟨hstatus, request, actor, rfl, hopens record hconversation hcase hcontext⟩
      have hrequested := DeskTask.heeds_runtime (A := s.Tells)
        (heeds_requestHandoff ⟨trivial, trivial⟩ ⟨trivial, trivial⟩ hinsert)
      apply Prog.heeds_bind hrequested (DeskTask.yields_runtime yields_requestHandoff)
      intro record hrecord
      obtain ⟨hholds, hconversation, hcase, hcontext⟩ := hrecord
      have hopen := hopens record hconversation hcase hcontext
      -- its ticket is made
      have hqueue : ∀ t : HandoffTicket,
          t.providerTicketId = SQLiteHandoffQueueAdapter.ticketId record.handoffId →
          t.handoffId = record.handoffId →
          t.request = ⟨record.handoffId, record.conversationId, record.caseId, request.queue,
            request.priority, record.context⟩ →
          (DeskCall.create request actor).Does s (.inr (.insertOrIgnore t)) := by
        intro t hticket hhandoff hrequest
        exact ⟨trivial, request, actor, record, rfl, hholds, hopen, hticket, hhandoff, hrequest⟩
      refine Prog.heeds_bind ?_ (Prog.yields_rethrow yields_enqueue) ?_
      · apply Prog.heeds_rethrow
        exact heeds_enqueue ⟨trivial, trivial⟩ hqueue ⟨trivial, trivial⟩
      intro receipt hreceipt
      obtain ⟨-, t, hqueued, hticket, -⟩ := hreceipt
      -- and it is moved into the queue
      have hstep : ∀ source now, HandoffStatus.queued ∈ source.allowed →
          (DeskCall.create request actor).Does s
            (.inl (.transition record.handoffId source .queued none now)) := by
        intro source now hallowed
        exact ⟨hallowed, Or.inl ⟨request, actor, record, t, rfl, rfl, hholds, hopen, hticket,
          hqueued, queued_allowed hallowed, rfl, rfl⟩⟩
      apply Prog.heeds_seq
      · exact DeskTask.heeds_runtime
          (heeds_transitionHandoff ⟨trivial, trivial⟩ ⟨trivial, trivial⟩ hstep)
      · exact fun _ => trivial

theorem heeds_body (desk : HandoffDesk) (call : DeskCall) :
    (desk.body call).Heeds s.Tells (call.Does s) := by
  cases call with
  | create request actor => exact Prog.heeds_seq heeds_createHandoff fun _ => trivial
  | get id actor =>
    refine Prog.heeds_seq (DeskTask.heeds_check fun _ _ =>
      Prog.heeds_seq ⟨⟨trivial, trivial⟩, fun _ _ => trivial⟩ fun found => ?_) fun _ => trivial
    cases found <;> trivial
  | callback id status agentId actor =>
    refine Prog.heeds_seq (DeskTask.heeds_check fun _ hmay => heeds_upstream fun _ => ?_)
      fun _ => trivial
    have hstep : ∀ source now, status ∈ source.allowed →
        (DeskCall.callback id status agentId actor).Does s
          (.inl (.transition id source status agentId now)) := by
      intro source now hallowed
      exact ⟨hallowed, Or.inr ⟨actor, rfl, permitted_of_require hmay⟩⟩
    exact DeskTask.heeds_runtime
      (heeds_transitionHandoff ⟨trivial, trivial⟩ ⟨trivial, trivial⟩ hstep)
  | setStatus id status =>
    refine Prog.heeds_seq (Prog.heeds_rethrow ?_) fun _ => trivial
    apply Prog.heeds_perform ⟨trivial, trivial⟩
    intro now _
    apply Prog.heeds_perform ⟨trivial, rfl⟩
    intro updated _
    apply Prog.heeds_bind_ofExcept
    intro _ _
    exact heeds_status ⟨trivial, trivial⟩

end
end

end WorkflowEngine
