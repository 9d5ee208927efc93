import WorkflowEngine.Proofs.DeskTasks
import WorkflowEngine.Proofs.HandoffAgents

/-! The handoff endpoints in any interleaving. Every handoff is of a case of a customer whom its
requester serves, its ticket carries what it was opened with, and it moves along the allowed
transitions: into the queue when it has its ticket, and from then on only at the callbacks of the
human-agent platform. -/

namespace WorkflowEngine

open Interleave Relational SQLiteHandoffQueueAdapter

abbrev CaseTable := Table Unit String fun _ => CaseRecord.caseId

abbrev HandoffDesk.log (desk : HandoffDesk) (cases : CaseTable) (acts : List desk.system.Move) :
    HandoffDesk.Log := (desk.run cases acts).hist

section
variable {desk : HandoffDesk} {cases : CaseTable} {acts : List desk.system.Move}

theorem desk_kept : (deskAnswers desk).Kept (desk.log cases acts) := fun call _ s =>
  (heeds_body desk call : (desk.body call).Heeds s.Tells _).mono fun _ h => h.1

/-- An operation of the run is one that its call may perform, by what the desk holds in the end. -/
theorem within_of_mem {x : Entry deskSig} (hx : x ∈ (desk.log cases acts).trace) :
    ∃ call, (desk.log cases acts).calls[x.tid]? = some call ∧
      call.Does (desk.log cases acts).state x.op :=
  System.Answers.heeded_run (A := deskAnswers desk) trivial
    desk_kept (fun call _ => heeds_body desk call) hx

theorem HandoffTicket.opening_inj {t t' : HandoffTicket} (h : t.opening = t'.opening) :
    t.providerTicketId = t'.providerTicketId ∧ t.handoffId = t'.handoffId ∧
      t.request = t'.request := by
  simpa [HandoffTicket.opening] using h

theorem HandoffRecord.opening_inj {r r' : HandoffRecord} (h : r.opening = r'.opening) :
    r.handoffId = r'.handoffId ∧ r.conversationId = r'.conversationId ∧ r.caseId = r'.caseId ∧
      r.context = r'.context := by
  simpa [HandoffRecord.opening] using h

/-- Requests open handoffs for what is the same in all of their states. -/
theorem CreateHandoffRequest.Opens.congr {request : CreateHandoffRequest} {s : DeskState}
    {actor : UserContext} {r r' : HandoffRecord} (h : request.Opens s actor r)
    (he : r'.opening = r.opening) : request.Opens s actor r' := by
  obtain ⟨-, hconversation, hcase, hcontext⟩ := HandoffRecord.opening_inj he
  exact ⟨hconversation.trans h.conversation, hcase.trans h.caseId, hcontext.trans h.context,
    h.permitted, h.serves, h.owned⟩

/-- A handoff of the run was opened by a request. -/
theorem opened_of_holds {r : HandoffRecord} (hr : (desk.log cases acts).state.Holds r) :
    ∃ request actor, .create request actor ∈ (desk.log cases acts).calls ∧
      request.Opens (desk.log cases acts).state actor r := by
  have hempty : ¬ (⟨.empty, cases, .empty⟩ : DeskState).Holds r := by
    rintro ⟨r', hr', -⟩
    cases hr'
  obtain ⟨x, hx, e, s, -, hbefore, hafter⟩ := System.entry_of_change
    (c := desk.system.init ⟨.empty, cases, .empty⟩) (M := fun s => s.Holds r) (fun _ _ h => h)
    hempty hr
  obtain ⟨call, hcall, -, hwithin⟩ := within_of_mem hx
  rcases DeskState.holds_exec hafter with h | ⟨record, ho, he⟩
  · exact absurd h hbefore
  · rw [ho] at hwithin
    obtain ⟨request, actor, rfl, hopens⟩ := hwithin
    exact ⟨request, actor, List.mem_of_getElem? hcall, hopens.congr he.symm⟩

/-- A ticket of the run was made by a request for the handoff that it had opened. -/
theorem ticketed_of_queues {t : HandoffTicket} (ht : (desk.log cases acts).state.Queues t) :
    ∃ request actor r, .create request actor ∈ (desk.log cases acts).calls ∧
      (desk.log cases acts).state.Holds r ∧ request.Opens (desk.log cases acts).state actor r ∧
      request.Tickets r t := by
  have hempty : ¬ (⟨.empty, cases, .empty⟩ : DeskState).Queues t := by
    rintro ⟨t', ht', -⟩
    cases ht'
  obtain ⟨x, hx, e, s, -, hbefore, hafter⟩ := System.entry_of_change
    (c := desk.system.init ⟨.empty, cases, .empty⟩) (M := fun s => s.Queues t) (fun _ _ h => h)
    hempty ht
  obtain ⟨call, hcall, -, hwithin⟩ := within_of_mem hx
  rcases DeskState.queues_exec hafter with h | ⟨t', ho, he⟩
  · exact absurd h hbefore
  · rw [ho] at hwithin
    obtain ⟨request, actor, r, rfl, hholds, hopens, htickets⟩ := hwithin
    obtain ⟨hid, hhandoff, hrequest⟩ := HandoffTicket.opening_inj he
    exact ⟨request, actor, r, List.mem_of_getElem? hcall, hholds, hopens,
      hid.symm.trans htickets.ticketId, hhandoff.symm.trans htickets.handoffId,
      hrequest.symm.trans htickets.request⟩

end

/-- Whoever asks for a handoff serves the customer of its case, and says nothing else to the
platform about whose it is; the platform's tickets are of the handoffs so opened. -/
theorem handoffs_scoped (desk : HandoffDesk) (cases : CaseTable) (acts : List desk.system.Move) :
    (∀ id r, (desk.log cases acts).state.handoffs.get? () id = some r →
      ∃ request actor, .create request actor ∈ (desk.log cases acts).calls ∧
        request.Opens (desk.log cases acts).state actor r) ∧
    ∀ t ∈ (desk.log cases acts).state.tickets.rows, ∃ request actor r,
      .create request actor ∈ (desk.log cases acts).calls ∧
      (desk.log cases acts).state.handoffs.get? () t.handoffId = some r ∧
      request.Opens (desk.log cases acts).state actor r ∧ request.Tickets r t := by
  refine ⟨fun id r hr => opened_of_holds (DeskState.holds_of_get hr).2, fun t ht => ?_⟩
  obtain ⟨request, actor, r, hcall, ⟨r', hr', he⟩, hopens, htickets⟩ :=
    ticketed_of_queues (DeskState.queues_of_get ((Table.mem_rows .primary).1 ht)).2
  obtain ⟨hid, hconversation, hcase, hcontext⟩ := HandoffRecord.opening_inj he
  refine ⟨request, actor, r', hcall, htickets.handoffId ▸ hr', hopens.congr he, ?_⟩
  exact ⟨hid ▸ htickets.ticketId, hid ▸ htickets.handoffId, by
    rw [htickets.request, hid, hconversation, hcase, hcontext]⟩

/-- An operation on the handoffs. -/
def handoffEntry? (x : Entry deskSig) : Option (Entry handoffSig) :=
  match x with
  | ⟨tid, .inl o, res⟩ => some ⟨tid, o, res⟩
  | ⟨_, .inr _, _⟩ => none

/-- What the handoff store sees of a history. -/
def HandoffDesk.Log.handoffs (h : HandoffDesk.Log) : HandoffLog :=
  ⟨h.state.store, h.trace.filterMap handoffEntry?, [], []⟩

theorem DeskState.store_exec (s : DeskState) (e : DeskChoice) (o : HandoffOp) :
    (s.exec e (.inl o)).2.store = (s.store.exec ⟨e.now, e.uuid, e.newCase.caseId⟩ o).2 := by
  have hcases : (s.store.exec ⟨e.now, e.uuid, e.newCase.caseId⟩ o).2.cases = s.store.cases := by
    cases o with
    | create record =>
      change (SQLiteCoreStore.createHandoff s.store record).2.cases = _
      unfold SQLiteCoreStore.createHandoff
      split_ifs
      · cases s.store.handoffs.insert? { record with assignedAgentId := none } <;> rfl
      · rfl
    | transition id source target agentId now =>
      change (SQLiteCoreStore.compareAndSet s.store id source target agentId now).2.cases = _
      unfold SQLiteCoreStore.compareAndSet
      dsimp only
      split_ifs <;> rfl
    | _ => rfl
  have hsame : ∀ st : HandoffState, st.cases = s.store.cases →
      (⟨st.handoffs, s.store.cases⟩ : HandoffState) = st := by
    rintro ⟨handoffs, ids⟩ h
    cases h
    rfl
  exact hsame _ hcases

section
variable {desk : HandoffDesk} {cases : CaseTable}

theorem tid_of_step {id : String} {x : Entry handoffSig} {step : HandoffStep}
    (h : handoffStep? id x = some step) : x.tid = step.tid := by
  obtain ⟨tid, o, res⟩ := x
  cases o with
  | transition id' source target agentId now =>
    cases res with
    | error err => cases h
    | ok u =>
      simp only [handoffStep?] at h
      split_ifs at h
      cases h
      rfl
  | _ => cases h

/-- What performing an operation does to a handoff of the desk. -/
theorem deskMoves_after {h : desk.system.History} {τ : ℕ} {o : deskSig.Op} (e : DeskChoice)
    (ho : DeskPermitted o) (id : String) :
    HandoffMoves (HandoffDesk.Log.handoffs h) (HandoffDesk.Log.handoffs (desk.system.after h τ o e))
      id := by
  cases o with
  | inl o =>
    have hafter : HandoffDesk.Log.handoffs (desk.system.after h τ (.inl o) e) =
        handoffSystem.after (HandoffDesk.Log.handoffs h) τ o
          ⟨e.now, e.uuid, e.newCase.caseId⟩ :=
      congr (congrArg (fun st trace => (⟨st, trace, [], []⟩ : HandoffLog))
        (DeskState.store_exec h.state e o)) (List.filterMap_append ..)
    rw [hafter]
    exact handoffMoves_after _ ho id
  | inr o =>
    refine .still ?_ ?_
    · exact congrArg (fun t : Handoffs => t.get? () id) (DeskState.handoffs_ticketOp h.state o)
    · simp only [HandoffDesk.Log.handoffs, HandoffLog.steps, System.after, List.filterMap_append]
      exact List.append_nil _

theorem desk_walked (acts : List desk.system.Move) (id : String) :
    Walked (desk.log cases acts).handoffs id := by
  induction acts using List.reverseRecOn with
  | nil => exact ⟨fun _ => rfl, List.isChain_singleton _, fun _ h => by cases h⟩
  | append_singleton acts a ih =>
    refine ih.moves ?_
    have hwithin := @within_of_mem desk cases (acts ++ [a])
    have hsnoc : desk.run cases (acts ++ [a]) = desk.system.next (desk.run cases acts) a :=
      System.run_snoc ..
    unfold HandoffDesk.log at hwithin ⊢
    rw [hsnoc] at hwithin ⊢
    rcases System.next_cases (desk.run cases acts) a with h | ⟨call, -, -, h⟩ |
        ⟨τ, e, o, k, -, hr, h⟩ | ⟨τ, -, h⟩ | ⟨e, -, h⟩ <;> rw [h] at hwithin ⊢
    · exact .still rfl rfl
    · exact .still rfl rfl
    · obtain ⟨call, -, hpermitted, -⟩ :=
        hwithin (List.mem_append_right _ List.mem_cons_self)
      exact deskMoves_after e hpermitted id
    · exact .still rfl rfl
    · exact .still rfl rfl

variable {acts : List desk.system.Move} {id : String}

theorem entry_of_step {step : HandoffStep}
    (hs : step ∈ (desk.log cases acts).handoffs.steps id) :
    ∃ x now, x ∈ (desk.log cases acts).trace ∧ x.tid = step.tid ∧
      x.op = .inl (.transition id step.source step.target step.agentId now) := by
  obtain ⟨y, hy, hstep⟩ := List.mem_filterMap.1 hs
  obtain ⟨x, hx, hentry⟩ := List.mem_filterMap.1 hy
  obtain ⟨now, hop⟩ := transition_of_step hstep
  have htid : y.tid = step.tid := tid_of_step hstep
  refine ⟨x, now, hx, ?_⟩
  obtain ⟨tid, o, res⟩ := x
  cases o with
  | inr o => cases hentry
  | inl o =>
    cases hentry
    exact ⟨htid, congrArg Sum.inl hop⟩

/-- A step of a handoff is one of the calls that may make it. -/
theorem within_of_step {step : HandoffStep}
    (hs : step ∈ (desk.log cases acts).handoffs.steps id) :
    ∃ call now, (desk.log cases acts).calls[step.tid]? = some call ∧
      call.Within (desk.log cases acts).state
        (.inl (.transition id step.source step.target step.agentId now)) := by
  obtain ⟨x, now, hx, htid, hop⟩ := entry_of_step hs
  obtain ⟨call, hcall, -, hwithin⟩ := within_of_mem hx
  rw [htid] at hcall
  rw [hop] at hwithin
  exact ⟨call, now, hcall, hwithin⟩

end

/-- A request steps no handoff but the one that it has inserted. -/
def DeskCall.StepsOwn (xs : List (Event deskSig)) : DeskCall → deskSig.Op → Prop
  | .create _ _, .inl (.transition id ..) =>
    ∃ record, record.handoffId = id ∧ ⟨.inl (.create record), Except.ok ()⟩ ∈ xs
  | _, _ => True

theorem stepsOwn_body (desk : HandoffDesk) (call : DeskCall) (xs : List (Event deskSig)) :
    (desk.body call).Heeds (fun o r => ⟨o, r⟩ ∈ xs) (call.StepsOwn xs) := by
  cases call with
  | create request actor =>
    refine Prog.heeds_seq ?_ fun _ => trivial
    apply DeskTask.heeds_check
    intro customer _
    apply DeskTask.heeds_check
    intro _ _
    apply heeds_upstream
    intro _
    refine Prog.heeds_seq ⟨trivial, fun _ _ => trivial⟩ fun found => ?_
    cases found with
    | none => trivial
    | some case =>
      dsimp only
      split
      · trivial
      refine Prog.heeds_bind ?_ (DeskTask.yields_runtime yields_requestHandoff_created) ?_
      · apply DeskTask.heeds_runtime
        apply heeds_requestHandoff (P := (DeskCall.create request actor).StepsOwn xs)
        · trivial
        · trivial
        · exact fun _ _ _ _ _ => trivial
      intro record hrecord
      refine Prog.heeds_seq ?_ fun receipt => Prog.heeds_seq ?_ fun _ => trivial
      · apply Prog.heeds_rethrow
        exact heeds_enqueue trivial (fun _ _ _ _ => trivial) trivial
      · apply DeskTask.heeds_runtime
        apply heeds_transitionHandoff (P := (DeskCall.create request actor).StepsOwn xs)
        · trivial
        · trivial
        · exact fun _ _ _ => ⟨record, rfl, hrecord.1⟩
  | _ => exact Prog.heeds_of_issues (Prog.Issues.mono (fun _ _ => trivial) (Prog.issues_true _))

/-- The handoff that a request steps, this very request has inserted. -/
theorem inserted_of_step {desk : HandoffDesk} {cases : CaseTable} {acts : List desk.system.Move}
    {id : String} {step : HandoffStep} (hs : step ∈ (desk.log cases acts).handoffs.steps id)
    {request : CreateHandoffRequest} {actor : UserContext}
    (hcall : (desk.log cases acts).calls[step.tid]? = some (.create request actor)) :
    ∃ record, record.handoffId = id ∧
      ⟨step.tid, .inl (.create record), Except.ok ()⟩ ∈ (desk.log cases acts).trace := by
  obtain ⟨x, now, hx, htid, hop⟩ := entry_of_step hs
  obtain ⟨call, hcall', hown⟩ := System.Answers.heeded_trace (A := deskAnswers desk) trivial
    desk_kept (fun call _ xs => Prog.heeds_answers (fun _ _ h => h.2) (stepsOwn_body desk call xs))
    hx
  rw [htid] at hcall'
  cases hcall'.symm.trans hcall
  rw [hop, htid] at hown
  obtain ⟨record, hid, hmem⟩ := hown
  exact ⟨record, hid, Entry.own_event_iff.1 hmem⟩

/-- Handoffs move along the allowed transitions, into the queue by the very request that has
inserted them and has a ticket for them, and from then on by the platform; whoever has accepted one
keeps it until the platform reassigns it. -/
theorem desk_protocol (desk : HandoffDesk) (cases : CaseTable) (acts : List desk.system.Move)
    (id : String) :
    ((desk.log cases acts).handoffs.walk id).IsChain (fun a b => b ∈ a.allowed) ∧
    (∀ r, (desk.log cases acts).state.handoffs.get? () id = some r →
      ((desk.log cases acts).handoffs.walk id).getLast? = some r.status) ∧
    (∀ step ∈ (desk.log cases acts).handoffs.steps id, ∃ call now,
      (desk.log cases acts).calls[step.tid]? = some call ∧
      call.Within (desk.log cases acts).state
        (.inl (.transition id step.source step.target step.agentId now)) ∧
      ∀ request actor, call = .create request actor → ∃ record, record.handoffId = id ∧
        ⟨step.tid, .inl (.create record), Except.ok ()⟩ ∈ (desk.log cases acts).trace) ∧
    ∀ pre mid post s t, (desk.log cases acts).handoffs.steps id = pre ++ s :: mid ++ t :: post →
      s.target = .accepted → t.target = .accepted → ∃ u ∈ mid, ∃ actor,
        (desk.log cases acts).calls[u.tid]? = some (.callback id .reassigned u.agentId actor) ∧
        actor.May "provider:callback" := by
  have hw := @desk_walked desk cases acts id
  refine ⟨hw.chain, hw.last, fun step hstep => ?_, fun pre mid post s t hsteps hs ht => ?_⟩
  · obtain ⟨call, now, hcall, hwithin⟩ := within_of_step hstep
    refine ⟨call, now, hcall, hwithin, ?_⟩
    rintro request actor rfl
    exact inserted_of_step hstep hcall
  obtain ⟨u, hu, hreassigned⟩ := reassigned_between hw hsteps hs ht
  obtain ⟨call, now, hcall, hwithin⟩ := @within_of_step desk cases acts id u (by
    rw [hsteps]
    exact List.mem_append_left _ (List.mem_append_right _ (List.mem_cons_of_mem _ hu)))
  rw [hreassigned] at hwithin
  rcases hwithin with ⟨request, actor, r, ticket, -, -, -, -, -, -, -, hqueued, -⟩ |
      ⟨actor, rfl, hmay⟩
  · cases hqueued
  · exact ⟨u, hu, actor, hcall, hmay⟩

/-- What the desk answers: of the store, and of the request. -/
def DeskCall.Answered (s : DeskState) : DeskCall → DeskReply → Prop
  | .create request actor, reply => ∃ record receipt, reply = .created record receipt ∧
      s.Holds record ∧ request.Opens s actor record ∧
      s.Receipts (SQLiteHandoffQueueAdapter.ticketId record.handoffId) receipt
  | .get id actor, reply => actor.May "case:read" ∧ ∃ record, reply = .handoff record ∧
      record.handoffId = id ∧ s.Holds record
  | .callback id _ _ actor, reply => actor.May "provider:callback" ∧ ∃ record,
      reply = .handoff record ∧ record.handoffId = id ∧ s.Holds record
  | .setStatus id _, reply => ∃ receipt, reply = .receipt receipt ∧ s.Receipts id receipt

section
variable {s : DeskState} {desk : HandoffDesk}

theorem yields_createHandoff {request : CreateHandoffRequest} {actor : UserContext} :
    (desk.createHandoff request actor).Yields s.Tells fun created =>
      s.Holds created.1 ∧ request.Opens s actor created.1 ∧
        s.Receipts (SQLiteHandoffQueueAdapter.ticketId created.1.handoffId) created.2 := by
  refine DeskTask.yields_check fun customer hcustomer => DeskTask.yields_check fun _ hmay =>
    yields_upstream fun _ => ?_
  refine Prog.yields_bind (R := fun found => ∀ case, found = some case →
    s.cases.get? () request.caseId = some case) (fun _ h => h) fun found hfound => ?_
  cases found with
  | none => trivial
  | some case =>
    dsimp only
    split
    · trivial
    case isFalse howner =>
      refine Prog.yields_bind (DeskTask.yields_runtime yields_requestHandoff)
        fun record hrecord => ?_
      obtain ⟨hholds, hconversation, hcase, hcontext⟩ := hrecord
      have hopens : request.Opens s actor record :=
        opens_of_checked hcustomer hmay (hfound case rfl) (not_not.1 howner) hconversation hcase
          hcontext
      refine Prog.yields_bind (Prog.yields_rethrow yields_enqueue) fun receipt hreceipt => ?_
      refine Prog.yields_bind (DeskTask.yields_runtime yields_transitionHandoff)
        fun queued hqueued => ?_
      have hsame := hqueued.2.opening_eq hholds hqueued.1
      refine ⟨hqueued.2, hopens.congr hsame, ?_⟩
      rw [hqueued.1]
      exact hreceipt

theorem yields_desk (call : DeskCall) : (desk.body call).Yields s.Tells (call.Answered s) := by
  cases call with
  | create request actor =>
    exact Prog.yields_bind yields_createHandoff fun created h => ⟨created.1, created.2, rfl, h⟩
  | get id actor =>
    refine Prog.yields_bind (R := fun record => actor.May "case:read" ∧ record.handoffId = id ∧
      s.Holds record) (DeskTask.yields_check fun _ hmay => ?_) fun record h =>
        ⟨h.1, record, rfl, h.2⟩
    refine Prog.yields_bind (R := fun found : Option HandoffRecord =>
        ∀ r, found = some r → r.handoffId = id ∧ s.Holds r) (fun _ h => h) fun found hfound => ?_
    cases found with
    | none => trivial
    | some record => exact ⟨permitted_of_require hmay, hfound record rfl⟩
  | callback id status agentId actor =>
    refine Prog.yields_bind (R := fun record => actor.May "provider:callback" ∧
      record.handoffId = id ∧ s.Holds record) (DeskTask.yields_check fun _ hmay =>
        yields_upstream fun _ => Prog.yields_mono (fun _ h => ⟨permitted_of_require hmay, h⟩)
          (DeskTask.yields_runtime yields_transitionHandoff)) fun record h =>
            ⟨h.1, record, rfl, h.2⟩
  | setStatus id status =>
    refine Prog.yields_bind (Prog.yields_rethrow (Prog.yields_perform fun _ _ =>
      Prog.yields_perform fun _ _ => Prog.yields_skip fun _ => yields_status)) fun receipt h =>
        ⟨receipt, rfl, h⟩

end

/-- Whatever the desk has answered is of a handoff in its store, opened as the request says; the
receipt is of a ticket under the digest of that handoff. -/
theorem desk_replies (desk : HandoffDesk) (cases : CaseTable) (acts : List desk.system.Move)
    (τ : ℕ) (reply : DeskReply)
    (hret : (desk.run cases acts).tasks[τ]? = some (.ret reply)) :
    ∃ call, (desk.log cases acts).calls[τ]? = some call ∧
      call.Answered (desk.log cases acts).state reply :=
  System.Answers.yielded_run (A := deskAnswers desk) trivial
    desk_kept (fun call => yields_desk call) hret

def transferClerk : UserContext := buildUserContext "clerk-1" .customerServiceRep ["customer:read"]

def transferRequest : CreateHandoffRequest where
  conversationId := "CONV-1"
  caseId := "CASE-1"
  customerId := "CUST-456"
  context := [("customer_id", .str "CUST-789")]

def transferCases : CaseTable :=
  (Table.empty.insert? ⟨"CASE-1", "CUST-456", "cs_refund", "1.0.0", "active", 0⟩).getD .empty

def transferMoves : List (HandoffDesk.system {}).Move :=
  .spawn (.create transferRequest transferClerk) ::
    List.replicate 11 (.run 0 ⟨0, "1", ⟨"", "", "", "", "", 0⟩⟩)

theorem desk_replies_queued : ∃ record receipt,
    (HandoffDesk.run {} transferCases transferMoves).tasks[0]? =
      some (.ret (.created record receipt)) ∧
    transferRequest.Opens (HandoffDesk.log {} transferCases transferMoves).state transferClerk
      record := by
  have hsome : ((HandoffDesk.run {} transferCases transferMoves).tasks[0]?.bind
      Prog.returned).isSome = true := by decide +kernel
  obtain ⟨reply, hreply⟩ := Option.isSome_iff_exists.1 hsome
  obtain ⟨p, hp, hreturned⟩ := Option.bind_eq_some_iff.1 hreply
  obtain rfl := Prog.returned_eq_some.1 hreturned
  obtain ⟨call, hcall, hanswered⟩ := desk_replies {} transferCases transferMoves 0 reply hp
  unfold HandoffDesk.log HandoffDesk.run at hcall
  have hspawn := (System.spawn_of_call (List.mem_of_getElem? hcall)).resolve_left
    List.not_mem_nil
  obtain rfl : call = .create transferRequest transferClerk := by
    simpa [transferMoves] using hspawn
  obtain ⟨record, receipt, rfl, -, hopens, -⟩ := hanswered
  exact ⟨record, receipt, hp, hopens⟩

end WorkflowEngine
