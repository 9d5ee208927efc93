import WorkflowEngine.Proofs.EndpointTasks
import WorkflowEngine.Proofs.ProposalKeys

/-! Who has actions executed. Proposals are prepared by one request and confirmed by another, a
refund or an action is submitted by a third kind, and everything in between is interleaved; but
every action in the store was asked for by an actor with the permission for it, in the case of a
customer that the actor serves. -/

namespace WorkflowEngine

open Interleave Relational SQLiteCoreStore

namespace ApiCall

/-- The actor for whom a call submits an action. -/
def submitter : ApiCall → Option UserContext
  | .createRefundCommand _ actor => some actor
  | .submitConsequentialAction _ actor => some actor
  | .confirmActionProposal _ actor => some actor
  | _ => none

/-- The actor for whom a call prepares proposals. -/
def preparer : ApiCall → Option UserContext
  | .createActionProposal _ actor => some actor
  | .actionsPrepare context .. => context.request.bind (·.user)
  | .converse turn => some turn.actor
  | _ => none

/-- The actor for whom a call decides on a proposal. -/
def decider : ApiCall → Option UserContext
  | .getActionProposal _ actor => some actor
  | .confirmActionProposal _ actor => some actor
  | .cancelActionProposal _ actor => some actor
  | .actionsGetStatus context _ => context.request.bind (·.user)
  | _ => none

/-- What a call may decide a proposal into. A reader only finds it expired, and a cancellation may
find its action submitted. -/
def Decides : ApiCall → ActionProposalStatus → Prop
  | .getActionProposal .., status => status = .expired
  | .actionsGetStatus .., status => status = .expired
  | .confirmActionProposal .., status => status = .expired ∨ status = .confirmed
  | .cancelActionProposal .., status => status = .confirmed ∨ status = .cancelled
  | _, _ => False

/-- The call runs a worker. -/
def works : ApiCall → Bool
  | .runActionWorker .. => true
  | .runReconciliationWorker .. => true
  | _ => false

/-- The arguments that a call proposes with do not name another action. -/
def Tagged : ApiCall → Prop
  | .createActionProposal request _ =>
    ({ action := request.action.1, arguments := request.arguments } : ActionIntent).Tagged
  | .actionsPrepare _ action arguments .. => ({ action, arguments } : ActionIntent).Tagged
  | .converse turn => ∀ customer, ∀ raw ∈ turn.pending, ∀ request,
    turn.request customer raw = .ok request →
      ({ action := request.action, arguments := request.arguments } : ActionIntent).Tagged
  | _ => True

end ApiCall

namespace ActionProposal

theorem Becomes.typed {tagged : Prop} {p p' : ActionProposal} (h : p.Becomes p')
    (hp : p.Typed tagged) : p'.Typed tagged := by
  rcases h with rfl | ⟨-, -, now, evidence, actionId, he⟩
  · exact hp
  · rw [he]
    exact hp

theorem Becomes.preparedBy {profile : String} {actor : UserContext} {p p' : ActionProposal}
    (h : p.Becomes p') (hp : p.PreparedBy profile actor) : p'.PreparedBy profile actor := by
  rcases h with rfl | ⟨-, -, now, evidence, actionId, he⟩
  · exact hp
  · rw [he]
    exact ⟨hp.byActor, hp.customer, hp.access, hp.policy⟩

end ActionProposal

section
variable {X : Sig} (api : ApiHost X) (W : World X) (tagged : Prop)

/-- What a call may do, by the state of the store. -/
def ApiHost.rights (db : Db) (call : ApiCall) : Rights where
  acts := call.submitter.isSome = true ∨ call.works = true
  inserts c := ∃ actor, call.submitter = some actor ∧ Mediated tagged db actor c
  creates p := ∃ actor, call.preparer = some actor ∧
    p.PreparedBy api.proposals.jurisdictionProfile actor ∧ p.Typed tagged ∧ p.status = .pending
  decides proposalId status := ∃ actor, call.decider = some actor ∧ call.Decides status ∧
    db.Owns actor proposalId

variable {api W tagged}

theorem ApiHost.heeds_body (hv : Validates api.engine.validatePayload) {call : ApiCall}
    (ht : tagged → call.Tagged) (db : Db) :
    (api.body call).Heeds (Op.Tells (ActionProposal.Typed tagged) db)
      (Op.within (api.rights tagged db call)) := by
  have hpreparing : ∀ actor, call.preparer = some actor →
      (api.preparing tagged actor).Within (api.rights tagged db call) := fun actor ha =>
    ⟨False.elim, fun _ => False.elim, fun p hp => ⟨actor, ha, hp⟩, fun _ _ => False.elim⟩
  have hdeciding : ∀ actor, call.decider = some actor →
      (deciding db actor call.Decides).Within (api.rights tagged db call) := fun actor ha =>
    ⟨False.elim, fun _ => False.elim, fun _ => False.elim, fun id status hid => ⟨actor, ha, hid⟩⟩
  cases call with
  | createRefundCommand request actor =>
    refine Prog.heeds_seq (heeds_createRefundCommand (fun _ _ h => h) (Or.inl rfl)
      (Prog.yields_mono (fun _ _ _ _ => trivial) (Prog.yields_true _))
      fun order r c _ hg hfor => ?_) fun _ => trivial
    refine ⟨actor, rfl, hfor.actor, ⟨"issue_refund", hg.access, fun _ => ?_⟩, r.customerId, ?_, ?_⟩
    · rw [hfor.asks.action]
      have htag := ActionPayload.action_of_validate hg.payload
      exact (Json.str.inj (Option.some.inj htag)).symm
    · rw [hg.customerId]
      exact hg.serves
    · rw [hfor.asks.caseId]
      exact hg.stored
  | submitConsequentialAction request actor =>
    exact Prog.heeds_seq (heeds_submitConsequentialAction (Or.inl rfl)
      fun c hc _ => ⟨actor, rfl, hc⟩) fun _ => trivial
  | createActionProposal request actor =>
    exact Prog.heeds_seq (Prog.Heeds.mono (Op.within_mono (hpreparing actor rfl))
      (heeds_createActionProposal hv ht)) fun _ => trivial
  | getActionProposal proposalId actor =>
    exact Prog.heeds_seq (Prog.Heeds.mono (Op.within_mono (hdeciding actor rfl))
      heeds_getActionProposal) fun _ => trivial
  | confirmActionProposal proposalId actor =>
    exact Prog.heeds_seq (heeds_confirmActionProposal hv (Or.inl rfl)
      (fun id status hid hstatus => ⟨actor, rfl, hstatus, hid⟩) fun c hc => ⟨actor, rfl, hc⟩)
      fun _ => trivial
  | cancelActionProposal proposalId actor =>
    exact Prog.heeds_seq (Prog.Heeds.mono (Op.within_mono (hdeciding actor rfl))
      heeds_cancelActionProposal) fun _ => trivial
  | getActionStatus actionId actor =>
    exact Prog.heeds_seq heeds_getActionStatus fun _ => trivial
  | actionsPrepare context action arguments resourceType resourceId =>
    exact Prog.heeds_seq (heeds_actionsPrepare hv ht hpreparing) fun _ => trivial
  | actionsGetStatus context proposalId =>
    exact Prog.heeds_seq (heeds_actionsGetStatus fun actor ha id hid => ⟨actor, ha, rfl, hid⟩)
      fun _ => trivial
  | converse turn =>
    exact Prog.heeds_seq (Prog.Heeds.mono (Op.within_mono (hpreparing turn.actor rfl))
      (heeds_converse hv ht)) fun _ => trivial
  | runActionWorker actor owner leaseSeconds maxAttempts limit =>
    refine Prog.heeds_seq (heeds_runWorker (Or.inr rfl) ?_) fun _ => trivial
    exact Prog.issues_bind (ActionDeliveryWorker.issues_runOnce _ _) fun _ => trivial
  | runReconciliationWorker actor staleSeconds limit =>
    refine Prog.heeds_seq (heeds_runWorker (Or.inr rfl) ?_) fun _ => trivial
    refine Prog.issues_bind ((ReconciliationWorker.issues_runOnce _ _).mono fun _ h => ?_)
      fun _ => trivial
    exact Op.delivers_of_dispatches (Op.dispatches_of_reconciles h)

/-- What the store tells an endpoint stays true, and stored proposals stay typed. -/
def apiAnswers (api : ApiHost X) (W : World X) (tagged : Prop) : (api.system W).Answers where
  Pre := Op.within ⟨True, fun _ => True, ActionProposal.Typed tagged, fun _ _ => True⟩
  Inv s := ∀ id p, s.db.proposal? id = some p → p.Typed tagged
  Onward s s' := s.db.Later s'.db
  Tells s := Op.Tells (ActionProposal.Typed tagged) s.db
  refl s := ⟨.refl _, .refl _, List.prefix_refl _⟩
  trans h h' := ⟨h.onward.trans h'.onward, h.pinned.trans h'.pinned, h.events.trans h'.events⟩
  step e s o hi ho := by
    refine ⟨fun id p' hp' => ?_, later_exec ho e s⟩
    rcases proposals_exec ho e hp' with ⟨-, ht, -⟩ | ⟨p, hp, hb⟩
    · exact ht
    · exact hb.typed (hi id p hp)
  drift e s hi := ⟨hi, .refl _, .refl _, List.prefix_refl _⟩
  said e s o hi _ := tells_exec o e s hi
  kept hl h := h.later hl

theorem apiAnswers_kept (hv : Validates api.engine.validatePayload) {h : ApiHost.Log W}
    (ht : tagged → ∀ call ∈ h.calls, call.Tagged) : (apiAnswers api W tagged).Kept h := by
  intro call hc s
  refine Prog.Heeds.mono (Op.within_mono ⟨fun _ => trivial, fun _ _ => trivial, ?_,
    fun _ _ _ => trivial⟩) (ApiHost.heeds_body hv (fun htag => ht htag call hc) s.db)
  rintro p ⟨actor, -, -, htyped, -⟩
  exact htyped

variable {s : EngineState W} {acts : List (api.system W).Move}

/-- Every operation of a run keeps to the rights of its call. -/
theorem rights_run (hv : Validates api.engine.validatePayload)
    (hs : ∀ id p, s.db.proposal? id = some p → p.Typed tagged)
    (ht : tagged → ∀ call ∈ (api.history W s acts).calls, call.Tagged) {x : Entry (sig X)}
    (hx : x ∈ (api.history W s acts).trace) :
    ∃ call, (api.history W s acts).calls[x.tid]? = some call ∧
      Op.within (api.rights tagged (api.history W s acts).state.db call) x.op :=
  System.Answers.heeded_run (A := apiAnswers api W tagged) hs (apiAnswers_kept hv ht)
    (fun call hc => ApiHost.heeds_body hv (fun htag => ht htag call hc) _) hx

/-- What holds of the store at the end of a run and not at its start, a transaction of a call has
brought about, which is in the trace with its result. -/
theorem call_of_change {M : Db → Prop} (hv : Validates api.engine.validatePayload)
    (hs : ∀ id p, s.db.proposal? id = some p → p.Typed tagged)
    (ht : tagged → ∀ call ∈ (api.history W s acts).calls, call.Tagged) (h0 : ¬ M s.db)
    (h : M (api.history W s acts).state.db) :
    ∃ τ call, (api.history W s acts).calls[τ]? = some call ∧
      ∃ (t : Tx) (e : EngineChoice W) (s' : EngineState W),
        (⟨τ, Op.tx t, (t.exec s'.clock e.ids s'.db).1⟩ : Entry (sig X)) ∈
          (api.history W s acts).trace ∧
        Op.within (X := X) (api.rights tagged (api.history W s acts).state.db call) (.tx t) ∧
        ¬ M s'.db ∧ M (t.exec s'.clock e.ids s'.db).2 := by
  obtain ⟨x, hx, e, s', hres, hbefore, hafter⟩ := System.entry_of_change
    (c := (api.system W).init s) (M := fun s => M s.db) (fun _ _ hm => hm) h0 h
  obtain ⟨call, hcall, hwithin⟩ := rights_run hv hs ht hx
  obtain ⟨τ, o, r⟩ := x
  cases o with
  | tx t =>
    have hresult : r = (t.exec s'.clock e.ids s'.db).1 := hres
    rw [hresult] at hx
    exact ⟨τ, call, hcall, t, e, s', hx, hwithin, hbefore, hafter⟩
  | _ => exact absurd hafter hbefore

/-- Whoever has had an action stored. -/
theorem mediated_of_stored (hv : Validates api.engine.validatePayload)
    (hs : ∀ id p, s.db.proposal? id = some p → p.Typed tagged)
    (ht : tagged → ∀ call ∈ (api.history W s acts).calls, call.Tagged) {id : String}
    {a : ActionRecord} (ha : (api.history W s acts).state.db.action? id = some a)
    (hnew : s.db.action? id = none) :
    ∃ call ∈ (api.history W s acts).calls, ∃ actor, call.submitter = some actor ∧
      Mediated tagged (api.history W s acts).state.db actor a.command := by
  obtain ⟨τ, call, hcall, t, e, s', -, hwithin, hbefore, b, hb, hcommand⟩ := call_of_change
    (M := fun db => ∃ b, db.action? id = some b ∧ b.command = a.command) hv hs ht
    (by rintro ⟨b, hb, -⟩; rw [hnew] at hb; cases hb) ⟨a, ha, rfl⟩
  rcases (Tx.effect s'.clock e.ids s'.db t).action_cases hb with ⟨record, v, rfl, rfl⟩ |
      ⟨c, hc, -, he, -⟩
  · obtain ⟨-, actor, hactor, hm⟩ := hwithin
    exact ⟨call, List.mem_of_getElem? hcall, actor, hactor, hcommand ▸ hm⟩
  · exact absurd ⟨c, hc, he.symm.trans hcommand⟩ hbefore

/-- Whoever has prepared a stored proposal. -/
theorem prepared_of_stored (hv : Validates api.engine.validatePayload)
    (hs : ∀ id p, s.db.proposal? id = some p → p.Typed tagged)
    (ht : tagged → ∀ call ∈ (api.history W s acts).calls, call.Tagged) {id : String}
    {p : ActionProposal} (hp : (api.history W s acts).state.db.proposal? id = some p)
    (hnew : s.db.proposal? id = none) :
    ∃ call ∈ (api.history W s acts).calls, ∃ actor, call.preparer = some actor ∧
      p.PreparedBy api.proposals.jurisdictionProfile actor := by
  obtain ⟨τ, call, hcall, t, e, s', -, hwithin, hbefore, q, hq, hb⟩ := call_of_change
    (M := fun db => ∃ q, db.proposal? id = some q ∧ q.Becomes p) hv hs ht
    (by rintro ⟨q, hq, -⟩; rw [hnew] at hq; cases hq) ⟨p, hp, Or.inl rfl⟩
  rcases proposals_exec hwithin e hq with ⟨-, ⟨actor, hactor, hprepared, -⟩, -⟩ | ⟨r, hr, hrq⟩
  · exact ⟨call, List.mem_of_getElem? hcall, actor, hactor, hb.preparedBy hprepared⟩
  · exact absurd ⟨r, hr, hrq.trans hb⟩ hbefore

/-- The call `τ` has brought the proposal into its status, by the transaction of the trace. -/
def DecidedBy (h : ApiHost.Log W) (id : String) (p : ActionProposal) (τ : ℕ) : Prop :=
  ∃ evidence actionId,
    (⟨τ, Op.tx (.transitionProposal id .pending p.status evidence actionId),
      (.ok () : Except PyErr Unit)⟩ : Entry (sig X)) ∈ h.trace

/-- Whoever has decided on a stored proposal. -/
theorem decided_of_stored (hv : Validates api.engine.validatePayload)
    (hs : ∀ id p, s.db.proposal? id = some p → p.Typed tagged)
    (ht : tagged → ∀ call ∈ (api.history W s acts).calls, call.Tagged) {id : String}
    {p : ActionProposal} (hp : (api.history W s acts).state.db.proposal? id = some p)
    (hdecided : p.status ≠ .pending)
    (hpending : ∀ q, s.db.proposal? id = some q → q.status = .pending) :
    ∃ τ call actor, (api.history W s acts).calls[τ]? = some call ∧
      DecidedBy (api.history W s acts) id p τ ∧ call.decider = some actor ∧
      call.Decides p.status ∧ p.actorId = actor.userId ∧ actor.Serves p.customerId := by
  obtain ⟨τ, call, hcall, t, e, s', hx, hwithin, hbefore, q, hq, hnow⟩ := call_of_change
    (M := fun db => ∃ q, db.proposal? id = some q ∧ q.status = p.status) hv hs ht
    (by rintro ⟨q, hq, he⟩; exact hdecided (he ▸ hpending q hq)) ⟨p, hp, rfl⟩
  have heffect := Tx.effect s'.clock e.ids s'.db t
  rcases heffect.proposal_cases hq with ⟨rfl, -⟩ | ⟨r, hr, -, hstatus⟩
  · obtain ⟨-, -, -, -, hfresh⟩ := hwithin
    exact absurd (hnow.symm.trans hfresh) hdecided
  · rcases hstatus with hstatus | ⟨status, evidence, actionId, rfl, hs⟩
    · exact absurd ⟨r, hr, hstatus.symm.trans hnow⟩ hbefore
    · obtain rfl : status = p.status := hs.symm.trans hnow
      obtain ⟨hexpected, -, actor, hactor, hdecides, row, hrow, hown⟩ := hwithin
      obtain rfl := Option.some.inj (hrow.symm.trans hp)
      have hok := heffect.decided_ok fun he => hbefore ⟨q, he ▸ hq, hnow⟩
      rw [hexpected] at hok hx
      refine ⟨τ, call, actor, hcall, ⟨evidence, actionId, ?_⟩, hactor, hdecides, hown⟩
      rw [hok] at hx
      exact hx

theorem Mediated.asked {db : Db} {actor : UserContext} {command : ActionCommand}
    (h : Mediated tagged db actor command) (ht : tagged) : actor.MayAsk command.action := by
  obtain ⟨asked, hask, hasked⟩ := h.access
  rw [hasked (Or.inl ht)]
  exact hask

/-- The permissions of those who submit are the ones of their roles. -/
def Staffed (h : ApiHost.Log W) : Prop :=
  ∀ call ∈ h.calls, ∀ actor, call.submitter = some actor →
    actor.permissions ⊆ permissionsForRole actor.role

end

/-- Whoever has an action stored has asked for it as himself, with the permission for it, in the
case of a customer whom he serves. -/
theorem complete_mediation {X : Sig} (api : ApiHost X) (W : World X)
    (hv : Validates api.engine.validatePayload) (s : EngineState W)
    (hs : ∀ id p, s.db.proposal? id = some p → p.Made) (acts : List (api.system W).Move)
    (ht : ∀ call ∈ (api.history W s acts).calls, call.Tagged) (id : String) (a : ActionRecord)
    (ha : (api.history W s acts).state.db.action? id = some a) (hnew : s.db.action? id = none) :
    ∃ call ∈ (api.history W s acts).calls, ∃ actor, call.submitter = some actor ∧
      a.command.actorId = actor.userId ∧ actor.MayAsk a.command.action ∧
      ∃ customerId, actor.Serves customerId ∧
        (api.history W s acts).state.db.CaseOf a.command.caseId customerId := by
  have hmade : ∀ id p, s.db.proposal? id = some p → p.Typed True := fun id p hp _ => hs id p hp
  obtain ⟨call, hcall, actor, hactor, hm⟩ := mediated_of_stored hv hmade (fun _ => ht) ha hnew
  exact ⟨call, hcall, actor, hactor, hm.byActor, hm.asked trivial, hm.case⟩

section
open World

/-- A desk with one order, where only notes and refunds can be validated. -/
def apiDesk : ApiHost ⟨Empty, Empty.elim⟩ where
  proposals := typedProposals
  orders orderId := return if orderId = "ORD-1" then some {
      orderId := "ORD-1"
      customerId := "CUST-456"
      total := (2599, 2)
      status := "delivered"
      daysSinceDelivery := some 3
      paymentMethod := some "card"
      orderDate := none }
    else none
  isDev := false

def representative : UserContext := buildUserContext "rep-1" .customerServiceRep

def deskNote : ActionProposalRequest where
  customerId := ⟨"CUST-456", by decide⟩
  action := ⟨"add_case_note", by decide⟩
  arguments := [("note", .str "n")]

abbrev DeskMove := (apiDesk.system isolated).Move

/-- Let `τ` take its next `n` operations, with fresh identifiers. -/
def deskMoves (τ n : ℕ) : List DeskMove :=
  (List.range n).map fun i => .run τ ⟨fun j => toString τ ++ "." ++ toString i ++ toString j, 0, ()⟩

def deskHistory (acts : List DeskMove) : ApiHost.Log isolated :=
  apiDesk.history isolated ⟨.empty, 0, ()⟩ acts

theorem spawn_of_desk {acts : List DeskMove} {call : ApiCall}
    (h : call ∈ (deskHistory acts).calls) :
    .spawn call ∈ acts :=
  (System.spawn_of_call h).resolve_left List.not_mem_nil

/-- The representative has a note prepared, and confirms it. -/
def confirmedNote : List DeskMove :=
  .spawn (.createActionProposal deskNote representative) :: deskMoves 0 6 ++
    .spawn (.confirmActionProposal "APR-0.20" representative) :: deskMoves 1 30

theorem calls_confirmedNote {call : ApiCall} (h : call ∈ (deskHistory confirmedNote).calls) :
    call = .createActionProposal deskNote representative ∨
      call = .confirmActionProposal "APR-0.20" representative := by
  have hspawn := spawn_of_desk h
  simpa [confirmedNote, deskMoves] using hspawn

theorem stored_confirmedNote :
    ((deskHistory confirmedNote).state.db.action? "ACT-1.100").isSome = true := by
  decide +kernel

theorem complete_mediation_note :
    ∃ a, (deskHistory confirmedNote).state.db.action? "ACT-1.100" = some a ∧
      ∃ call ∈ (deskHistory confirmedNote).calls, ∃ actor, call.submitter = some actor ∧
        a.command.actorId = actor.userId ∧ actor.MayAsk a.command.action ∧
        ∃ customerId, actor.Serves customerId ∧
          (deskHistory confirmedNote).state.db.CaseOf a.command.caseId customerId := by
  obtain ⟨a, ha⟩ := Option.isSome_iff_exists.1 stored_confirmedNote
  unfold deskHistory at ha ⊢
  refine ⟨a, ha, complete_mediation apiDesk isolated ActionPayload.validates ⟨.empty, 0, ()⟩
    (fun _ _ hp => by cases hp) confirmedNote (fun call hc => ?_) "ACT-1.100" a ha rfl⟩
  rcases calls_confirmedNote hc with rfl | rfl
  · exact Or.inr fun v hv => by simp [deskNote] at hv
  · trivial

end

section
variable {actor : UserContext} {permission action : String}

theorem mem_of_hasPermission (hstaff : actor.permissions ⊆ permissionsForRole actor.role)
    (h : actor.hasPermission permission = true) : permission ∈ permissionsForRole actor.role :=
  hstaff (by simpa [UserContext.hasPermission] using h)

theorem mem_of_lookup (h : actionPermissions.lookup action = some permission) :
    (action, permission) ∈ actionPermissions := by
  obtain ⟨l1, l2, hsplit, -⟩ := List.lookup_eq_some_iff.1 h
  exact hsplit ▸ by simp

/-- Nobody without one of these roles has both a permission for an action and a customer. -/
theorem role_of_access (hstaff : actor.permissions ⊆ permissionsForRole actor.role)
    {customerId : String} (hserves : actor.Serves customerId) (hask : actor.MayAsk action) :
    actor.role = .customer ∧ action = "issue_refund" ∧ actor.userId = customerId ∨
      actor.role = .customerServiceRep ∧ action ∉ ["flag_account", "submit_sar", "close_alert"] ∨
      actor.role = .supervisor ∨ actor.role = .admin := by
  obtain ⟨permission, hl, hgranted⟩ := hask
  have hread : actor.role ≠ .customer → "customer:read" ∈ permissionsForRole actor.role := by
    intro hrole
    rw [UserContext.Serves, if_neg hrole] at hserves
    exact mem_of_hasPermission hstaff hserves
  have hpermission : actor.role ≠ .customer → actor.role ≠ .admin →
      permission ∈ permissionsForRole actor.role := by
    intro hcustomer hadmin
    rcases hgranted with ⟨hrole, -⟩ | hrole | hhas
    · exact absurd hrole hcustomer
    · exact absurd hrole hadmin
    · exact mem_of_hasPermission hstaff hhas
  cases hrole : actor.role with
  | admin => simp
  | supervisor => simp
  | customerServiceRep =>
    right
    left
    rw [hrole] at hpermission
    have hmem := hpermission (by decide) (by decide)
    refine ⟨rfl, fun haction => ?_⟩
    simp only [List.mem_cons, List.not_mem_nil, or_false] at haction
    rcases haction with rfl | rfl | rfl <;> cases hl <;> exact absurd hmem (by decide)
  | fraudAnalyst =>
    rw [hrole] at hread
    exact absurd (hread (by decide)) (by decide)
  | readonly =>
    rw [hrole] at hpermission
    have hnone : ∀ entry ∈ actionPermissions, entry.2 ∉ permissionsForRole .readonly := by decide
    exact absurd (hpermission (by decide) (by decide)) (hnone _ (mem_of_lookup hl))
  | integration =>
    rw [hrole] at hpermission
    have hnone : ∀ entry ∈ actionPermissions, entry.2 ∉ permissionsForRole .integration := by decide
    exact absurd (hpermission (by decide) (by decide)) (hnone _ (mem_of_lookup hl))
  | customer =>
    left
    rw [UserContext.Serves, if_pos hrole] at hserves
    refine ⟨rfl, ?_, hserves⟩
    rcases hgranted with ⟨-, haction⟩ | hadmin | hhas
    · exact haction
    · rw [hrole] at hadmin
      cases hadmin
    · have hmem := mem_of_hasPermission hstaff hhas
      rw [hrole] at hmem
      cases hmem

end

/-- The roles, with their own permissions, have stored only what these are for: customers their
refunds, representatives no action on fraud alerts, and a fraud analyst nothing at all. -/
theorem roles_confined {X : Sig} (api : ApiHost X) (W : World X)
    (hv : Validates api.engine.validatePayload) (s : EngineState W)
    (hs : ∀ id p, s.db.proposal? id = some p → p.Made) (acts : List (api.system W).Move)
    (hstaff : Staffed (api.history W s acts)) (id : String) (a : ActionRecord)
    (ha : (api.history W s acts).state.db.action? id = some a) (hnew : s.db.action? id = none) :
    ∃ call ∈ (api.history W s acts).calls, ∃ actor, call.submitter = some actor ∧
      a.command.actorId = actor.userId ∧
      (actor.role = .customer ∧ a.command.action = "issue_refund" ∧
          (api.history W s acts).state.db.CaseOf a.command.caseId actor.userId ∨
        actor.role = .customerServiceRep ∧
          ((∀ call ∈ (api.history W s acts).calls, call.Tagged) →
            a.command.action ∉ ["flag_account", "submit_sar", "close_alert"]) ∨
        actor.role = .supervisor ∨ actor.role = .admin) := by
  have hmade : ∀ id p, s.db.proposal? id = some p →
      p.Typed (∀ call ∈ (api.history W s acts).calls, call.Tagged) := fun id p hp _ => hs id p hp
  obtain ⟨call, hcall, actor, hactor, hm⟩ := mediated_of_stored hv hmade (fun h => h) ha hnew
  obtain ⟨asked, hask, hasked⟩ := hm.access
  obtain ⟨customerId, hserves, hcase⟩ := hm.case
  refine ⟨call, hcall, actor, hactor, hm.byActor, ?_⟩
  rcases role_of_access (hstaff call hcall actor hactor) hserves hask with
      ⟨hrole, hrefund, hself⟩ | ⟨hrole, hnot⟩ | hrole | hrole
  · exact Or.inl ⟨hrole, (hasked (Or.inr hrefund)).trans hrefund, hself ▸ hcase⟩
  · exact Or.inr (Or.inl ⟨hrole, fun htag => hasked (Or.inl htag) ▸ hnot⟩)
  · exact Or.inr (Or.inr (Or.inl hrole))
  · exact Or.inr (Or.inr (Or.inr hrole))

theorem roles_confined_note :
    ∃ a, (deskHistory confirmedNote).state.db.action? "ACT-1.100" = some a ∧
      ∃ call ∈ (deskHistory confirmedNote).calls, ∃ actor, call.submitter = some actor ∧
        a.command.actorId = actor.userId ∧
        (actor.role = .customer ∧ a.command.action = "issue_refund" ∧
            (deskHistory confirmedNote).state.db.CaseOf a.command.caseId actor.userId ∨
          actor.role = .customerServiceRep ∧
            ((∀ call ∈ (deskHistory confirmedNote).calls, call.Tagged) →
              a.command.action ∉ ["flag_account", "submit_sar", "close_alert"]) ∨
          actor.role = .supervisor ∨ actor.role = .admin) := by
  obtain ⟨a, ha⟩ := Option.isSome_iff_exists.1 stored_confirmedNote
  unfold deskHistory at ha ⊢
  refine ⟨a, ha, roles_confined apiDesk World.isolated ActionPayload.validates ⟨.empty, 0, ()⟩
    (fun _ _ hp => by cases hp) confirmedNote (fun call hc actor ha => ?_) "ACT-1.100" a ha rfl⟩
  rcases calls_confirmedNote hc with rfl | rfl
  · cases ha
  · cases ha
    exact fun permission hp => by simpa [representative, buildUserContext] using hp

/-- Conversations, the MCP tools and the readers only propose: connectors are called for
submissions and workers alone, and without these nothing but proposals changes. -/
theorem work_submitted {X : Sig} (api : ApiHost X) (W : World X)
    (hv : Validates api.engine.validatePayload) (s : EngineState W)
    (hs : ∀ id p, s.db.proposal? id = some p → p.Made) (acts : List (api.system W).Move) :
    (∀ x ∈ (api.history W s acts).trace, ∀ id command, x.op = .dispatchCalled id command →
      ∃ call, (api.history W s acts).calls[x.tid]? = some call ∧
        (call.submitter.isSome = true ∨ call.works = true)) ∧
    ((∀ call ∈ (api.history W s acts).calls,
        ¬ (call.submitter.isSome = true ∨ call.works = true)) →
      s.db.SameWork (api.history W s acts).state.db) := by
  have hmade : ∀ id p, s.db.proposal? id = some p → p.Typed False := fun id p hp _ => hs id p hp
  refine ⟨fun x hx id command ho => ?_, fun hquiet => ?_⟩
  · obtain ⟨call, hcall, hwithin⟩ := rights_run hv hmade False.elim hx
    rw [ho] at hwithin
    exact ⟨call, hcall, hwithin⟩
  · by_contra hchanged
    obtain ⟨τ, call, hcall, t, e, s', -, hwithin, hbefore, hafter⟩ := call_of_change
      (M := fun db => ¬ s.db.SameWork db) hv hmade False.elim (not_not.2 (.refl _)) hchanged
    have hquiet := hquiet call (List.mem_of_getElem? hcall)
    exact hafter ((not_not.1 hbefore).trans (sameWork_of_within hquiet hwithin ..))

/-- The representative has a note prepared, and asks for it. -/
def shownNote : List DeskMove :=
  .spawn (.createActionProposal deskNote representative) :: deskMoves 0 6 ++
    .spawn (.getActionProposal "APR-0.20" representative) :: deskMoves 1 6

theorem work_submitted_note :
    ((deskHistory shownNote).state.db.proposals.rows.length = 1) ∧
      Db.empty.SameWork (deskHistory shownNote).state.db := by
  refine ⟨by decide +kernel, ?_⟩
  unfold deskHistory
  refine (work_submitted apiDesk World.isolated ActionPayload.validates ⟨.empty, 0, ()⟩
    (fun _ _ hp => by cases hp) shownNote).2 fun call hc => ?_
  have hspawn := spawn_of_desk hc
  have hcalls : call = .createActionProposal deskNote representative ∨
      call = .getActionProposal "APR-0.20" representative := by
    simpa [shownNote, deskMoves] using hspawn
  rcases hcalls with rfl | rfl <;> simp [ApiCall.submitter, ApiCall.works]

end WorkflowEngine
