import WorkflowEngine.Proofs.Mediation
import WorkflowEngine.Proofs.SessionIsolation

/-! From the tools of a model to the gateway. What the tools queue, the host reads and admits: the
permissions of the catalog and those of the actions agree, and no intent names an action other than
its own. What comes of it is executed only for an actor who confirms it and may ask for it. -/

namespace WorkflowEngine

open Interleave ModelTools

/-- What the session of an actor says of him, as `_generate_safe_turn` makes it. -/
def UserContext.sessionActor (actor : UserContext) (customerId : String) : SessionActor where
  customerId := some customerId
  actorRole := some actor.role.value
  actorPermissions := actor.permissions

theorem Role.value_customer {role : Role} (h : role.value = "customer") : role = .customer := by
  cases role <;> first | rfl | exact absurd h (by decide)

/-- The catalog of the tools and the table of the actions agree. -/
theorem permission_of_control {action : String} {control : ToolControl}
    (h : toolControl? action = some control) (hp : control.proposalOnly = true) :
    ∃ permission, actionPermissions.lookup action = some permission ∧
      control.requiredPermission = some permission ∧
      (control.selfServiceAllowed = true → action = "issue_refund") := by
  have htable : ∀ control ∈ toolCatalog, control.proposalOnly = true →
      (actionPermissions.lookup control.name).isSome = true ∧
      control.requiredPermission = actionPermissions.lookup control.name ∧
      (control.selfServiceAllowed = true → control.name = "issue_refund") := by decide
  have hname : control.name = action := of_decide_eq_true (List.find?_some h :)
  obtain ⟨hsome, hsame, hself⟩ := htable control (List.mem_of_find?_eq_some h) hp
  rw [hname] at hsome hsame hself
  obtain ⟨permission, hpermission⟩ := Option.isSome_iff_exists.1 hsome
  exact ⟨permission, hpermission, hsame.trans hpermission, hself⟩

section
variable {actor : UserContext} {customerId action : String} {control : ToolControl}

/-- An action that a tool may propose in a session of the actor, the host lets him ask for. -/
theorem access_of_permits (h : toolControl? action = some control)
    (hp : control.proposalOnly = true)
    (hpermits : (actor.sessionActor customerId).permits control = true) :
    requireActionAccess actor action = .ok () := by
  obtain ⟨permission, hlookup, hrequired, hself⟩ := permission_of_control h hp
  unfold requireActionAccess
  rw [hlookup]
  dsimp only
  split_ifs with hcustomer
  · rfl
  · unfold requirePermission
    rw [if_neg]
    rintro ⟨-, hnot⟩
    rcases Bool.or_eq_true_iff.1 hpermits with hhas | hservice
    · rw [hrequired] at hhas
      have hmem : permission ∈ actor.permissions := of_decide_eq_true hhas
      simp [UserContext.hasPermission, hmem] at hnot
    · simp only [SessionActor.selfService, Bool.and_eq_true, decide_eq_true_eq] at hservice
      have hrole : actor.role = .customer :=
        Role.value_customer (Option.some.inj hservice.1.2)
      exact hcustomer ⟨hrole, hself hservice.1.1⟩

theorem actionPolicy_of_permission {permission : String}
    (h : actionPermissions.lookup action = some permission) (profile : String)
    (requested : Option String) : ∃ chosen, actionPolicy profile action requested = .ok chosen := by
  have hdefault : ∃ chosen, defaultPolicy profile action = .ok chosen := by
    have htable : ∀ entry ∈ actionPermissions, ∃ procedureId ∈
        ["cs_refund", "cs_eft_dispute", "fraud_alert_triage"],
        defaultProcedureByAction.lookup entry.1 = some procedureId := by decide
    obtain ⟨procedureId, hmem, hprocedure⟩ := htable _ (mem_of_lookup h)
    have hprocedure : defaultProcedureByAction.lookup action = some procedureId := hprocedure
    unfold defaultPolicy
    rw [hprocedure]
    simp only [List.mem_cons, List.not_mem_nil, or_false] at hmem
    rcases hmem with rfl | rfl | rfl <;> exact ⟨_, rfl⟩
  obtain ⟨chosen, hchosen⟩ := hdefault
  unfold actionPolicy
  rw [hchosen]
  cases requested.bind fun procedureId =>
      ((policyByProcedure profile).lookup procedureId).map (procedureId, ·) with
  | none =>
    change ∃ found, (if action ∈ chosen.2.allowedActions then Except.ok chosen else .ok chosen) =
      .ok found
    split_ifs <;> exact ⟨_, rfl⟩
  | some own =>
    change ∃ found,
      (if action ∈ own.2.allowedActions then Except.ok own else .ok chosen) = .ok found
    split_ifs <;> exact ⟨_, rfl⟩

/-- The host reads what a tool has queued as it was meant. -/
theorem request_of_intentFields (turn : TurnIntents) (customer : CustomerContext)
    (action : String) (arguments : Fields) (resource : Option (String × String)) :
    ∃ request, turn.request customer (intentFields action arguments resource) = .ok request ∧
      request.actor = turn.actor ∧ request.action = action ∧ request.arguments = arguments := by
  have hresource : ∃ found, TurnIntents.resource (intentFields action arguments resource) =
      .ok found := by
    cases resource with
    | none => exact ⟨_, rfl⟩
    | some named =>
      unfold intentFields resourceFields
      dsimp only
      split_ifs <;> exact ⟨_, rfl⟩
  obtain ⟨found, hfound⟩ := hresource
  unfold TurnIntents.request
  rw [hfound]
  exact ⟨_, rfl, rfl, rfl, rfl⟩

/-- The arguments of a queued intent do not name an action of their own. -/
theorem tagged_of_queuedBy {session : SessionActor} {raw : Fields} (h : QueuedBy session raw)
    {turn : TurnIntents} {customer : CustomerContext} {request : ActionRequest}
    (hrequest : turn.request customer raw = .ok request) :
    ({ action := request.action, arguments := request.arguments } : ActionIntent).Tagged := by
  obtain ⟨action, arguments, resource, control, rfl, -, -, -, hnone⟩ := h
  obtain ⟨_, hread, -, haction, harguments⟩ :=
    request_of_intentFields turn customer action arguments resource
  obtain rfl := Except.ok.inj (hread.symm.trans hrequest)
  refine Or.inr fun v hv => ?_
  rw [harguments] at hv
  exact absurd (List.mem_map.2 ⟨_, hv, rfl⟩) hnone

end

/-- An intent that is handed out to the host, it reads, admits and passes on to the bridge, whose
work on it begins with the validation of its arguments. -/
theorem queued_intents_admitted {X : Sig} (proposals : ProposalHost X) (tools : ToolHost)
    (actor : UserContext) (customerId : String) (hne : customerId ≠ "") (s : ToolState)
    (h0 : s.session.Owned (actor.sessionActor customerId) customerId)
    (acts : List tools.system.Move)
    (hturns : ∀ boundId, .beginTurn boundId ∈ (tools.conversation s acts).hist.calls →
      boundId = customerId) (τ : ℕ) (pending : List Fields)
    (ha : (tools.conversation s acts).tasks[τ]? = some (.ret (.intents pending))) :
    (pending.Pairwise fun earlier later => ¬ Repeats earlier later) ∧
      ∀ raw ∈ pending, ∀ turn : TurnIntents, turn.actor = actor → ∀ customer,
        ∃ request task, turn.request customer raw = .ok request ∧
          proposals.createActionProposal request = .ok task ∧
          ({ action := request.action, arguments := request.arguments } : ActionIntent).Tagged := by
  obtain ⟨call, -, hanswered⟩ := answered_of_returned tools (actor.sessionActor customerId)
    customerId rfl hne s acts hturns h0 ha
  obtain ⟨hqueued, hdistinct⟩ := hanswered.confined
  refine ⟨hdistinct, fun raw hraw turn hturn customer => ?_⟩
  have hq := hqueued raw hraw
  obtain ⟨action, arguments, resource, control, rfl, hcontrol, hproposes, hpermits, -⟩ := hq
  obtain ⟨request, hrequest, hactor, haction, -⟩ :=
    request_of_intentFields turn customer action arguments resource
  have haccess := access_of_permits hcontrol hproposes hpermits
  obtain ⟨permission, hpermission, -⟩ := permission_of_control hcontrol hproposes
  obtain ⟨chosen, hchosen⟩ := actionPolicy_of_permission hpermission
    proposals.jurisdictionProfile request.requestedProcedure
  have htask : ∃ task, proposals.createActionProposal request = .ok task := by
    rw [← haction] at haccess hchosen
    unfold ProposalHost.createActionProposal
    rw [hactor, hturn, haccess]
    dsimp only [bind, Except.bind]
    rw [hchosen]
    exact ⟨_, rfl⟩
  obtain ⟨task, htask⟩ := htask
  exact ⟨request, task, hrequest, htask, tagged_of_queuedBy (hqueued _ hraw) hrequest⟩

section

/-- The calls of a session, one after the other. -/
def inSequence (calls : List SessionCall) (n : ℕ) : List plainHost.system.Move :=
  calls.zipIdx.flatMap fun x => .spawn x.1 :: List.replicate n (.run x.2 {})

/-- The model of the representative has a note queued twice, and the turn takes what is there. -/
def deskNotes : List SessionCall := [
  .addCaseNote "CASE-1" "n", .addCaseNote "CASE-1" "n", .takeIntents]

def noteState : ToolState where
  session := { representative.sessionActor "CUST-456" with }
  crm := {}
  audited := []
  clock := 0

def noteTalk : plainHost.system.Config :=
  plainHost.conversation noteState (inSequence deskNotes 2)

def queuedNote : Fields :=
  intentFields "add_case_note" [("case_id", .str "CASE-1"), ("note", .str "n")] none

theorem handed_noteTalk : noteTalk.tasks[2]? = some (.ret (.intents [queuedNote])) := by
  rfl

theorem owned_noteState :
    noteState.session.Owned (representative.sessionActor "CUST-456") "CUST-456" where
  byActor := rfl
  order _ h := by cases h
  customer _ h := by cases h
  dispute _ h := by cases h
  alert _ h := by cases h
  transactions _ h := by cases h
  devices _ h := by cases h
  pending _ h := absurd h List.not_mem_nil
  distinct := .nil

theorem turns_noteTalk (boundId : String) (h : .beginTurn boundId ∈ noteTalk.hist.calls) :
    boundId = "CUST-456" := by
  have hspawn := (System.spawn_of_call h).resolve_left List.not_mem_nil
  simp [inSequence, deskNotes, List.zipIdx] at hspawn

theorem queued_intents_admitted_note :
    ([queuedNote].Pairwise fun earlier later => ¬ Repeats earlier later) ∧
      ∀ raw ∈ [queuedNote], ∀ turn : TurnIntents, turn.actor = representative → ∀ customer,
        ∃ request task, turn.request customer raw = .ok request ∧
          typedProposals.createActionProposal request = .ok task ∧
          ({ action := request.action, arguments := request.arguments } : ActionIntent).Tagged :=
  queued_intents_admitted typedProposals plainHost representative "CUST-456" (by decide) noteState
    owned_noteState _ turns_noteTalk 2 [queuedNote] handed_noteTalk

end

section
variable {turn : TurnIntents}

/-- The intents of the turn are what tools have queued in a session for its customer. -/
def TurnIntents.FromTools (turn : TurnIntents) : Prop :=
  ∃ (tools : ToolHost) (actor : SessionActor) (s : ToolState) (acts : List tools.system.Move)
    (τ : ℕ), actor.customerId = some turn.customerId ∧ turn.customerId ≠ "" ∧
    s.session.Owned actor turn.customerId ∧
    (∀ boundId, .beginTurn boundId ∈ (tools.conversation s acts).hist.calls →
      boundId = turn.customerId) ∧
    (tools.conversation s acts).tasks[τ]? = some (.ret (.intents turn.pending))

theorem tagged_of_fromTools (h : turn.FromTools) : (ApiCall.converse turn).Tagged := by
  obtain ⟨tools, actor, s, acts, τ, hc, hne, h0, hturns, ha⟩ := h
  obtain ⟨call, -, hanswered⟩ :=
    answered_of_returned tools actor turn.customerId hc hne s acts hturns h0 ha
  exact fun customer raw hraw request hrequest =>
    tagged_of_queuedBy (hanswered.confined.1 raw hraw) hrequest

/-- The turns of the models have what tools have queued; who proposes without a model does not name
another action in the arguments. -/
def ApiCall.Modelled : ApiCall → Prop
  | .converse turn => turn.FromTools
  | call => call.Tagged

theorem ApiCall.Modelled.tagged {call : ApiCall} (h : call.Modelled) : call.Tagged := by
  cases call with
  | converse turn => exact tagged_of_fromTools h
  | _ => exact h

end

/-- Whoever has an action stored has asked for it as himself, with the permission for it, in the
case of a customer whom he serves, whatever the models have queued. -/
theorem model_actions_mediated {X : Sig} (api : ApiHost X) (W : World X)
    (hv : Validates api.engine.validatePayload) (s : EngineState W)
    (hs : ∀ id p, s.db.proposal? id = some p → p.Made) (acts : List (api.system W).Move)
    (hmodel : ∀ call ∈ (api.history W s acts).calls, call.Modelled) (id : String)
    (a : ActionRecord) (ha : (api.history W s acts).state.db.action? id = some a)
    (hnew : s.db.action? id = none) :
    ∃ call ∈ (api.history W s acts).calls, ∃ actor, call.submitter = some actor ∧
      a.command.actorId = actor.userId ∧ actor.MayAsk a.command.action ∧
      ∃ customerId, actor.Serves customerId ∧
        (api.history W s acts).state.db.CaseOf a.command.caseId customerId := by
  have hmade : ∀ id p, s.db.proposal? id = some p → p.Typed True := fun id p hp _ => hs id p hp
  obtain ⟨call, hcall, actor, hactor, hm⟩ := mediated_of_stored hv hmade
    (fun _ call hcall => (hmodel call hcall).tagged) ha hnew
  exact ⟨call, hcall, actor, hactor, hm.byActor, hm.asked trivial, hm.case⟩

section
open World

def noteTurn : TurnIntents where
  actor := representative
  customerId := "CUST-456"
  conversationId := "CONV-1"
  messageId := "MSG-1"
  pending := [queuedNote]

theorem fromTools_noteTurn : noteTurn.FromTools :=
  ⟨plainHost, representative.sessionActor "CUST-456", noteState, _, 2, rfl, by decide,
    owned_noteState, turns_noteTalk, handed_noteTalk⟩

/-- The turn has its note prepared, and the representative confirms it. -/
def confirmedTurn : List DeskMove :=
  .spawn (.converse noteTurn) :: deskMoves 0 10 ++
    .spawn (.confirmActionProposal "APR-0.20" representative) :: deskMoves 1 30

theorem model_actions_mediated_note :
    ∃ a, (deskHistory confirmedTurn).state.db.action? "ACT-1.100" = some a ∧
      ∃ call ∈ (deskHistory confirmedTurn).calls, ∃ actor, call.submitter = some actor ∧
        a.command.actorId = actor.userId ∧ actor.MayAsk a.command.action ∧
        ∃ customerId, actor.Serves customerId ∧
          (deskHistory confirmedTurn).state.db.CaseOf a.command.caseId customerId := by
  have hstored : ((deskHistory confirmedTurn).state.db.action? "ACT-1.100").isSome = true := by
    decide +kernel
  obtain ⟨a, ha⟩ := Option.isSome_iff_exists.1 hstored
  unfold deskHistory at ha ⊢
  refine ⟨a, ha, model_actions_mediated apiDesk isolated ActionPayload.validates ⟨.empty, 0, ()⟩
    (fun _ _ hp => by cases hp) confirmedTurn (fun call hc => ?_) "ACT-1.100" a ha rfl⟩
  have hspawn := spawn_of_desk hc
  have hcalls : call = .converse noteTurn ∨
      call = .confirmActionProposal "APR-0.20" representative := by
    simpa [confirmedTurn, deskMoves] using hspawn
  rcases hcalls with rfl | rfl
  · exact fromTools_noteTurn
  · trivial

end

end WorkflowEngine
