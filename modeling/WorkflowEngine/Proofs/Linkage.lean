import WorkflowEngine.Interleave.Trail
import WorkflowEngine.Proofs.Proposals
import WorkflowEngine.Spec.Payloads

/-! The action of a confirmed proposal. A confirmation compares what it finds under its key with
its request, but a cancellation takes any action of the key for the one of its proposal; and the
payload of a proposal may name another action than the proposal. As long as neither occurs,
a confirmed proposal is linked to its own action. -/

namespace WorkflowEngine

open Interleave Relational SQLiteCoreStore ConsequentialActionRequest

/-- What the code relies on of the validation of payloads: the model is the one that the field
`action` names, and a dumped payload is read back. -/
structure Validates (validate : Fields → Option ActionPayload) : Prop where
  tagged : ∀ {fields payload}, validate fields = some payload →
    fields.get? "action" = some (.str payload.action)
  dumped : ∀ payload, validate (ActionBridge.dumpPayload payload) = some payload

theorem ActionPayload.validates : Validates ActionPayload.validate :=
  ⟨action_of_validate, validate_dumpPayload⟩

namespace ActionProposal

/-- The payload without the field `action`. -/
def parameters (p : ActionProposal) : Fields := p.payload.filter fun kv => kv.1 ≠ "action"

/-- The command is that of the proposal. A refund is compared on the parameters that the
command has bound. -/
structure Agrees (p : ActionProposal) (c : ActionCommand) : Prop where
  action : c.action = p.action
  caseId : c.caseId = p.caseId
  policyPackageId : c.policyPackageId = p.policyPackageId
  parameters : if p.action = "issue_refund" then
      ∀ kv ∈ c.parameters, ((p.parameters.get? kv.1).getD .null).pyEq kv.2 = true
    else c.parameters.pyEq p.parameters = true

/-- The payload of the proposal is a dump, of the model that its action names. -/
def Made (p : ActionProposal) : Prop :=
  ∃ payload, p.payload = ActionBridge.dumpPayload payload ∧ payload.action = p.action

theorem parameters_of_dump {p : ActionProposal} {payload : ActionPayload}
    (h : p.payload = ActionBridge.dumpPayload payload) : p.parameters = payload.dump := by
  rw [parameters, h, ActionBridge.dumpPayload]
  cases payload <;> rfl

theorem Becomes.made {p p' : ActionProposal} (h : p.Becomes p') (hp : p'.Made) : p.Made := by
  rcases h with rfl | ⟨-, -, now, evidence, actionId, he⟩
  · exact hp
  · rw [he] at hp
    exact hp

end ActionProposal

section
variable {X : Sig} {W : World X} {host : Host X}

/-- An action that matches the request of a confirmation is that of the proposal. -/
theorem agrees_of_matches (hv : Validates host.engine.validatePayload) {p : ActionProposal}
    (hm : p.Made) {context : ActionConfirmationContext} {request : ConsequentialActionRequest}
    (hb : host.engine.bridge.buildRequest p context = .ok request) {c : ActionCommand}
    (hc : request.Matches c) : p.Agrees c := by
  obtain ⟨payload, hdump, haction⟩ := hm
  have hread : host.engine.validatePayload p.payload = some payload := hdump ▸ hv.dumped payload
  have hrequest : request.caseId = p.caseId ∧ request.policyPackageId = p.policyPackageId ∧
      request.payload = payload := by
    unfold ActionBridge.buildRequest at hb
    change (host.engine.bridge.validatePayload p.payload) = _ at hread
    cases hs : specification? p.action with
    | none =>
      simp only [hs] at hb
      cases hb
    | some specification =>
      simp only [hs, hread] at hb
      split_ifs at hb <;> cases hb <;> exact ⟨rfl, rfl, rfl⟩
  obtain ⟨hcase, hpolicy, rfl⟩ := hrequest
  obtain ⟨h1, h2, h3, h4⟩ := replayMatches_iff.1 hc.2
  rw [← ActionProposal.parameters_of_dump hdump] at h4
  refine ⟨h2.trans haction, h1.trans hcase, h3.trans hpolicy, ?_⟩
  rwa [haction] at h4

namespace ConsequentialActionService

variable (service : ConsequentialActionService X)

/-- `submit` up to the action that it dispatches. -/
def authorized (request : ConsequentialActionRequest) (actorId : String) :
    Task X ActionRecord := do
  match ← getActionByKey request.idempotencyKey with
  | none => service.authorizeNew request actorId
  | some duplicate =>
    if !replayMatches request duplicate.command then
      throw (.valueError "Idempotency key is already bound to a different action request")
    match ← getCase duplicate.command.caseId with
    | none => throw (.valueError "Idempotent action does not belong to this customer")
    | some case =>
      if case.customerId ≠ request.customerId then
        throw (.valueError "Idempotent action does not belong to this customer")
      return duplicate

theorem submit_eq (request : ConsequentialActionRequest) (actorId : String) :
    service.submit request actorId =
      (service.authorized request actorId).bind service.gateway.dispatch := by
  change Prog.bind _ _ = (Prog.bind _ _).bind _
  rw [Prog.bind_assoc]
  congr 1
  funext found
  cases found with
  | none => rfl
  | some duplicate =>
    simp only [replay, Prog.bind_eq, Prog.throw_eq, Prog.bind_raise, Prog.pure_eq]
    split_ifs
    · rfl
    · rw [Prog.bind_assoc]
      congr 1
      funext case
      cases case with
      | none => rfl
      | some case =>
        dsimp only
        split_ifs <;> rfl

theorem yields_authorized {db : Db} (request : ConsequentialActionRequest) (actorId : String) :
    (service.authorized request actorId).Yields (Op.TrueOf db)
      fun a => db.Holds request.Matches a.actionId := by
  refine Prog.yields_bind (yields_getActionByKey _) fun found hr => ?_
  cases found with
  | none =>
    exact Prog.yields_mono (fun _ h => h.held) (yields_authorizeNew service request actorId)
  | some duplicate =>
    simp only [Prog.bind_eq, Prog.throw_eq, Prog.bind_raise, Prog.pure_eq]
    split_ifs with hm
    · trivial
    · refine Prog.yields_skip fun (found : Option CaseRecord) => ?_
      cases found with
      | none => trivial
      | some case =>
        dsimp only
        split_ifs
        · trivial
        · refine (hr duplicate rfl).imp ?_
          rintro _ ⟨hk, rfl⟩
          exact ⟨hk, by simpa using hm⟩

end ConsequentialActionService

namespace ActionBridge

variable (bridge : ActionBridge X)

/-- `confirm` up to the action that it submits. -/
def submitted (proposalId : String) (context : ActionConfirmationContext) :
    Task X (ActionProposal × ActionRecord) := do
  let proposal ← getOwned proposalId context.customerId (some context.actorId)
  match proposal.status with
  | .pending =>
    if ← expired proposal.expiresAt then throw .assertionError
    else
      bridge.verifyResourceVersion proposal
      Prog.ofExcept (bridge.verifyConnectorBinding proposal)
      let request ← Prog.ofExcept (bridge.buildRequest proposal context)
      let action ← bridge.actionService.authorized request context.actorId
      return (proposal, action)
  | _ => throw .assertionError

variable {bridge} {id : String} {context : ActionConfirmationContext}

/-- A confirmation that has done what `submitted` does is about to dispatch the action. -/
theorem confirm_of_submitted {xs : List (Event (sig X))} {p : ActionProposal} {a : ActionRecord}
    (h : Follows (bridge.submitted id context) xs (.ret (p, a))) :
    Follows (bridge.confirm id context) xs
      ((bridge.actionService.gateway.dispatch a).bind (recordConfirmed p context)) := by
  obtain ⟨x1, _, p', rfl, hread, h⟩ := h.of_bind_ret
  refine hread.seq ?_
  cases hs : p'.status with
  | pending =>
    simp only [hs] at h ⊢
    obtain ⟨x2, _, late, rfl, hlate, h⟩ := h.of_bind_ret
    refine hlate.seq ?_
    split_ifs at h ⊢
    · cases h
    · obtain ⟨x3, _, u, rfl, hversion, h⟩ := h.of_bind_ret
      obtain ⟨x4, _, u', rfl, hbinding, h⟩ := h.of_bind_ret
      obtain ⟨x5, _, request, rfl, hbuilt, h⟩ := h.of_bind_ret
      obtain ⟨x6, _, a', rfl, hauthorized, h⟩ := h.of_bind_ret
      obtain ⟨rfl, he⟩ := h.of_ret
      cases he
      refine hversion.seq (hbinding.seq (hbuilt.seq ?_))
      rw [ConsequentialActionService.submit_eq, Prog.bind_eq, Prog.bind_assoc]
      exact hauthorized.seq (.nil _)
  | _ =>
    simp only [hs] at h
    cases h

theorem yields_submitted {db : Db} : (bridge.submitted id context).Yields (Op.TrueOf db)
    fun r => (∃ p', db.proposal? id = some p' ∧ r.1.Becomes p') ∧
      ∃ request, bridge.buildRequest r.1 context = .ok request ∧
        db.Holds request.Matches r.2.actionId := by
  have howned : (getOwned id context.customerId (some context.actorId) :
      Task X ActionProposal).Yields (Op.TrueOf db)
      fun p => ∃ p', db.proposal? id = some p' ∧ p.Becomes p' := by
    have hget : (getActionProposal id : Task X (Option ActionProposal)).Yields (Op.TrueOf db)
        fun found => ∀ p, found = some p → ∃ p', db.proposal? id = some p' ∧ p.Becomes p' :=
      fun _ hr => hr
    refine Prog.yields_bind hget fun found hp => ?_
    cases found with
    | none => trivial
    | some p =>
      simp only [Prog.bind_eq, Prog.throw_eq, Prog.bind_raise, Prog.pure_eq]
      split_ifs
      · trivial
      · trivial
      · exact hp p rfl
  refine Prog.yields_bind howned fun p hp => ?_
  cases hs : p.status with
  | pending =>
    refine Prog.yields_skip fun late => ?_
    split_ifs
    · trivial
    · refine Prog.yields_skip fun _ => Prog.yields_skip fun _ => ?_
      refine Prog.yields_bind (Prog.yields_ofExcept fun request h => h) fun request hb => ?_
      refine Prog.yields_bind (bridge.actionService.yields_authorized request _) fun a ha => ?_
      exact ⟨hp, request, hb, ha⟩
  | _ => trivial

end ActionBridge

/-- A confirmation of the proposal has come to the action, which it has inserted or found to be
that of its request. -/
def Submitted (host : Host X) (h : Host.Log W) (id actionId : String) : Prop :=
  ∃ τ context pre post p a, h.calls[τ]? = some (.engine (.confirm id context)) ∧
    (h.own τ).map Entry.event = pre ++ post ∧
    Follows (host.engine.bridge.submitted id context) pre (.ret (p, a)) ∧ a.actionId = actionId

/-- And the next thing it does is to dispatch the action. -/
def Dispatches (host : Host X) (h : Host.Log W) (id actionId : String) : Prop :=
  ∃ τ context pre post p a, h.calls[τ]? = some (.engine (.confirm id context)) ∧
    (h.own τ).map Entry.event = pre ++ post ∧
    Follows (host.engine.bridge.confirm id context) pre
      ((host.engine.bridge.actionService.gateway.dispatch a).bind
        (ActionBridge.recordConfirmed p context)) ∧ a.actionId = actionId

theorem Submitted.dispatches {h : Host.Log W} {id actionId : String}
    (hs : Submitted host h id actionId) : Dispatches host h id actionId := by
  obtain ⟨τ, context, pre, post, p, a, hcall, hown, hf, ha⟩ := hs
  exact ⟨τ, context, pre, post, p, a, hcall, hown, ActionBridge.confirm_of_submitted hf, ha⟩

theorem Submitted.later {h h' : Host.Log W} {id actionId : String}
    (hs : Submitted host h id actionId) (hl : Host.Later h h') : Submitted host h' id actionId := by
  obtain ⟨τ, context, pre, post, p, a, hcall, hown, hf, ha⟩ := hs
  obtain ⟨new, hnew⟩ := hl.trace
  refine ⟨τ, context, pre, post ++ ((new.filter fun x => x.tid = τ).map Entry.event), p, a,
    getElem?_of_extends hl.calls hcall, ?_, hf, ha⟩
  rw [Hist.own, ← hnew, List.filter_append, List.map_append, ← List.append_assoc]
  exact congrArg (· ++ _) hown

/-- Everything that was answered is true. -/
def Truthful (h : Host.Log W) : Prop := ∀ x ∈ h.trace, Op.TrueOf h.state.db x.op x.res

/-- The action that a confirmation has submitted is that of the proposal. -/
theorem Submitted.agrees (hv : Validates host.engine.validatePayload) {h : Host.Log W}
    (ht : Truthful h) {id actionId : String} (hs : Submitted host h id actionId)
    {p : ActionProposal} (hp : h.state.db.proposal? id = some p) (hm : p.Made) :
    h.state.db.Holds p.Agrees actionId := by
  obtain ⟨τ, context, pre, post, q, a, -, hown, hf, rfl⟩ := hs
  have htrue : ∀ x ∈ pre, Op.TrueOf h.state.db x.1 x.2 := by
    intro x hx
    have hmem : x ∈ (h.own τ).map Entry.event := hown ▸ List.mem_append_left _ hx
    obtain ⟨y, hy, rfl⟩ := List.mem_map.1 hmem
    exact ht y (List.mem_filter.1 hy).1
  obtain ⟨⟨p', hp', hb⟩, request, hbuilt, hheld⟩ := hf.yields htrue ActionBridge.yields_submitted
  obtain rfl : p' = p := Option.some.inj (hp'.symm.trans hp)
  refine hheld.imp fun c hc => ?_
  have hagrees := agrees_of_matches hv (hb.made hm) hbuilt hc
  rcases hb with rfl | ⟨-, -, now, evidence, aid, he⟩
  · exact hagrees
  · rw [he]
    exact ⟨hagrees.action, hagrees.caseId, hagrees.policyPackageId, hagrees.parameters⟩

theorem Proposed.made (hv : Validates host.engine.validatePayload) {h : Host.Log W} {τ : ℕ}
    {record : ActionProposal} (hp : Proposed host h τ record)
    (ht : ∀ intent context, HostCall.propose intent context ∈ h.calls → intent.Tagged) :
    record.Made := by
  obtain ⟨intent, context, context', prepared, payload, now, hex, hcall, hprep, rfl⟩ := hp
  refine ⟨payload, hprep.dumped, ?_⟩
  by_cases ha : intent.action = "issue_refund"
  · exact hprep.refund ha
  · obtain ⟨fields, hvalid, hget⟩ := hprep.generic ha
    have htag := (ht intent context (List.mem_of_getElem? hcall)).resolve_left ha
    rw [ActionBridge.genericPayload_action htag, hv.tagged hvalid] at hget
    exact Json.str.inj (Option.some.inj hget)

/-- The decision that meets the condition: what a proposal proposes is tagged with its action,
and a cancellation of a `PENDING` proposal that finds an action finds one that a confirmation of
the proposal has submitted. -/
def RecoversOwn (host : Host X) (W : World X) (c : (host.system W).Config) :
    (host.system W).Move → Prop
  | .spawn (.propose intent _) => intent.Tagged
  | .run τ e => ∀ id context key a,
    c.hist.calls[τ]? = some (HostCall.engine (.cancel id context)) →
    (host.system W).performs c (.run τ e) = some (Op.tx (.getActionByKey key)) →
    c.hist.state.db.actionByKey? key = some a →
    (∃ p, c.hist.state.db.proposal? id = some p ∧ p.status ≠ .pending) ∨
      Submitted host c.hist id a.actionId
  | _ => True

/-- The invariant of the runs whose decisions all meet the condition. -/
structure OwnLinked (host : Host X) (W : World X) (h : Host.Log W) : Prop where
  truthful : Truthful h
  tagged : ∀ intent context, HostCall.propose intent context ∈ h.calls → intent.Tagged
  made : ∀ id p, h.state.db.proposal? id = some p → p.Made
  recovered : ∀ (τ : ℕ) id context key a,
    h.calls[τ]? = some (HostCall.engine (.cancel id context)) →
    (⟨τ, Op.tx (.getActionByKey key), some a⟩ : Entry (sig X)) ∈ h.trace →
    (∃ p, h.state.db.proposal? id = some p ∧ p.status ≠ .pending) ∨
      Submitted host h id a.actionId
  agrees : ∀ id p, h.state.db.proposal? id = some p → p.status = .confirmed →
    ∃ aid, p.actionId = some aid ∧ h.state.db.Holds p.Agrees aid

/-- What a cancellation has confirmed, a confirmation has submitted. -/
theorem OwnLinked.submitted {h : Host.Log W} (hi : OwnLinked host W h) {τ : ℕ}
    {p : ActionProposal} {actionId : Option String}
    (hp : h.state.db.proposal? p.proposalId = some p) (hs : p.status = .pending)
    (hw : Warrant host h τ p .confirmed actionId) {id : String}
    {context : ActionConfirmationContext}
    (hcall : h.calls[τ]? = some (HostCall.engine (.cancel id context))) :
    ∃ aid, actionId = some aid ∧ Submitted host h p.proposalId aid := by
  cases hw with
  | confirmed call =>
    rw [hcall] at call
    cases call
  | @recovered context' a call owns found held =>
    refine ⟨_, rfl, (hi.recovered τ _ _ _ a call found).resolve_left ?_⟩
    rintro ⟨q, hq, hne⟩
    obtain rfl : q = p := Option.some.inj (hq.symm.trans hp)
    exact hne hs

theorem OwnLinked.agrees_of_warrant (hv : Validates host.engine.validatePayload) {h : Host.Log W}
    (hi : OwnLinked host W h) {τ : ℕ} {p : ActionProposal} {actionId : Option String}
    (hp : h.state.db.proposal? p.proposalId = some p) (hs : p.status = .pending)
    (hw : Warrant host h τ p .confirmed actionId) :
    ∃ aid, actionId = some aid ∧ h.state.db.Holds p.Agrees aid := by
  cases hw with
  | confirmed call owns built held =>
    exact ⟨_, rfl, held.imp fun c hc => agrees_of_matches hv (hi.made _ p hp) built hc⟩
  | recovered call owns found held =>
    obtain ⟨aid, he, hsub⟩ := hi.submitted hp hs (.recovered call owns found held) call
    cases he
    exact ⟨_, rfl, hsub.agrees hv hi.truthful hp (hi.made _ p hp)⟩

theorem Truthful.after {h : Host.Log W} (ht : Truthful h) {τ : ℕ} {o : Op X}
    (hpre : (proposalLogic host W).Pre τ o h) (e : EngineChoice W) :
    Truthful ((host.system W).after h τ o e) := by
  intro x hx
  rcases List.mem_append.1 hx with hx | hx
  · exact (ht x hx).onward (onward_exec hpre e)
  · rw [List.mem_singleton.1 hx]
    exact trueOf_exec o e h.state

theorem OwnLinked.after (hv : Validates host.engine.validatePayload)
    {c : (host.system W).Config} (hi : OwnLinked host W c.hist)
    (hg : (proposalLogic host W).Good c) {τ : ℕ} {o : Op X} {k : o.Res → Task X Reply}
    (hr : (host.system W).Ready c τ o k) (e : EngineChoice W)
    (hG : RecoversOwn host W c (.run τ e)) :
    OwnLinked host W ((host.system W).after c.hist τ o e) := by
  have hpre := hg.pre proposalLogic_sound hr
  have hl := (proposalLogic_stepwise.step τ o e c.hist hg.inv hpre).2
  have hdecided : ∀ id, (∃ p, c.hist.state.db.proposal? id = some p ∧ p.status ≠ .pending) →
      ∃ p, ((host.system W).after c.hist τ o e).state.db.proposal? id = some p ∧
        p.status ≠ .pending := by
    rintro id ⟨p, hp⟩
    exact ⟨p, Resolved.later hp hl⟩
  refine ⟨hi.truthful.after hpre e, hi.tagged, fun id p' hp' => ?_,
    fun τ' id context key a hcall hx => ?_, fun id p' hp' hs => ?_⟩
  · rcases decided_by hpre e hp' with hp | ⟨-, hnew⟩ | ⟨p, _, _, _, hp, -, -, -, -, rfl⟩
    · exact hi.made id p' hp
    · exact hnew.made hv hi.tagged
    · exact hi.made id p hp
  · rcases List.mem_append.1 hx with hx | hx
    · exact (hi.recovered τ' id context key a hcall hx).imp (hdecided id) fun hs => hs.later hl
    · obtain ⟨rfl, ho, hres⟩ := Entry.mk.inj (List.mem_singleton.1 hx)
      subst ho
      have hfound : c.hist.state.db.actionByKey? key = some a := (eq_of_heq hres).symm
      exact (hG id context key a hcall (System.performs_of_ready hr e) hfound).imp (hdecided id)
        fun hs => hs.later hl
  · rcases decided_by hpre e hp' with hp | ⟨-, hnew⟩ | ⟨p, status, evidence, actionId,
      hp, hps, -, hw,
        -, rfl⟩
    · obtain ⟨aid, ha, hheld⟩ := hi.agrees id p' hp hs
      exact ⟨aid, ha, hl.db.holds hheld⟩
    · rw [hnew.pending] at hs
      cases hs
    · obtain rfl : status = .confirmed := hs
      obtain rfl : p.proposalId = id := (Table.get?_eq_some.1 hp).2
      obtain ⟨aid, rfl, hheld⟩ := hi.agrees_of_warrant hv hp hps hw
      exact ⟨aid, rfl, (hl.db.holds hheld).imp fun c hc =>
        ⟨hc.action, hc.caseId, hc.policyPackageId, hc.parameters⟩⟩

theorem OwnLinked.spawned {c : (host.system W).Config} (hi : OwnLinked host W c.hist)
    (hg : (proposalLogic host W).Good c) {call : HostCall X}
    (hG : RecoversOwn host W c (.spawn call)) :
    OwnLinked host W ((host.system W).spawned c.hist call) := by
  have hl : Host.Later c.hist ((host.system W).spawned c.hist call) :=
    ⟨le_rfl, .refl _, List.prefix_append _ _, List.prefix_refl _⟩
  refine ⟨hi.truthful, fun intent context hm => ?_, hi.made,
    fun τ id context key a hcall hx => ?_, hi.agrees⟩
  · rcases List.mem_append.1 hm with hm | hm
    · exact hi.tagged intent context hm
    · obtain rfl := List.mem_singleton.1 hm
      exact hG
  · have hlt : τ < c.hist.calls.length := hg.bound _ hx
    simp only [System.spawned, List.getElem?_append_left hlt] at hcall
    exact (hi.recovered τ id context key a hcall hx).imp_right fun hs => hs.later hl

theorem ownLinked_init {s : EngineState W} (hs : ∀ id, s.db.proposal? id = none) :
    OwnLinked host W ((host.system W).init s).hist where
  truthful x hx := by cases hx
  tagged intent context hm := by cases hm
  made id p hp := by
    have hnone : some p = none := hp.symm.trans (hs id)
    cases hnone
  recovered τ id context key a hcall _ := by cases hcall
  agrees id p hp := by
    have hnone : some p = none := hp.symm.trans (hs id)
    cases hnone

theorem ownLinked_run (hv : Validates host.engine.validatePayload) {s : EngineState W}
    (hs : ∀ id, s.db.proposal? id = none) (acts : List (host.system W).Move)
    (hG : System.Guarded (RecoversOwn host W) ((host.system W).init s) acts) :
    OwnLinked host W ((host.system W).run ((host.system W).init s) acts).hist := by
  have h0 : (proposalLogic host W).Inv ((host.system W).init s).hist := by
    intro id p hp
    have hnone : some p = none := hp.symm.trans (hs id)
    cases hnone
  refine System.run_induction (J := fun c => OwnLinked host W c.hist) (ownLinked_init hs)
    (fun before a hi ha => ?_) acts hG
  have hg : (proposalLogic host W).Good
      ((host.system W).run ((host.system W).init s) before) :=
    proposalLogic_sound.good_run h0 before
  rcases System.next_cases ((host.system W).run ((host.system W).init s) before) a with hn |
      ⟨call, rfl, -, hn⟩ | ⟨τ, e, o, k, rfl, hr, hn⟩ | ⟨τ, -, hn⟩ | ⟨e, -, hn⟩ <;> rw [hn]
  · exact hi
  · exact hi.spawned hg ha
  · exact hi.after hv hg hr e ha
  · exact ⟨hi.truthful, hi.tagged, hi.made, hi.recovered, hi.agrees⟩
  · exact ⟨hi.truthful, hi.tagged, hi.made, hi.recovered, hi.agrees⟩

end

/-- Every `CONFIRMED` proposal is linked to its own action. -/
def AllLinked (db : Db) : Prop :=
  ∀ id p, db.proposal? id = some p → p.status = .confirmed →
    ∃ aid, p.actionId = some aid ∧ db.Holds p.Agrees aid

/-- A cancellation that decides the proposal `CONFIRMED` links an action that a confirmation
of this proposal has submitted, on its way to the dispatch. -/
def CancelsHonestly {X : Sig} (host : Host X) (W : World X) (c : (host.system W).Config) : Prop :=
  ∀ τ e id context p p', c.hist.calls[τ]? = some (HostCall.engine (.cancel id context)) →
    c.hist.state.db.proposal? id = some p → p.status = .pending →
    ((host.system W).next c (.run τ e)).hist.state.db.proposal? id = some p' →
    p'.status = .confirmed → ∃ aid, p'.actionId = some aid ∧ Submitted host c.hist id aid ∧
      Dispatches host c.hist id aid

/-- In every run whose decisions all meet the condition, a confirmed proposal is linked to its own
action, and a cancellation confirms a proposal only by an action that a confirmation of this
proposal has submitted. -/
theorem confirmed_linked {X : Sig} (host : Host X) (W : World X)
    (hv : Validates host.engine.validatePayload) (s : EngineState W)
    (hs : ∀ id, s.db.proposal? id = none) (acts : List (host.system W).Move)
    (hG : System.Guarded (RecoversOwn host W) ((host.system W).init s) acts) :
    let c := (host.system W).run ((host.system W).init s) acts
    AllLinked c.hist.state.db ∧ CancelsHonestly host W c := by
  have hi := ownLinked_run hv hs acts hG
  refine ⟨hi.agrees, fun τ e id context p p' hcall hp hps hp' hs' => ?_⟩
  have h0 : (proposalLogic host W).Inv ((host.system W).init s).hist := by
    intro id p hp
    have hnone : some p = none := hp.symm.trans (hs id)
    cases hnone
  have hg : (proposalLogic host W).Good
      ((host.system W).run ((host.system W).init s) acts) := proposalLogic_sound.good_run h0 acts
  have hchanged : ((host.system W).run ((host.system W).init s) acts).hist.state.db.proposal? id ≠
      some p' := by
    intro he
    obtain rfl : p' = p := Option.some.inj (he.symm.trans hp)
    rw [hps] at hs'
    cases hs'
  rcases System.next_cases ((host.system W).run ((host.system W).init s) acts) (.run τ e) with hn |
      ⟨call, ha, -, hn⟩ | ⟨τ', e', o, k, ha, hr, hn⟩ | ⟨τ', ha, hn⟩ | ⟨e', ha, hn⟩
  · rw [hn] at hp'
    exact absurd hp' hchanged
  · cases ha
  · cases ha
    rw [hn] at hp'
    rcases decided_by (hg.pre proposalLogic_sound hr) e
      hp' with he | ⟨hnone, -⟩ | ⟨q, status, evidence,
        actionId, hq, -, -, hw, -, rfl⟩
    · exact absurd he hchanged
    · exact absurd (hp.symm.trans hnone) nofun
    · obtain rfl : q = p := Option.some.inj (hq.symm.trans hp)
      obtain rfl : status = .confirmed := hs'
      obtain rfl : q.proposalId = id := (Table.get?_eq_some.1 hq).2
      obtain ⟨aid, rfl, hsub⟩ := hi.submitted hq hps hw hcall
      exact ⟨aid, rfl, hsub, hsub.dispatches⟩
  · cases ha
  · cases ha

section
open World

/-- What `propose` is tagged with, and that a cancellation finds no action, can be computed. -/
def findsNothing {X : Sig} {host : Host X} {W : World X} (c : (host.system W).Config) :
    (host.system W).Move → Bool
  | .spawn (.propose intent _) =>
    intent.arguments.all fun kv => decide (kv.1 ≠ "action") || decide (kv.2 = .str intent.action)
  | .run τ e => match c.hist.calls[τ]?, (host.system W).performs c (.run τ e) with
    | some (.engine (.cancel ..)), some (.tx (.getActionByKey key)) =>
      (c.hist.state.db.actionByKey? key).isNone
    | _, _ => true
  | _ => true

theorem recoversOwn_of_findsNothing {X : Sig} {host : Host X} {W : World X}
    (c : (host.system W).Config) (a : (host.system W).Move) (h : findsNothing c a = true) :
    RecoversOwn host W c a := by
  cases a with
  | spawn call =>
    cases call with
    | propose intent context =>
      refine Or.inr fun v hv => ?_
      simpa using List.all_eq_true.1 h _ hv
    | engine => trivial
  | run τ e =>
    intro id context key a hcall hop hfound
    simp only [findsNothing, hcall, hop, hfound, Option.isNone_some] at h
    cases h
  | crash => trivial
  | drift => trivial

theorem guarded_of_findsNothing {X : Sig} {host : Host X} {W : World X}
    {c : (host.system W).Config} {acts : List (host.system W).Move}
    (h : System.Guarded (fun c a => findsNothing c a = true) c acts) :
    System.Guarded (RecoversOwn host W) c acts :=
  h.mono recoversOwn_of_findsNothing

/-- The engine that takes notes, with the validation of payloads. -/
def typedHost : Host ⟨Empty, Empty.elim⟩ where
  engine := { noteEngine with validatePayload := ActionPayload.validate }

abbrev TypedMove := (typedHost.system isolated).Move

/-- Let `τ` take its next `n` operations, with fresh identifiers. -/
def typedMoves (τ n : ℕ) : List TypedMove :=
  (List.range n).map fun i => .run τ ⟨fun j => toString τ ++ "." ++ toString i ++ toString j, 0, ()⟩

def typedRun (acts : List TypedMove) : (typedHost.system isolated).Config :=
  (typedHost.system isolated).run ((typedHost.system isolated).init ⟨.empty, 0, ()⟩) acts

/-- A proposal is confirmed; another one, with a key of its own, is cancelled. -/
def confirmedAndCancelled : List TypedMove :=
  .spawn (.propose noteIntent noteContext) :: typedMoves 0 3 ++
    .spawn (.propose { noteIntent with arguments := [("note", .str "m")] } noteContext) ::
      typedMoves 1 3 ++
    .spawn (.engine (.confirm "APR-0.10" agent)) :: typedMoves 2 20 ++
    .spawn (.engine (.cancel "APR-1.10" agent)) :: typedMoves 3 4

theorem confirmed_linked_apart : AllLinked (typedRun confirmedAndCancelled).hist.state.db ∧
    ((typedRun confirmedAndCancelled).hist.state.db.proposals.rows.map (·.status)) =
      [.confirmed, .cancelled] := by
  refine ⟨?_, by decide +kernel⟩
  have hG := @guarded_of_findsNothing _ typedHost isolated
    ((typedHost.system isolated).init ⟨.empty, 0, ()⟩) confirmedAndCancelled (by decide +kernel)
  have hlinked := confirmed_linked typedHost isolated ActionPayload.validates ⟨.empty, 0, ()⟩
    (fun _ => rfl) confirmedAndCancelled hG
  unfold typedRun
  exact hlinked.1

/-- Two proposals of one note, under different policies, have the same key. -/
def cancelledForConfirmed : List TypedMove :=
  .spawn (.propose noteIntent noteContext) :: typedMoves 0 3 ++
    .spawn (.propose noteIntent { noteContext with policyPackageId := "P-2" }) ::
      typedMoves 1 3 ++
    .spawn (.engine (.confirm "APR-0.10" agent)) :: typedMoves 2 20 ++
    .spawn (.engine (.cancel "APR-1.10" agent)) :: typedMoves 3 4

theorem not_allLinked {db : Db} {id policy policy' : String} (hne : policy' ≠ policy)
    (h : (db.proposal? id).bind (fun p => p.actionId.bind fun aid => (db.action? aid).map fun a =>
      (p.status, p.policyPackageId, a.command.policyPackageId)) =
        some (.confirmed, policy, policy')) : ¬ AllLinked db := by
  intro hall
  obtain ⟨p, hp, h⟩ := Option.bind_eq_some_iff.1 h
  obtain ⟨aid, haid, h⟩ := Option.bind_eq_some_iff.1 h
  obtain ⟨a, ha, h⟩ := Option.map_eq_some_iff.1 h
  simp only [Prod.mk.injEq] at h
  obtain ⟨hs, rfl, rfl⟩ := h
  obtain ⟨aid', haid', a', ha', hagrees⟩ := hall id p hp hs
  obtain rfl : aid' = aid := Option.some.inj (haid'.symm.trans haid)
  obtain rfl : a' = a := Option.some.inj (ha'.symm.trans ha)
  exact hne hagrees.policyPackageId

/-- The second one was cancelled, and is `CONFIRMED` with the action of the first one. -/
theorem cancelled_proposal_linked_wrongly :
    ¬ AllLinked (typedRun cancelledForConfirmed).hist.state.db :=
  @not_allLinked _ "APR-1.10" "P-2" "P-1" (by decide) (by decide +kernel)

end

end WorkflowEngine
