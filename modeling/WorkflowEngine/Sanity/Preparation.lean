import WorkflowEngine.Sanity.Footprint
import WorkflowEngine.Sanity.Keys
import WorkflowEngine.Spec.Proposals

/-! What `propose` prepares. The payload of a proposal is the dump of a payload model, and the
only operation on the store is to create the proposal. -/

namespace WorkflowEngine

open Interleave SQLiteCoreStore Fallible

theorem RefundDecisionService.of_eligible {service : RefundDecisionService}
    {orderId status : String}
    {customer owner : Json} {days : ℤ} {amount : ℤ × ℤ}
    (h : (service.evaluate orderId customer owner status days amount).eligible = true) :
    0 < amount.1 ∧
    (service.evaluate orderId customer owner status days amount).amount = amount := by
  unfold evaluate at h ⊢
  dsimp only at h ⊢
  split_ifs at h ⊢ with h1 h2 h3 h4
  exact ⟨not_le.1 h4, rfl⟩

theorem RefundDecisionService.owner_of_eligible {service : RefundDecisionService}
    {orderId status owner : String} {customer : Json} {days : ℤ} {amount : ℤ × ℤ}
    (h : (service.evaluate orderId customer (.str owner) status days amount).eligible = true) :
    customer = .str owner := by
  unfold evaluate at h
  dsimp only at h
  split_ifs at h with h1
  exact Json.eq_of_pyEq_str (by simpa using h1)

/-- The arguments do not name another action; those of a refund are not looked at. -/
def ActionIntent.Tagged (intent : ActionIntent) : Prop :=
  intent.action = "issue_refund" ∨ ∀ v, ("action", v) ∈ intent.arguments → v = .str intent.action

/-- The context but for its connector binding. -/
def TrustedActionContext.Rebinds (context context' : TrustedActionContext) : Prop :=
  context' = { context with
    connectorBindingId := context'.connectorBindingId
    connectorBindingVersion := context'.connectorBindingVersion
    contractVersion := context'.contractVersion }

namespace ActionBridge

theorem genericPayload_action {intent : ActionIntent}
    (h : ∀ v, ("action", v) ∈ intent.arguments → v = .str intent.action) :
    (genericPayload intent).get? "action" = some (.str intent.action) := by
  have hfold : ∀ (arguments payload : Fields), (∀ kv ∈ arguments, kv ∈ intent.arguments) →
      payload.get? "action" = some (.str intent.action) →
      (arguments.foldl (fun payload kv => payload.set kv.1 kv.2) payload).get? "action" =
        some (.str intent.action) := by
    intro arguments
    induction arguments with
    | nil => exact fun _ _ hp => hp
    | cons kv arguments ih =>
      intro payload hmem hp
      refine ih _ (fun kv' hkv => hmem kv' (List.mem_cons_of_mem _ hkv)) ?_
      dsimp only
      by_cases hk : kv.1 = "action"
      · have hv := h kv.2 (hk ▸ hmem kv List.mem_cons_self)
        rw [hk, hv, Fields.get?_set_self]
      · rw [Fields.get?_set kv.2 (Ne.symm hk)]
        exact hp
  exact hfold intent.arguments _ (fun _ h => h) rfl

variable {X : Sig} (bridge : ActionBridge X)

/-- The payload that an intent is prepared with. -/
structure Prepares (intent : ActionIntent) (prepared : Prepared) (payload : ActionPayload) :
    Prop where
  dumped : prepared.payload = dumpPayload payload
  refund : intent.action = "issue_refund" → payload.action = intent.action
  generic : intent.action ≠ "issue_refund" → ∃ fields : Fields,
    bridge.validatePayload fields = some payload ∧
      fields.get? "action" = (genericPayload intent).get? "action"

theorem refundPayload_ok {refundPolicy : RefundDecisionService} {intent : ActionIntent}
    {context : TrustedActionContext} {order payload : Fields}
    (h : refundPayload refundPolicy intent context order = .ok payload) :
    ∃ model : ActionPayload, payload = dumpPayload model ∧ model.action = "issue_refund" := by
  obtain ⟨orderId, -, h⟩ := bind_eq_ok.1 h
  obtain ⟨customerId, -, h⟩ := bind_eq_ok.1 h
  obtain ⟨days, -, h⟩ := bind_eq_ok.1 h
  obtain ⟨amount, -, h⟩ := bind_eq_ok.1 h
  dsimp only at h
  split_ifs at h with hel
  obtain ⟨paymentMethod, -, h⟩ := bind_eq_ok.1 h
  obtain ⟨hpos, hamount⟩ := RefundDecisionService.of_eligible (by simpa using hel)
  cases h
  rw [hamount]
  exact ⟨.issueRefund orderId.pyStr context.customerId ⟨amount.1, amount.2, hpos⟩ _ _ _, rfl, rfl⟩

theorem bindAuthoritative_ok {specification : ActionSpecification} {context : TrustedActionContext}
    {payload payload' : Fields} {resource : Option Resource}
    (hs : "action" ∉ specification.authoritativeParameters)
    (h : bindAuthoritative specification context payload resource = .ok payload') :
    payload'.get? "action" = payload.get? "action" := by
  cases resource with
  | none => cases h
  | some resource =>
    have hfold : ∀ f : Fields → String → Except PyErr Fields,
        (specification.authoritativeParameters.insertionSort (· ≤ ·)).foldlM f payload =
          .ok payload' →
        (∀ d parameter d', f d parameter = .ok d' → ∃ value, d' = d.set parameter value) →
        payload'.get? "action" = payload.get? "action" := by
      intro f hfold hset
      refine foldlM_induction (P := fun d : Fields => d.get? "action" = payload.get? "action") hfold
        rfl fun parameter hp d d' hd hstep => ?_
      obtain ⟨value, rfl⟩ := hset d parameter d' hstep
      refine (Fields.get?_set value fun he => hs ?_).trans hd
      rw [he]
      exact (List.mem_insertionSort _).1 hp
    unfold bindAuthoritative at h
    dsimp only at h
    cases hb : specification.customerBindingParameter with
    | none =>
      rw [hb] at h
      refine hfold _ h fun d parameter d' hstep => ?_
      split at hstep <;> cases hstep
      exact ⟨_, rfl⟩
    | some binding =>
      rw [hb] at h
      cases hv : resource.payload.get? binding with
      | none =>
        simp only [hv] at h
        cases h
      | some value =>
        simp only [hv] at h
        split_ifs at h
        · cases h
        · refine hfold _ h fun d parameter d' hstep => ?_
          split at hstep <;> cases hstep
          exact ⟨_, rfl⟩

variable {P : Op X → Prop}

theorem issues_loadResource (hext : ∀ o, P (.ext o)) (resourceType resourceId : Option String) :
    (bridge.loadResource resourceType resourceId).Issues P := by
  unfold loadResource
  split
  · trivial
  · refine Prog.issues_bind (issues_ext hext _) fun found => ?_
    cases found <;> trivial
  · trivial

theorem yields_prepareRefund (refundPolicy : RefundDecisionService) (intent : ActionIntent)
    (context : TrustedActionContext) (ha : intent.action = "issue_refund") :
    (bridge.prepareRefund refundPolicy intent context).Yields (fun _ _ => True)
      fun prepared => ∃ payload, bridge.Prepares intent prepared payload := by
  refine Prog.yields_skip fun orderId => Prog.yields_skip fun found => ?_
  cases found with
  | none => trivial
  | some resource =>
    refine Prog.yields_bind (R := fun payload =>
      refundPayload refundPolicy intent context resource.payload = .ok payload) ?_ fun payload hp =>
        ?_
    · exact Prog.yields_ofExcept fun _ h => h
    · obtain ⟨model, hdump, hm⟩ := refundPayload_ok hp
      exact ⟨model, hdump, fun _ => hm.trans ha.symm, fun hne => absurd ha hne⟩

theorem yields_prepareGeneric {intent : ActionIntent} {context : TrustedActionContext}
    {specification : ActionSpecification} (hs : "action" ∉ specification.authoritativeParameters)
    (ha : intent.action ≠ "issue_refund") :
    (bridge.prepareGeneric intent context specification).Yields (fun _ _ => True)
      fun prepared => ∃ payload, bridge.Prepares intent prepared payload := by
  refine Prog.yields_skip fun resource => ?_
  refine Prog.yields_bind (R := fun payload : Fields =>
    payload.get? "action" = (genericPayload intent).get? "action") ?_ fun payload hp => ?_
  · refine Prog.yields_ofExcept fun payload h => ?_
    split_ifs at h
    · cases h
      rfl
    · exact bindAuthoritative_ok hs h
  · cases hv : bridge.validatePayload payload with
    | none => trivial
    | some validated => exact ⟨validated, rfl, fun h => absurd h ha, fun _ => ⟨payload, hv, hp⟩⟩

theorem rebinds_of_bindConnector {context context' : TrustedActionContext} {action : String}
    (h : bridge.bindConnector context action = .ok context') : context.Rebinds context' := by
  unfold bindConnector at h
  cases hr : bridge.connectorResolver with
  | none =>
    rw [hr] at h
    cases h
    rfl
  | some resolve =>
    rw [hr] at h
    obtain ⟨resolved, -, h⟩ := bind_eq_ok.1 h
    cases h
    rfl

/-- The one transaction of `propose` creates the proposal that it has prepared. -/
theorem issues_propose_bound {refundPolicy : RefundDecisionService} {ttlSeconds : ℤ}
    {intent : ActionIntent} {context : TrustedActionContext} (hext : ∀ o, P (.ext o))
    (hnow : P .now)
    (huuid : P .uuid)
    (hcreate : ∀ context' prepared payload now hex, context.Rebinds context' →
      bridge.Prepares intent prepared payload →
      P (.tx (.createProposal (proposal intent context' prepared ttlSeconds now hex)))) :
    (bridge.propose refundPolicy ttlSeconds intent context).Issues P := by
  unfold propose
  cases hs : specification? intent.action with
  | none => trivial
  | some specification =>
    refine Prog.issues_bind_ofExcept fun context' hbound => ?_
    replace hbound := bridge.rebinds_of_bindConnector hbound
    have hstore : ∀ prepared, (∃ payload, bridge.Prepares intent prepared payload) →
        (do
          let now ← Task.now
          let hex ← Task.uuid
          createActionProposal (proposal intent context' prepared ttlSeconds now hex) :
            Task X ActionProposal).Issues P := by
      rintro prepared ⟨payload, hp⟩
      refine Prog.issues_bind ((Prog.issues_perform _).2 hnow) fun now => ?_
      refine Prog.issues_bind ((Prog.issues_perform _).2 huuid) fun hex => ?_
      exact Prog.issues_bind (issues_attempt (hcreate _ _ payload _ _ hbound hp)) fun _ => trivial
    dsimp only
    split_ifs with ha
    · refine Prog.issues_bind_yields ?_
        (bridge.yields_prepareRefund refundPolicy intent context' ha)
        hstore
      refine Prog.issues_bind (Prog.issues_ofExcept _) fun orderId => ?_
      refine Prog.issues_bind (bridge.issues_loadResource hext ..) fun found => ?_
      cases found with
      | none => trivial
      | some resource => exact Prog.issues_bind (Prog.issues_ofExcept _) fun _ => trivial
    · have hmem := (specification?_mem hs).1
      have haction : ∀ s ∈ actionSpecifications, "action" ∉ s.authoritativeParameters := by
        decide +kernel
      refine Prog.issues_bind_yields ?_ (bridge.yields_prepareGeneric (haction _ hmem) ha) hstore
      refine Prog.issues_bind (bridge.issues_loadResource hext ..) fun resource => ?_
      refine Prog.issues_bind (Prog.issues_ofExcept _) fun payload => ?_
      cases bridge.validatePayload payload <;> trivial

/-- What `propose` returns is the proposal that it has created. -/
theorem yields_propose_bound {A : (o : Op X) → o.Res → Prop} {R : ActionProposal → Prop}
    {refundPolicy : RefundDecisionService} {ttlSeconds : ℤ} {intent : ActionIntent}
    {context : TrustedActionContext}
    (hcreated : ∀ context' prepared now hex, context.Rebinds context' →
      A (.tx (.createProposal (proposal intent context' prepared ttlSeconds now hex)))
        (.ok () : Except PyErr Unit) →
      R (proposal intent context' prepared ttlSeconds now hex)) :
    (bridge.propose refundPolicy ttlSeconds intent context).Yields A R := by
  unfold propose
  cases specification? intent.action with
  | none => trivial
  | some specification =>
    refine Prog.yields_bind (Prog.yields_ofExcept fun context' hbound =>
      bridge.rebinds_of_bindConnector hbound) fun context' hbound => ?_
    have hstore : ∀ prepared, (do
        let now ← Task.now
        let hex ← Task.uuid
        createActionProposal (proposal intent context' prepared ttlSeconds now hex) :
          Task X ActionProposal).Yields A R := by
      intro prepared
      refine Prog.yields_skip fun now => Prog.yields_skip fun hex => ?_
      rintro (e | ⟨⟨⟩⟩) hr
      · trivial
      · exact hcreated context' prepared now hex hbound hr
    dsimp only
    split_ifs <;> exact Prog.yields_skip hstore

theorem issues_propose {refundPolicy : RefundDecisionService} {ttlSeconds : ℤ}
    {intent : ActionIntent} {context : TrustedActionContext} (hext : ∀ o, P (.ext o))
    (hnow : P .now)
    (huuid : P .uuid)
    (hcreate : ∀ context prepared payload now hex, bridge.Prepares intent prepared payload →
      P (.tx (.createProposal (proposal intent context prepared ttlSeconds now hex)))) :
    (bridge.propose refundPolicy ttlSeconds intent context).Issues P :=
  bridge.issues_propose_bound hext hnow huuid
    fun context' prepared payload now hex _ => hcreate context' prepared payload now hex

end ActionBridge
end WorkflowEngine
