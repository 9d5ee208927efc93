import WorkflowEngine.Proofs.Sandbox
import WorkflowEngine.Spec.Rest

/-! Outcomes over a REST provider. A failed answer to a query is true when it is given, but an
execute request that is still on its way can commit after it; its success then finds the action
`FAILED`. As long as no query is answered while such a request is outstanding, a success is
never recorded as a failure. -/

namespace WorkflowEngine

open Interleave Engine Relational SQLiteCoreStore

variable {Y : Sig} {V : World Y} {statuses : HttpStatusMapping}

/-- The log of an engine over a provider. -/
abbrev RestLog (statuses : HttpStatusMapping) (V : World Y) := Log (V.provider statuses)

/-- The provider has committed the effect of the key. -/
def Committed (h : RestLog statuses V) (key : String) : Prop := key ∈ h.state.ext.1

instance (h : RestLog statuses V) (key : String) : Decidable (Committed h key) :=
  inferInstanceAs (Decidable (key ∈ h.state.ext.1))

/-- The entry is a query for the key that was answered with a failed code. -/
def Refuses (statuses : HttpStatusMapping) (key : String)
    (x : Entry (sig (httpSig.sum Y))) : Prop :=
  ∃ τ request code body, HttpRequest.endpoint request = .reconcile ∧
    HttpRequest.key request = key ∧ code ∈ statuses.failed ∧
    x = ⟨τ, Op.ext (Sum.inl request), HttpReply.response code body⟩

def Refused (h : RestLog statuses V) (key : String) : Prop := ∃ x ∈ h.trace, Refuses statuses key x

/-- The stored action satisfies `P` of its key. -/
def KeyOf (h : RestLog statuses V) (id : String) (P : String → Prop) : Prop :=
  ∃ a, h.state.db.action? id = some a ∧ P a.command.idempotencyKey

structure RestInv (h : RestLog statuses V) : Prop where
  agree : ∀ τ τ' id s s', Returned h τ id s → Returned h τ' id s' → s = s'
  succeeded : ∀ τ id, Returned h τ id .succeeded → KeyOf h id (Committed h)
  /-- A failure is recorded from a call or from a query, or is from before the run. -/
  failed : ∀ id a, h.state.db.action? id = some a → a.status = .failed →
    (∃ τ, Returned h τ id .failed) ∨ Refused h a.command.idempotencyKey ∨ ∀ τ, ¬ Claimed h τ id

structure RestRely (h h' : RestLog statuses V) : Prop where
  committed : ∀ key, Committed h key → Committed h' key

/-- The contract of the provider. -/
def restContract (statuses : HttpStatusMapping) (V : World Y) (old : String → Prop) :
    Contract (V.provider statuses) where
  Old := old
  Inv := RestInv
  Rely := RestRely
  ExtPre τ o h := match o with
    | .inl request => match HttpRequest.endpoint request with
      | .execute => ∃ id c, JustCalled h τ id c ∧ c.idempotencyKey = HttpRequest.key request
      | .reconcile => ∃ id, KeyOf h id (· = HttpRequest.key request)
    | .inr _ => True
  Free o := match o with
    | .inl _ => False
    | .inr _ => True
  Answer _ id status h := status = .succeeded → KeyOf h id (Committed h)
  Justified _ id status h := status = .failed →
    (∃ τ, Returned h τ id .failed) ∨ KeyOf h id (Refused h)

section
variable {h h' : RestLog statuses V} {τ : ℕ} {id : String}

theorem RestRely.refl (h : RestLog statuses V) : RestRely h h := ⟨fun _ hc => hc⟩

theorem RestRely.trans {h'' : RestLog statuses V} (h1 : RestRely h h') (h2 : RestRely h' h'') :
    RestRely h h'' := ⟨fun key hc => h2.committed key (h1.committed key hc)⟩

theorem KeyOf.mono {P P' : String → Prop} (hk : KeyOf h id P) (hl : Later h h')
    (hP : ∀ key, P key → P' key) : KeyOf h' id P' := by
  obtain ⟨a, ha, hp⟩ := hk
  obtain ⟨b, hb, hab⟩ := hl.db.actions id a ha
  exact ⟨b, hb, hab.command ▸ hP _ hp⟩

theorem Refused.later (hl : Later h h') {key : String} (hr : Refused h key) : Refused h' key := by
  obtain ⟨x, hx, hxr⟩ := hr
  exact ⟨x, hl.trace.subset hx, hxr⟩

/-- A move that leaves the database, the trace and the effects alone. -/
theorem RestInv.aside (hs : RestInv h) (hdb : h'.state.db = h.state.db)
    (ht : h'.trace = h.trace) (he : h'.state.ext.1 = h.state.ext.1) :
    RestInv h' ∧ RestRely h h' := by
  refine ⟨⟨?_, ?_, ?_⟩, ⟨fun key hc => ?_⟩⟩
  · simp only [Returned, ht]
    exact hs.agree
  · simp only [Returned, KeyOf, Committed, ht, hdb, he]
    exact hs.succeeded
  · simp only [Returned, Refused, Claimed, ht, hdb]
    exact hs.failed
  · unfold Committed
    rw [he]
    exact hc

end

theorem provider_reply (e : ProviderChoice V) (s : List String × V.State) (request : HttpRequest) :
    ((V.provider statuses).exec e s (.inl request)).1 =
      match request.endpoint with
      | .execute => e.reply
      | .reconcile => statuses.truthful (decide (request.key ∈ s.1)) e.reply := by
  obtain ⟨endpoint, key, method, url, headers, params, json⟩ := request
  cases endpoint <;> rfl

/-- An execute request commits its key, if its reply says so; a query commits nothing. -/
theorem provider_committed (e : ProviderChoice V) (s : List String × V.State)
    (request : HttpRequest) :
    ((V.provider statuses).exec e s (.inl request)).2.1 =
      if request.endpoint = .execute ∧ statuses.commits e.commits e.reply = true then
        request.key :: s.1 else s.1 := by
  obtain ⟨endpoint, key, method, url, headers, params, json⟩ := request
  cases endpoint with
  | execute =>
    change (if statuses.commits e.commits e.reply = true then (key :: s.1, s.2) else s).1 = _
    cases statuses.commits e.commits e.reply <;> simp
  | reconcile => rfl

section
variable {engine : Engine (httpSig.sum Y)} {admits : Admission _ (V.provider statuses)}
  {old : String → Prop} {h : RestLog statuses V} {τ : ℕ} {o : Op (httpSig.sum Y)}
  {e : EngineChoice (V.provider statuses)}

/-- Effects are committed by execute requests only, each for its own key. -/
theorem committed_after (key : String) :
    Committed ((engine.system (V.provider statuses) admits).after h τ o e) key ↔
      Committed h key ∨ ∃ request, o = .ext (.inl request) ∧
        HttpRequest.endpoint request = .execute ∧ HttpRequest.key request = key ∧
        statuses.commits e.ext.commits e.ext.reply = true := by
  cases o with
  | ext o =>
    cases o with
    | inl request =>
      have hext : ((engine.system (V.provider statuses) admits).after h τ (.ext (.inl request))
          e).state.ext.1 = if HttpRequest.endpoint request = .execute ∧
            statuses.commits e.ext.commits e.ext.reply = true then
          HttpRequest.key request :: h.state.ext.1 else h.state.ext.1 :=
        provider_committed e.ext h.state.ext request
      unfold Committed
      rw [hext]
      constructor
      · intro hk
        split_ifs at hk with hc
        · rcases List.mem_cons.1 hk with rfl | hk
          · exact Or.inr ⟨request, rfl, hc.1, rfl, hc.2⟩
          · exact Or.inl hk
        · exact Or.inl hk
      · rintro (hk | ⟨request', ho, hend, rfl, hc⟩)
        · split_ifs
          · exact List.mem_cons_of_mem _ hk
          · exact hk
        · cases ho
          rw [if_pos ⟨hend, hc⟩]
          exact List.mem_cons_self
    | inr o =>
      refine ⟨Or.inl, ?_⟩
      rintro (hk | ⟨_, ho, -⟩)
      · exact hk
      · cases ho
  | _ =>
    refine ⟨Or.inl, ?_⟩
    rintro (hk | ⟨_, ho, -⟩)
    · exact hk
    · cases ho

theorem restRely_after : RestRely h ((engine.system (V.provider statuses) admits).after h τ o e) :=
  ⟨fun key hc => (committed_after key).2 (Or.inl hc)⟩

theorem restInv_after (hi : ActionPlane.Inv (restContract statuses V old) h) (hs : RestInv h)
    (hp : ActionPlane.Pre (restContract statuses V old) τ o h) :
    RestInv ((engine.system (V.provider statuses) admits).after h τ o e) := by
  have hl : Later h ((engine.system (V.provider statuses) admits).after h τ o e) :=
    later_after hp.1 e
  have hr : RestRely h ((engine.system (V.provider statuses) admits).after h τ o e) :=
    restRely_after
  -- whoever returns has not returned before, and nobody else has called
  have hfresh : ∀ id s, o = .dispatchReturned id s → ∀ τ' s', ¬ Returned h τ' id s' := by
    rintro id s rfl τ' s' hret
    obtain ⟨c, hin⟩ := hp.2.1
    exact hi.idle hret τ c hin
  refine ⟨fun τ1 τ2 id s1 s2 h1 h2 => ?_, fun τ' id hret => ?_, fun id a ha hst => ?_⟩
  · rcases ActionPlane.returned_after h1 with g1 | ⟨-, o1⟩ <;>
      rcases ActionPlane.returned_after h2 with g2 | ⟨-, o2⟩
    · exact hs.agree _ _ _ _ _ g1 g2
    · exact absurd g1 (hfresh _ _ o2 _ _)
    · exact absurd g2 (hfresh _ _ o1 _ _)
    · rw [o1] at o2
      cases o2
      rfl
  · rcases ActionPlane.returned_after hret with hret | ⟨-, rfl⟩
    · exact (hs.succeeded τ' id hret).mono hl hr.committed
    · exact (hp.2.2 rfl).mono hl hr.committed
  · have hmoved : (∃ τ, Returned h τ id .failed) ∨ KeyOf h id (Refused h) →
        (∃ τ', Returned ((engine.system (V.provider statuses) admits).after h τ o e)
          τ' id .failed) ∨
        Refused ((engine.system (V.provider statuses) admits).after h τ o e)
          a.command.idempotencyKey ∨
        ∀ τ', ¬ Claimed ((engine.system (V.provider statuses) admits).after h τ o e) τ' id := by
      rintro (⟨τ', hret⟩ | hk)
      · exact Or.inl ⟨τ', hl.returned hret⟩
      · obtain ⟨b, hb, href⟩ := hk.mono hl fun key => Refused.later hl
        obtain rfl : b = a := Option.some.inj (hb.symm.trans ha)
        exact Or.inr (Or.inl href)
    rcases ActionPlane.status_after hp ha with hn | hn | ⟨b, hb, hcmd, hsame | hj⟩
    · rw [hn] at hst
      cases hst
    · rw [hn] at hst
      cases hst
    · have hbs : b.status = .failed := hsame.symm.trans hst
      rcases hs.failed id b hb hbs with hret | href | hnone
      · exact hmoved (Or.inl hret)
      · exact hmoved (Or.inr ⟨b, hb, href⟩)
      · refine Or.inr (Or.inr fun τ' hc => ?_)
        rcases ActionPlane.claimed_after hc with hc | ⟨-, ⟨b', hb', hauth⟩, -⟩
        · exact hnone τ' hc
        · obtain rfl : b' = b := Option.some.inj (hb'.symm.trans hb)
          rw [hbs] at hauth
          cases hauth
    · exact hmoved (hj hst)

end

namespace RestActionConnector

variable {connector : RestActionConnector} {endpoint : Endpoint} {operation : HttpOperation}
  {command : ActionCommand} {prior : Option Fields} {request : HttpRequest}

private theorem of_bind_ok {α β : Type} {x : Except PyErr α} {f : α → Except PyErr β} {b : β}
    (h : (x >>= f) = .ok b) : ∃ a, x = .ok a ∧ f a = .ok b := by
  cases x with
  | error e => cases h
  | ok a => exact ⟨a, rfl, h⟩

/-- A request is for the endpoint that it is made for, and about the key of its command. -/
theorem request_ok (h : connector.request endpoint operation command prior = .ok request) :
    request.endpoint = endpoint ∧ request.key = command.idempotencyKey ∧
      connector.requestUrl operation = .ok request.url := by
  obtain ⟨headers, -, h⟩ : ∃ headers : List (String × String), True ∧
      (do
        let body ← fields command prior operation.body
        let query ← fields command prior operation.query
        let url ← connector.requestUrl operation
        return {
          endpoint, key := command.idempotencyKey, method := operation.method, url
          headers, params := query, json := if operation.method = "GET" then none else some body }
        : Except PyErr HttpRequest) = .ok request := by
    unfold RestActionConnector.request at h
    dsimp only at h
    split at h
    · exact ⟨_, trivial, h⟩
    · obtain ⟨secret, -, h⟩ := of_bind_ok h
      exact ⟨_, trivial, h⟩
  obtain ⟨body, -, h⟩ := of_bind_ok h
  obtain ⟨query, -, h⟩ := of_bind_ok h
  obtain ⟨url, hurl, h⟩ := of_bind_ok h
  cases h
  exact ⟨rfl, rfl, hurl⟩

theorem status_outcome (statusCode : ℕ) (body : Option Json) :
    (connector.outcome statusCode body).status =
      if statusCode ∈ connector.binding.statuses.succeeded then .succeeded
      else if statusCode ∈ connector.binding.statuses.failed then .failed else .unknown := by
  unfold outcome
  dsimp only
  split_ifs <;> rfl

end RestActionConnector

section
variable {engine : Engine (httpSig.sum Y)} {admits : Admission _ (V.provider statuses)}
  {old : String → Prop} {h : RestLog statuses V} {τ : ℕ} {id : String} {c : ActionCommand}

/-- A request and what is made of its reply. -/
theorem wp_request {request : HttpRequest}
    {k : HttpReply → Prog (httpSig.sum Y) PyErr ConnectorOutcome}
    {Q : Except PyErr ConnectorOutcome → RestLog statuses V → Prop}
    (hk : ∀ h1, Later h h1 → @Quiet _ _ _ (engine.system (V.provider statuses) admits) τ h h1 →
      ActionPlane.Inv (restContract statuses V old) h1 →
      ActionPlane.Pre (restContract statuses V old) τ (.ext (.inl request)) h1 ∧
      ∀ e reply, reply =
      ((V.provider statuses).exec (EngineChoice.ext e) h1.state.ext (.inl request)).1 →
        ((restContract statuses V old).logic engine admits).wp τ (Task.ext (k reply)) Q
          ((engine.system (V.provider statuses) admits).after h1 τ (.ext (.inl request)) e)) :
    ((restContract statuses V old).logic engine admits).wp τ
      (Task.ext (.call (S := httpSig.sum Y) (.inl request) k)) Q h := by
  intro h1 hr hq hi
  obtain ⟨hpre, hrest⟩ := hk h1 hr.1 hq hi.1
  exact ⟨hpre, fun e => hrest e _ rfl⟩

/-- What the connector makes of a reply. -/
theorem executeOperation_eq {connector : RestActionConnector} {endpoint : Endpoint}
    {operation : HttpOperation} {prior : Option Fields} {request : HttpRequest}
    (hreq : connector.request endpoint operation c prior = .ok request) :
    (connector.executeOperation endpoint operation c prior : Prog (httpSig.sum Y) PyErr _) =
      .call (S := httpSig.sum Y) (.inl request) fun reply => match (reply : HttpReply) with
        | .lost typeName => .ret ⟨.unknown, [("reason", .str "provider_outcome_ambiguous"),
            ("error_type", .str typeName)]⟩
        | .raised exc => .raise exc
        | .response statusCode body => .ret (connector.outcome statusCode body) := by
  unfold RestActionConnector.executeOperation
  rw [hreq]
  rfl

theorem JustCalled.rely {h' : RestLog statuses V} (hj : JustCalled h τ id c)
    (hq : @Quiet _ _ _ (engine.system (V.provider statuses) admits) τ h h') :
    JustCalled h' τ id c := by
  unfold JustCalled
  rw [hq.own]
  exact hj

end

section
variable {connector : RestActionConnector} {engine : Engine (httpSig.sum Y)}
  {admits : Admission _ (V.provider connector.binding.statuses)} {old : String → Prop}
  {h : RestLog connector.binding.statuses V} {τ : ℕ} {id : String} {c : ActionCommand}

theorem wp_restDispatch (hin : InCall h τ id c) (hj : JustCalled h τ id c) :
    ((restContract connector.binding.statuses V old).logic engine admits).wp τ
      (Task.ext (connector.dispatch c))
      (fun r h' => InCall h' τ id c ∧ ∀ outcome, r = .ok outcome →
        (restContract connector.binding.statuses V old).Answer τ id outcome.status h') h := by
  unfold RestActionConnector.dispatch
  cases hreq : connector.request .execute connector.binding.execute c none with
  | error exc =>
    unfold RestActionConnector.executeOperation
    rw [hreq]
    exact ⟨hin, fun _ hr => by cases hr⟩
  | ok request =>
    obtain ⟨hend, hkey, -⟩ := RestActionConnector.request_ok hreq
    rw [executeOperation_eq hreq]
    refine wp_request fun h1 hl hq hi => ⟨⟨trivial, ?_⟩, fun e reply hreply => ?_⟩
    · change match HttpRequest.endpoint request with
        | .execute => ∃ id c, JustCalled h1 τ id c ∧ c.idempotencyKey = HttpRequest.key request
        | .reconcile => _
      rw [hend]
      exact ⟨id, c, hj.rely hq, hkey.symm⟩
    · have hin1 : InCall ((engine.system (V.provider connector.binding.statuses) admits).after h1 τ
          (.ext (.inl request)) e) τ id c := (hin.rely hl hq).after (.inl request) e
      have hreply' : reply = e.ext.reply := by
        have := hreply.trans (provider_reply e.ext h1.state.ext request)
        rw [hend] at this
        exact this
      cases reply with
      | lost typeName =>
        refine ⟨hin1, fun outcome hr => ?_⟩
        cases hr
        exact nofun
      | raised exc => exact ⟨hin1, fun _ hr => by cases hr⟩
      | response statusCode body =>
        refine ⟨hin1, fun outcome hr hst => ?_⟩
        cases hr
        rw [RestActionConnector.status_outcome] at hst
        have hcode : statusCode ∈ connector.binding.statuses.succeeded := by
          by_contra hno
          rw [if_neg hno] at hst
          split_ifs at hst
        obtain ⟨-, a, ha, rfl⟩ := hi.called τ id c (hin.rely hl hq).called
        refine ⟨a, ha, (committed_after _).2 (Or.inr ⟨request, rfl, hend, hkey, ?_⟩)⟩
        rw [← hreply']
        exact decide_eq_true hcode

theorem wp_restReconcile (prior : Option Fields)
    (hst : ∃ a, h.state.db.action? id = some a ∧ a.command = c) :
    ((restContract connector.binding.statuses V old).logic engine admits).wp τ
      (Task.ext (connector.reconcile c prior))
      (fun r h' => ∀ outcome, r = .ok outcome →
        (restContract connector.binding.statuses V old).Justified τ id
          (if outcome.status = .succeeded then .reconciled else outcome.status) h') h := by
  unfold RestActionConnector.reconcile
  cases hrec : connector.binding.reconcile with
  | none =>
    rintro outcome hr
    cases hr
    exact nofun
  | some operation =>
    cases hreq : connector.request .reconcile operation c prior with
    | error exc =>
      simp only [RestActionConnector.executeOperation, hreq]
      exact fun _ hr => by cases hr
    | ok request =>
      obtain ⟨hend, hkey, -⟩ := RestActionConnector.request_ok hreq
      simp only
      rw [executeOperation_eq hreq]
      refine wp_request fun h1 hl hq hi => ⟨⟨trivial, ?_⟩, fun e reply hreply => ?_⟩
      · change match HttpRequest.endpoint request with
          | .execute => _
          | .reconcile => ∃ id, KeyOf h1 id (· = HttpRequest.key request)
        rw [hend]
        obtain ⟨a, ha, rfl⟩ := hst
        obtain ⟨b, hb, hab⟩ := hl.db.actions id a ha
        exact ⟨id, b, hb, by rw [hab.command, hkey]⟩
      · cases reply with
        | lost typeName =>
          rintro outcome hr
          cases hr
          exact nofun
        | raised exc => exact fun _ hr => by cases hr
        | response statusCode body =>
          intro outcome hr hfailed
          cases hr
          rw [RestActionConnector.status_outcome] at hfailed
          have hcode : statusCode ∈ connector.binding.statuses.failed := by
            by_contra hno
            rw [if_neg hno] at hfailed
            split_ifs at hfailed
          obtain ⟨a, ha, rfl⟩ := hst
          obtain ⟨b, hb, hab⟩ := hl.db.actions id a ha
          refine Or.inr ⟨b, hb, ⟨τ, .ext (.inl request), .response statusCode body⟩, ?_, ?_⟩
          · refine List.mem_append_right _ (List.mem_singleton.2 ?_)
            rw [hreply]
            rfl
          · exact ⟨τ, request, statusCode, body, hend, by rw [hab.command, hkey], hcode, rfl⟩

end

section
variable {engine : Engine Y} {connector : RestActionConnector}
  {admits : Admission _ (V.provider connector.binding.statuses)} {old : String → Prop}

theorem rest_lawful : (restContract connector.binding.statuses V old).Lawful
    (engine.backedBy connector.connector') admits where
  refl := .refl
  trans _ _ _ := .trans
  step _ _ _ _ hi hs hp := ⟨restInv_after hi hs hp, restRely_after⟩
  spawn _ _ hs := hs.aside rfl rfl rfl
  crash _ _ hs := hs.aside rfl rfl rfl
  drift _ _ hs := hs.aside rfl rfl rfl
  free τ o h hf := by
    cases o with
    | inl request => exact hf.elim
    | inr o => trivial
  justified τ id s h h' hj hl _ hs := by
    rcases hj hs with ⟨τ', hr⟩ | hk
    · exact Or.inl ⟨τ', hl.returned hr⟩
    · exact Or.inr (hk.mono hl fun _ => Refused.later hl)
  unknown _ _ _ := nofun
  answered τ id c s h h' ha _ hl hr _ _ _ hs := (ha hs).mono hl hr.committed
  answer τ id s h e _ hs := by
    subst hs
    exact Or.inl ⟨τ, List.mem_append_right _ (List.mem_singleton.2 rfl)⟩
  dispatch τ id c pinned resolved h hres hin hj := by
    rw [connector_of_backedBy hres]
    exact wp_restDispatch hin hj
  reconcile τ id c pinned resolved prior h hres hst := by
    rw [connector_of_backedBy hres]
    exact wp_restReconcile prior hst
  resources resourceType resourceId :=
    Prog.issues_lift (Prog.Issues.mono (fun _ _ => trivial) (Prog.issues_true _))
  requireActive policy hp packageId := by
    obtain ⟨resolver, rfl⟩ := policy_of_backedBy hp
    exact Prog.issues_lift (Prog.Issues.mono (fun _ _ => trivial) (Prog.issues_true _))
  snapshot policy hp packageId signature := by
    obtain ⟨resolver, rfl⟩ := policy_of_backedBy hp
    exact Prog.issues_lift (Prog.Issues.mono (fun _ _ => trivial) (Prog.issues_true _))

end

/-- Every entry point but those that decide an outcome, or claim an action, without a
connector. -/
def restCalls : Admission (httpSig.sum Y) (V.provider statuses)
  | _, .recordOutcome .. => false
  | _, .markDispatched _ => false
  | _, .outside _ => false
  | h, call => openCalls h call

theorem restCalls_sound (engine : Engine Y) (connector : RestActionConnector) (V : World Y)
    (old : String → Prop) :
    ((restContract connector.binding.statuses V old).logic (engine.backedBy connector.connector')
      restCalls).Sound := by
  refine rest_lawful.sound fun h call hc => ?_
  cases call with
  | dispatch a => exact (decide_eq_true_iff (p := Genuine h.state.db a)).1 hc
  | reconcile a => exact (decide_eq_true_iff (p := Genuine h.state.db a)).1 hc
  | recordOutcome id status outcome => cases hc
  | markDispatched id => cases hc
  | transaction o => cases hc
  | outside p => cases hc
  | _ => trivial

/-- A task has gone on from the beginning of its connector call for the action. -/
def wentOn (id : String) : List (Entry (sig (httpSig.sum Y))) → Bool
  | [] => false
  | x :: rest => if isCall (fun i _ => i = id) x then !rest.isEmpty else wentOn id rest

/-- The action of a won claim. -/
def claimed? : Entry (sig (httpSig.sum Y)) → Option String
  | ⟨_, .tx (.claimAction id), (won : Except PyErr Bool)⟩ =>
    match won with
    | .ok true => some id
    | _ => none
  | _ => none

/-- The key of a query. -/
def queried? : Op (httpSig.sum Y) → Option String
  | .ext (.inl request) => match HttpRequest.endpoint request with
    | .execute => none
    | .reconcile => some (HttpRequest.key request)
  | _ => none

/-- No execute request for the key is outstanding: the task that has claimed the action has
crashed, or its request has arrived, or it has given up. -/
def Quieted (h : RestLog statuses V) (key : String) : Prop :=
  ∀ a ∈ h.state.db.actionByKey? key, a.status ≠ .authorized ∧
    ∀ x ∈ h.trace, claimed? x = some a.actionId →
      wentOn a.actionId (h.own x.tid) = true ∨ x.tid ∈ h.crashed

instance (h : RestLog statuses V) (key : String) : Decidable (Quieted h key) :=
  inferInstanceAs (Decidable (∀ a ∈ h.state.db.actionByKey? key, a.status ≠ .authorized ∧
    ∀ x ∈ h.trace, claimed? x = some a.actionId →
      wentOn a.actionId (h.own x.tid) = true ∨ x.tid ∈ h.crashed))

/-- A query for a key without a committed effect is made only when none can follow. -/
def QueriesQuieted {engine : Engine (httpSig.sum Y)}
    {admits : Admission _ (V.provider statuses)}
    (c : (engine.system (V.provider statuses) admits).Config)
    (a : (engine.system (V.provider statuses) admits).Move) : Prop :=
  ∀ key ∈ ((engine.system (V.provider statuses) admits).performs c a).bind queried?,
    Committed c.hist key ∨ Quieted c.hist key

instance {engine : Engine (httpSig.sum Y)} {admits : Admission _ (V.provider statuses)}
    (c : (engine.system (V.provider statuses) admits).Config)
    (a : (engine.system (V.provider statuses) admits).Move) : Decidable (QueriesQuieted c a) :=
  inferInstanceAs (Decidable (∀ key ∈
    ((engine.system (V.provider statuses) admits).performs c a).bind queried?,
      Committed c.hist key ∨ Quieted c.hist key))

theorem wentOn_append {id : String} {xs : List (Entry (sig (httpSig.sum Y)))}
    (h : wentOn id xs = true) (ys : List (Entry (sig (httpSig.sum Y)))) :
    wentOn id (xs ++ ys) = true := by
  induction xs with
  | nil => cases h
  | cons x xs ih =>
    simp only [wentOn, List.cons_append] at h ⊢
    split_ifs at h ⊢
    · cases xs with
      | nil => cases h
      | cons y xs => rfl
    · exact ih h

theorem JustCalled.not_wentOn {h : RestLog statuses V} {τ : ℕ} {id : String} {c : ActionCommand}
    (hj : JustCalled h τ id c) : wentOn id (h.own τ) = false := by
  obtain ⟨before, hown, hfirst⟩ := hj
  rw [hown]
  clear hown
  induction before with
  | nil => simp [wentOn, isCall]
  | cons x before ih =>
    have hx := hfirst x List.mem_cons_self
    simp only [List.cons_append, wentOn, hx, Bool.false_eq_true, if_false]
    exact ih fun y hy => hfirst y (List.mem_cons_of_mem _ hy)

theorem claimed?_eq_some {x : Entry (sig (httpSig.sum Y))} {id : String} :
    claimed? x = some id ↔ x = ⟨x.tid, Op.tx (.claimAction id), Except.ok true⟩ := by
  constructor
  · intro h
    obtain ⟨τ, o, r⟩ := x
    unfold claimed? at h
    split at h
    · next id' won heq =>
      split at h
      · cases h
        cases heq
        rfl
      · cases h
    · cases h
  · intro h
    rw [h]
    rfl

/-- A refused key has an action, whose effect is not committed and whose requests are over. -/
structure Final (h : RestLog statuses V) (key : String) : Prop where
  stored : ∃ a, h.state.db.actionByKey? key = some a
  uncommitted : ¬ Committed h key
  quieted : Quieted h key

section
variable {h h' : RestLog statuses V} {key : String}

theorem Final.aside (hf : Final h key) (hdb : h'.state.db = h.state.db) (ht : h'.trace = h.trace)
    (he : h'.state.ext.1 = h.state.ext.1) (hc : h.crashed ⊆ h'.crashed) : Final h' key := by
  refine ⟨hdb ▸ hf.stored, fun hk => hf.uncommitted ?_, fun a ha => ?_⟩
  · unfold Committed at hk ⊢
    rw [← he]
    exact hk
  · obtain ⟨hne, hclaims⟩ := hf.quieted a (hdb ▸ ha)
    refine ⟨hne, fun x hx hid => ?_⟩
    unfold Hist.own
    rw [ht] at hx ⊢
    exact (hclaims x hx hid).imp_right fun hm => hc hm

theorem action?_of_key {db : Db} {a : ActionRecord} (ha : db.actionByKey? key = some a) :
    db.action? a.actionId = some a ∧ a.command.idempotencyKey = key := by
  obtain ⟨hm, hk⟩ := Table.get?_eq_some.1 ha
  exact ⟨Table.get?_eq_some.2 ⟨hm, rfl⟩, hk⟩

theorem actionByKey?_of_id {db : Db} {id : String} {a : ActionRecord}
    (ha : db.action? id = some a) :
    db.actionByKey? a.command.idempotencyKey = some a :=
  Table.get?_eq_some.2 ⟨(Table.get?_eq_some.1 ha).1, rfl⟩

variable {engine : Engine (httpSig.sum Y)} {admits : Admission _ (V.provider statuses)}
  {old : String → Prop} {τ : ℕ} {o : Op (httpSig.sum Y)} {e : EngineChoice (V.provider statuses)}

/-- The operations of a task are never taken back. -/
theorem own_prefix (engine : Engine (httpSig.sum Y)) (admits : Admission _ (V.provider statuses))
    (h : RestLog statuses V) (τ : ℕ) (o : Op (httpSig.sum Y))
    (e : EngineChoice (V.provider statuses)) (τ' : ℕ) :
    ∃ new, ((engine.system (V.provider statuses) admits).after h τ o e).own τ' =
      h.own τ' ++ new := by
  by_cases ht : τ' = τ
  · subst ht
    exact ⟨_, @System.own_after _ _ _ (engine.system _ admits) h τ' o e⟩
  · exact ⟨[], (@System.own_after_ne _ _ _ (engine.system _ admits) h _ _ ht o e).trans
      (List.append_nil _).symm⟩

/-- Nothing can follow later either: the action cannot be claimed again. -/
theorem Quieted.after (hq : Quieted h key) (hst : ∃ a, h.state.db.actionByKey? key = some a)
    (hl : Later h ((engine.system (V.provider statuses) admits).after h τ o e)) :
    Quieted ((engine.system (V.provider statuses) admits).after h τ o e) key := by
  obtain ⟨a, ha⟩ := hst
  obtain ⟨hid, hk⟩ := action?_of_key ha
  obtain ⟨b, hb, hab⟩ := hl.db.actions _ a hid
  obtain ⟨hne, hclaims⟩ := hq a ha
  have hkey : b.command.idempotencyKey = key := by rw [hab.command, hk]
  intro b' hb'
  obtain rfl : b = b' := Option.some.inj ((hkey ▸ actionByKey?_of_id hb).symm.trans hb')
  have hbid : b.actionId = a.actionId := (Table.get?_eq_some.1 hb).2
  refine ⟨hab.status.ne_authorized hne, fun x hx hclaim => ?_⟩
  rw [hbid] at hclaim ⊢
  have hclaimed : Claimed ((engine.system (V.provider statuses) admits).after h τ o e) x.tid
      a.actionId := claimed?_eq_some.1 hclaim ▸ hx
  rcases ActionPlane.claimed_after hclaimed with hc | ⟨-, ⟨a', ha', hauth⟩, -⟩
  · refine (hclaims _ hc rfl).imp_left fun hw => ?_
    obtain ⟨new, hown⟩ := own_prefix engine admits h τ o e x.tid
    exact (congrArg (wentOn a.actionId) hown).trans (wentOn_append hw new)
  · obtain rfl : a' = a := Option.some.inj (ha'.symm.trans hid)
    exact absurd hauth hne

/-- What is final cannot be committed by a task that still runs. -/
theorem Final.after (hf : Final h key) (hi : ActionPlane.Inv (restContract statuses V old) h)
    (hp : ActionPlane.Pre (restContract statuses V old) τ o h) (hτ : τ ∉ h.crashed) :
    Final ((engine.system (V.provider statuses) admits).after h τ o e) key := by
  have hl : Later h ((engine.system (V.provider statuses) admits).after h τ o e) :=
    later_after hp.1 e
  obtain ⟨a, ha⟩ := hf.stored
  obtain ⟨hid, hk⟩ := action?_of_key ha
  refine ⟨?_, fun hc => ?_, hf.quieted.after ⟨a, ha⟩ hl⟩
  · obtain ⟨b, hb, hab⟩ := hl.db.actions _ a hid
    exact ⟨b, by rw [← hk, ← hab.command]; exact actionByKey?_of_id hb⟩
  · rcases (committed_after key).1 hc with hc | ⟨request, rfl, hend, hkey, -⟩
    · exact hf.uncommitted hc
    · obtain ⟨id, c, hj, hck⟩ : ∃ id c, JustCalled h τ id c ∧
          c.idempotencyKey = HttpRequest.key request := by
        have hext := hp.2
        change (match HttpRequest.endpoint request with
          | .execute => ∃ id c, JustCalled h τ id c ∧ c.idempotencyKey = HttpRequest.key request
          | .reconcile => _) at hext
        rw [hend] at hext
        exact hext
      have hcalled : Called h τ id c := by
        obtain ⟨before, hown, -⟩ := hj
        have hmem : (⟨τ, .dispatchCalled id c, ()⟩ : Entry (sig (httpSig.sum Y))) ∈ h.own τ := by
          rw [hown]
          exact List.mem_append_right _ (List.mem_singleton_self _)
        exact (List.mem_filter.1 hmem).1
      obtain ⟨hclaim, a', ha', rfl⟩ := hi.called τ id c hcalled
      have haa : a' = a := by
        refine Option.some.inj ((actionByKey?_of_id ha').symm.trans ?_)
        rw [hck, hkey, ha]
      subst haa
      have hid' : a'.actionId = id := (Table.get?_eq_some.1 ha').2
      rcases (hf.quieted a' ha).2 _ hclaim (hid' ▸ rfl) with hw | hcr
      · rw [hid', hj.not_wentOn] at hw
        cases hw
      · exact hτ hcr

end

section
variable {engine : Engine (httpSig.sum Y)} {admits : Admission _ (V.provider statuses)}
  {old : String → Prop} {h : RestLog statuses V} {τ : ℕ} {o : Op (httpSig.sum Y)}
  {e : EngineChoice (V.provider statuses)} {key : String}

/-- A key is refused by the answer of a query, which is true at that moment. -/
theorem refused_after
    (hr : Refused ((engine.system (V.provider statuses) admits).after h τ o e) key) :
    Refused h key ∨ queried? o = some key ∧ ¬ Committed h key ∧ ∃ request,
      o = .ext (.inl request) ∧ HttpRequest.endpoint request = .reconcile ∧
        HttpRequest.key request = key := by
  obtain ⟨x, hx, τ', request, code, body, hend, hkey, hcode, rfl⟩ := hr
  rcases List.mem_append.1 hx with hx | hx
  · exact Or.inl ⟨_, hx, τ', request, code, body, hend, hkey, hcode, rfl⟩
  · injection List.mem_singleton.1 hx with ht ho hres
    subst ho
    have hreply := (eq_of_heq hres).trans (provider_reply e.ext h.state.ext request)
    rw [hend] at hreply
    refine Or.inr ⟨?_, fun hc => ?_, request, rfl, hend, hkey⟩
    · simp only [queried?, hend, hkey]
    · have hmem : decide (HttpRequest.key request ∈ h.state.ext.1) = true :=
        decide_eq_true (hkey ▸ hc)
      dsimp only at hreply
      rw [hmem] at hreply
      cases hrep : e.ext.reply with
      | response code' body' =>
        rw [hrep] at hreply
        simp only [HttpStatusMapping.truthful, Bool.true_eq_false, iff_false] at hreply
        split_ifs at hreply with hno
        cases hreply
        exact hno hcode
      | lost typeName =>
        rw [hrep] at hreply
        cases hreply
      | raised exc =>
        rw [hrep] at hreply
        cases hreply

theorem final_next (hL : ((restContract statuses V old).logic engine admits).Sound)
    {c : (engine.system (V.provider statuses) admits).Config}
    (hc : ((restContract statuses V old).logic engine admits).Good c)
    (hf : ∀ key, Refused c.hist key → Final c.hist key)
    {a : (engine.system (V.provider statuses) admits).Move} (hG : QueriesQuieted c a) (key : String)
    (hr : Refused ((engine.system (V.provider statuses) admits).next c a).hist key) :
    Final ((engine.system (V.provider statuses) admits).next c a).hist key := by
  rcases System.next_cases c a with hn | ⟨call, -, -, hn⟩ | ⟨τ, e, o, k, rfl, hready, hn⟩ |
      ⟨τ, -, hn⟩ | ⟨e, -, hn⟩ <;> rw [hn] at hr ⊢
  · exact hf key hr
  · exact (hf key hr).aside rfl rfl rfl fun _ hm => hm
  · have hp := hc.pre hL hready
    refine Final.after ?_ hc.inv.1 hp hready.2
    rcases refused_after hr with hr | ⟨hq, hno, request, rfl, hend, hkey⟩
    · exact hf key hr
    · have hquiet : Quieted c.hist key := by
        refine (hG key ?_).resolve_left hno
        rw [System.performs_of_ready hready e]
        exact hq
      refine ⟨?_, hno, hquiet⟩
      have hext := hp.2
      change (match HttpRequest.endpoint request with
        | .execute => _
        | .reconcile => ∃ id, KeyOf c.hist id (· = HttpRequest.key request)) at hext
      rw [hend] at hext
      obtain ⟨id, a, ha, hak⟩ := hext
      exact ⟨a, hkey ▸ hak ▸ actionByKey?_of_id ha⟩
  · exact (hf key hr).aside rfl rfl rfl fun _ hm => List.mem_cons_of_mem _ hm
  · exact (hf key hr).aside rfl rfl rfl fun _ hm => hm

end

/-- A success that the connector has returned is never recorded as a failure, if no query finds
its key uncommitted while an execute request for it can still arrive. -/
theorem success_not_failed (engine : Engine Y) (connector : RestActionConnector) (V : World Y)
    (s : EngineState (V.provider connector.binding.statuses))
    (acts acts' : List ((engine.backedBy connector.connector').system
      (V.provider connector.binding.statuses) restCalls).Move)
    (hG : System.Guarded QueriesQuieted
      (((engine.backedBy connector.connector').system _ restCalls).init s) (acts ++ acts'))
    (τ : ℕ) (id : String)
    (hret : Returned ((engine.backedBy connector.connector').history _ restCalls s acts) τ id
      .succeeded)
    (a : ActionRecord)
    (ha : ((engine.backedBy connector.connector').history _ restCalls s
      (acts ++ acts')).state.db.action? id = some a) :
    a.status ≠ .failed := by
  have hsound := restCalls_sound engine connector V fun oid => ∃ r, s.db.outbox? oid = some r
  have hgood := hsound.good_run (s := s) ⟨ActionPlane.inv_init fun _ => Iff.rfl,
    ⟨by simp [Returned, System.init], by simp [Returned, System.init],
      fun id a _ _ => Or.inr (Or.inr (by simp [Claimed, System.init]))⟩⟩
  have hfinal := System.run_induction
    (J := fun c => ∀ key, Refused c.hist key → Final c.hist key)
    (by simp [Refused, System.init])
    (fun acts a hf hq => final_next hsound (hgood acts) hf hq) (acts ++ acts') hG
  have hlater := (hsound.rely_run (hgood acts) acts').1
  rw [← System.run_append] at hlater
  obtain ⟨hplane, hrest⟩ := (hgood (acts ++ acts')).inv
  have hret' := hlater.returned hret
  intro hst
  obtain ⟨b, hb, hcom⟩ := hrest.succeeded τ id hret'
  obtain rfl : b = a := Option.some.inj (hb.symm.trans ha)
  rcases hrest.failed id b ha hst with ⟨τ', hfailed⟩ | href | hnone
  · cases hrest.agree _ _ _ _ _ hret' hfailed
  · exact (hfinal _ href).uncommitted hcom
  · obtain ⟨c, hcall⟩ := hplane.returned τ id _ hret'
    exact hnone τ (hplane.called τ id c hcall).1

/-- Notes are created and found over HTTP. -/
def noteProvider : RestActionConnector where
  binding := {
    baseUrl := "https://notes"
    allowedHosts := ["notes"]
    execute := { operationId := "create", path := "/notes" }
    reconcile := some { operationId := "find", method := "GET", path := "/notes" }
    statuses := { disjoint := by simp [List.Disjoint] }
    providerOperationIdPointer := none }
  resolveSecret _ := .ok ""
  tables := ⟨fun _ => true, id⟩

abbrev RestMove := ((plainEngine.backedBy noteProvider.connector').system
  (World.isolated.provider noteProvider.binding.statuses) restCalls).Move

def restMoves (code τ n : ℕ) (tag : String) : List RestMove :=
  (List.range n).map fun i => .run τ ⟨fun j => tag ++ toString i ++ "." ++ toString j, 0,
    .response code none, false, ()⟩

/-- The time after which a dispatched action counts as stale. -/
def restWait : RestMove := .drift ⟨toString, 31000000, .response 200 none, false, ()⟩

def restHistory (acts : List RestMove) :
    RestLog noteProvider.binding.statuses World.isolated :=
  (plainEngine.backedBy noteProvider.connector').history
    (World.isolated.provider noteProvider.binding.statuses) restCalls ⟨.empty, 0, [], ()⟩ acts

/-- The sweep comes when the request has arrived, and before its response is recorded. -/
def sweptAfter : List RestMove :=
  .spawn (.submit noteRequest "agent") :: restMoves 200 0 11 "a" ++
    restWait :: .spawn (.sweep 30 10) :: restMoves 200 1 10 "b" ++ restMoves 200 0 3 "c"

/-- The sweep comes before the request arrives. -/
def sweptBefore : List RestMove :=
  .spawn (.submit noteRequest "agent") :: restMoves 200 0 10 "a" ++
    restWait :: .spawn (.sweep 30 10) :: restMoves 404 1 10 "b" ++ restMoves 200 0 4 "c"

def isReturn (τ : ℕ) (id : String) (status : ActionStatus) : Entry (sig (httpSig.sum Y)) → Bool
  | ⟨τ', .dispatchReturned id' status', _⟩ => τ' = τ ∧ id' = id ∧ status' = status
  | _ => false

theorem returned_of_any {h : RestLog statuses V} {τ : ℕ} {id : String} {status : ActionStatus}
    (hr : h.trace.any (isReturn τ id status) = true) : Returned h τ id status := by
  obtain ⟨⟨τ', o, r⟩, hx, hp⟩ := List.any_eq_true.1 hr
  cases o with
  | dispatchReturned id' status' =>
    obtain ⟨rfl, rfl, rfl⟩ := of_decide_eq_true hp
    exact hx
  | _ => cases hp

/-- The connector has returned a success, and the action has the status. -/
def SucceededAs (h : RestLog statuses V) (id : String) (status : ActionStatus) : Prop :=
  ∃ a, h.state.db.action? id = some a ∧ a.status = status ∧ Returned h 0 id .succeeded

/-- The sweep records the success as reconciled, and the returned success comes too late for
that. -/
theorem success_not_failed_swept : SucceededAs (restHistory sweptAfter) "ACT-a5.0" .reconciled ∧
    ¬ SucceededAs (restHistory sweptAfter) "ACT-a5.0" .failed := by
  have hstatus : ((restHistory sweptAfter).state.db.action? "ACT-a5.0").map
      ActionRecord.status = some .reconciled := by decide +kernel
  have hret : Returned (restHistory sweptAfter) 0 "ACT-a5.0" .succeeded :=
    returned_of_any (by decide +kernel)
  obtain ⟨a, ha, hst⟩ := Option.map_eq_some_iff.1 hstatus
  refine ⟨⟨a, ha, hst, hret⟩, fun ⟨b, hb, hfailed, _⟩ => ?_⟩
  exact success_not_failed plainEngine noteProvider World.isolated ⟨.empty, 0, [], ()⟩ sweptAfter []
    (by decide +kernel) 0 "ACT-a5.0" hret b hb hfailed

/-- A sweep may find nothing committed while the request is still on its way. -/
theorem late_success_failed : SucceededAs (restHistory sweptBefore) "ACT-a5.0" .failed := by
  have hstatus : ((restHistory sweptBefore).state.db.action? "ACT-a5.0").map
      ActionRecord.status = some .failed := by decide +kernel
  obtain ⟨a, ha, hst⟩ := Option.map_eq_some_iff.1 hstatus
  exact ⟨a, ha, hst, returned_of_any (by decide +kernel)⟩

end WorkflowEngine
