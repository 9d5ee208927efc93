import WorkflowEngine.Interleave.Answers
import WorkflowEngine.Proofs.Linkage
import WorkflowEngine.Spec.ActionApi

/-! What the operations of an endpoint may do. Its rights are the commands that it may insert as
actions, the proposals that it may create and decide, and whether it may act at all; the answers
that it gets from the store decide whether it keeps to them. -/

namespace WorkflowEngine

open Interleave Relational SQLiteCoreStore

structure Rights where
  acts : Prop := False
  inserts : ActionCommand → Prop := fun _ => False
  creates : ActionProposal → Prop := fun _ => False
  decides : String → ActionProposalStatus → Prop := fun _ _ => False

structure Rights.Within (R R' : Rights) : Prop where
  acts : R.acts → R'.acts
  inserts : ∀ c, R.inserts c → R'.inserts c
  creates : ∀ p, R.creates p → R'.creates p
  decides : ∀ id status, R.decides id status → R'.decides id status

variable {X : Sig}

/-- Reading, preparing and the outside world are free; a decision is on a pending proposal. -/
def Op.within (R : Rights) : Op X → Prop
  | .tx (.createCase _) => R.acts
  | .tx (.appendFact ..) => R.acts
  | .tx (.insertAction record _) => R.acts ∧ R.inserts record.command
  | .tx (.transitionAction ..) => R.acts
  | .tx (.claimAction _) => R.acts
  | .tx (.createProposal record) => R.creates record
  | .tx (.transitionProposal id expected status ..) =>
    expected = .pending ∧ status ≠ .pending ∧ R.decides id status
  | .tx (.insertOutbox _) => R.acts
  | .tx (.claimOutbox ..) => R.acts
  | .tx (.updateOutbox ..) => R.acts
  | .dispatchCalled .. => R.acts
  | .dispatchReturned .. => R.acts
  | _ => True

theorem Op.within_mono {R R' : Rights} (h : R.Within R') (o : Op X) (ho : o.within R) :
    o.within R' := by
  cases o with
  | tx o =>
    cases o with
    | insertAction record v => exact ⟨h.acts ho.1, h.inserts _ ho.2⟩
    | createProposal record => exact h.creates _ ho
    | transitionProposal id expected status evidence actionId =>
      exact ⟨ho.1, ho.2.1, h.decides _ _ ho.2.2⟩
    | createCase | appendFact | transitionAction | claimAction | insertOutbox | claimOutbox
    | updateOutbox => exact h.acts ho
    | _ => trivial
  | dispatchCalled | dispatchReturned => exact h.acts ho
  | _ => trivial

theorem Op.within_of_delivers {R : Rights} (hR : R.acts) {o : Op X} (ho : o.delivers) :
    o.within R := by
  cases o with
  | tx o =>
    cases o with
    | insertAction | createProposal | transitionProposal => exact absurd ho id
    | createCase | appendFact | transitionAction | claimAction | insertOutbox | claimOutbox
    | updateOutbox => exact hR
    | _ => trivial
  | dispatchCalled | dispatchReturned => exact hR
  | _ => trivial

/-- What was answered about cases is true of the database, and about proposals, which satisfy
`Q`. -/
def Op.Tells (Q : ActionProposal → Prop) (db : Db) : (o : Op X) → o.Res → Prop
  | .tx (.getCase id), (found : Option CaseRecord) => ∀ c, found = some c →
    ∃ d, db.case? id = some d ∧ d.customerId = c.customerId
  | .tx (.createCase record), (r : Except PyErr Unit) => r = .ok () →
    ∃ d, db.case? record.caseId = some d ∧ d.customerId = record.customerId
  | .tx (.getProposal id), (found : Option ActionProposal) => ∀ p, found = some p →
    Q p ∧ ∃ p', db.proposal? id = some p' ∧ p.Becomes p'
  | .tx (.createProposal record), (r : Except PyErr Unit) => r = .ok () →
    ∃ p', db.proposal? record.proposalId = some p' ∧ record.Becomes p'
  | .tx (.listActionEvents id), (events : List ActionEvent) => ∀ e ∈ events,
    e.actionId = id ∧ e ∈ db.events.rows
  | o, r => Op.TrueOf db o r

theorem Op.trueOf_of_tells {Q : ActionProposal → Prop} {db : Db} {o : Op X} {r : o.Res}
    (h : Op.Tells Q db o r) : Op.TrueOf db o r := by
  cases o with
  | tx o =>
    cases o with
    | getProposal id => exact fun p hp => (h p hp).2
    | getCase | createCase | createProposal | listActionEvents => trivial
    | _ => exact h
  | _ => exact h

/-- A later moment of the store. -/
structure Db.Later (db db' : Db) : Prop where
  onward : db.Onward db'
  pinned : db.Pinned db'
  events : db.events.rows <+: db'.events.rows

theorem Op.Tells.later {Q : ActionProposal → Prop} {db db' : Db} (hl : db.Later db') {o : Op X}
    {r : o.Res} (h : Op.Tells Q db o r) : Op.Tells Q db' o r := by
  have hcase : ∀ {id customerId}, (∃ d, db.case? id = some d ∧ d.customerId = customerId) →
      ∃ d, db'.case? id = some d ∧ d.customerId = customerId := by
    rintro id customerId ⟨d, hd, rfl⟩
    obtain ⟨e, he, hc, -⟩ := hl.pinned id d hd
    exact ⟨e, he, hc.customer⟩
  have hon : Op.TrueOf db o r → Op.TrueOf db' o r := fun h => h.onward hl.onward
  cases o with
  | tx o =>
    cases o with
    | getCase id => exact fun c hc => hcase (h c hc)
    | createCase record => exact fun hr => hcase (h hr)
    | getProposal id =>
      intro p hp
      obtain ⟨hQ, q, hq, hb⟩ := h p hp
      obtain ⟨r, hr, hb'⟩ := hl.onward.proposals id q hq
      exact ⟨hQ, r, hr, hb.trans hb'⟩
    | createProposal record =>
      intro hok
      obtain ⟨q, hq, hb⟩ := h hok
      obtain ⟨r, hr, hb'⟩ := hl.onward.proposals record.proposalId q hq
      exact ⟨r, hr, hb.trans hb'⟩
    | listActionEvents id => exact fun e he => ⟨(h e he).1, hl.events.subset (h e he).2⟩
    | _ => exact hon h
  | _ => exact hon h

section
variable {W : World X} {Q : ActionProposal → Prop}

theorem tells_exec (o : Op X) (e : EngineChoice W) (s : EngineState W)
    (hQ : ∀ id p, s.db.proposal? id = some p → Q p) :
    Op.Tells Q (Engine.exec W e s o).2.db o (Engine.exec W e s o).1 := by
  have htrue := trueOf_exec o e s
  cases o with
  | tx o =>
    cases o with
    | getCase id => exact fun c hc => ⟨c, hc, rfl⟩
    | createCase record =>
      intro hr
      exact ⟨record, created_of_ok (Prod.ext hr rfl :
        (Txn.createCase record).commit s.db = (.ok (), _)), rfl⟩
    | getProposal id => exact fun p hp => ⟨hQ id p hp, p, hp, Or.inl rfl⟩
    | createProposal record =>
      intro hr
      exact ⟨record, proposed_of_ok (Prod.ext hr rfl :
        (Txn.insertProposal record).commit s.db = (.ok (), _)), Or.inl rfl⟩
    | listActionEvents id =>
      intro event he
      obtain ⟨hmem, hid⟩ := List.mem_filter.1 he
      exact ⟨by simpa using hid, hmem⟩
    | _ => exact htrue
  | _ => exact htrue

theorem later_exec {R : Rights} {o : Op X} (ho : o.within R) (e : EngineChoice W)
    (s : EngineState W) : s.db.Later (Engine.exec W e s o).2.db := by
  cases o with
  | tx o =>
    refine ⟨Tx.onward fun id expected status evidence actionId he => ?_,
      pinned_effect (Tx.effect s.clock e.ids s.db o),
        events_effect (Tx.effect s.clock e.ids s.db o)⟩
    subst he
    exact ⟨ho.1, ho.2.1⟩
  | _ => exact ⟨.refl _, .refl _, List.prefix_refl _⟩

/-- Where the proposals of the next state come from. -/
theorem proposals_exec {R : Rights} {o : Op X} (ho : o.within R) (e : EngineChoice W)
    {s : EngineState W} {id : String} {p' : ActionProposal}
    (hp' : (Engine.exec W e s o).2.db.proposal? id = some p') :
    s.db.proposal? id = none ∧ R.creates p' ∧ o = .tx (.createProposal p') ∨
      ∃ p, s.db.proposal? id = some p ∧ p.Becomes p' := by
  cases hs : s.db.proposal? id with
  | some p =>
    obtain ⟨q, hq, hb⟩ := (later_exec ho e s).onward.proposals id p hs
    obtain rfl := Option.some.inj (hq.symm.trans hp')
    exact Or.inr ⟨p, rfl, hb⟩
  | none =>
    cases o with
    | tx o =>
      rcases (Tx.effect s.clock e.ids s.db o).proposal_cases hp' with ⟨rfl, -⟩ | ⟨p, hp, -⟩
      · exact Or.inl ⟨rfl, ho, rfl⟩
      · rw [hs] at hp
        cases hp
    | _ =>
      have hsame : s.db.proposal? id = some p' := hp'
      rw [hs] at hsame
      cases hsame

end

/-- The cases, facts, actions and deliveries are the same. -/
structure Db.SameWork (db db' : Db) : Prop where
  cases : db'.cases = db.cases
  facts : db'.facts = db.facts
  actions : db'.actions = db.actions
  outbox : db'.outbox = db.outbox

theorem Db.SameWork.refl (db : Db) : db.SameWork db := ⟨rfl, rfl, rfl, rfl⟩

theorem Db.SameWork.trans {db db' db'' : Db} (h : db.SameWork db') (h' : db'.SameWork db'') :
    db.SameWork db'' :=
  ⟨h'.cases.trans h.cases, h'.facts.trans h.facts, h'.actions.trans h.actions,
    h'.outbox.trans h.outbox⟩

/-- Without the right to act, a transaction changes proposals at most. -/
theorem sameWork_of_within {R : Rights} (hR : ¬ R.acts) {t : Tx} (ht : Op.within (X := X) R (.tx t))
    (now : Time) (ids : ℕ → String) (db : Db) : db.SameWork (t.exec now ids db).2 := by
  have he := Tx.effect now ids db t
  generalize (t.exec now ids db).1 = r, (t.exec now ids db).2 = db' at he
  cases he with
  | nothing => exact .refl _
  | initialized hm he hf =>
    rw [hf]
    exact ⟨rfl, rfl, rfl, rfl⟩
  | proposed h => exact ⟨rfl, rfl, rfl, rfl⟩
  | decided h =>
    rw [h.frame]
    exact ⟨rfl, rfl, rfl, rfl⟩
  | inserted h => exact absurd ht.1 hR
  | created | appended | moved | claimed | enqueued | leased | settled => exact absurd ht hR

namespace ActionProposal

/-- A decision keeps what it does not write. -/
theorem Becomes.keeps {β : Type} (f : ActionProposal → β)
    (hf : ∀ (p : ActionProposal) now status evidence actionId,
      f (p.decide now status evidence actionId) = f p) {p p' : ActionProposal} (h : p.Becomes p') :
    f p' = f p := by
  rcases h with rfl | ⟨-, -, now, evidence, actionId, he⟩
  · rfl
  · rw [he]
    exact hf ..

end ActionProposal

/-- A command that a submission of the request by the actor may insert. -/
structure ActionCommand.For (c : ActionCommand) (request : ConsequentialActionRequest)
    (actorId : String) : Prop where
  asks : request.Asks c
  actor : c.actorId = actorId

/-- The case is stored, and belongs to the customer. -/
def Db.CaseOf (db : Db) (caseId customerId : String) : Prop :=
  ∃ d, db.case? caseId = some d ∧ d.customerId = customerId

section
variable {R : Rights} {Q : ActionProposal → Prop} {db : Db}

theorem within_delivers {α : Type} {p : Task X α} (hR : R.acts) (hp : p.Issues Op.delivers) :
    p.Issues (Op.within R) :=
  hp.mono fun _ => Op.within_of_delivers hR

theorem within_dispatch (hR : R.acts) (gateway : ActionGateway X) (a : ActionRecord) :
    (gateway.dispatch a).Issues (Op.within R) :=
  within_delivers hR ((gateway.issues_dispatch a).mono fun _ => Op.delivers_of_dispatches)

theorem within_authorizeAction (hR : R.acts) {command : ActionCommand} (hI : R.inserts command)
    (v : ℤ) : (CaseKernel.authorizeAction command v : Task X ActionRecord).Issues (Op.within R) :=
  issues_authorizeAction_of (fun _ => trivial) (fun _ _ => trivial) trivial trivial
    (fun record _ hc => ⟨hR, show R.inserts record.command from hc ▸ hI⟩) v

namespace ConsequentialActionService

variable (service : ConsequentialActionService X) {request : ConsequentialActionRequest}
  {actorId : String}

/-- The gateway replaces the binding and the signature of the command, and nothing else. -/
theorem within_authorize (hR : R.acts) {command : ActionCommand}
    (hI : ∀ c : ActionCommand, c.For request actorId → R.inserts c)
    (hc : command.For request actorId) (v : ℤ) :
    (service.gateway.authorize command v).Issues (Op.within R) := by
  have hfor : ∀ bindingId bindingVersion contractVersion signature,
      ({ command with
        connectorBindingId := bindingId
        connectorBindingVersion := bindingVersion
        contractVersion := contractVersion
        policyActivationSignature := signature } : ActionCommand).For request actorId :=
    fun _ _ _ _ => ⟨⟨hc.asks.action, hc.asks.caseId, hc.asks.policyPackageId,
      hc.asks.idempotencyKey, hc.asks.parameters⟩, hc.actor⟩
  refine Prog.issues_bind (Prog.issues_ofExcept _) fun resolved => ?_
  cases service.gateway.policy with
  | none => exact within_authorizeAction hR (hI _ (hfor _ _ _ _)) v
  | some policy =>
    refine Prog.issues_bind (issues_ext (fun _ => trivial) _) fun package => ?_
    refine Prog.issues_bind (issues_tx trivial) fun (found : Option CaseRecord) => ?_
    cases found with
    | none => trivial
    | some case =>
      dsimp only
      split_ifs
      · trivial
      · refine Prog.issues_bind (Prog.issues_ofExcept _) fun _ => ?_
        exact within_authorizeAction hR (hI _ (hfor _ _ _ _)) v

/-- The case that a submission goes on with belongs to the customer of the request. -/
theorem yields_openCase : (openCase request : Task X CaseRecord).Yields (Op.Tells Q db)
    fun _ => db.CaseOf request.caseId request.customerId := by
  refine Prog.yields_bind (R := fun found : Option CaseRecord => ∀ c, found = some c →
    db.CaseOf request.caseId c.customerId) (fun _ hr => hr) fun found hr => ?_
  cases found with
  | none =>
    rintro (e | ⟨⟨⟩⟩) hr
    · trivial
    · exact hr rfl
  | some c =>
    simp only [Prog.bind_eq, Prog.throw_eq, Prog.bind_raise, Prog.pure_eq]
    split_ifs with hcustomer hversion
    · trivial
    · trivial
    · exact not_not.1 hcustomer ▸ hr c rfl

theorem heeds_submit (hR : R.acts)
    (hI : ∀ c : ActionCommand, c.For request actorId →
      db.CaseOf request.caseId request.customerId → R.inserts c) :
    (service.submit request actorId).Heeds (Op.Tells Q db) (Op.within R) := by
  refine Prog.heeds_seq (Prog.heeds_of_issues (issues_tx trivial)) fun found => ?_
  cases found with
  | some duplicate =>
    exact Prog.heeds_of_issues
      (issues_replay service request (fun _ => trivial) (within_dispatch hR _ duplicate))
  | none =>
    refine Prog.heeds_seq ?_ fun a => Prog.heeds_of_issues (within_dispatch hR _ a)
    unfold authorizeNew
    cases specification? request.payload.action with
    | none => trivial
    | some specification =>
      refine Prog.heeds_seq (Prog.heeds_of_issues
        (issues_loadResource service request (fun _ => trivial) _)) fun loaded => ?_
      refine Prog.heeds_bind (Prog.heeds_of_issues (issues_openCase request (fun _ => trivial)
        fun _ => hR)) yields_openCase fun case hcase => ?_
      refine Prog.heeds_of_issues (Prog.issues_bind (issues_commitFacts (fun _ => trivial)
        (fun _ _ _ => hR) ..) fun case' => ?_)
      exact within_authorize service hR (fun c hc => hI c hc hcase)
        ⟨⟨rfl, rfl, rfl, rfl, rfl⟩, rfl⟩ _

end ConsequentialActionService

namespace ActionBridge

variable (bridge : ActionBridge X) {id customerId : String} {p : ActionProposal}

/-- What is known of a proposal that was read for its customer and actor. -/
structure Read (Q : ActionProposal → Prop) (db : Db) (id customerId : String)
    (actorId : Option String) (p : ActionProposal) : Prop where
  sound : Q p
  stored : ∃ p', db.proposal? id = some p' ∧ p.Becomes p'
  customer : p.customerId = customerId
  actor : ∀ a, actorId = some a → p.actorId = a

theorem Read.proposal_id {actorId : Option String} (h : Read Q db id customerId actorId p) :
    p.proposalId = id := by
  obtain ⟨p', hp', hb⟩ := h.stored
  exact (hb.keeps (·.proposalId) fun _ _ _ _ _ => rfl).symm.trans (Table.get?_eq_some.1 hp').2

theorem within_getOwned (id customerId : String) (actorId : Option String) :
    (getOwned id customerId actorId : Task X ActionProposal).Issues (Op.within R) := by
  refine Prog.issues_bind (issues_tx trivial) fun (found : Option ActionProposal) => ?_
  cases found with
  | none => trivial
  | some proposal =>
    simp only [Prog.bind_eq, Prog.throw_eq, Prog.bind_raise]
    split_ifs <;> trivial

theorem yields_getOwned (id customerId : String) (actorId : Option String) :
    (getOwned id customerId actorId : Task X ActionProposal).Yields (Op.Tells Q db)
      (Read Q db id customerId actorId) := by
  refine Prog.yields_bind (R := fun found : Option ActionProposal => ∀ p, found = some p →
    Q p ∧ ∃ p', db.proposal? id = some p' ∧ p.Becomes p') (fun _ hr => hr) fun found hr => ?_
  cases found with
  | none => trivial
  | some p =>
    obtain ⟨hQ, hstored⟩ := hr p rfl
    simp only [Prog.bind_eq, Prog.throw_eq, Prog.bind_raise, Prog.pure_eq]
    split_ifs with hcustomer hactor
    · trivial
    · trivial
    · refine ⟨hQ, hstored, not_not.1 hcustomer, ?_⟩
      rintro a rfl
      have ha : a = p.actorId := by simpa using hactor
      exact ha.symm

theorem within_transition {status : ActionProposalStatus} (hs : status ≠ .pending)
    (hd : R.decides id status) (evidence actionId : Option String) :
    (transitionActionProposal id .pending status evidence actionId :
      Task X ActionProposal).Issues (Op.within R) := by
  refine Prog.issues_bind (issues_attempt ⟨rfl, hs, hd⟩) fun _ => ?_
  refine Prog.issues_bind (issues_tx trivial) fun found => ?_
  split <;> trivial

theorem within_transitionOrCurrent {status : ActionProposalStatus} (hs : status ≠ .pending)
    (hd : R.decides id status) (actionId : Option String) :
    (transitionOrCurrent id status actionId : Task X ActionProposal).Issues (Op.within R) := by
  refine Prog.issues_tryCatch (within_transition hs hd _ _) fun exc => ?_
  cases exc with
  | actionConflict message =>
    refine Prog.issues_bind (issues_tx trivial) fun found => ?_
    split <;> trivial
  | _ => trivial

theorem within_expired (expiresAt : Time) :
    (expired expiresAt : Task X Bool).Issues (Op.within R) :=
  Prog.issues_bind ((Prog.issues_perform _).2 trivial) fun _ => trivial

theorem heeds_status {actorId : Option String}
    (hd : ∀ p, Read Q db id customerId actorId p → R.decides id .expired) :
    (status id customerId actorId : Task X ActionProposal).Heeds (Op.Tells Q db)
      (Op.within R) := by
  refine Prog.heeds_bind (Prog.heeds_of_issues (within_getOwned ..)) (yields_getOwned _ _ _)
    fun p hp => Prog.heeds_of_issues ?_
  split_ifs
  · refine Prog.issues_bind (within_expired _) fun late => ?_
    cases late with
    | true => exact within_transitionOrCurrent (by decide) (hp.proposal_id ▸ hd p hp) none
    | false => trivial
  · trivial

theorem heeds_cancel {context : ActionConfirmationContext}
    (hd : ∀ p, Read Q db id context.customerId (some context.actorId) p →
      ∀ status, status = .confirmed ∨ status = .cancelled → R.decides id status) :
    (cancel id context : Task X ActionProposal).Heeds (Op.Tells Q db) (Op.within R) := by
  refine Prog.heeds_bind (Prog.heeds_of_issues (within_getOwned ..)) (yields_getOwned _ _ _)
    fun p hp => Prog.heeds_of_issues ?_
  split
  · trivial
  · refine Prog.issues_bind (issues_tx trivial) fun (found : Option ActionRecord) => ?_
    cases found with
    | some existing =>
      have hconfirmed := hd p hp .confirmed (Or.inl rfl)
      exact within_transitionOrCurrent (by decide) (hp.proposal_id ▸ hconfirmed) _
    | none => exact within_transition (by decide) (hd p hp .cancelled (Or.inr rfl)) _ _
  · trivial

/-- The request that a confirmation builds of a proposal. -/
structure Built (p : ActionProposal) (request : ConsequentialActionRequest) : Prop where
  caseId : request.caseId = p.caseId
  customerId : request.customerId = p.customerId
  policyPackageId : request.policyPackageId = p.policyPackageId
  idempotencyKey : request.idempotencyKey = p.idempotencyKey
  payload : bridge.validatePayload p.payload = some request.payload

theorem built_of_buildRequest {context : ActionConfirmationContext}
    {request : ConsequentialActionRequest} (h : bridge.buildRequest p context = .ok request) :
    bridge.Built p request := by
  unfold buildRequest at h
  cases hs : specification? p.action with
  | none =>
    simp only [hs] at h
    cases h
  | some specification =>
    cases hp : bridge.validatePayload p.payload with
    | none =>
      simp only [hs, hp] at h
      split_ifs at h <;> cases h
    | some payload =>
      simp only [hs, hp] at h
      split_ifs at h <;> cases h <;> exact ⟨rfl, rfl, rfl, rfl, hp⟩

theorem within_verifyResourceVersion :
    (bridge.verifyResourceVersion p).Issues (Op.within R) := by
  simp only [verifyResourceVersion, Prog.bind_eq, Prog.throw_eq, Prog.pure_eq]
  split_ifs
  · trivial
  · refine Prog.issues_bind (bridge.issues_loadResource (fun _ => trivial) ..) fun found => ?_
    cases found with
    | none => trivial
    | some resource =>
      dsimp only
      split_ifs <;> trivial

theorem within_recordConfirmed {context : ActionConfirmationContext} {action : ActionRecord}
    (hd : R.decides p.proposalId .confirmed) :
    (recordConfirmed p context action : Task X ActionProposal).Issues (Op.within R) := by
  refine Prog.issues_tryCatch (within_transition (by decide) hd _ _) fun exc => ?_
  cases exc with
  | actionConflict message =>
    refine Prog.issues_bind (within_getOwned ..) fun current => ?_
    split_ifs <;> trivial
  | _ => trivial

theorem heeds_confirm (hR : R.acts) {context : ActionConfirmationContext}
    (hd : ∀ p, Read Q db id context.customerId (some context.actorId) p →
      ∀ status, status = .expired ∨ status = .confirmed → R.decides id status)
    (hI : ∀ p request (c : ActionCommand),
      Read Q db id context.customerId (some context.actorId) p → bridge.Built p request →
      c.For request context.actorId → db.CaseOf request.caseId request.customerId → R.inserts c) :
    (bridge.confirm id context).Heeds (Op.Tells Q db) (Op.within R) := by
  refine Prog.heeds_bind (Prog.heeds_of_issues (within_getOwned ..)) (yields_getOwned _ _ _)
    fun p hp => ?_
  have hdecides : ∀ status, status = .expired ∨ status = .confirmed →
      R.decides p.proposalId status := hp.proposal_id ▸ hd p hp
  split
  · trivial
  · refine Prog.heeds_seq (Prog.heeds_of_issues (within_expired _)) fun late => ?_
    cases late with
    | true => exact Prog.heeds_of_issues (within_transitionOrCurrent (by decide)
      (hdecides .expired (Or.inl rfl)) none)
    | false =>
      refine Prog.heeds_seq (Prog.heeds_of_issues (bridge.within_verifyResourceVersion))
        fun _ => ?_
      refine Prog.heeds_bind_ofExcept fun _ _ => Prog.heeds_bind_ofExcept fun request hr => ?_
      refine Prog.heeds_seq ?_ fun a => Prog.heeds_of_issues
        (within_recordConfirmed (hdecides .confirmed (Or.inr rfl)))
      exact ConsequentialActionService.heeds_submit _ hR fun c =>
        hI p request c hp (bridge.built_of_buildRequest hr)
  · trivial

end ActionBridge

end

end WorkflowEngine
