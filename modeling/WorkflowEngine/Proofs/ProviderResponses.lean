import WorkflowEngine.Interleave.Trail
import WorkflowEngine.Proofs.RestOutcomes

/-! What a REST response can change: its code decides the status, and of its body only what the
configured pointers lead to is seen. What the gateway records as failed was answered with a
failed code. -/

namespace WorkflowEngine

open Interleave

variable {Y : Sig}

namespace RestActionConnector

variable (connector : RestActionConnector)

/-- The bodies agree at every pointer of the binding; one that is no JSON is an empty object. -/
structure Agree (body body' : Option Json) : Prop where
  operation : pointer (body.getD (.dict [])) connector.binding.providerOperationIdPointer =
    pointer (body'.getD (.dict [])) connector.binding.providerOperationIdPointer
  fields : ∀ kv ∈ connector.binding.responseFields,
    pointer (body.getD (.dict [])) (some kv.2) = pointer (body'.getD (.dict [])) (some kv.2)

variable {connector}

theorem outcome_agree {body body' : Option Json} (h : connector.Agree body body') (code : ℕ) :
    connector.outcome code body = connector.outcome code body' := by
  have hfields : connector.binding.responseFields.map
      (fun kv => (kv.1, pointer (body.getD (.dict [])) (some kv.2))) =
      connector.binding.responseFields.map
        (fun kv => (kv.1, pointer (body'.getD (.dict [])) (some kv.2))) :=
    List.map_congr_left fun kv hkv => by rw [h.fields kv hkv]
  unfold outcome
  dsimp only
  rw [h.operation, hfields]

theorem outcome_status (code : ℕ) (body : Option Json) :
    ((connector.outcome code body).status = .succeeded ↔
      code ∈ connector.binding.statuses.succeeded) ∧
    ((connector.outcome code body).status = .failed ↔
      code ∈ connector.binding.statuses.failed) := by
  have hdisjoint := connector.binding.statuses.disjoint.2.1
  unfold outcome
  dsimp only
  split_ifs with h1 h2
  · exact ⟨⟨fun _ => h1, fun _ => rfl⟩, ⟨nofun, fun h => absurd h (hdisjoint h1)⟩⟩
  · exact ⟨⟨nofun, fun h => absurd h h1⟩, ⟨fun _ => h2, fun _ => rfl⟩⟩
  · exact ⟨⟨nofun, fun h => absurd h h1⟩, ⟨nofun, fun h => absurd h h2⟩⟩

/-- What is left of an operation after the reply. -/
def afterReply : HttpReply → Prog (httpSig.sum Y) PyErr ConnectorOutcome
  | .lost typeName => .ret ⟨.unknown, [("reason", .str "provider_outcome_ambiguous"),
      ("error_type", .str typeName)]⟩
  | .raised exc => .raise exc
  | .response statusCode body => .ret (connector.outcome statusCode body)

/-- An operation raises, has nothing to ask, or makes one request. -/
inductive Asks (connector : RestActionConnector) :
    Prog (httpSig.sum Y) PyErr ConnectorOutcome → Prop
  | raises (exc : PyErr) : Asks connector (.raise exc)
  | idle (details : Fields) : Asks connector (.ret ⟨.unknown, details⟩)
  | requests (request : HttpRequest) :
      Asks connector (.call (S := httpSig.sum Y) (.inl request) connector.afterReply)

theorem executeOperation_requests {endpoint : Endpoint} {operation : HttpOperation}
    {command : ActionCommand} {prior : Option Fields} {request : HttpRequest}
    (h : connector.request endpoint operation command prior = .ok request) :
    (connector.executeOperation endpoint operation command prior :
      Prog (httpSig.sum Y) PyErr ConnectorOutcome) =
      .call (S := httpSig.sum Y) (.inl request) connector.afterReply := by
  rw [executeOperation_eq h]
  refine congrArg (Prog.call (S := httpSig.sum Y) (Sum.inl request)) (funext fun reply => ?_)
  cases reply using HttpReply.casesOn <;> rfl

theorem asks_executeOperation (endpoint : Endpoint) (operation : HttpOperation)
    (command : ActionCommand) (prior : Option Fields) :
    Asks connector (connector.executeOperation endpoint operation command prior :
      Prog (httpSig.sum Y) PyErr ConnectorOutcome) := by
  cases h : connector.request endpoint operation command prior with
  | error exc =>
    unfold executeOperation
    rw [h]
    exact .raises exc
  | ok request =>
    rw [executeOperation_requests h]
    exact .requests request

theorem asks_dispatch (command : ActionCommand) :
    Asks connector (connector.dispatch command : Prog (httpSig.sum Y) PyErr ConnectorOutcome) :=
  asks_executeOperation ..

theorem asks_reconcile (command : ActionCommand) (prior : Option Fields) :
    Asks connector
      (connector.reconcile command prior : Prog (httpSig.sum Y) PyErr ConnectorOutcome) := by
  unfold reconcile
  cases connector.binding.reconcile with
  | none => exact .idle _
  | some operation => exact asks_executeOperation ..

/-- Where a request has been answered, what is left depends on the reply only. -/
theorem follows_asks {p q : Prog (httpSig.sum Y) PyErr ConnectorOutcome} (hp : Asks connector p)
    {request : HttpRequest} {reply : HttpReply}
    (h : Follows p [⟨Sum.inl request, reply⟩] q) : q = connector.afterReply reply := by
  cases hp with
  | raises exc => cases h
  | idle details => cases h
  | requests request' =>
    cases h with
    | cons h =>
      generalize hafter : connector.afterReply reply = after at h ⊢
      cases h
      rfl

end RestActionConnector

/-- The client has raised, instead of a response. -/
def HttpReply.Ambiguous : HttpReply → Prop
  | .response _ _ => False
  | _ => True

/-- The status that an operation moves an action to. -/
def Op.recorded {X : Sig} : Op X → Option ActionStatus
  | .tx (.transitionAction _ _ status _) => some status
  | _ => none

def Op.RecordsOnly {X : Sig} (T : ActionStatus → Prop) (o : Op X) : Prop :=
  ∀ status, o.recorded = some status → T status

def Op.noRequest : Op (httpSig.sum Y) → Prop
  | .ext (.inl _) => False
  | _ => True

/-- Nothing is asked, and at most `UNKNOWN` is recorded. -/
def Op.aside (o : Op (httpSig.sum Y)) : Prop := o.noRequest ∧ o.RecordsOnly (· = .unknown)

/-- What may be recorded after a reply: a failure after a failed code only, and nothing but
`UNKNOWN` where the client has raised. -/
def HttpReply.Allows (statuses : HttpStatusMapping) (reply : HttpReply)
    (status : ActionStatus) : Prop :=
  (status = .failed → ∃ code body, reply = .response code body ∧ code ∈ statuses.failed) ∧
    (reply.Ambiguous → status = .unknown)

/-- What is done after a request. -/
def Op.Replied (statuses : HttpStatusMapping) :
    (o : Op (httpSig.sum Y)) → o.Res → Op (httpSig.sum Y) → Prop
  | .ext (.inl _), reply, o => o.noRequest ∧ o.RecordsOnly (HttpReply.Allows statuses reply)
  | _, _, _ => False

theorem allows_outcome {connector : RestActionConnector} (code : ℕ) (body : Option Json) :
    (HttpReply.response code body).Allows connector.binding.statuses
      (connector.outcome code body).status :=
  ⟨fun h => ⟨code, body, rfl, (RestActionConnector.outcome_status code body).2.1 h⟩, nofun⟩

abbrev RestEvent (Y : Sig) := Event (sig (httpSig.sum Y))

def requested (request : HttpRequest) (reply : HttpReply) : RestEvent Y :=
  ⟨Op.ext (Sum.inl request), reply⟩

/-- A failure is recorded after a failed code was received; where the client has raised, nothing
but `UNKNOWN` is recorded. -/
structure Reported (statuses : HttpStatusMapping) (xs : List (RestEvent Y)) : Prop where
  failed : ∀ x ∈ xs, x.1.recorded = some .failed → ∃ request code body,
    code ∈ statuses.failed ∧ [requested request (.response code body), x].Sublist xs
  ambiguous : ∀ request reply, requested request reply ∈ xs → reply.Ambiguous →
    ∀ x ∈ xs, x.1.RecordsOnly (· = .unknown)

theorem reported_aside {statuses : HttpStatusMapping} {xs : List (RestEvent Y)}
    (h : ∀ x ∈ xs, x.1.aside) : Reported statuses xs where
  failed x hx hfailed := by cases (h x hx).2 _ hfailed
  ambiguous _ _ _ _ x hx := (h x hx).2

theorem reported_of {statuses : HttpStatusMapping} {before after : List (RestEvent Y)}
    {request : HttpRequest} {reply : HttpReply} (hbefore : ∀ y ∈ before, y.1.aside)
    (hafter : ∀ y ∈ after, y.1.noRequest ∧ y.1.RecordsOnly (reply.Allows statuses)) :
    Reported statuses (before ++ requested request reply :: after) where
  failed y hy hfailed := by
    rcases List.mem_append.1 hy with hy | hy
    · cases (hbefore y hy).2 _ hfailed
    · rcases List.mem_cons.1 hy with rfl | hmem
      · cases hfailed
      · obtain ⟨code, body, rfl, hcode⟩ := ((hafter y hmem).2 _ hfailed).1 rfl
        refine ⟨request, code, body, hcode, ?_⟩
        refine List.Sublist.trans ?_ (List.sublist_append_right before _)
        exact List.Sublist.cons_cons (requested request (.response code body))
          (List.singleton_sublist.2 hmem)
  ambiguous request' reply' hreply hambiguous y hy := by
    have hr : reply' = reply := by
      rcases List.mem_append.1 hreply with hmem | hmem
      · exact absurd (hbefore _ hmem).1 fun hno => hno
      · rcases List.mem_cons.1 hmem with heq | hmem
        · cases heq
          rfl
        · exact absurd (hafter _ hmem).1 fun hno => hno
    subst hr
    rcases List.mem_append.1 hy with hy | hy
    · exact (hbefore y hy).2
    · rcases List.mem_cons.1 hy with rfl | hy
      · rintro status ⟨⟩
      · exact fun status hs => ((hafter y hy).2 status hs).2 hambiguous

/-- A program that asks for nothing, until it makes a request and goes on by the reply. -/
abbrev Reports (statuses : HttpStatusMapping) {α : Type} (p : Task (httpSig.sum Y) α) : Prop :=
  p.Until Op.aside (fun o : Op (httpSig.sum Y) => ¬ o.noRequest) (Op.Replied statuses)

theorem Reports.reported {statuses : HttpStatusMapping} {α : Type} {p q : Task (httpSig.sum Y) α}
    (hp : Reports statuses p) {xs ys : List (RestEvent Y)} (hys : ∀ y ∈ ys, y.1.aside)
    (h : Follows p xs q) : Reported statuses (ys ++ xs) := by
  rcases h.until_split hp with hall | ⟨before, ⟨o, r⟩, after, rfl, hbefore, hrequest, hafter⟩
  · refine reported_aside fun y hy => ?_
    rcases List.mem_append.1 hy with hy | hy
    · exact hys y hy
    · exact hall y hy
  · rw [← List.append_assoc]
    have hbefore' : ∀ y ∈ ys ++ before, y.1.aside := by
      intro y hy
      rcases List.mem_append.1 hy with hy | hy
      · exact hys y hy
      · exact hbefore y hy
    cases o with
    | ext o =>
      cases o with
      | inl request => exact @reported_of _ _ _ _ request r hbefore' hafter
      | inr o => exact absurd trivial hrequest
    | _ => exact absurd trivial hrequest

/-! The gateway. -/

theorem aside_recordOutcome (id : String) (outcome : Option Fields) :
    (CaseKernel.recordOutcome id .unknown outcome : Task (httpSig.sum Y) ActionRecord).Issues
      Op.aside := by
  refine issues_recordOutcome_as (fun _ => ⟨trivial, nofun⟩) (fun _ _ => ⟨trivial, ?_⟩) outcome
  rintro status ⟨⟩
  rfl

theorem replied_recordOutcome {statuses : HttpStatusMapping} {reply : HttpReply} {id : String}
    {status : ActionStatus} (h : reply.Allows statuses status) (outcome : Option Fields) :
    (CaseKernel.recordOutcome id status outcome : Task (httpSig.sum Y) ActionRecord).Issues
      fun o : Op (httpSig.sum Y) => o.noRequest ∧ o.RecordsOnly (reply.Allows statuses) := by
  refine issues_recordOutcome_as (fun _ => ⟨trivial, nofun⟩) (fun _ _ => ⟨trivial, ?_⟩) outcome
  rintro status' ⟨⟩
  exact h

/-- `record_outcome` that returns has moved the action, and answers with the row it has read. -/
theorem path_recordOutcome_ret {X : Sig} {id : String} {status : ActionStatus}
    {outcome : Option Fields} {record : ActionRecord} {xs : List (Event (sig X))}
    (h : Follows (CaseKernel.recordOutcome id status outcome) xs (.ret record)) :
    (∃ expected, (⟨.tx (.transitionAction id expected status outcome), .ok ()⟩ : Event (sig X)) ∈
      xs) ∧ (⟨.tx (.getAction id), some record⟩ : Event (sig X)) ∈ xs := by
  simp only [CaseKernel.recordOutcome, Prog.bind_eq, Prog.throw_eq, Prog.bind_raise] at h
  split_ifs at h
  · obtain ⟨found, ys, rfl, hmove⟩ := h.of_perform_ret
    cases found with
    | none => cases hmove.of_raise.2
    | some current =>
      dsimp only at hmove
      split_ifs at hmove
      · cases hmove with
        | @cons _ _ done zs _ hread =>
          cases done with
          | error exc => cases hread.of_raise.2
          | ok u =>
            cases hread with
            | @cons _ _ row rest _ hret =>
              cases row with
              | none => cases hret.of_raise.2
              | some row =>
                obtain ⟨rfl, heq⟩ := hret.of_ret
                cases heq
                exact ⟨⟨current.status, by simp⟩, by simp⟩
      · cases hmove.of_raise.2
  · cases h.of_raise.2

namespace ActionGateway

variable {gateway : ActionGateway (httpSig.sum Y)} {connector : RestActionConnector}
  {resolved : ResolvedActionConnector (httpSig.sum Y)}

open RestActionConnector

theorem reports_query {row : ActionRecord}
    (hr : gateway.resolveConnector row.command true = .ok resolved)
    (hc : resolved.connector = connector.connector') :
    Reports connector.binding.statuses (gateway.query row) := by
  refine Prog.until_bind_ofExcept fun resolved' hr' => ?_
  obtain rfl : resolved' = resolved := by
    rw [hr] at hr'
    injection hr' with h
    exact h.symm
  rw [hc]
  have hasks : Asks connector (connector.reconcile row.command row.outcome :
    Prog (httpSig.sum Y) PyErr ConnectorOutcome) := asks_reconcile ..
  change Reports _ ((Task.ext (connector.reconcile row.command row.outcome)).bind _)
  generalize (connector.reconcile row.command row.outcome :
    Prog (httpSig.sum Y) PyErr ConnectorOutcome) = p at hasks ⊢
  cases hasks with
  | raises exc => trivial
  | idle details => exact Prog.until_of_issues (aside_recordOutcome ..)
  | requests request =>
    refine Or.inr ⟨fun hno => hno, fun reply => ?_⟩
    cases reply using HttpReply.casesOn with
    | lost typeName =>
      have hallows : (HttpReply.lost typeName).Allows connector.binding.statuses .unknown :=
        ⟨nofun, fun _ => rfl⟩
      exact replied_recordOutcome hallows _
    | raised exc => trivial
    | response code body =>
      change (if (connector.outcome code body).status = .succeeded then
        CaseKernel.recordOutcome row.actionId .reconciled
          (some (connector.outcome code body).details)
        else CaseKernel.recordOutcome row.actionId (connector.outcome code body).status
          (some (connector.outcome code body).details) : Task (httpSig.sum Y) ActionRecord).Issues
        fun o : Op (httpSig.sum Y) => o.noRequest ∧
          o.RecordsOnly ((HttpReply.response code body).Allows connector.binding.statuses)
      split_ifs
      · have hallows :
            (HttpReply.response code body).Allows connector.binding.statuses .reconciled :=
          ⟨nofun, nofun⟩
        exact replied_recordOutcome hallows _
      · exact replied_recordOutcome (allows_outcome code body) _

theorem reports_callConnector {action : ActionRecord} :
    Reports connector.binding.statuses
      ((callConnector (connector.connector' : ActionConnector (httpSig.sum Y)) action).bind
        fun outcome => CaseKernel.recordOutcome action.actionId outcome.status
          (some outcome.details)) := by
  have hasks : Asks connector (connector.dispatch action.command :
    Prog (httpSig.sum Y) PyErr ConnectorOutcome) := asks_dispatch ..
  unfold callConnector
  refine Or.inl ⟨⟨trivial, nofun⟩, fun _ => ?_⟩
  change Reports _
    ((Prog.tryCatch ((Task.ext (connector.dispatch action.command)).bind _) _).bind _)
  generalize (connector.dispatch action.command : Prog (httpSig.sum Y) PyErr ConnectorOutcome) = p
    at hasks ⊢
  cases hasks with
  | raises exc => exact Prog.until_of_issues (aside_recordOutcome ..)
  | idle details =>
    exact Or.inl ⟨⟨trivial, nofun⟩, fun _ => Prog.until_of_issues (aside_recordOutcome ..)⟩
  | requests request =>
    refine Or.inr ⟨fun hno => hno, fun reply => ?_⟩
    cases reply using HttpReply.casesOn with
    | lost typeName =>
      have hallows : (HttpReply.lost typeName).Allows connector.binding.statuses .unknown :=
        ⟨nofun, fun _ => rfl⟩
      exact ⟨⟨trivial, nofun⟩, fun _ => replied_recordOutcome hallows _⟩
    | raised exc =>
      have hallows : (HttpReply.raised exc).Allows connector.binding.statuses .unknown :=
        ⟨nofun, fun _ => rfl⟩
      exact replied_recordOutcome hallows _
    | response code body =>
      exact ⟨⟨trivial, nofun⟩, fun _ => replied_recordOutcome (allows_outcome code body) _⟩

theorem aside_claimAction (id : String) :
    (SQLiteCoreStore.claimAction id : Task (httpSig.sum Y) (ActionRecord × Bool)).Issues
    Op.aside := by
  refine Prog.issues_bind (issues_attempt ⟨trivial, nofun⟩) fun claimed => ?_
  refine Prog.issues_bind (issues_tx ⟨trivial, nofun⟩) fun found => ?_
  split <;> trivial

theorem reports_dispatch {action : ActionRecord} (hpolicy : gateway.PolicyIssues Op.aside)
    (hr : gateway.resolveConnector action.command true = .ok resolved)
    (hc : resolved.connector = connector.connector') :
    Reports connector.binding.statuses (gateway.dispatch action) := by
  simp only [dispatch, Prog.bind_eq, Prog.pure_eq]
  split_ifs
  · trivial
  · refine Prog.until_bind (gateway.issues_checkSnapshot_of hpolicy _) fun _ => ?_
    refine Prog.until_bind_ofExcept fun resolved' hr' => ?_
    obtain rfl : resolved' = resolved := by
      rw [hr] at hr'
      injection hr' with h
      exact h.symm
    refine Prog.until_bind (aside_claimAction _) fun claim => ?_
    obtain ⟨row, claimed⟩ := claim
    dsimp only
    split_ifs
    · trivial
    · rw [hc]
      exact reports_callConnector

/-- The answer to a request of the connector, and what is made of it. -/
theorem path_callConnector {action : ActionRecord} {xs : List (RestEvent Y)}
    {outcome : ConnectorOutcome} {request : HttpRequest} {reply : HttpReply}
    (h : Follows (callConnector (connector.connector' : ActionConnector (httpSig.sum Y)) action) xs
      (.ret outcome)) (hin : requested request reply ∈ xs) (hambiguous : reply.Ambiguous) :
    outcome.status = .unknown := by
  have hasks : Asks connector (connector.dispatch action.command :
    Prog (httpSig.sum Y) PyErr ConnectorOutcome) := asks_dispatch ..
  unfold callConnector at h
  obtain ⟨u, ys, rfl, hrest⟩ := Follows.of_perform_ret h
  have hin' : requested request reply ∈ ys := by
    rcases List.mem_cons.1 hin with heq | hmem
    · cases heq
    · exact hmem
  change Follows (Prog.tryCatch ((Task.ext (connector.dispatch action.command)).bind _) _) _ _
    at hrest
  generalize (connector.dispatch action.command : Prog (httpSig.sum Y) PyErr ConnectorOutcome) = p
    at hasks hrest
  cases hasks with
  | raises exc =>
    obtain ⟨rfl, -⟩ := Follows.of_ret hrest
    cases hin'
  | idle details =>
    change Follows (Prog.call (S := sig (httpSig.sum Y)) _ _) _ _ at hrest
    cases hrest with
    | @cons _ _ _ zs _ hret =>
      obtain ⟨-, heq⟩ := hret.of_ret
      cases heq
      rfl
  | requests request' =>
    cases hrest with
    | @cons _ _ reply' zs _ hreply =>
      cases reply' using HttpReply.casesOn with
      | raised exc =>
        obtain ⟨-, heq⟩ := Follows.of_ret hreply
        cases heq
        rfl
      | lost typeName =>
        cases hreply with
        | @cons _ _ _ zs _ hret =>
          obtain ⟨-, heq⟩ := hret.of_ret
          cases heq
          rfl
      | response code body =>
        cases hreply with
        | @cons _ _ _ zs _ hret =>
          obtain ⟨rfl, -⟩ := hret.of_ret
          rcases List.mem_cons.1 hin' with heq | hmem
          · cases heq
            cases hambiguous
          · cases List.mem_singleton.1 hmem

/-- A dispatch that returns after the client has raised has recorded `UNKNOWN`. -/
theorem path_dispatch {action record : ActionRecord} {xs : List (RestEvent Y)}
    (hpolicy : gateway.PolicyIssues Op.aside)
    (hr : gateway.resolveConnector action.command true = .ok resolved)
    (hc : resolved.connector = connector.connector')
    (h : Follows (gateway.dispatch action) xs (.ret record)) {request : HttpRequest}
    {reply : HttpReply} (hin : requested request reply ∈ xs) (hambiguous : reply.Ambiguous) :
    ∃ expected outcome, (⟨.tx (.transitionAction action.actionId expected .unknown outcome),
      .ok ()⟩ : RestEvent Y) ∈ xs := by
  have hno : ∀ {zs : List (RestEvent Y)}, (∀ z ∈ zs, z.1.aside) → requested request reply ∉ zs :=
    fun hzs hmem => (hzs _ hmem).1
  simp only [dispatch, Prog.bind_eq, Prog.pure_eq] at h
  split_ifs at h
  · rw [h.of_ret.1] at hin
    cases hin
  · obtain ⟨xs1, ys1, u, rfl, hcheck, hclaims⟩ := h.of_bind_ret
    have hin1 := (List.mem_append.1 hin).resolve_left
      (hno (hcheck.issues (gateway.issues_checkSnapshot_of hpolicy _)).1)
    obtain ⟨resolved', hr', hclaims⟩ := hclaims.of_ofExcept hin1
    obtain rfl : resolved' = resolved := by
      rw [hr] at hr'
      injection hr' with h
      exact h.symm
    obtain ⟨xs2, ys2, ⟨row, claimed⟩, rfl, hclaim, hcalls⟩ := hclaims.of_bind_ret
    have hin2 := (List.mem_append.1 hin1).resolve_left
      (hno (hclaim.issues (aside_claimAction _)).1)
    dsimp only at hcalls
    split_ifs at hcalls
    · rw [hcalls.of_ret.1] at hin2
      cases hin2
    · rw [hc] at hcalls
      obtain ⟨xs3, ys3, outcome, rfl, hcall, hrecord⟩ := hcalls.of_bind_ret
      obtain ⟨⟨expected, hmoved⟩, -⟩ := path_recordOutcome_ret hrecord
      rcases List.mem_append.1 hin2 with hin3 | hin3
      · rw [path_callConnector hcall hin3 hambiguous] at hmoved
        exact ⟨expected, some outcome.details, List.mem_append_right _ (List.mem_append_right _
          (List.mem_append_right _ hmoved))⟩
      · have hasks :
            (CaseKernel.recordOutcome action.actionId outcome.status (some outcome.details) :
            Task (httpSig.sum Y) ActionRecord).Issues Op.noRequest :=
          issues_recordOutcome_as (fun _ => trivial) (fun _ _ => trivial) _
        exact absurd ((hrecord.issues hasks).1 _ hin3) fun hno => hno

theorem path_reconcile {action : ActionRecord} {xs : List (RestEvent Y)}
    {q : Task (httpSig.sum Y) ActionRecord} (h : Follows (gateway.reconcile action) xs q) :
    ∃ command, (command = action.command ∨ ∃ row, command = row.command ∧
      (⟨.tx (.getAction action.actionId), some row⟩ : RestEvent Y) ∈ xs) ∧
      ∀ (resolved : ResolvedActionConnector (httpSig.sum Y)) (connector : RestActionConnector),
        gateway.resolveConnector command true = .ok resolved →
        resolved.connector = connector.connector' → Reported connector.binding.statuses xs := by
  have hstale : (markStale action : Task (httpSig.sum Y) ActionRecord).Issues Op.aside := by
    unfold markStale
    split_ifs
    · exact aside_recordOutcome ..
    · trivial
  have hmark : (Op.reconcileCalled action : Op (httpSig.sum Y)).aside := ⟨trivial, nofun⟩
  rcases h.perform_cases with ⟨rfl, -⟩ | ⟨r, xs', rfl, hcalled⟩
  · exact ⟨action.command, Or.inl rfl, fun _ _ _ _ => reported_aside (by simp)⟩
  have haside : ∀ {ys : List (RestEvent Y)}, (∀ y ∈ ys, y.1.aside) →
      ∀ y ∈ (⟨.reconcileCalled action, r⟩ : RestEvent Y) :: ys, y.1.aside := by
    intro ys hys
    exact List.forall_mem_cons.2 ⟨hmark, hys⟩
  rcases Follows.of_bind hcalled with ⟨p', hf, -⟩ | ⟨ys, zs, row, rfl, hf, hrest⟩
  · exact ⟨action.command, Or.inl rfl, fun _ _ _ _ => reported_aside (haside (hf.issues hstale).1)⟩
  · have hys := haside (hf.issues hstale).1
    refine ⟨row.command, ?_, fun resolved connector hr hc => ?_⟩
    · unfold markStale at hf
      split_ifs at hf
      · exact Or.inr ⟨row, rfl, List.mem_cons_of_mem _
          (List.mem_append_left _ (path_recordOutcome_ret hf).2)⟩
      · obtain ⟨-, heq⟩ := hf.of_ret
        cases heq
        exact Or.inl rfl
    · split_ifs at hrest
      · obtain ⟨rfl, -⟩ := hrest.of_ret
        rw [List.append_nil]
        exact reported_aside hys
      · exact Reports.reported (reports_query hr hc) hys hrest

end ActionGateway

/-- A gateway whose policies are looked up without the provider. -/
def ActionGateway.withConnectors (gateway : ActionGateway Y)
    (connectors : Connectors (httpSig.sum Y)) :
    ActionGateway (httpSig.sum Y) where
  connectors := connectors
  policyRegistry := gateway.policyRegistry.map .beside
  policyResolver := gateway.policyResolver.map .beside

theorem aside_policies (gateway : ActionGateway Y) (connectors : Connectors (httpSig.sum Y)) :
    (gateway.withConnectors connectors).PolicyIssues Op.aside := by
  intro policy hp
  have hbeside : ∃ resolver : PolicyResolver Y, policy = resolver.beside := by
    obtain ⟨own, registry, resolver⟩ := gateway
    cases resolver with
    | some resolver =>
      cases hp
      exact ⟨resolver, rfl⟩
    | none =>
      cases registry with
      | some registry =>
        cases hp
        exact ⟨registry, rfl⟩
      | none => cases hp
  obtain ⟨resolver, rfl⟩ := hbeside
  exact ⟨fun _ => Prog.issues_lift ((Prog.issues_true _).mono fun _ _ => ⟨trivial, nofun⟩),
    fun _ _ => Prog.issues_lift ((Prog.issues_true _).mono fun _ _ => ⟨trivial, nofun⟩)⟩

/-- Of a response the connector shows its code and what the pointers lead to; no reply but a
failed code makes the gateway record a failure. -/
theorem provider_responses (gateway : ActionGateway Y) (connectors : Connectors (httpSig.sum Y))
    (connector : RestActionConnector) (command : ActionCommand) (prior : Option Fields) :
    (∀ p ∈ [connector.dispatch command, connector.reconcile command prior],
      ∀ request code body (q : Prog (httpSig.sum Y) PyErr ConnectorOutcome),
        Follows p [⟨Sum.inl request, .response code body⟩] q →
        (∃ outcome, q = .ret outcome ∧
          (outcome.status = .succeeded ↔ code ∈ connector.binding.statuses.succeeded) ∧
          (outcome.status = .failed ↔ code ∈ connector.binding.statuses.failed)) ∧
        ∀ body' q', connector.Agree body body' →
          Follows p [⟨Sum.inl request, .response code body'⟩] q' → q = q') ∧
    (∀ action xs q resolved, Follows ((gateway.withConnectors connectors).dispatch action) xs q →
      (gateway.withConnectors connectors).resolveConnector action.command true = .ok resolved →
      resolved.connector = connector.connector' →
      Reported connector.binding.statuses xs ∧
      ∀ record request reply, q = .ret record → requested request reply ∈ xs → reply.Ambiguous →
        ∃ expected outcome, (⟨.tx (.transitionAction action.actionId expected .unknown outcome),
          .ok ()⟩ : RestEvent Y) ∈ xs) ∧
    ∀ action xs q, Follows ((gateway.withConnectors connectors).reconcile action) xs q →
      ∃ command, (command = action.command ∨ ∃ row, command = row.command ∧
        (⟨.tx (.getAction action.actionId), some row⟩ : RestEvent Y) ∈ xs) ∧
        ∀ (resolved : ResolvedActionConnector (httpSig.sum Y)) (connector : RestActionConnector),
          (gateway.withConnectors connectors).resolveConnector command true = .ok resolved →
          resolved.connector = connector.connector' → Reported connector.binding.statuses xs := by
  refine ⟨fun p hp request code body q h => ?_, fun action xs q resolved h hr hc => ⟨?_, ?_⟩,
    fun action xs q h => ActionGateway.path_reconcile h⟩
  · have hasks : RestActionConnector.Asks connector p := by
      rcases List.mem_cons.1 hp with rfl | hp
      · exact RestActionConnector.asks_dispatch command
      · rw [List.mem_singleton.1 hp]
        exact RestActionConnector.asks_reconcile command prior
    rw [RestActionConnector.follows_asks hasks h]
    refine ⟨⟨_, rfl, RestActionConnector.outcome_status code body⟩, fun body' q' hagree h' => ?_⟩
    rw [RestActionConnector.follows_asks hasks h']
    exact congrArg Prog.ret (RestActionConnector.outcome_agree hagree code)
  · exact Reports.reported
      (ActionGateway.reports_dispatch (aside_policies gateway connectors) hr hc)
      (fun _ hy => absurd hy List.not_mem_nil) h
  · rintro record request reply rfl hin hambiguous
    exact ActionGateway.path_dispatch (aside_policies gateway connectors) hr hc h hin hambiguous


def noteCommand : ActionCommand where
  action := "add_note"
  caseId := "CASE-1"
  policyPackageId := "notes"
  actorId := "agent"
  idempotencyKey := "note-1"
  parameters := []
  parameterFactRefs := []
  requiredFactAuthority := []
  keyMin := by decide

def noteHttpRequest : HttpRequest where
  endpoint := .execute
  key := "note-1"
  method := "POST"
  url := "https://notes/notes"
  headers := [("Idempotency-Key", "note-1")]
  params := []
  json := some []

theorem noteProvider_request :
    noteProvider.request .execute noteProvider.binding.execute noteCommand none =
      .ok noteHttpRequest := by
  have hurl : noteProvider.requestUrl noteProvider.binding.execute = .ok "https://notes/notes" := by
    decide +kernel
  unfold RestActionConnector.request
  dsimp only
  rw [hurl]
  rfl

/-- Two responses to the same request, of which one shows what nobody has asked for. -/
theorem provider_responses_note (gateway : ActionGateway Y) :
    ∃ q : Prog (httpSig.sum Y) PyErr ConnectorOutcome,
      Follows (noteProvider.dispatch noteCommand)
        [⟨Sum.inl noteHttpRequest, .response 200 (some (.dict [("ssn", .str "078-05-1120")]))⟩] q ∧
      q = .ret ⟨.succeeded, [("http_status", .int 200), ("provider_operation_id", .null),
        ("result", .dict [])]⟩ := by
  have hdispatch :
      (noteProvider.dispatch noteCommand : Prog (httpSig.sum Y) PyErr ConnectorOutcome) =
      .call (S := httpSig.sum Y) (.inl noteHttpRequest) noteProvider.afterReply :=
    RestActionConnector.executeOperation_requests noteProvider_request
  have hpath : ∀ body, Follows (noteProvider.dispatch noteCommand)
      [⟨Sum.inl noteHttpRequest, .response 200 body⟩]
      (.ret (noteProvider.outcome 200 body) : Prog (httpSig.sum Y) PyErr ConnectorOutcome) := by
    intro body
    rw [hdispatch]
    exact .cons (.nil _)
  refine ⟨_, hpath _, ?_⟩
  obtain ⟨-, hsame⟩ := (provider_responses gateway (.mapping fun _ => none) noteProvider noteCommand
    none).1 _ List.mem_cons_self _ _ _ _ (hpath (some (.dict [("ssn", .str "078-05-1120")])))
  rw [hsame none _ ⟨rfl, nofun⟩ (hpath none)]
  rfl

end WorkflowEngine
