import WorkflowEngine.Proofs.Quarantine
import WorkflowEngine.Proofs.Redelivery

/-! The customers of the direct endpoints. They share one namespace of message ids and of
conversations, so that the inbox may answer a customer by the messages of another one. As long
as no message of a customer meets an accepted one of somebody else under its id, or numbers of
somebody else in its conversation, the customer is answered as from an inbox of his own. -/

namespace WorkflowEngine

open Interleave SQLiteCoreStore TurnLog

/-- What a call presents to the inbox; a chat message may leave its id to the server. -/
structure Presented where
  id : Option String
  conversation : String
  sequence : Option ℤ
  deriving DecidableEq

namespace ConversationCall

/-- A request to an endpoint by an actor whose namespace the server chooses. -/
def direct : ConversationCall → Bool
  | .turn .. => false
  | .chat _ actor => decide (actor.role ∉ [Role.admin, .integration])
  | .conversationTurn _ actor => decide (actor.role ∉ [Role.admin, .integration])

/-- The customer for whom the call is made. -/
def customer : ConversationCall → String
  | .turn envelope _ => envelope.customerId
  | .chat request _ => request.userId.1
  | .conversationTurn request _ => request.customerId.1

def presents : ConversationCall → Presented
  | .turn envelope _ => ⟨some envelope.messageId, envelope.conversationId, envelope.sequence⟩
  | .chat request _ => ⟨request.messageId.filter (· ≠ ""), request.sessionId.getD "", none⟩
  | .conversationTurn request _ =>
    ⟨some request.messageId.1, request.conversationId.1, request.sequence.map Int.ofNat⟩

end ConversationCall

/-- The envelope that a direct call sends. -/
structure Describes (call : ConversationCall) (e : MessageEnvelope) : Prop where
  provider : e.providerId = "direct-api"
  customer : e.customerId = call.customer
  id : ∀ k ∈ call.presents.id, e.messageId = k
  sequence : e.sequence = call.presents.sequence
  conversation : e.sequence.isSome → e.conversationId = call.presents.conversation

/-- A direct call delivers only what it describes. -/
def Sends (call : ConversationCall) : ConversationOp → Prop
  | .accept e => Describes call e
  | _ => True

theorem resolveCustomerContext_ok {actor : UserContext} {customerId : String}
    {customer : CustomerContext} (h : resolveCustomerContext actor customerId = .ok customer) :
    customer.customerId = customerId := by
  unfold resolveCustomerContext at h
  split_ifs at h <;> cases h <;> rfl

theorem issues_processTurn {P : ConversationOp → Prop} {envelope : MessageEnvelope}
    {actor : TurnActor} (ha : P (.accept envelope)) (hi : ∀ context text, P (.invoke context text))
    (hg : P .generated) : (ConversationService.processTurn envelope actor).Issues P := by
  rw [ConversationService.processTurn_eq]
  refine ⟨ha, fun r => ?_⟩
  cases r with
  | error e => trivial
  | ok acceptance =>
    simp only
    split_ifs
    · refine ⟨hi _ _, fun _ => ⟨hg, fun g => ?_⟩⟩
      cases g <;> trivial
    · trivial

theorem sends_orElse {call : ConversationCall} {value : Option String} {p : TurnTask String}
    {α : Type} {f : String → TurnTask α} (hp : p.Issues (Sends call))
    (hf : ∀ a, (∀ s ∈ value.filter (· ≠ ""), a = s) → (f a).Issues (Sends call)) :
    ((TurnTask.orElse value p).bind f).Issues (Sends call) := by
  unfold TurnTask.orElse
  split
  · next s hs => exact hf s fun s' hs' => Option.some.inj (hs.symm.trans hs')
  · next hs =>
    refine Prog.issues_bind hp fun a => hf a fun s hs' => ?_
    rw [hs] at hs'
    cases hs'

theorem sends_body (guard : JurisdictionGuard) {call : ConversationCall} (hd : call.direct = true) :
    (call.body guard).Issues (Sends call) := by
  have huuid : (TurnTask.uuid).Issues (Sends call) :=
    (Prog.issues_perform (S := conversationSig) _).2 trivial
  cases call with
  | turn envelope actor => cases hd
  | chat request actor =>
    have hns : providerNamespace actor request.providerId.1 = "direct-api" :=
      if_neg (of_decide_eq_true hd)
    refine Prog.issues_bind ?_ fun _ => trivial
    refine Prog.issues_bind_ofExcept fun customer hc => ?_
    refine sends_orElse (Prog.issues_bind huuid fun _ => trivial) fun sessionId _ => ?_
    refine sends_orElse (Prog.issues_bind huuid fun _ => trivial) fun messageId hm => ?_
    refine Prog.issues_bind huuid fun correlationId => ?_
    refine Prog.issues_bind (issues_processTurn ?_ (fun _ _ => trivial) trivial) fun result => ?_
    · exact ⟨hns, resolveCustomerContext_ok hc, fun k hk => hm k hk, rfl, nofun⟩
    · split_ifs <;> trivial
  | conversationTurn request actor =>
    have hns : providerNamespace actor request.providerId.1 = "direct-api" :=
      if_neg (of_decide_eq_true hd)
    refine Prog.issues_bind ?_ fun _ => trivial
    refine Prog.issues_bind_ofExcept fun customer hc => ?_
    have hcustomer := resolveCustomerContext_ok hc
    split_ifs
    · refine Prog.issues_bind (Prog.issues_ofExcept _) fun _ => ?_
      refine Prog.issues_bind (Prog.issues_ofExcept _) fun _ => ?_
      refine Prog.issues_bind (Prog.issues_ofExcept _) fun capabilities => ?_
      refine Prog.issues_bind huuid fun _ => issues_processTurn ?_ (fun _ _ => trivial) trivial
      exact ⟨hns, hcustomer, fun k hk => Option.some.inj hk, rfl, fun _ => rfl⟩
    · refine Prog.issues_bind (Prog.issues_ofExcept _) fun _ => ?_
      refine Prog.issues_bind (Prog.issues_ofExcept _) fun capabilities => ?_
      refine Prog.issues_bind huuid fun _ => issues_processTurn ?_ (fun _ _ => trivial) trivial
      exact ⟨hns, hcustomer, fun k hk => Option.some.inj hk, rfl, fun _ => rfl⟩

/-- A call with the status that it was answered with, if its transaction did not fail. -/
abbrev Turn := ConversationCall × Option AcceptanceStatus

namespace OwnInbox

def received (past : List Turn) (call : ConversationCall) : Bool :=
  call.presents.id.isSome && past.any fun t =>
    decide (t.1.presents.id = call.presents.id) && decide (t.2 = some .accepted)

def recorded (past : List Turn) (call : ConversationCall) : Bool :=
  call.presents.id.isSome && past.any fun t =>
    decide (t.1.presents.id = call.presents.id) &&
      decide (t.2 = some .accepted ∨ t.2 = some .quarantined)

def accepts (conversation : String) (t : Turn) : Option ℤ :=
  if t.2 = some .accepted ∧ t.1.presents.conversation = conversation then t.1.presents.sequence
  else none

def last (past : List Turn) (conversation : String) : Option ℤ :=
  (past.filterMap (accepts conversation)).getLast?

def fits (call : ConversationCall) : Bool :=
  call.presents.sequence.all fun s => decide (-(2 ^ 63) ≤ s) && decide (s < 2 ^ 63)

/-- The answer of an inbox of the customer's own, by the customer's earlier turns alone. -/
def judge (past : List Turn) (call : ConversationCall) : Option AcceptanceStatus :=
  if received past call then some .duplicate
  else match arrival (last past call.presents.conversation) call.presents.sequence with
    | .processed => some .duplicate
    | .gap .. => if fits call || recorded past call then some .quarantined else none
    | .next => if fits call then some .accepted else none

/-- Every turn was answered by those before it. -/
def Judged (turns : List Turn) : Prop :=
  ∀ pre t post, turns = pre ++ t :: post → t.2 = judge pre t.1

theorem Judged.snoc {turns : List Turn} (h : Judged turns) {t : Turn}
    (ht : t.2 = judge turns t.1) : Judged (turns ++ [t]) := by
  intro pre t' post hs
  rcases split_snoc hs with ⟨post', rfl, hpre⟩ | ⟨rfl, rfl, rfl⟩
  · exact h pre t' post' hpre
  · exact ht

/-- The statuses are a function of the calls. -/
theorem Judged.eq {turns turns' : List Turn} (h : Judged turns) (h' : Judged turns')
    (hc : turns.map (·.1) = turns'.map (·.1)) : turns = turns' := by
  induction turns using List.reverseRecOn generalizing turns' with
  | nil => exact (List.map_eq_nil_iff.1 hc.symm).symm
  | append_singleton turns t ih =>
    rcases List.eq_nil_or_concat turns' with rfl | ⟨turns', t', rfl⟩
    · simp at hc
    · rw [List.concat_eq_append] at h' hc ⊢
      rw [List.map_append, List.map_append] at hc
      obtain ⟨hpre, ht⟩ := List.append_inj' hc rfl
      have hbefore : ∀ {us : List Turn} {u : Turn}, Judged (us ++ [u]) → Judged us := by
        intro us u hu pre x post hs
        exact hu pre x (post ++ [u]) (by simp [hs])
      obtain rfl := ih (hbefore h) (hbefore h') hpre
      have ht1 : t.1 = t'.1 := List.singleton_inj.1 ht
      have ht2 : t.2 = t'.2 := by
        rw [h turns t [] rfl, h' turns t' [] rfl, ht1]
      rw [Prod.ext ht1 ht2]

end OwnInbox

namespace TurnLog

def turn? (A : String) (calls : List ConversationCall) (x : Entry conversationSig) : Option Turn :=
  match TurnEvent.receipt? x.event, calls[x.tid]? with
  | some receipt, some call => if call.customer = A then some (call, receipt.status) else none
  | _, _ => none

/-- The turns of a customer, in the order of their transactions. -/
def turnsOf (A : String) (h : TurnLog) : List Turn := h.trace.filterMap (turn? A h.calls)

/-- The client has chosen the message id of the task. -/
def chosen (h : TurnLog) (τ : ℕ) : Bool :=
  (h.calls[τ]?.bind fun call => call.presents.id).isSome

end TurnLog

namespace Inbox

/-- Nothing of another customer is accepted under the id of the message, or with a number in
its conversation. -/
def Own (inbox : Inbox) (e : MessageEnvelope) : Prop :=
  (∀ row ∈ inbox.message? e.key, row.orderingStatus = .accepted ∨ ¬ e.Fits →
    row.envelopeJson.customerId = e.customerId) ∧
  (e.sequence.isSome → ∀ row ∈ inbox.messages.rows, row.orderingStatus = .accepted →
    row.envelopeJson.conversation = e.conversation → row.envelopeJson.sequence.isSome →
    row.envelopeJson.customerId = e.customerId)

instance (inbox : Inbox) (e : MessageEnvelope) : Decidable (inbox.Own e) :=
  inferInstanceAs (Decidable (_ ∧ _))

end Inbox

abbrev directSystem (guard : JurisdictionGuard) := conversationSystem guard ConversationCall.direct

section
variable {guard : JurisdictionGuard}

/-- The envelope that a decision delivers, and its task. -/
def delivery? (c : (directSystem guard).Config) :
    (directSystem guard).Move → Option (ℕ × MessageEnvelope)
  | .run τ choice => match (directSystem guard).performs c (.run τ choice) with
    | some (.accept e) => some (τ, e)
    | _ => none
  | _ => none

/-- An id that was drawn for a message of the customer is the id of no other one. -/
def DrawnApart (A : String) (c : (directSystem guard).Config) (a : (directSystem guard).Move) :
    Prop :=
  ∀ d ∈ delivery? c a, d.2.customerId = A → ∀ x ∈ c.hist.trace,
    ∀ receipt ∈ TurnEvent.receipt? x.event, receipt.envelope.customerId = A →
      receipt.envelope.key = d.2.key →
      TurnLog.chosen c.hist d.1 = true ∧ TurnLog.chosen c.hist x.tid = true

instance (A : String) (c : (directSystem guard).Config) (a : (directSystem guard).Move) :
    Decidable (DrawnApart A c a) :=
  inferInstanceAs (Decidable (∀ d ∈ delivery? c a, d.2.customerId = A → ∀ x ∈ c.hist.trace,
    ∀ receipt ∈ TurnEvent.receipt? x.event, receipt.envelope.customerId = A →
      receipt.envelope.key = d.2.key →
      TurnLog.chosen c.hist d.1 = true ∧ TurnLog.chosen c.hist x.tid = true))

/-- A message of the customer meets nothing of another one. -/
def Unmixed (A : String) (c : (directSystem guard).Config) (a : (directSystem guard).Move) :
    Prop :=
  ∀ d ∈ delivery? c a, d.2.customerId = A → Inbox.Own c.hist.state d.2

instance (A : String) (c : (directSystem guard).Config) (a : (directSystem guard).Move) :
    Decidable (Unmixed A c a) :=
  inferInstanceAs (Decidable (∀ d ∈ delivery? c a, d.2.customerId = A →
    Inbox.Own c.hist.state d.2))

abbrev directHistory (guard : JurisdictionGuard)
    (acts : List (directSystem guard).Move) : TurnLog :=
  turnHistory guard ConversationCall.direct acts

section
variable (acts : List (directSystem guard).Move)

theorem direct_of_call {τ : ℕ} {call : ConversationCall}
    (hc : (directHistory guard acts).calls[τ]? = some call) : call.direct = true := by
  obtain ⟨_, ha⟩ := @System.admitted_run _ _ _ (directSystem guard) .empty acts call
    (List.mem_of_getElem? hc)
  exact ha

/-- Every delivery is the one that its call describes. -/
theorem described {τ : ℕ} {e : MessageEnvelope} {r : Except PyErr MessageAcceptance}
    (hx : (⟨τ, .accept e, r⟩ : Entry conversationSig) ∈ (directHistory guard acts).trace) :
    ∃ call, (directHistory guard acts).calls[τ]? = some call ∧ Describes call e := by
  obtain ⟨call, hc⟩ := @System.call_of_mem _ _ _ (directSystem guard) .empty acts _ hx
  have hs := sends_body guard (direct_of_call acts hc)
  exact ⟨call, hc, @System.op_of_issues _ _ _ (directSystem guard) _ .empty acts _ hx _ hc hs⟩

theorem described_ready {τ : ℕ} {e : MessageEnvelope}
    {k : Except PyErr MessageAcceptance → TurnTask TurnReply}
    (hr : (directSystem guard).Ready
      ((directSystem guard).run ((directSystem guard).init .empty) acts)
      τ (.accept e) k) :
    ∃ call, (directHistory guard acts).calls[τ]? = some call ∧ Describes call e := by
  obtain ⟨call, hc, hf⟩ := @System.follows_run _ _ _ (directSystem guard) .empty acts _ _ hr.1
  exact ⟨call, hc, (hf.issues (sends_body guard (direct_of_call acts hc))).2.1⟩

theorem mem_turnsOf {A : String} {t : Turn} :
    t ∈ turnsOf A (directHistory guard acts) ↔ ∃ τ e r,
      (⟨τ, .accept e, r⟩ : Entry conversationSig) ∈ (directHistory guard acts).trace ∧
      (directHistory guard acts).calls[τ]? = some t.1 ∧ t.1.customer = A ∧
      t.2 = (⟨e, r⟩ : Receipt).status := by
  unfold turnsOf
  rw [List.mem_filterMap]
  constructor
  · rintro ⟨⟨τ, o, r⟩, hx, ht⟩
    cases o with
    | accept e =>
      obtain ⟨call, hc⟩ := @System.call_of_mem _ _ _ (directSystem guard) .empty acts _ hx
      change (directHistory guard acts).calls[τ]? = some call at hc
      simp only [turn?, Entry.event, TurnEvent.receipt?, hc] at ht
      split_ifs at ht with hA
      cases ht
      exact ⟨τ, e, r, hx, hc, hA, rfl⟩
    | _ => simp [turn?, Entry.event, TurnEvent.receipt?] at ht
  · rintro ⟨τ, e, r, hx, hc, hA, hs⟩
    refine ⟨_, hx, ?_⟩
    simp [turn?, Entry.event, TurnEvent.receipt?, hc, hA, ← hs]

/-- What is stored was delivered, and what was recorded is stored. -/
structure Stored (inbox : Inbox) (xs : List (Entry conversationSig)) : Prop where
  written : ∀ k row, inbox.message? k = some row → row.envelopeJson.key = k ∧ ∃ τ r,
    (⟨τ, .accept row.envelopeJson, r⟩ : Entry conversationSig) ∈ xs ∧
      ((⟨row.envelopeJson, r⟩ : Receipt).status = some .accepted ∨
        (⟨row.envelopeJson, r⟩ : Receipt).status = some .quarantined)
  there : ∀ τ e r, (⟨τ, .accept e, r⟩ : Entry conversationSig) ∈ xs →
    (⟨e, r⟩ : Receipt).status = some .accepted ∨ (⟨e, r⟩ : Receipt).status = some .quarantined →
    (inbox.message? e.key).isSome
  status : ∀ τ e r, (⟨τ, .accept e, r⟩ : Entry conversationSig) ∈ xs →
    ((⟨e, r⟩ : Receipt).accepted = true ↔ (⟨e, r⟩ : Receipt).status = some .accepted)

theorem Stored.unchanged {inbox : Inbox} {xs : List (Entry conversationSig)} (h : Stored inbox xs)
    {x : Entry conversationSig}
    (hx : ∀ τ e r, x = ⟨τ, .accept e, r⟩ → (⟨e, r⟩ : Receipt).accepted = false ∧
      (⟨e, r⟩ : Receipt).status ≠ some .accepted ∧
      (⟨e, r⟩ : Receipt).status ≠ some .quarantined) : Stored inbox (xs ++ [x]) := by
  refine ⟨fun k row hrow => ?_, fun τ e r hm hs => ?_, fun τ e r hm => ?_⟩
  · obtain ⟨hk, τ, r, hm, hs⟩ := h.written k row hrow
    exact ⟨hk, τ, r, List.mem_append_left _ hm, hs⟩
  · rcases List.mem_append.1 hm with hm | hm
    · exact h.there τ e r hm hs
    · obtain ⟨-, ha, hq⟩ := hx τ e r (List.mem_singleton.1 hm).symm
      exact (hs.elim ha hq).elim
  · rcases List.mem_append.1 hm with hm | hm
    · exact h.status τ e r hm
    · obtain ⟨hf, ha, -⟩ := hx τ e r (List.mem_singleton.1 hm).symm
      simp [hf, ha]

theorem Stored.recorded {inbox inbox' : Inbox} {xs : List (Entry conversationSig)}
    (h : Stored inbox xs) {τ : ℕ} {e : MessageEnvelope} {r : Except PyErr MessageAcceptance}
    {status : OrderingStatus} (hr : Inbox.Recorded inbox e status inbox')
    (hs : (⟨e, r⟩ : Receipt).status = some .accepted ∨
      (⟨e, r⟩ : Receipt).status = some .quarantined)
    (ha : (⟨e, r⟩ : Receipt).accepted = true ↔ (⟨e, r⟩ : Receipt).status = some .accepted) :
    Stored inbox' (xs ++ [⟨τ, .accept e, r⟩]) := by
  obtain ⟨new, hnew, hR⟩ := hr.message
  refine ⟨fun k row hrow => ?_, fun τ' e' r' hm hs' => ?_, fun τ' e' r' hm => ?_⟩
  · by_cases hk : k = e.key
    · subst hk
      rw [hnew] at hrow
      cases hrow
      rw [hR.envelope]
      exact ⟨rfl, τ, r, by simp, hs⟩
    · obtain ⟨hkey, τ', r', hm, hs'⟩ := h.written k row (hr.others k hk ▸ hrow)
      exact ⟨hkey, τ', r', List.mem_append_left _ hm, hs'⟩
  · by_cases hk : e'.key = e.key
    · rw [hk, hnew]
      rfl
    · rw [hr.others _ hk]
      rcases List.mem_append.1 hm with hm | hm
      · exact h.there τ' e' r' hm hs'
      · cases List.mem_singleton.1 hm
        exact absurd rfl hk
  · rcases List.mem_append.1 hm with hm | hm
    · exact h.status τ' e' r' hm
    · cases List.mem_singleton.1 hm
      exact ha

theorem kept_run : Stored (directHistory guard acts).state (directHistory guard acts).trace := by
  refine System.run_induction (G := fun _ _ => True)
    (J := fun c => Stored c.hist.state c.hist.trace) ?_ (fun acts a ih _ => ?_) acts
    (System.guarded_true _ _)
  · exact ⟨fun k row h => (by cases h), fun τ e r h => (by cases h), fun τ e r h => (by cases h)⟩
  · rcases System.next_cases _ a with h | ⟨call, -, -, h⟩ | ⟨τ, c, o, k, -, -, h⟩ | ⟨τ, -, h⟩ |
        ⟨c, -, h⟩ <;> rw [h]
    · exact ih
    · exact ih
    · cases o with
      | accept e =>
        have ho := Inbox.accept_outcome c.now
          ((directSystem guard).run ((directSystem guard).init .empty) acts).hist.state e
        change Stored (acceptMessageResult c.now _ e).2
          (_ ++ [⟨τ, .accept e, (acceptMessageResult c.now _ e).1⟩])
        generalize (acceptMessageResult c.now _ e).1 = r,
          (acceptMessageResult c.now _ e).2 = i at ho
        cases ho with
        | received hh =>
          exact ih.unchanged (by rintro _ _ _ ⟨⟩; simp [Receipt.accepted, Receipt.status])
        | processed hh hs hl hle =>
          exact ih.unchanged (by rintro _ _ _ ⟨⟩; simp [Receipt.accepted, Receipt.status])
        | overflow hh hf hlt hn =>
          exact ih.unchanged (by rintro _ _ _ ⟨⟩; simp [Receipt.accepted, Receipt.status])
        | quarantined hh hs hl hlt hr =>
          exact ih.recorded hr (Or.inr rfl) (by simp [Receipt.accepted, Receipt.status])
        | accepted hh hn hr =>
          exact ih.recorded hr (Or.inl rfl) (by simp [Receipt.accepted, Receipt.status])
      | _ => exact ih.unchanged (by rintro _ _ _ ⟨⟩)
    · exact ih
    · exact ih

/-- A message of the customer arrives. -/
structure Arrives (A : String) (h : TurnLog) (call : ConversationCall) (e : MessageEnvelope) :
    Prop where
  customer : call.customer = A
  describes : Describes call e
  own : h.state.Own e
  apart : ∀ (τ : ℕ) (e' : MessageEnvelope) (r : Except PyErr MessageAcceptance)
    (call' : ConversationCall), (⟨τ, .accept e', r⟩ : Entry conversationSig) ∈ h.trace →
    h.calls[τ]? = some call' → Describes call' e' → e'.customerId = A → e'.key = e.key →
    call.presents.id.isSome ∧ call'.presents.id = call.presents.id

theorem Describes.key_eq {call call' : ConversationCall} {e e' : MessageEnvelope}
    (h : Describes call e) (h' : Describes call' e') (hs : call.presents.id.isSome)
    (hid : call'.presents.id = call.presents.id) : e'.key = e.key := by
  obtain ⟨k, hk⟩ := Option.isSome_iff_exists.1 hs
  unfold MessageEnvelope.key
  rw [h.provider, h'.provider, h.id k hk, h'.id k (hid.trans hk)]

variable {A : String} {call : ConversationCall} {e : MessageEnvelope}

section
variable {acts}

theorem Arrives.received (ha : Arrives A (directHistory guard acts) call e) :
    OwnInbox.received (turnsOf A (directHistory guard acts)) call =
      (directHistory guard acts).state.holds e.key := by
  have hl : Inbox.Ledger (directHistory guard acts).state
      (acceptedOf (directHistory guard acts).receipts) := ledger_run acts
  refine Bool.eq_iff_iff.2 ?_
  simp only [OwnInbox.received, Bool.and_eq_true, List.any_eq_true, decide_eq_true_eq]
  constructor
  · rintro ⟨hsome, t, ht, hid, hs⟩
    obtain ⟨τ, e', r, hx, hc, -, hst⟩ := (mem_turnsOf acts).1 ht
    obtain ⟨call', hc', hd⟩ := described acts hx
    rw [hc] at hc'
    cases hc'
    refine hl.holds_iff.2 ⟨e', mem_acceptedOf.2 ⟨τ, r, hx, ?_⟩, ha.describes.key_eq hd hsome hid⟩
    exact ((kept_run acts).status τ e' r hx).2 (hst.symm.trans hs)
  · intro hh
    obtain ⟨row, hrow, hs⟩ := Inbox.holds_eq_true.1 hh
    have hkey := hl.keys _ _ hrow
    have hmem : row.envelopeJson ∈ acceptedOf (directHistory guard acts).receipts :=
      (hl.stored _).2 ⟨row, hkey ▸ hrow, hs, rfl⟩
    obtain ⟨τ, r, hx, hacc⟩ := mem_acceptedOf.1 hmem
    obtain ⟨call', hc', hd⟩ := described acts hx
    have hcust : row.envelopeJson.customerId = A :=
      (ha.own.1 row hrow (Or.inl hs)).trans (ha.describes.customer.trans ha.customer)
    obtain ⟨hsome, hid⟩ := ha.apart τ _ r call' hx hc' hd hcust hkey
    refine ⟨hsome, (call', some .accepted), (mem_turnsOf acts).2 ?_, hid, rfl⟩
    exact ⟨τ, _, r, hx, hc', hd.customer.symm.trans hcust,
      (((kept_run acts).status τ _ r hx).1 hacc).symm⟩

theorem sequencesOf_acceptedOf (c : String × String) (xs : List Receipt) :
    sequencesOf c (acceptedOf xs) = xs.filterMap fun x =>
      if x.accepted = true ∧ x.envelope.conversation = c then x.envelope.sequence else none := by
  induction xs with
  | nil => rfl
  | cons x xs ih =>
    unfold sequencesOf acceptedOf at ih ⊢
    by_cases ha : x.accepted = true
    · by_cases hc : x.envelope.conversation = c <;> simp [List.filterMap_cons, ha, hc, ih]
    · simp [ha, ih]

theorem Arrives.last (ha : Arrives A (directHistory guard acts) call e) (hs : e.sequence.isSome) :
    OwnInbox.last (turnsOf A (directHistory guard acts)) call.presents.conversation =
      (directHistory guard acts).state.lastSequence? e.conversation := by
  have hl : Inbox.Ledger (directHistory guard acts).state
      (acceptedOf (directHistory guard acts).receipts) := ledger_run acts
  rw [hl.last, OwnInbox.last, sequencesOf_acceptedOf, turnsOf, receipts, List.filterMap_filterMap,
    List.filterMap_filterMap]
  refine congrArg List.getLast? (List.filterMap_congr fun x hx => ?_)
  obtain ⟨τ, o, r⟩ := x
  cases o with
  | accept e' =>
    obtain ⟨call', hc', hd⟩ := described acts hx
    have hstatus := (kept_run acts).status τ e' r hx
    have hseq := hd.sequence
    simp only [turn?, Entry.event, TurnEvent.receipt?, hc', Option.bind_some]
    cases hsome : e'.sequence with
    | none => simp [OwnInbox.accepts, ← hseq, hsome]
    | some s =>
      have hconv := hd.conversation (by simp [hsome])
      have hiff : e'.conversation = e.conversation ↔
          call'.presents.conversation = call.presents.conversation := by
        rw [← hconv, ← ha.describes.conversation hs]
        simp [MessageEnvelope.conversation, hd.provider, ha.describes.provider]
      by_cases hacc : (⟨e', r⟩ : Receipt).accepted = true ∧ e'.conversation = e.conversation
      · obtain ⟨row, hrow, hrs, hre⟩ := hl.mem_iff.1 (mem_acceptedOf.2 ⟨τ, r, hx, hacc.1⟩)
        have hcust := ha.own.2 hs row hrow hrs (by rw [hre]; exact hacc.2) (by rw [hre, hsome]; rfl)
        rw [hre, hd.customer, ha.describes.customer, ha.customer] at hcust
        simp [OwnInbox.accepts, hcust, hstatus.1 hacc.1, hiff.1 hacc.2, hacc.1, hacc.2,
          ← hseq, hsome]
      · have hnot : ¬ ((⟨e', r⟩ : Receipt).status = some .accepted ∧
            call'.presents.conversation = call.presents.conversation) := by
          rw [← hstatus, ← hiff]
          exact hacc
        rw [if_neg hacc]
        split_ifs
        · simp [OwnInbox.accepts, hnot]
        · rfl
  | _ => rfl

theorem Arrives.recorded (ha : Arrives A (directHistory guard acts) call e) (hf : ¬ e.Fits) :
    OwnInbox.recorded (turnsOf A (directHistory guard acts)) call =
      ((directHistory guard acts).state.message? e.key).isSome := by
  have hk := @kept_run guard acts
  refine Bool.eq_iff_iff.2 ?_
  simp only [OwnInbox.recorded, Bool.and_eq_true, List.any_eq_true, decide_eq_true_eq]
  constructor
  · rintro ⟨hsome, t, ht, hid, hs⟩
    obtain ⟨τ, e', r, hx, hc, -, hst⟩ := (mem_turnsOf acts).1 ht
    obtain ⟨call', hc', hd⟩ := described acts hx
    rw [hc] at hc'
    cases hc'
    rw [← ha.describes.key_eq hd hsome hid]
    exact hk.there τ e' r hx (hst ▸ hs)
  · intro hsome
    obtain ⟨row, hrow⟩ := Option.isSome_iff_exists.1 hsome
    obtain ⟨hkey, τ, r, hx, hs⟩ := hk.written _ _ hrow
    obtain ⟨call', hc', hd⟩ := described acts hx
    have hcust : row.envelopeJson.customerId = A :=
      (ha.own.1 row hrow (Or.inr hf)).trans (ha.describes.customer.trans ha.customer)
    obtain ⟨hid, heq⟩ := ha.apart τ _ r call' hx hc' hd hcust hkey
    exact ⟨hid, (call', _), (mem_turnsOf acts).2
      ⟨τ, _, r, hx, hc', hd.customer.symm.trans hcust, rfl⟩, heq, hs⟩

theorem arrival_of_next {last sequence : Option ℤ}
    (h : ∀ s ∈ sequence, ∀ l ∈ last, s = l + 1) : arrival last sequence = .next := by
  unfold arrival
  split
  · next s l =>
    have := h s rfl l rfl
    rw [if_neg (by omega), if_neg (by omega)]
  · rfl

theorem fits_iff (hd : Describes call e) : OwnInbox.fits call = true ↔ e.Fits := by
  unfold OwnInbox.fits MessageEnvelope.Fits
  rw [← hd.sequence]
  cases e.sequence <;> simp

/-- A delivery that meets nothing of another customer is answered by the customer's own past. -/
theorem Arrives.judged (ha : Arrives A (directHistory guard acts) call e) (now : Time) :
    (⟨e, (acceptMessageResult now (directHistory guard acts).state e).1⟩ : Receipt).status =
      OwnInbox.judge (turnsOf A (directHistory guard acts)) call := by
  have harr : arrival (OwnInbox.last (turnsOf A (directHistory guard acts))
      call.presents.conversation) call.presents.sequence =
      arrival ((directHistory guard acts).state.lastSequence? e.conversation) e.sequence := by
    rw [← ha.describes.sequence]
    cases hs : e.sequence with
    | none => simp [arrival]
    | some s => rw [ha.last (by simp [hs])]
  have ho := Inbox.accept_outcome now (directHistory guard acts).state e
  generalize (acceptMessageResult now _ e).1 = r, (acceptMessageResult now _ e).2 = i at ho
  unfold OwnInbox.judge
  rw [ha.received, harr]
  cases ho with
  | received hh => simp [hh, Receipt.status]
  | processed hh hs hl hle => simp [hh, hs, hl, arrival, hle, Receipt.status]
  | quarantined hh hs hl hlt hr =>
    have hgap :
        OwnInbox.fits call || OwnInbox.recorded (turnsOf A (directHistory guard acts)) call := by
      by_cases hf : e.Fits
      · simp [(fits_iff ha.describes).2 hf]
      · rw [ha.recorded hf]
        obtain ⟨row, hrow, hR⟩ := hr.message
        cases hold : (directHistory guard acts).state.message? e.key with
        | some row0 => simp
        | none =>
          refine absurd (fun s hs' => ?_) hf
          have := (hR.new hold).2
          rw [hs'] at this
          obtain ⟨m, -, rfl⟩ := Option.map_eq_some_iff.1 this
          exact m.2
    have hnle : ¬ _ ≤ _ := not_le.2 (lt_trans (Int.lt_succ _) hlt)
    simp [hh, hs, hl, arrival, hnle, hlt, hgap, Receipt.status]
  | accepted hh hn hr =>
    rw [arrival_of_next hn]
    simp [hh, (fits_iff ha.describes).2 hr.fits, Receipt.status]
  | overflow hh hf hlt hn =>
    have hfit : OwnInbox.fits call = false := by
      simpa using mt (fits_iff ha.describes).1 hf
    rcases hn with hn | hnone
    · rw [arrival_of_next hn]
      simp [hh, hfit, Receipt.status]
    · have hrec : OwnInbox.recorded (turnsOf A (directHistory guard acts)) call = false := by
        rw [ha.recorded hf, hnone]
        rfl
      cases harr' : arrival ((directHistory guard acts).state.lastSequence? e.conversation)
        e.sequence with
      | processed =>
        obtain ⟨s, l, hs, hl, hle⟩ := arrival_processed harr'
        have := hlt s hs l hl
        omega
      | gap expected received => simp [hh, hfit, hrec, Receipt.status]
      | next => simp [hh, hfit, Receipt.status]

/-- The guards of a delivery say what its arrival needs. -/
theorem arrives {τ : ℕ} {k : Except PyErr MessageAcceptance → TurnTask TurnReply}
    {choice : TurnChoice}
    (hr : (directSystem guard).Ready
      ((directSystem guard).run ((directSystem guard).init .empty) acts)
      τ (.accept e) k)
    (hg : DrawnApart A ((directSystem guard).run ((directSystem guard).init .empty) acts)
        (.run τ choice) ∧
      Unmixed A ((directSystem guard).run ((directSystem guard).init .empty) acts)
        (.run τ choice))
    (hcall : (directHistory guard acts).calls[τ]? = some call) (hd : Describes call e)
    (hA : call.customer = A) : Arrives A (directHistory guard acts) call e := by
  have hdel : (τ, e) ∈ delivery? ((directSystem guard).run ((directSystem guard).init .empty) acts)
      (.run τ choice) := by
    simp [delivery?, System.performs_of_ready hr]
  have he : e.customerId = A := hd.customer.trans hA
  refine ⟨hA, hd, hg.2 _ hdel he, fun τ' e' r call' hx hc' hd' hA' hk => ?_⟩
  obtain ⟨h1, h2⟩ := hg.1 _ hdel he _ hx ⟨e', r⟩ rfl hA' hk
  have hs : call.presents.id.isSome = true := by
    change (Option.bind ((directHistory guard acts).calls[τ]?) _).isSome = true at h1
    rw [hcall] at h1
    exact h1
  have hs' : call'.presents.id.isSome = true := by
    change (Option.bind ((directHistory guard acts).calls[τ']?) _).isSome = true at h2
    rw [hc'] at h2
    exact h2
  obtain ⟨i, hi⟩ := Option.isSome_iff_exists.1 hs
  obtain ⟨i', hi'⟩ := Option.isSome_iff_exists.1 hs'
  refine ⟨hs, ?_⟩
  rw [hi, hi', ← hd.id i hi, ← hd'.id i' hi',
    show e'.messageId = e.messageId from congrArg Prod.snd hk]

end

theorem turnsOf_spawned (A : String) (call : ConversationCall) :
    turnsOf A ((directSystem guard).spawned (directHistory guard acts) call) =
      turnsOf A (directHistory guard acts) := by
  refine List.filterMap_congr fun x hx => ?_
  obtain ⟨call', hc⟩ := @System.call_of_mem _ _ _ (directSystem guard) .empty acts _ hx
  change (directHistory guard acts).calls[x.tid]? = some call' at hc
  have hc' : ((directSystem guard).spawned (directHistory guard acts) call).calls[x.tid]? =
      some call' :=
    getElem?_of_extends (List.prefix_append _ _) hc
  simp only [turn?, hc, hc']

theorem turnsOf_after (A : String) (h : TurnLog) (τ : ℕ) (o : ConversationOp)
    (choice : TurnChoice) :
    turnsOf A ((directSystem guard).after h τ o choice) = turnsOf A h ++
      (turn? A h.calls ⟨τ, o, (Inbox.exec choice h.state o).1⟩).toList := by
  unfold turnsOf System.after
  rw [List.filterMap_append]
  simp only [List.filterMap_cons, List.filterMap_nil]
  cases turn? A h.calls ⟨τ, o, (Inbox.exec choice h.state o).1⟩ <;> rfl

/-- The customer's turns are answered as from an inbox of the customer's own. -/
theorem judged_run (A : String)
    (hG : System.Guarded (fun c a => DrawnApart A c a ∧ Unmixed A c a)
      ((directSystem guard).init .empty) acts) :
    OwnInbox.Judged (turnsOf A (directHistory guard acts)) := by
  refine System.run_induction (J := fun c => OwnInbox.Judged (turnsOf A c.hist)) ?_
    (fun acts a ih hg => ?_) acts hG
  · intro pre t post hs
    cases pre <;> cases hs
  · rcases System.next_cases _ a with h | ⟨call, -, -, h⟩ | ⟨τ, choice, o, k, rfl, hr, h⟩ |
        ⟨τ, -, h⟩ | ⟨c, -, h⟩ <;> rw [h]
    · exact ih
    · exact (turnsOf_spawned acts A call).symm ▸ ih
    · rw [turnsOf_after]
      cases o with
      | accept e =>
        obtain ⟨call, hc, hd⟩ := described_ready acts hr
        change (directHistory guard acts).calls[τ]? = some call at hc
        by_cases hA : call.customer = A
        · have hturn : turn? A (directHistory guard acts).calls
              ⟨τ, .accept e, (Inbox.exec choice (directHistory guard acts).state (.accept e)).1⟩ =
              some (call, OwnInbox.judge (turnsOf A (directHistory guard acts)) call) := by
            simp only [turn?, Entry.event, TurnEvent.receipt?, hc, hA, if_true]
            rw [← (arrives hr hg hc hd hA).judged choice.now]
            rfl
          exact hturn ▸ ih.snoc rfl
        · have hturn : turn? A (directHistory guard acts).calls
              ⟨τ, .accept e, (Inbox.exec choice (directHistory guard acts).state (.accept e)).1⟩ =
              none := by
            simp only [turn?, Entry.event, TurnEvent.receipt?, hc, hA, if_false]
          refine Eq.subst (motive := fun t : Option Turn =>
            OwnInbox.Judged (turnsOf A (directHistory guard acts) ++ t.toList)) hturn.symm ?_
          rw [Option.toList_none, List.append_nil]
          exact ih
      | _ => simpa [turn?, Entry.event, TurnEvent.receipt?] using ih
    · exact ih
    · exact ih

end

end

/-- Two runs of the direct endpoints with the same calls by a customer give that customer the
same answers, whatever the others do, if in neither of them a message of the customer meets
anything of another one, and no drawn id is used for a second message of the customer. -/
theorem statuses_isolated (guard : JurisdictionGuard) (A : String)
    (acts acts' : List (directSystem guard).Move)
    (hd : System.Guarded (fun c a => DrawnApart A c a ∧ Unmixed A c a)
      ((directSystem guard).init .empty) acts)
    (hd' : System.Guarded (fun c a => DrawnApart A c a ∧ Unmixed A c a)
      ((directSystem guard).init .empty) acts')
    (hc : (turnsOf A (directHistory guard acts)).map (·.1) =
      (turnsOf A (directHistory guard acts')).map (·.1)) :
    turnsOf A (directHistory guard acts) = turnsOf A (directHistory guard acts') :=
  (judged_run acts A hd).eq (judged_run acts' A hd') hc

/-- A customer's own chat request. -/
def chatOf (customerId messageId : String) (h : 1 ≤ customerId.length ∧ customerId.length ≤ 100) :
    ConversationCall :=
  .chat { message := ⟨"hello", by decide⟩, messageId := some messageId, userId := ⟨customerId, h⟩ }
    ⟨customerId, .customer, []⟩

/-- The call is spawned and delivers its message. -/
def delivers (call : ConversationCall) (τ : ℕ) : List (directSystem directGuard).Move :=
  let choice :=
    TurnChoice.mk 1 "00000000000000000000000000000001" (.ok ⟨"hi", .informational, none, []⟩)
  [.spawn call, .run τ choice, .run τ choice, .run τ choice]

theorem statuses_isolated_apart :
    turnsOf "CUST-1" (directHistory directGuard
      (delivers (chatOf "CUST-2" "M-2" (by decide)) 0 ++
        delivers (chatOf "CUST-1" "M-1" (by decide)) 1)) =
    turnsOf "CUST-1" (directHistory directGuard (delivers (chatOf "CUST-1" "M-1" (by decide)) 0)) :=
  statuses_isolated directGuard "CUST-1" _ _ (by decide +kernel) (by decide +kernel)
    (by decide +kernel)

/-- Another customer has used the message id first. -/
theorem statuses_disturbed :
    let alone := delivers (chatOf "CUST-1" "M-1" (by decide)) 0
    let disturbed := delivers (chatOf "CUST-2" "M-1" (by decide)) 0 ++
      delivers (chatOf "CUST-1" "M-1" (by decide)) 1
    (turnsOf "CUST-1" (directHistory directGuard alone)).map (·.1) =
      (turnsOf "CUST-1" (directHistory directGuard disturbed)).map (·.1) ∧
    (turnsOf "CUST-1" (directHistory directGuard alone)).map (·.2) = [some .accepted] ∧
    (turnsOf "CUST-1" (directHistory directGuard disturbed)).map (·.2) = [some .duplicate] := by
  decide +kernel

end WorkflowEngine
