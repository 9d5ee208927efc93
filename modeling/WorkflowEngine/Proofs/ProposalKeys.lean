import WorkflowEngine.Proofs.Linkage
import WorkflowEngine.Separator.Escaped
import WorkflowEngine.Spec.ActionRequests

/-! The idempotency keys of proposals. A key is a digest over the case id, and the case id of
any action but a refund a digest over the arguments as they were sent. -/

namespace WorkflowEngine

open Interleave SQLiteCoreStore Separator Fallible FixedWidth

namespace Json

/-- The quotes that `repr` puts around a text. -/
def reprQuote (s : String) : Char :=
  if s.toList.contains '\'' && !s.toList.contains '"' then '"' else '\''

def reprEscape (quote c : Char) : List Char :=
  if c = quote ∨ c = '\\' then ['\\', c]
  else if c = '\n' then ['\\', 'n']
  else if c = '\r' then ['\\', 'r']
  else if c = '\t' then ['\\', 't']
  else if isPrintable c then [c]
  else hexEscape c

theorem strRepr_eq (s : String) : strRepr s = String.ofList
    (reprQuote s :: (s.toList.flatMap (reprEscape (reprQuote s)) ++ [reprQuote s])) := rfl

/-- The character that a backslash and `c` stand for. -/
def unescaped (c : Char) : Char :=
  if c = 'n' then '\n' else if c = 'r' then '\r' else if c = 't' then '\t' else c

/-- A backslash, the letter and the digits stand for `c`. -/
structure Stands (c letter : Char) (digits : List Char) : Prop where
  width : digits.length = hexWidth letter
  single : hexWidth letter = 0 → unescaped letter = c
  hex : hexWidth letter ≠ 0 → digits = numeral 16 Nat.digitChar (hexWidth letter) c.toNat ∧
    c.toNat < 16 ^ hexWidth letter

theorem Stands.unique {c c' letter : Char} {digits : List Char} (h : Stands c letter digits)
    (h' : Stands c' letter digits) : c = c' := by
  by_cases hwidth : hexWidth letter = 0
  · rw [← h.single hwidth, ← h'.single hwidth]
  · obtain ⟨hdigits, hlt⟩ := h.hex hwidth
    obtain ⟨hdigits', hlt'⟩ := h'.hex hwidth
    have hdigit : Set.InjOn Nat.digitChar (Set.Iio 16) := by
      have hall : ∀ i < 16, ∀ j < 16, Nat.digitChar i = Nat.digitChar j → i = j := by decide
      exact fun i hi j hj => hall i hi j hj
    have hnat := (numeral_inj (by decide) hdigit hlt hlt').1 (hdigits.symm.trans hdigits')
    exact Char.toNat_inj.1 hnat

theorem stands_single {c letter : Char} (h : hexWidth letter = 0) (hc : unescaped letter = c) :
    Stands c letter [] :=
  ⟨h.symm, fun _ => hc, fun hne => absurd h hne⟩

theorem stands_hexEscape (c : Char) :
    ∃ letter digits, hexEscape c = '\\' :: letter :: digits ∧ Stands c letter digits := by
  have hstands : ∀ letter, hexWidth letter ≠ 0 → c.toNat < 16 ^ hexWidth letter →
      Stands c letter (numeral 16 Nat.digitChar (hexWidth letter) c.toNat) := by
    intro letter hwidth hlt
    exact ⟨length_numeral _ _, fun h => absurd h hwidth, fun _ => ⟨rfl, hlt⟩⟩
  refine ⟨_, _, rfl, ?_⟩
  split_ifs with hx hu
  · exact hstands 'x' (by decide) hx
  · exact hstands 'u' (by decide) hu
  · have hmax : c.toNat < 0x110000 := by
      have hvalid : c.toNat < 0xd800 ∨ 0xdfff < c.toNat ∧ c.toNat < 0x110000 := c.valid
      omega
    exact hstands 'U' (by decide) (hmax.trans (by decide))

theorem reprEscape_cases {quote : Char} (h : quote = '"' ∨ quote = '\'') (c : Char) :
    (reprEscape quote c = [c] ∧ c ≠ '\\' ∧ c ≠ quote) ∨
      ∃ letter digits, reprEscape quote c = '\\' :: letter :: digits ∧ Stands c letter digits := by
  unfold reprEscape
  split_ifs with hself hn hr ht hprintable
  · have hsingle : hexWidth c = 0 ∧ unescaped c = c := by
      rcases hself with rfl | rfl
      · rcases h with rfl | rfl <;> decide
      · decide
    exact .inr ⟨c, [], rfl, stands_single hsingle.1 hsingle.2⟩
  · exact .inr ⟨'n', [], rfl, stands_single (by decide) hn.symm⟩
  · exact .inr ⟨'r', [], rfl, stands_single (by decide) hr.symm⟩
  · exact .inr ⟨'t', [], rfl, stands_single (by decide) ht.symm⟩
  · obtain ⟨hquote, hback⟩ := not_or.1 hself
    exact .inl ⟨rfl, hback, hquote⟩
  · exact .inr (stands_hexEscape c)

theorem escapes_reprEscape {quote : Char} (h : quote = '"' ∨ quote = '\'') :
    Escapes (reprEscape quote) quote := by
  have hback : '\\' ≠ quote := by
    rcases h with rfl | rfl <;> decide
  constructor
  · intro a b xs ys heq
    rcases reprEscape_cases h a with ⟨ha, hne, -⟩ | ⟨letter, digits, ha, hstands⟩ <;>
      rcases reprEscape_cases h b with ⟨hb, hne', -⟩ | ⟨letter', digits', hb, hstands'⟩ <;>
      rw [ha, hb] at heq
    · exact (List.cons.inj heq).1
    · exact absurd (List.cons.inj heq).1 hne
    · exact absurd (List.cons.inj heq).1.symm hne'
    · obtain ⟨rfl, hrest⟩ := List.cons.inj (List.cons.inj heq).2
      have hdigits := (List.append_inj hrest (hstands.width.trans hstands'.width.symm)).1
      exact hstands.unique (hdigits ▸ hstands')
  · intro a xs ys heq
    rcases reprEscape_cases h a with ⟨ha, -, hne⟩ | ⟨letter, digits, ha, -⟩ <;> rw [ha] at heq
    · exact hne (List.cons.inj heq).1
    · exact hback (List.cons.inj heq).1

theorem strRepr_injective : Function.Injective strRepr := by
  intro s t h
  rw [strRepr_eq, strRepr_eq, String.ofList_inj] at h
  obtain ⟨hquote, htext⟩ := List.cons.inj h
  rw [hquote] at htext
  have hescapes : Escapes (reprEscape (reprQuote t)) (reprQuote t) := by
    apply escapes_reprEscape
    unfold reprQuote
    split_ifs
    · exact .inl rfl
    · exact .inr rfl
  exact String.toList_inj.1 (hescapes.delimited_inj htext).1

end Json

/-- The text whose digest ends the key of any action but a refund. -/
def keyTextOf (action caseId customerId : String) (payload : Fields) : String :=
  "(" ++ String.intercalate ", " [Json.strRepr action, Json.strRepr caseId,
    Json.strRepr customerId, (Json.dict payload).repr] ++ ")"

def ActionProposal.keyText (p : ActionProposal) : String :=
  keyTextOf p.action p.caseId p.customerId p.payload

/-- The digest that ends a key. -/
def keyDigest (text : String) : String :=
  String.ofList ((Sha256.hexdigest text.toList).take 24)

/-- The text whose digest ends the case id of any action but a refund. -/
def ActionRequest.caseText (request : ActionRequest) : String :=
  "(" ++ String.intercalate ", " [Json.strRepr request.customerId,
    (request.conversationId.map Json.strRepr).getD "None", Json.strRepr request.action,
    (Json.dict request.arguments).repr] ++ ")"

theorem keyTextOf_inj {action customerId caseId caseId' : String} {payload payload' : Fields}
    (hpayload : (Json.dict payload).repr = (Json.dict payload').repr)
    (h : keyTextOf action caseId customerId payload =
      keyTextOf action caseId' customerId payload') :
    caseId = caseId' := by
  simp only [keyTextOf, hpayload, String.intercalate_cons_cons, String.intercalate_singleton,
    String.append_assoc, String.append_right_inj, String.append_left_inj] at h
  exact Json.strRepr_injective h

/-- Two requests that differ in their arguments, or in what does not matter for a key. -/
structure ActionRequest.Alike (request request' : ActionRequest) : Prop where
  action : request.action = request'.action
  customerId : request.customerId = request'.customerId
  conversationId : request.conversationId = request'.conversationId

theorem ActionRequest.Alike.caseText_eq_iff {request request' : ActionRequest}
    (h : request.Alike request') : request.caseText = request'.caseText ↔
      (Json.dict request.arguments).repr = (Json.dict request'.arguments).repr := by
  simp only [caseText, h.action, h.customerId, h.conversationId, String.intercalate_cons_cons,
    String.intercalate_singleton, String.append_assoc, String.append_right_inj,
    String.append_left_inj]

/-- The case id of any action but a refund. -/
theorem ActionRequest.caseId_eq {upper : String → String} {request : ActionRequest}
    (h : request.action ≠ "issue_refund") :
    actionCaseId upper request.action request.customerId request.conversationId request.arguments =
      "CASE-" ++ String.ofList ((upper (request.action.replace "_" "-")).toList.take 32) ++ "-" ++
        caseDigest request.caseText := by
  simp [actionCaseId, caseText, h]

namespace ActionBridge

theorem idempotencyKey_eq {action : String} {payload : Fields} {context : TrustedActionContext}
    (h : action ≠ "issue_refund") : idempotencyKey action payload context =
      action ++ ":" ++ keyDigest (keyTextOf action context.caseId context.customerId payload) := by
  rw [idempotencyKey, if_neg h]
  rfl

variable {X : Sig} (bridge : ActionBridge X)

theorem bindConnector_ok {context context' : TrustedActionContext} {action : String}
    (h : bridge.bindConnector context action = .ok context') :
    context'.caseId = context.caseId ∧ context'.customerId = context.customerId := by
  unfold bindConnector at h
  cases hr : bridge.connectorResolver with
  | none =>
    simp only [hr] at h
    cases h
    exact ⟨rfl, rfl⟩
  | some resolve =>
    simp only [hr] at h
    obtain ⟨resolved, -, h⟩ := bind_eq_ok.1 h
    cases h
    exact ⟨rfl, rfl⟩

/-- What a proposal for any action but a refund has of its intent and context. -/
structure Keyed (intent : ActionIntent) (context : TrustedActionContext) (p : ActionProposal) :
    Prop where
  action : p.action = intent.action
  caseId : p.caseId = context.caseId
  customerId : p.customerId = context.customerId
  key : p.idempotencyKey = p.action ++ ":" ++ keyDigest p.keyText

theorem yields_propose {refundPolicy : RefundDecisionService} {ttlSeconds : ℤ}
    {intent : ActionIntent} {context : TrustedActionContext} (ha : intent.action ≠ "issue_refund") :
    (bridge.propose refundPolicy ttlSeconds intent context).Yields (fun _ _ => True)
      (Keyed intent context) := by
  unfold propose
  cases hs : specification? intent.action with
  | none => trivial
  | some specification =>
    refine Prog.yields_bind (R := fun context' => context'.caseId = context.caseId ∧
      context'.customerId = context.customerId)
      (Prog.yields_ofExcept fun context' h => bridge.bindConnector_ok h) fun context' h => ?_
    dsimp only
    rw [if_neg ha]
    refine Prog.yields_skip fun prepared => Prog.yields_skip fun now =>
      Prog.yields_skip fun hex => ?_
    exact Prog.yields_skip fun _ => ⟨rfl, h.1, h.2, idempotencyKey_eq ha⟩

end ActionBridge

namespace ProposalHost

variable {X : Sig} (host : ProposalHost X)

/-- The host answers the request with the proposal. -/
def Proposes (request : ActionRequest) (p : ActionProposal) : Prop :=
  ∃ task xs, host.createActionProposal request = .ok task ∧ Follows task xs (.ret p)

variable {host} {request : ActionRequest} {p : ActionProposal}

theorem Proposes.keyed (h : host.Proposes request p) (ha : request.action ≠ "issue_refund") :
    p.action = request.action ∧ p.customerId = request.customerId ∧
    p.caseId = actionCaseId host.upper request.action request.customerId request.conversationId
      request.arguments ∧
    p.idempotencyKey = p.action ++ ":" ++ keyDigest p.keyText := by
  obtain ⟨task, xs, htask, hret⟩ := h
  obtain ⟨_, -, htask⟩ := bind_eq_ok.1 htask
  obtain ⟨⟨procedureId, policy⟩, -, htask⟩ := bind_eq_ok.1 htask
  cases htask
  have hkeyed := hret.yields (fun _ _ => trivial) (ActionBridge.yields_propose _ ha)
  exact ⟨hkeyed.action, hkeyed.customerId, hkeyed.caseId, hkeyed.key⟩

end ProposalHost

/-- The keys of two proposals with equal payloads are equal exactly when the arguments are
written the same way. -/
theorem proposals_share_key_iff {X : Sig} (host : ProposalHost X) {request request' : ActionRequest}
    {p p' : ActionProposal} (hp : host.Proposes request p) (hp' : host.Proposes request' p')
    (hgeneric : request.action ≠ "issue_refund") (halike : request.Alike request')
    (hpayload : (Json.dict p.payload).repr = (Json.dict p'.payload).repr)
    (hcase : caseDigest request.caseText = caseDigest request'.caseText →
      request.caseText = request'.caseText)
    (hkey : keyDigest p.keyText = keyDigest p'.keyText → p.keyText = p'.keyText) :
    p.idempotencyKey = p'.idempotencyKey ↔
      (Json.dict request.arguments).repr = (Json.dict request'.arguments).repr := by
  obtain ⟨ha, hc, hid, hk⟩ := hp.keyed hgeneric
  obtain ⟨ha', hc', hid', hk'⟩ := hp'.keyed (halike.action ▸ hgeneric)
  have haction : p.action = p'.action := ha.trans (halike.action.trans ha'.symm)
  have hcustomer : p.customerId = p'.customerId := hc.trans (halike.customerId.trans hc'.symm)
  have htext : p.keyText = p'.keyText ↔ p.caseId = p'.caseId := by
    unfold ActionProposal.keyText
    rw [haction, hcustomer]
    refine ⟨keyTextOf_inj hpayload, fun h => ?_⟩
    rw [keyTextOf, keyTextOf, h, hpayload]
  have hcaseId : p.caseId = p'.caseId ↔ request.caseText = request'.caseText := by
    rw [hid, hid', ActionRequest.caseId_eq hgeneric,
      ActionRequest.caseId_eq (halike.action ▸ hgeneric), halike.action, String.append_right_inj]
    exact ⟨hcase, fun h => by rw [h]⟩
  rw [← halike.caseText_eq_iff, ← hcaseId, ← htext, hk, hk', haction, String.append_right_inj]
  exact ⟨hkey, fun h => congrArg keyDigest h⟩

section

/-- A host where only notes are written; the one text in upper case is that of their action. -/
def typedProposals : ProposalHost ⟨Empty, Empty.elim⟩ where
  host := typedHost
  jurisdictionProfile := "US"
  upper _ := "ADD-CASE-NOTE"

def noteWith (arguments : Fields) (messageId : String) : ActionRequest where
  actor := ⟨"rep-1", .customerServiceRep, ["case:write"]⟩
  customerId := "CUST-456"
  action := "add_case_note"
  arguments
  conversationId := some "CONV-1"
  messageId := some messageId

/-- What is prepared from arguments with the note. -/
def notePrepared : Prepared where
  payload := [("action", .str "add_case_note"), ("note", .str "n")]
  resource := none
  preview := [("action", .str "add_case_note"),
    ("parameters", .dict [("action", .str "add_case_note"), ("note", .str "n")])]
  resourceType := none
  resourceId := none

def noteWithRecord (arguments : Fields) (messageId : String) : ActionProposal :=
  ActionBridge.proposal { action := "add_case_note", arguments }
    (typedProposals.trustedContext (noteWith arguments messageId) "cs_refund"
      (activeRefundPolicy "US")) notePrepared 900 0 messageId

theorem prepareGeneric_note {arguments : Fields} {context : TrustedActionContext}
    {specification : ActionSpecification} (hnone : specification.authoritativeParameters = [])
    (h : ActionPayload.validate (ActionBridge.genericPayload
      { action := "add_case_note", arguments }) = some (.addCaseNote "n" (by decide))) :
    typedHost.engine.bridge.prepareGeneric { action := "add_case_note", arguments } context
      specification = .ret notePrepared := by
  have hvalid : typedHost.engine.bridge.validatePayload (ActionBridge.genericPayload
      { action := "add_case_note", arguments }) = some (.addCaseNote "n" (by decide)) := h
  have hload : typedHost.engine.bridge.loadResource none none = .ret none := rfl
  simp only [ActionBridge.prepareGeneric, hload, hnone, hvalid, List.isEmpty_nil, if_true,
    Prog.bind_eq, Prog.bind_ret, Prog.ofExcept_ok]
  rfl

theorem proposes_note {arguments : Fields} {messageId : String}
    (h : ActionPayload.validate (ActionBridge.genericPayload
      { action := "add_case_note", arguments }) = some (.addCaseNote "n" (by decide))) :
    typedProposals.Proposes (noteWith arguments messageId)
    (noteWithRecord arguments messageId) := by
  refine ⟨_, [⟨.now, (0 : ℤ)⟩, ⟨.uuid, messageId⟩, ⟨.tx (.createProposal
    (noteWithRecord arguments messageId)), .ok ()⟩], rfl, ?_⟩
  change Follows ((typedHost.engine.bridge.prepareGeneric { action := "add_case_note", arguments } _
    _).bind _) _ _
  rw [prepareGeneric_note rfl h]
  exact .cons (.cons (.cons (.nil _)))

/-- The arguments of two messages are the same, and so is the key. -/
theorem proposals_share_key_notes :
    (noteWithRecord [("note", .str "n")] "m1").idempotencyKey =
      (noteWithRecord [("note", .str "n")] "m2").idempotencyKey :=
  (proposals_share_key_iff typedProposals (proposes_note rfl)
    (proposes_note rfl) (by decide) ⟨rfl, rfl, rfl⟩ rfl (fun _ => rfl)
    (fun _ => rfl)).2 rfl

/-- An argument that no model reads makes another key. -/
theorem proposals_keys_differ :
    ¬ ∀ request request' p p', typedProposals.Proposes request p →
      typedProposals.Proposes request' p' → request.action ≠ "issue_refund" →
      request.Alike request' → p.payload = p'.payload → p.idempotencyKey = p'.idempotencyKey := by
  intro h
  have heq :=
    h (noteWith [("note", .str "n")] "m1") (noteWith [("note", .str "n"), ("x", .null)] "m2")
    _ _ (proposes_note rfl) (proposes_note rfl) (by decide)
    ⟨rfl, rfl, rfl⟩ rfl
  exact absurd heq (by decide +kernel)

end

end WorkflowEngine
