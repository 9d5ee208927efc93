import WorkflowEngine.Interleave.Trail
import WorkflowEngine.Sanity.Inbox
import WorkflowEngine.Spec.Channels

/-! The turn pipeline over all schedules. The inbox is decided by the deliveries alone, in the
order of their transactions. A turn goes on to its processor only if its own delivery was
accepted, so that what is accepted once is processed once. -/

namespace WorkflowEngine

open Interleave SQLiteCoreStore InOrder

abbrev TurnEvent := Event conversationSig

namespace TurnEvent

def receipt? : TurnEvent → Option Receipt
  | ⟨.accept envelope, answer⟩ => some ⟨envelope, answer⟩
  | _ => none

def invokes : TurnEvent → Bool
  | ⟨.invoke .., _⟩ => true
  | _ => false

end TurnEvent

/-- The processor is given the message of the envelope. -/
structure Concerns (context : TurnContext) (text : String) (e : MessageEnvelope) : Prop where
  messageId : context.messageId = e.messageId
  conversationId : context.conversationId = e.conversationId
  customerId : context.customerId = e.customerId
  text : text = e.text

/-- How far a turn has come, after its identifiers are drawn. -/
inductive Stage {α : Type} : List TurnEvent → TurnTask α → Prop where
  | before {u : List TurnEvent} {q : TurnTask α} (hu : ∀ x ∈ u, x.1 = .uuid) : Stage u q
  | suppressed {u : List TurnEvent} {q : TurnTask α} {e : MessageEnvelope}
    {r : Except PyErr MessageAcceptance} (hu : ∀ x ∈ u, x.1 = .uuid)
    (hr : (⟨e, r⟩ : Receipt).accepted = false) (hq : ∀ o k, q ≠ .call o k) :
    Stage (u ++ [⟨.accept e, r⟩]) q
  | accepted {u : List TurnEvent} {e : MessageEnvelope} {r : Except PyErr MessageAcceptance}
    {context : TurnContext} {text : String} {k : Unit → TurnTask α} (hu : ∀ x ∈ u, x.1 = .uuid)
    (hr : (⟨e, r⟩ : Receipt).accepted = true) :
    Stage (u ++ [⟨.accept e, r⟩]) (.call (.invoke context text) k)
  | running {u : List TurnEvent} {e : MessageEnvelope} {r : Except PyErr MessageAcceptance}
    {context : TurnContext} {text : String} {k : Except PyErr GeneratedTurn → TurnTask α}
    (hu : ∀ x ∈ u, x.1 = .uuid) (hr : (⟨e, r⟩ : Receipt).accepted = true)
    (hc : Concerns context text e) :
    Stage (u ++ [⟨.accept e, r⟩, ⟨.invoke context text, ()⟩]) (.call .generated k)
  | processed {u : List TurnEvent} {q : TurnTask α} {e : MessageEnvelope}
    {r : Except PyErr MessageAcceptance} {context : TurnContext} {text : String}
    {g : Except PyErr GeneratedTurn} (hu : ∀ x ∈ u, x.1 = .uuid)
    (hr : (⟨e, r⟩ : Receipt).accepted = true) (hc : Concerns context text e)
    (hq : ∀ o k, q ≠ .call o k) :
    Stage (u ++ [⟨.accept e, r⟩, ⟨.invoke context text, ()⟩, ⟨.generated, g⟩]) q

/-- Every path of the program is a turn. -/
def Staged {α : Type} (p : TurnTask α) : Prop := ∀ xs q, Follows p xs q → Stage xs q

section
variable {α β : Type}

theorem Stage.prepend {us xs : List TurnEvent} {q : TurnTask α} (hu : ∀ x ∈ us, x.1 = .uuid)
    (h : Stage xs q) : Stage (us ++ xs) q := by
  have hboth : ∀ {vs : List TurnEvent}, (∀ x ∈ vs, x.1 = .uuid) → ∀ x ∈ us ++ vs, x.1 = .uuid := by
    intro vs hv x hx
    rcases List.mem_append.1 hx with hx | hx
    · exact hu x hx
    · exact hv x hx
  cases h with
  | before hv => exact .before (hboth hv)
  | suppressed hv hr hq =>
    rw [← List.append_assoc]
    exact .suppressed (hboth hv) hr hq
  | accepted hv hr =>
    rw [← List.append_assoc]
    exact .accepted (hboth hv) hr
  | running hv hr hc =>
    rw [← List.append_assoc]
    exact .running (hboth hv) hr hc
  | processed hv hr hc hq =>
    rw [← List.append_assoc]
    exact .processed (hboth hv) hr hc hq

/-- Identifiers are drawn before a turn. -/
theorem Staged.prelude {p : TurnTask β} {f : β → TurnTask α}
    (hp : p.Issues fun o : ConversationOp => o = .uuid)
    (hf : ∀ a, Staged (f a)) : Staged (p.bind f) := by
  intro xs q h
  rcases h.of_bind with ⟨p', hp', -⟩ | ⟨ys, zs, a, rfl, hy, hz⟩
  · exact .before (hp'.issues hp).1
  · exact (hf a zs q hz).prepend (hy.issues hp).1

/-- What is made of a turn's result. -/
theorem Staged.map {p : TurnTask β} (hp : Staged p) (f : β → α) :
    Staged (p.bind fun a => .ret (f a)) := by
  intro xs q h
  rcases h.of_bind with ⟨p', hp', rfl⟩ | ⟨ys, zs, a, rfl, hy, hz⟩
  · have hover : (∀ o k, p' ≠ .call o k) → ∀ o k, (p'.bind fun a => .ret (f a)) ≠ .call o k := by
      intro hq o k
      cases p' with
      | call o' k' => exact absurd rfl (hq o' k')
      | ret a => simp
      | raise e => simp
    cases hp xs p' hp' with
    | before hu => exact .before hu
    | suppressed hu hr hq => exact .suppressed hu hr (hover hq)
    | accepted hu hr => exact .accepted hu hr
    | running hu hr hc => exact .running hu hr hc
    | processed hu hr hc hq => exact .processed hu hr hc (hover hq)
  · obtain ⟨rfl, rfl⟩ := hz.of_ret
    rw [List.append_nil]
    cases hy' : (Prog.ret a : TurnTask β) <;> cases hp ys _ hy with
    | before hu => exact .before hu
    | suppressed hu hr hq => exact .suppressed hu hr (by simp)
    | processed hu hr hc hq => exact .processed hu hr hc (by simp)

end

namespace ConversationService

theorem processTurn_eq (envelope : MessageEnvelope) (actor : TurnActor) :
    processTurn envelope actor = .call (.accept envelope) fun r => match r with
      | .error e => .raise (.raised e)
      | .ok acceptance => if acceptance.accepted then
          .call (.invoke (context envelope actor) envelope.text) fun _ => .call .generated fun g =>
            match g with
            | .error e => .raise (.raised e)
            | .ok generated => .ret (respond envelope generated)
        else .ret (suppressed envelope acceptance) := by
  refine congrArg (Prog.call (S := conversationSig) (.accept envelope)) (funext fun r => ?_)
  cases r with
  | error e => rfl
  | ok acceptance =>
    change (if (!acceptance.accepted) = true then Prog.ret (suppressed envelope acceptance)
      else (processor (context envelope actor) envelope.text).bind fun generated =>
        .ret (respond envelope generated)) = _
    cases ha : acceptance.accepted with
    | false => simp [ha]
    | true =>
      simp only [ha, if_true, Bool.not_true, Bool.false_eq_true, if_false]
      refine congrArg (Prog.call (S := conversationSig) _) (funext fun _ => ?_)
      refine congrArg (Prog.call (S := conversationSig) _) (funext fun g => ?_)
      cases g <;> rfl

theorem staged_processTurn (envelope : MessageEnvelope) (actor : TurnActor) :
    Staged (processTurn envelope actor) := by
  intro xs q h
  rw [processTurn_eq] at h
  cases h with
  | nil => exact .before (by simp)
  | @cons _ _ r xs _ h =>
    cases r with
    | error e =>
      obtain ⟨rfl, rfl⟩ := h.of_raise
      exact .suppressed (u := []) (by simp) rfl (by simp)
    | ok acceptance =>
      cases ha : acceptance.accepted with
      | false =>
        simp only [ha, Bool.false_eq_true, if_false] at h
        obtain ⟨rfl, rfl⟩ := h.of_ret
        exact .suppressed (u := []) (by simp) ha (by simp)
      | true =>
        simp only [ha, if_true] at h
        cases h with
        | nil => exact .accepted (u := []) (by simp) ha
        | cons h =>
          have hc : Concerns (context envelope actor) envelope.text envelope := ⟨rfl, rfl, rfl, rfl⟩
          cases h with
          | nil => exact .running (u := []) (by simp) ha hc
          | @cons _ _ g xs _ h =>
            cases g with
            | error e =>
              obtain ⟨rfl, rfl⟩ := h.of_raise
              exact .processed (u := []) (by simp) ha hc (by simp)
            | ok generated =>
              obtain ⟨rfl, rfl⟩ := h.of_ret
              exact .processed (u := []) (by simp) ha hc (by simp)

end ConversationService

theorem staged_body (guard : JurisdictionGuard) (call : ConversationCall) :
    Staged (call.body guard) := by
  have huuid : (TurnTask.uuid).Issues fun o : ConversationOp => o = .uuid :=
    (Prog.issues_perform (S := conversationSig) _).2 rfl
  have horElse : ∀ (value : Option String) (p : TurnTask String),
      p.Issues (fun o : ConversationOp => o = .uuid) →
      (TurnTask.orElse value p).Issues fun o : ConversationOp => o = .uuid := by
    intro value p hp
    unfold TurnTask.orElse
    split
    · trivial
    · exact hp
  cases call with
  | turn envelope actor => exact (ConversationService.staged_processTurn envelope actor).map _
  | chat request actor =>
    refine Staged.map ?_ _
    unfold chatV1
    refine Staged.prelude (Prog.issues_ofExcept _) fun customer => ?_
    refine Staged.prelude (horElse _ _ (Prog.issues_bind huuid fun _ => trivial)) fun sessionId =>
      ?_
    refine Staged.prelude (horElse _ _ (Prog.issues_bind huuid fun _ => trivial)) fun messageId =>
      ?_
    refine Staged.prelude huuid fun correlationId => ?_
    have hret : ∀ (result : TurnResult) (a b : ChatResponse),
        (if result.duplicate = true then (Prog.ret a : TurnTask ChatResponse) else .ret b) =
          .ret (if result.duplicate = true then a else b) := by
      intro result a b
      split_ifs <;> rfl
    simp only [Prog.bind_eq, Prog.pure_eq, hret]
    exact (ConversationService.staged_processTurn _ _).map _
  | conversationTurn request actor =>
    refine Staged.map ?_ _
    unfold processConversationTurn
    refine Staged.prelude (Prog.issues_ofExcept _) fun customer => ?_
    split_ifs
    · refine Staged.prelude (Prog.issues_ofExcept _) fun _ => ?_
      refine Staged.prelude (Prog.issues_ofExcept _) fun _ => ?_
      refine Staged.prelude (Prog.issues_ofExcept _) fun capabilities => ?_
      exact Staged.prelude huuid fun _ => ConversationService.staged_processTurn _ _
    · refine Staged.prelude (Prog.issues_ofExcept _) fun _ => ?_
      refine Staged.prelude (Prog.issues_ofExcept _) fun capabilities => ?_
      exact Staged.prelude huuid fun _ => ConversationService.staged_processTurn _ _

/-- What can be told from the operations of a turn. -/
structure Course {α : Type} (xs : List TurnEvent) (q : TurnTask α) : Prop where
  once : (xs.filterMap TurnEvent.receipt?).length ≤ 1
  invoked : ∀ context text, (⟨.invoke context text, ()⟩ : TurnEvent) ∈ xs →
    ∃ x ∈ xs.filterMap TurnEvent.receipt?, x.accepted = true ∧ Concerns context text x.envelope
  single : xs.Pairwise fun x y => x.invokes = true → y.invokes = false
  ended : ∀ x ∈ xs.filterMap TurnEvent.receipt?, x.accepted = true →
    (∃ o k, q = .call o k) ∨ ∃ g, (⟨.generated, g⟩ : TurnEvent) ∈ xs
  closed : ∀ g, (⟨.generated, g⟩ : TurnEvent) ∈ xs → (∀ o k, q ≠ .call o k) ∧
    ∀ g', (⟨.generated, g'⟩ : TurnEvent) ∈ xs → g' = g

/-- The identifiers that are drawn first do not matter. -/
theorem Course.prepend {α : Type} {us xs : List TurnEvent} {q : TurnTask α}
    (hu : ∀ x ∈ us, x.1 = .uuid) (h : Course xs q) : Course (us ++ xs) q := by
  have huuid : ∀ x ∈ us, x.receipt? = none ∧ x.invokes = false := by
    rintro ⟨o, r⟩ hx
    obtain rfl : o = .uuid := hu _ hx
    exact ⟨rfl, rfl⟩
  have hreceipts : (us ++ xs).filterMap TurnEvent.receipt? = xs.filterMap TurnEvent.receipt? := by
    rw [List.filterMap_append, List.filterMap_eq_nil_iff.2 fun x hx => (huuid x hx).1,
      List.nil_append]
  have hgenerated : ∀ g, (⟨.generated, g⟩ : TurnEvent) ∈ us ++ xs →
      (⟨.generated, g⟩ : TurnEvent) ∈ xs := by
    intro g hg
    refine (List.mem_append.1 hg).resolve_left fun hin => ?_
    cases hu _ hin
  refine ⟨hreceipts ▸ h.once, fun context text hm => ?_, ?_, fun x hx ha => ?_, fun g hg => ?_⟩
  · rw [hreceipts]
    rcases List.mem_append.1 hm with hm | hm
    · cases (huuid _ hm).2
    · exact h.invoked context text hm
  · refine List.pairwise_append.2 ⟨List.pairwise_of_forall_mem_list ?_, h.single, ?_⟩
    · intro x hx y hy _
      exact (huuid y hy).2
    · intro x hx y _ hxi
      rw [(huuid x hx).2] at hxi
      cases hxi
  · rw [hreceipts] at hx
    rcases h.ended x hx ha with hq | ⟨g, hg⟩
    · exact Or.inl hq
    · exact Or.inr ⟨g, List.mem_append_right _ hg⟩
  · obtain ⟨hq, hone⟩ := h.closed g (hgenerated g hg)
    exact ⟨hq, fun g' hg' => hone g' (hgenerated g' hg')⟩

theorem Stage.course {α : Type} {xs : List TurnEvent} {q : TurnTask α} (h : Stage xs q) :
    Course xs q := by
  cases h with
  | before hu =>
    rw [← List.append_nil xs]
    exact Course.prepend hu ⟨by simp, by simp, .nil, by simp, by simp⟩
  | suppressed hu hr hq =>
    refine Course.prepend hu ⟨by simp [TurnEvent.receipt?], by simp, List.pairwise_singleton _ _,
      ?_, by simp⟩
    simp [TurnEvent.receipt?, hr]
  | accepted hu hr =>
    refine Course.prepend hu ⟨by simp [TurnEvent.receipt?], by simp, List.pairwise_singleton _ _,
      ?_, by simp⟩
    exact fun _ _ _ => Or.inl ⟨_, _, rfl⟩
  | running hu hr hc =>
    refine Course.prepend hu ⟨by simp [TurnEvent.receipt?], ?_, by simp [TurnEvent.invokes],
      fun _ _ _ => Or.inl ⟨_, _, rfl⟩, by simp⟩
    intro context text hm
    obtain ⟨rfl, rfl⟩ : context = _ ∧ text = _ := by simpa using hm
    exact ⟨_, by simp [TurnEvent.receipt?], hr, hc⟩
  | processed hu hr hc hq =>
    refine Course.prepend hu ⟨by simp [TurnEvent.receipt?], ?_, by simp [TurnEvent.invokes],
      fun _ _ _ => Or.inr ⟨_, by simp; rfl⟩, fun g hg => ⟨hq, fun g' hg' => ?_⟩⟩
    · intro context text hm
      obtain ⟨rfl, rfl⟩ : context = _ ∧ text = _ := by simpa using hm
      exact ⟨_, by simp [TurnEvent.receipt?], hr, hc⟩
    · simp only [List.mem_cons, List.not_mem_nil, or_false] at hg hg'
      rcases hg with heq | heq | heq <;> cases heq
      rcases hg' with heq | heq | heq <;> cases heq
      rfl

namespace TurnLog

/-- The deliveries in the order of their transactions. -/
def receipts (h : TurnLog) : List Receipt := h.trace.filterMap fun x => TurnEvent.receipt? x.event

/-- The receipts of one task. -/
def ownReceipts (h : TurnLog) (τ : ℕ) : List Receipt :=
  ((h.own τ).map Entry.event).filterMap TurnEvent.receipt?

/-- The envelope that a task has presented. -/
def presented (h : TurnLog) (τ : ℕ) : Option MessageEnvelope :=
  (h.ownReceipts τ).head?.map (·.envelope)

/-- The key of the message for which a processor was started. -/
def invoked? (h : TurnLog) (x : Entry conversationSig) : Option (String × String) :=
  if TurnEvent.invokes x.event then (h.presented x.tid).map (·.key) else none

/-- The messages for which a processor was started. -/
def invoked (h : TurnLog) : List (String × String) := h.trace.filterMap h.invoked?

end TurnLog

section
variable {guard : JurisdictionGuard} {admits : ConversationCall → Bool}

open TurnLog

/-- The inbox is what the deliveries of the run make of it. -/
theorem ledger_run (acts : List (conversationSystem guard admits).Move) :
    Inbox.Ledger (turnHistory guard admits acts).state
      (acceptedOf (turnHistory guard admits acts).receipts) := by
  refine System.run_induction (G := fun _ _ => True)
    (J := fun c => Inbox.Ledger c.hist.state (acceptedOf (receipts c.hist))) ?_
    (fun acts a hl _ => ?_) acts (System.guarded_true _ _)
  · exact Inbox.ledger_empty
  rcases System.next_cases _ a with h | ⟨call, -, -, h⟩ | ⟨τ, e, o, k, -, hr, h⟩ | ⟨τ, -, h⟩ |
      ⟨e, -, h⟩ <;> rw [h]
  · exact hl
  · exact hl
  · unfold receipts at hl ⊢
    simp only [System.after, List.filterMap_append]
    cases o with
    | accept envelope =>
      rw [Inbox.acceptedOf_append]
      exact hl.step (Inbox.accept_outcome e.now _ envelope)
    | invoke context text => simpa [Entry.event, TurnEvent.receipt?, Inbox.exec] using hl
    | generated => simpa [Entry.event, TurnEvent.receipt?, Inbox.exec] using hl
    | uuid => simpa [Entry.event, TurnEvent.receipt?, Inbox.exec] using hl
  · exact hl
  · exact hl

theorem course_run (acts : List (conversationSystem guard admits).Move) {τ : ℕ}
    {p : TurnTask TurnReply}
    (hp : ((conversationSystem guard admits).run
      ((conversationSystem guard admits).init .empty) acts).tasks[τ]? = some p) :
    Course (((turnHistory guard admits acts).own τ).map Entry.event) p := by
  obtain ⟨call, -, hf⟩ :=
    @System.follows_run _ _ _ (conversationSystem guard admits) .empty acts τ p hp
  exact (staged_body guard call _ _ hf).course

theorem course_of_mem (acts : List (conversationSystem guard admits).Move)
    {x : Entry conversationSig} (hx : x ∈ (turnHistory guard admits acts).trace) :
    ∃ p, ((conversationSystem guard admits).run
        ((conversationSystem guard admits).init .empty) acts).tasks[x.tid]? = some p ∧
      Course (((turnHistory guard admits acts).own x.tid).map Entry.event) p := by
  obtain ⟨p, hp⟩ := @System.task_of_mem _ _ _ (conversationSystem guard admits) .empty acts x hx
  exact ⟨p, hp, course_run acts hp⟩

theorem mem_own {h : TurnLog} {x : Entry conversationSig} (hx : x ∈ h.trace) : x ∈ h.own x.tid :=
  List.mem_filter.2 ⟨hx, by simp⟩

theorem mem_ownReceipts {h : TurnLog} {τ : ℕ} {receipt : Receipt} :
    receipt ∈ h.ownReceipts τ ↔
      (⟨τ, .accept receipt.envelope, receipt.answer⟩ : Entry conversationSig) ∈ h.trace := by
  unfold ownReceipts
  rw [List.mem_filterMap]
  constructor
  · rintro ⟨y, hy, hr⟩
    obtain ⟨x, hx, rfl⟩ := List.mem_map.1 hy
    obtain ⟨t, o, r⟩ := x
    obtain ⟨hm, ht⟩ := List.mem_filter.1 hx
    obtain rfl : t = τ := by simpa using ht
    cases o with
    | accept e =>
      cases hr
      exact hm
    | _ => cases hr
  · intro hx
    exact ⟨_, List.mem_map.2 ⟨_, mem_own hx, rfl⟩, rfl⟩

/-- The delivery by which a turn has come to its processor. -/
theorem receipt_of_invoke (acts : List (conversationSystem guard admits).Move) {τ : ℕ}
    {context : TurnContext} {text : String}
    (hx : (⟨τ, .invoke context text, ()⟩ : Entry conversationSig) ∈
      (turnHistory guard admits acts).trace) :
    ∃ receipt : Receipt, (turnHistory guard admits acts).ownReceipts τ = [receipt] ∧
      receipt.accepted = true ∧ Concerns context text receipt.envelope := by
  obtain ⟨p, -, hc⟩ := course_of_mem acts hx
  obtain ⟨receipt, hr, ha, hcon⟩ := hc.invoked context text (List.mem_map.2 ⟨_, mem_own hx, rfl⟩)
  refine ⟨receipt, ?_, ha, hcon⟩
  have hone := hc.once
  change receipt ∈ ownReceipts _ _ at hr
  change (ownReceipts _ _).length ≤ 1 at hone
  cases hl : ownReceipts (turnHistory guard admits acts) τ with
  | nil =>
    rw [hl] at hr
    cases hr
  | cons r rest =>
    rw [hl] at hr hone
    obtain rfl : rest = [] := List.eq_nil_of_length_eq_zero (by simpa using hone)
    rw [List.mem_singleton.1 hr]

/-- Two tasks whose deliveries of one message were accepted are the same task. -/
theorem eq_of_accepted (acts : List (conversationSystem guard admits).Move) {τ τ' : ℕ}
    {a b : Receipt} (ha : a ∈ (turnHistory guard admits acts).ownReceipts τ)
    (hb : b ∈ (turnHistory guard admits acts).ownReceipts τ') (haa : a.accepted = true)
    (hba : b.accepted = true) (hk : a.envelope.key = b.envelope.key) : τ = τ' := by
  have hnd : ((turnHistory guard admits acts).trace.filterMap fun x =>
      ((TurnEvent.receipt? x.event).filter (·.accepted)).map (·.envelope.key)).Nodup := by
    have := (ledger_run acts).once
    rw [acceptedOf, receipts, List.filter_filterMap, List.map_filterMap, List.map_filterMap] at this
    simp only [Option.map_map] at this
    exact this
  have h := Relational.eq_of_nodup_filterMap hnd (mem_ownReceipts.1 ha) (mem_ownReceipts.1 hb)
    (v := a.envelope.key) (by simp [Entry.event, TurnEvent.receipt?, haa])
    (by simp [Entry.event, TurnEvent.receipt?, hba, hk])
  exact congrArg Entry.tid h

theorem receipt_of_invoked (acts : List (conversationSystem guard admits).Move)
    {x : Entry conversationSig} (hx : x ∈ (turnHistory guard admits acts).trace)
    {k : String × String} (hk : (turnHistory guard admits acts).invoked? x = some k) :
    TurnEvent.invokes x.event = true ∧ ∃ receipt : Receipt,
      (turnHistory guard admits acts).ownReceipts x.tid = [receipt] ∧ receipt.accepted = true ∧
      receipt.envelope.key = k := by
  unfold invoked? at hk
  split_ifs at hk with hi
  obtain ⟨t, o, r⟩ := x
  cases o with
  | invoke context text =>
    obtain ⟨receipt, hr, ha, -⟩ := receipt_of_invoke acts hx
    refine ⟨hi, receipt, hr, ha, ?_⟩
    simpa [presented, hr] using hk
  | _ => cases hi

/-- No two turns, and no turn twice, come to a processor for one message. -/
theorem nodup_invoked (acts : List (conversationSystem guard admits).Move) :
    (turnHistory guard admits acts).invoked.Nodup := by
  refine List.pairwise_filterMap.2 (List.pairwise_iff_forall_sublist.2 ?_)
  rintro x y hsub k hx k' hy rfl
  obtain ⟨hxm, hym⟩ : x ∈ (turnHistory guard admits acts).trace ∧
      y ∈ (turnHistory guard admits acts).trace := ⟨hsub.subset (by simp), hsub.subset (by simp)⟩
  obtain ⟨hxi, a, ha, haa, hak⟩ := receipt_of_invoked acts hxm hx
  obtain ⟨hyi, b, hb, hba, hbk⟩ := receipt_of_invoked acts hym hy
  have ht : x.tid = y.tid :=
    eq_of_accepted acts (a := a) (b := b) (by simp [ha]) (by simp [hb]) haa hba (hak.trans hbk.symm)
  obtain ⟨p, -, hc⟩ := course_of_mem acts hxm
  have hown :
      [x.event, y.event].Sublist (((turnHistory guard admits acts).own x.tid).map Entry.event) := by
    have h := (hsub.filter fun z => z.tid = x.tid).map Entry.event
    simpa [Hist.own, ht] using h
  have := List.pairwise_iff_forall_sublist.1 hc.single hown hxi
  rw [hyi] at this
  cases this

end

/-- Over any schedule, the numbers that a conversation accepts are consecutive up to its last
one, every message is accepted once and processed once, and a processor starts only in a turn
whose one delivery was accepted, with the message of that delivery. -/
theorem turns_ordered_once (guard : JurisdictionGuard) (admits : ConversationCall → Bool)
    (acts : List (conversationSystem guard admits).Move) :
    let h := turnHistory guard admits acts
    (∀ c, Consecutive (sequencesOf c (acceptedOf h.receipts)) ∧
      h.state.lastSequence? c = (sequencesOf c (acceptedOf h.receipts)).getLast?) ∧
    ((acceptedOf h.receipts).map (·.key)).Nodup ∧
    h.invoked.Nodup ∧
    ∀ τ context text, (⟨τ, .invoke context text, ()⟩ : Entry conversationSig) ∈ h.trace →
      ∃ receipt : Receipt, h.ownReceipts τ = [receipt] ∧ receipt.accepted = true ∧
        Concerns context text receipt.envelope := by
  intro h
  have hl := ledger_run acts
  refine ⟨fun c => ⟨hl.chain c, hl.last c⟩, hl.once, nodup_invoked acts, ?_⟩
  intro τ context text hx
  exact receipt_of_invoke acts hx

end WorkflowEngine
