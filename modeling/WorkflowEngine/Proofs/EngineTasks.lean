import WorkflowEngine.Proofs.ActionTasks

/-! The proposal programs in the logic of the action plane, and its soundness: under
a lawful contract every run keeps the invariant, whatever calls are admitted. -/

namespace WorkflowEngine

open Interleave Engine Relational SQLiteCoreStore

variable {X : Sig} {W : World X} {K : Contract W} {engine : Engine X} {admits : Admission X W}
  {h : Log W} {τ : ℕ}

/-- A decision on a proposal needs no justification. -/
theorem plain_of_decides {α : Type} {p : Task X α} (hp : p.Issues Op.decides) :
    p.Issues (Plain K) := by
  refine hp.mono fun o h => ?_
  cases o with
  | tx o =>
    cases o with
    | getProposal => trivial
    | getActionByKey => trivial
    | transitionProposal => exact h
    | _ => exact absurd h id
  | now => trivial
  | _ => exact absurd h id

section
variable (hK : K.Lawful engine admits)
include hK

theorem issues_verifyResourceVersion (proposal : ActionProposal) :
    (engine.bridge.verifyResourceVersion proposal).Issues (Plain K) := by
  simp only [ActionBridge.verifyResourceVersion, Prog.bind_eq, Prog.throw_eq, Prog.pure_eq]
  split_ifs
  · trivial
  · refine Prog.issues_bind ?_ fun found => ?_
    · unfold ActionBridge.loadResource
      split
      · trivial
      · refine Prog.issues_bind (Prog.issues_lift (hK.resources _ _)) fun found => ?_
        cases found <;> trivial
      · trivial
    · cases found with
      | none => trivial
      | some resource =>
        dsimp only
        split_ifs <;> trivial

theorem wp_submitPending {proposal : ActionProposal} {context : ActionConfirmationContext} :
    (K.logic engine admits).wp τ (engine.bridge.submitPending proposal context)
      (fun _ _ => True) h := by
  have hL := hK.stepwise
  refine hL.wp_seq (wp_plain hK (issues_verifyResourceVersion hK _)) (fun _ h1 _ _ => ?_)
    fun _ _ _ _ => trivial
  refine hL.wp_seq (wp_plain hK (Prog.issues_ofExcept _)) (fun _ h2 _ _ => ?_)
    fun _ _ _ _ => trivial
  refine hL.wp_seq (wp_plain hK (Prog.issues_ofExcept _)) (fun request h3 _ _ => ?_)
    fun _ _ _ _ => trivial
  refine hL.wp_seq (wp_submit hK) (fun action h4 _ _ => ?_) fun _ _ _ _ => trivial
  exact wp_plain hK (plain_of_decides (ActionBridge.issues_recordConfirmed ..))

theorem wp_confirm {proposalId : String} {context : ActionConfirmationContext} :
    (K.logic engine admits).wp τ (engine.bridge.confirm proposalId context)
      (fun _ _ => True) h := by
  have hL := hK.stepwise
  refine hL.wp_seq (wp_plain hK (plain_of_decides (ActionBridge.issues_getOwned ..)))
    (fun proposal h1 _ _ => ?_)
    fun _ _ _ _ => trivial
  split
  · trivial
  · refine hL.wp_seq (wp_plain hK (plain_of_decides (ActionBridge.issues_expired _)))
      (fun late h2 _ _ => ?_)
      fun _ _ _ _ => trivial
    cases late with
    | true => exact wp_plain hK (plain_of_decides (ActionBridge.issues_transitionOrCurrent ..))
    | false => exact wp_submitPending hK
  · trivial

end

/-- What the logic asks of a call: records belong to stored actions, an outcome recorded by
hand is justified by the contract, a single transaction or an adapter call is plain. -/
def Admissible (K : Contract W) (h : Log W) : Call X → Prop
  | .dispatch a => Genuine h.state.db a
  | .reconcile a => Genuine h.state.db a
  | .recordOutcome id status _ => ∀ τ h', K.Justified τ id status h'
  | .transaction o => Plain K (.tx o)
  | .outside p => p.Issues K.Free
  | _ => True

/-- A program whose answer is wrapped into the reply of its call. -/
private theorem wp_reply {α : Type} {L : Logic (engine.system W admits)} {p : Task X α}
    {f : α → Reply} (hp : L.wp τ p (fun _ _ => True) h) :
    L.wp τ (p.bind fun a => .ret (f a)) (fun _ _ => True) h := by
  refine Logic.wp_bind.2 (Logic.wp_mono (fun r h' _ => ?_) hp)
  cases r <;> trivial

theorem wp_body (hK : K.Lawful engine admits) {call : Call X} (ha : Admissible K h call) :
    (K.logic engine admits).wp τ (engine.body call) (fun _ _ => True) h := by
  cases call with
  | initializeStore =>
    refine wp_plain hK (Prog.issues_bind ?_ fun _ => trivial)
    exact Prog.issues_bind ((Prog.issues_perform _).2 trivial) fun _ => Prog.issues_ofExcept _
  | submit request actorId => exact wp_reply (wp_submit hK)
  | authorize command v =>
    exact wp_reply (Logic.wp_mono (fun _ _ _ => trivial) (wp_authorize hK))
  | authorizeAction command v =>
    exact wp_reply (Logic.wp_mono (fun _ _ _ => trivial) (wp_authorizeAction hK))
  | markDispatched id =>
    refine wp_reply (f := Reply.action) ?_
    refine Logic.wp_bind.2 (Logic.wp_mono (fun r h' _ => ?_) wp_claimAction)
    cases r <;> trivial
  | recordOutcome id status outcome =>
    exact wp_reply (Logic.wp_mono (fun _ _ _ => trivial) (wp_recordOutcome hK (ha _ _)))
  | dispatch a => exact wp_reply (Logic.wp_mono (fun _ _ _ => trivial) (wp_dispatch hK ha))
  | reconcile a => exact wp_reply (wp_reconcile hK ha)
  | deliver owner leaseSeconds maxAttempts limit => exact wp_reply (wp_deliveryRun hK rfl limit)
  | sweep staleSeconds limit => exact wp_reply (wp_reconciliationRun hK rfl limit)
  | confirm proposalId context => exact wp_reply (wp_confirm hK)
  | cancel proposalId context =>
    exact wp_reply (wp_plain hK (plain_of_decides (ActionBridge.issues_cancel ..)))
  | status proposalId customerId actorId =>
    exact wp_reply (wp_plain hK (plain_of_decides (ActionBridge.issues_status ..)))
  | enqueue topic aggregateId payload =>
    refine wp_plain hK (Prog.issues_bind ?_ fun _ => trivial)
    refine Prog.issues_bind ((Prog.issues_perform _).2 trivial) fun now => ?_
    refine Prog.issues_bind ((Prog.issues_perform _).2 trivial) fun hex => ?_
    refine Prog.issues_bind ?_ fun _ => trivial
    exact Prog.issues_bind ((Prog.issues_perform _).2 rfl) fun _ => Prog.issues_ofExcept _
  | transaction o =>
    exact wp_plain hK (Prog.issues_bind ((Prog.issues_perform _).2 ha) fun _ => trivial)
  | outside p => exact wp_plain hK (Prog.issues_bind (Prog.issues_lift ha) fun _ => trivial)

theorem Contract.Lawful.sound (hK : K.Lawful engine admits)
    (ha : ∀ h call, admits h call = true → Admissible K h call) :
    (K.logic engine admits).Sound where
  toStepwise := hK.stepwise
  spawn h call hi _ := by
    obtain ⟨hk, hr⟩ := hK.spawn h call hi.2
    exact ⟨⟨hi.1.congr rfl rfl, hk⟩, later_spawned h call, hr⟩
  crash h τ hi := by
    obtain ⟨hk, hr⟩ := hK.crash h τ hi.2
    exact ⟨⟨hi.1.congr rfl rfl, hk⟩, later_lost h τ, hr⟩
  drift h e hi := by
    obtain ⟨hk, hr⟩ := hK.drift h e hi.2
    exact ⟨⟨hi.1.congr rfl rfl, hk⟩, later_drifted h e, hr⟩
  body h call _ hc _ := wp_body hK (by cases call <;> exact ha h _ hc)

end WorkflowEngine
