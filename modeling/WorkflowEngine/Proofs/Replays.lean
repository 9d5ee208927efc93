import WorkflowEngine.Sanity.Alone

/-! A submission under a key that is already bound. It compares the request with the stored
action, and goes on with a dispatch of that action, in which the request has no part. -/

namespace WorkflowEngine

open Interleave Engine Relational SQLiteCoreStore

/-- The request asks for the stored action: an absent parameter of the request is `None`. -/
structure ConsequentialActionRequest.Repeats (request : ConsequentialActionRequest)
    (stored : ActionRecord) (db : Db) : Prop where
  caseId : stored.command.caseId = request.caseId
  action : stored.command.action = request.payload.action
  policyPackageId : stored.command.policyPackageId = request.policyPackageId
  parameters : if request.payload.action = "issue_refund" then
      ∀ kv ∈ stored.command.parameters,
        ((request.payload.dump.get? kv.1).getD .null).pyEq kv.2 = true
    else stored.command.parameters.pyEq request.payload.dump = true
  customer : ∃ case, db.case? stored.command.caseId = some case ∧
    case.customerId = request.customerId

/-- The operations of a replay, where `Q` are those outside. -/
def Op.replays {X : Sig} (Q : X.Op → Prop) (stored : ActionRecord) : Op X → Prop
  | .ext o => Q o
  | .dispatchCalled id command => id = stored.actionId ∧ command = stored.command
  | .dispatchReturned id _ => id = stored.actionId
  | .tx (.claimAction id) => id = stored.actionId
  | .tx (.getCase _) => True
  | .tx (.getAction _) => True
  | .tx (.transitionAction ..) => True
  | _ => False

section
variable {request : ConsequentialActionRequest} {stored : ActionRecord}

theorem replayMatches_eq_true :
    ConsequentialActionService.replayMatches request stored.command = true ↔
      stored.command.caseId = request.caseId ∧
      stored.command.action = request.payload.action ∧
      stored.command.policyPackageId = request.policyPackageId ∧
      (if request.payload.action = "issue_refund" then
        ∀ kv ∈ stored.command.parameters,
          ((request.payload.dump.get? kv.1).getD .null).pyEq kv.2 = true
      else stored.command.parameters.pyEq request.payload.dump = true) := by
  unfold ConsequentialActionService.replayMatches
  split_ifs <;> simp [and_assoc]

variable {X : Sig} {W : World X} {choices : ℕ → EngineChoice W}
  {service : ConsequentialActionService X}

/-- A replay that the code accepts is a dispatch of the stored action. -/
theorem alone_replay_accepted {s : ℕ × EngineState W} (h : request.Repeats stored s.2.db) :
    (service.replay request stored).alone (execAlone W choices) s =
      (service.gateway.dispatch stored).alone (execAlone W choices) (passed choices s) := by
  obtain ⟨case, hcase, hcustomer⟩ := h.customer
  have hmatches := replayMatches_eq_true.2 ⟨h.caseId, h.action, h.policyPackageId, h.parameters⟩
  unfold ConsequentialActionService.replay
  rw [hmatches]
  exact (alone_getCase hcase).trans (congrArg (fun p => Prog.alone _ p _)
    (if_neg (not_not.2 hcustomer)))

/-- And one that it refuses raises, and has only read. -/
theorem alone_replay_refused {s : ℕ × EngineState W} (h : ¬ request.Repeats stored s.2.db) :
    ∃ message k, (service.replay request stored).alone (execAlone W choices) s =
      (.error (.valueError message), (passed choices)^[k] s) := by
  unfold ConsequentialActionService.replay
  cases hmatches : ConsequentialActionService.replayMatches request stored.command with
  | false => exact ⟨_, 0, rfl⟩
  | true =>
    obtain ⟨h1, h2, h3, h4⟩ := replayMatches_eq_true.1 hmatches
    cases hcase : s.2.db.case? stored.command.caseId with
    | none => exact ⟨_, 1, alone_getCase hcase⟩
    | some case =>
      have hcustomer : case.customerId ≠ request.customerId := fun hc =>
        h ⟨h1, h2, h3, h4, case, hcase, hc⟩
      exact ⟨_, 1, (alone_getCase hcase).trans (congrArg (fun p => Prog.alone _ p _)
        (if_pos hcustomer))⟩

theorem issues_replays {Q : X.Op → Prop}
    (hpolicy : service.gateway.PolicyIssues (Op.replays Q stored))
    (hconnector : ∀ resolved, service.gateway.resolveConnector stored.command true = .ok resolved →
      (resolved.connector.dispatch stored.command).Issues Q) :
    (service.replay request stored).Issues (Op.replays Q stored) :=
  service.issues_replay request (fun _ => trivial) (service.gateway.issues_dispatch_of hpolicy
    hconnector rfl (fun _ => trivial) (fun _ _ _ _ => trivial) ⟨rfl, rfl⟩ fun _ => rfl)

end

section
variable {X : Sig} {W : World X} (service : ConsequentialActionService X)
  (request : ConsequentialActionRequest) (actorId : String) (stored : ActionRecord)

/-- A submission under the key of a stored action, when it is executed alone (the first three
fields) and in any surroundings. -/
structure ReplaySafe (choices : ℕ → EngineChoice W) (s : EngineState W) : Prop where
  moved : OnlyMoved s.db (alone W choices (service.submit request actorId) s).2.db
  refused : ¬ request.Repeats stored s.db →
    (∃ message, (alone W choices (service.submit request actorId) s).1 =
      .error (.valueError message)) ∧
    (alone W choices (service.submit request actorId) s).2.db = s.db
  accepted : request.Repeats stored s.db →
    (∃ t : ℕ × EngineState W, t.2.db = s.db ∧ t.2.ext = s.ext ∧
      alone W choices (service.submit request actorId) s =
        (((service.gateway.dispatch stored).alone (execAlone W choices) t).1,
          ((service.gateway.dispatch stored).alone (execAlone W choices) t).2.2)) ∧
    ∀ record, (alone W choices (service.submit request actorId) s).1 = .ok record →
      record.actionId = stored.actionId
  calls : ∀ Q : X.Op → Prop, service.gateway.PolicyIssues (Op.replays Q stored) →
    (∀ resolved, service.gateway.resolveConnector stored.command true = .ok resolved →
      (resolved.connector.dispatch stored.command).Issues Q) →
    ∀ xs q, Follows (service.submit request actorId)
      (⟨.tx (.getActionByKey request.idempotencyKey), some stored⟩ :: xs) q →
    ∀ x ∈ xs, Op.replays Q stored x.1

/-- Every request whose key is bound, in every state of the store. -/
theorem submit_replay_safe (choices : ℕ → EngineChoice W) (s : EngineState W)
    (h : s.db.actionByKey? request.idempotencyKey = some stored) :
    ReplaySafe service request actorId stored choices s := by
  have hsubmit : (service.submit request actorId).alone (execAlone W choices) (0, s) =
      (service.replay request stored).alone (execAlone W choices) (passed choices (0, s)) := by
    exact @alone_getActionByKey _ _ choices _ _ _ (0, s) _ h
  have halone : alone W choices (service.submit request actorId) s =
      (((service.replay request stored).alone (execAlone W choices) (passed choices (0, s))).1,
        ((service.replay request stored).alone (execAlone W choices)
          (passed choices (0, s))).2.2) := by
    unfold alone
    rw [hsubmit]
  have hcalls : ∀ Q : X.Op → Prop, service.gateway.PolicyIssues (Op.replays Q stored) →
      (∀ resolved, service.gateway.resolveConnector stored.command true = .ok resolved →
        (resolved.connector.dispatch stored.command).Issues Q) →
      ∀ xs q, Follows (service.submit request actorId)
        (⟨.tx (.getActionByKey request.idempotencyKey), some stored⟩ :: xs) q →
      ∀ x ∈ xs, Op.replays Q stored x.1 := by
    intro Q hpolicy hconnector xs q hfollows
    obtain ⟨found, ys, hxs, hrest⟩ := hfollows.of_perform List.mem_cons_self
    cases hxs
    exact (hrest.issues (issues_replays hpolicy hconnector)).1
  by_cases hrepeats : request.Repeats stored s.db
  · have hdispatch :=
      @alone_replay_accepted _ _ _ _ choices service (passed choices (0, s)) hrepeats
    rw [hdispatch] at halone
    refine ⟨?_, fun hnot => absurd hrepeats hnot, fun _ => ⟨⟨_, rfl, rfl, halone⟩, ?_⟩, hcalls⟩
    · rw [halone]
      exact (@alone_dispatches _ _ choices _ _ (service.gateway.issues_dispatch stored)
        (passed choices (passed choices (0, s)))).1
    · intro record hrecord
      rw [halone] at hrecord
      exact Prog.alone_yields (fun s o => Op.ownRow_exec (choices s.1) s.2 o)
        (service.gateway.dispatch_yields_own stored) hrecord
  · obtain ⟨message, k, hraised⟩ :=
      @alone_replay_refused _ _ _ _ choices service (passed choices (0, s)) hrepeats
    rw [hraised] at halone
    have hdb : (alone W choices (service.submit request actorId) s).2.db = s.db := by
      rw [halone]
      exact (passed_iterate choices k (passed choices (0, s))).1
    refine ⟨?_, fun _ => ⟨⟨message, by rw [halone]⟩, hdb⟩, fun h => absurd h hrepeats, hcalls⟩
    rw [hdb]
    exact .refl _

end

def repeatedRequest : ConsequentialActionRequest where
  caseId := "C-1"
  customerId := "U-1"
  procedureId := "proc"
  procedureVersion := "1"
  policyPackageId := "P-1"
  idempotencyKey := "key-1"
  payload := .addCaseNote "n" (by decide)
  keyMin := by decide
  keyMax := by decide

def storedNote : ActionRecord :=
  newAction (ConsequentialActionService.command repeatedRequest "agent" []) "1" 0

/-- A store with the case and the action. -/
def notedStore : EngineState World.isolated :=
  (alone World.isolated (fun _ => ⟨toString, 0, ()⟩) (do
    SQLiteCoreStore.createCase ⟨"C-1", "U-1", "proc", "1", "active", 0⟩
    insertAction storedNote 0) ⟨.empty, 0, ()⟩).2

theorem note_replayed : ReplaySafe Engine.isolated.service repeatedRequest "other" storedNote
    (fun _ => ⟨toString, 0, ()⟩) notedStore :=
  submit_replay_safe Engine.isolated.service repeatedRequest "other" storedNote _ notedStore
    (by rfl)

end WorkflowEngine
