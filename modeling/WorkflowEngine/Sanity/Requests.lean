import WorkflowEngine.Sanity.Keys
import WorkflowEngine.Spec.Bridge

/-! What a typed request says of a command. A replay compares the two, and the two equalities
of the code (of a replayed request with a command, of two commands) come to the same. -/

namespace WorkflowEngine

namespace Json

theorem hashable_left {v w : Json} (hw : w.hashable = true) (h : v.pyEq w = true) :
    v.hashable = true := by
  cases v with
  | list xs => cases w <;> simp [hashable, pyEq, number?] at hw h
  | dict kvs => cases w <;> simp [hashable, pyEq, number?] at hw h
  | _ => rfl

theorem pyEqFields_iff {xs ys : List (String × Json)} : pyEqFields xs ys = true ↔
    ∀ kv ∈ xs, ∃ w, ys.lookup kv.1 = some w ∧ kv.2.pyEq w = true := by
  induction xs with
  | nil => simp [pyEqFields]
  | cons x xs ih =>
    rw [pyEqFields, Bool.and_eq_true, ih, List.forall_mem_cons, pyEqField]
    cases ys.lookup x.1 <;> simp

end Json

namespace Fields

theorem mem_of_get? {d : Fields} {k : String} {v : Json} (h : d.get? k = some v) : (k, v) ∈ d := by
  obtain ⟨d1, d2, rfl, -⟩ := List.lookup_eq_some_iff.1 h
  simp

theorem pyEq_iff {d d' : Fields} : d.pyEq d' = true ↔ d.length = d'.length ∧
    ∀ kv ∈ d, ∃ w, d'.get? kv.1 = some w ∧ kv.2.pyEq w = true := by
  rw [pyEq, Json.pyEq, Bool.and_eq_true, beq_iff_eq, Json.pyEqFields_iff]
  rfl

end Fields

namespace ActionPayload

variable {payload : ActionPayload}

theorem get?_dump : ∀ kv ∈ payload.dump, payload.dump.get? kv.1 = some kv.2 := by
  cases payload <;> simp [dump, Fields.get?, List.lookup_cons]

/-- The fields of a payload are strings and amounts. -/
theorem hashable_dump : ∀ kv ∈ payload.dump, kv.2.hashable = true := by
  cases payload <;> simp [dump, Json.hashable, Amount.json]

theorem dump_pyEq_self : payload.dump.pyEq payload.dump = true :=
  Fields.pyEq_iff.2 ⟨rfl, fun _ h => ⟨_, get?_dump _ h, Json.pyEq_self (hashable_dump _ h)⟩⟩

end ActionPayload

namespace ConsequentialActionRequest

/-- The command is bound to the key of the request, and passes the comparison of a replay. -/
def Matches (request : ConsequentialActionRequest) (command : ActionCommand) : Prop :=
  command.idempotencyKey = request.idempotencyKey ∧
    ConsequentialActionService.replayMatches request command = true

/-- A command of the request, with any actor, binding and signature. -/
structure Asks (request : ConsequentialActionRequest) (command : ActionCommand) : Prop where
  action : command.action = request.payload.action
  caseId : command.caseId = request.caseId
  policyPackageId : command.policyPackageId = request.policyPackageId
  idempotencyKey : command.idempotencyKey = request.idempotencyKey
  parameters : command.parameters = request.payload.dump

variable {request : ConsequentialActionRequest} {command c : ActionCommand}

/-- What the comparison of a replay establishes. -/
theorem replayMatches_iff : ConsequentialActionService.replayMatches request c = true ↔
    c.caseId = request.caseId ∧ c.action = request.payload.action ∧
    c.policyPackageId = request.policyPackageId ∧
    if request.payload.action = "issue_refund" then
      ∀ kv ∈ c.parameters, ((request.payload.dump.get? kv.1).getD .null).pyEq kv.2 = true
    else c.parameters.pyEq request.payload.dump = true := by
  simp only [ConsequentialActionService.replayMatches, Bool.and_eq_true, decide_eq_true_eq,
    and_assoc]
  split_ifs <;> simp only [List.all_eq_true]

theorem replayMatches_of_pyEq (ha : c.action = request.payload.action)
    (hc : c.caseId = request.caseId) (hp : c.policyPackageId = request.policyPackageId)
    (heq : c.parameters.pyEq request.payload.dump = true) :
    ConsequentialActionService.replayMatches request c = true := by
  refine replayMatches_iff.2 ⟨hc, ha, hp, ?_⟩
  split_ifs
  · intro kv hkv
    obtain ⟨w, hw, hvw⟩ := (Fields.pyEq_iff.1 heq).2 kv hkv
    have hwh : w.hashable = true := ActionPayload.hashable_dump _ (Fields.mem_of_get? hw)
    rw [hw]
    exact Json.pyEq_symm (Json.hashable_left hwh hvw) hvw
  · exact heq

/-- An action that the kernel takes for one of the request passes the comparison. -/
theorem matches_of_asks (hask : request.Asks command)
    (h : c = command ∨ c.pyEq command = true) : request.Matches c := by
  rcases h with rfl | h
  · refine ⟨hask.idempotencyKey, replayMatches_of_pyEq hask.action hask.caseId
      hask.policyPackageId ?_⟩
    rw [hask.parameters]
    exact ActionPayload.dump_pyEq_self
  · simp only [ActionCommand.pyEq, Bool.and_eq_true, beq_iff_eq] at h
    obtain ⟨⟨⟨⟨⟨⟨⟨⟨⟨⟨⟨⟨⟨ha, hc⟩, hp⟩, -⟩, hk⟩, heq⟩, -⟩, -⟩, -⟩, -⟩, -⟩, -⟩, -⟩, -⟩ := h
    rw [hask.parameters] at heq
    exact ⟨hk.trans hask.idempotencyKey, replayMatches_of_pyEq (ha.trans hask.action)
      (hc.trans hask.caseId) (hp.trans hask.policyPackageId) heq⟩

end ConsequentialActionRequest
end WorkflowEngine
