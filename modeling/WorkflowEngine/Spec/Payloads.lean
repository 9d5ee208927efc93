import WorkflowEngine.Spec.Numbers
import WorkflowEngine.Spec.Proposals

/-! The validation of a payload by its model (`core/action_service.py`). The field `action`
chooses the model, strings are taken as they are, and amounts are converted to floats. -/

namespace WorkflowEngine

def DisputeType.ofValue? : String → Option DisputeType
  | "unauthorized" => some .unauthorized
  | "error" => some .error
  | "fraud" => some .fraud
  | _ => none

def Priority.ofValue? : String → Option Priority
  | "low" => some .low
  | "normal" => some .normal
  | "high" => some .high
  | "urgent" => some .urgent
  | _ => none

def Restriction.ofValue? : String → Option Restriction
  | "monitor" => some .monitor
  | "restrict" => some .restrict
  | "freeze" => some .freeze
  | _ => none

def Resolution.ofValue? : String → Option Resolution
  | "confirmed_fraud" => some .confirmedFraud
  | "false_positive" => some .falsePositive
  | "escalated" => some .escalated
  | _ => none

namespace ActionPayload

/-- A field `str`. -/
def str? (fields : Fields) (name : String) : Option String :=
  match fields.get? name with
  | some (.str s) => some s
  | _ => none

/-- A field `str` with a default. -/
def strOr (fields : Fields) (name default : String) : Option String :=
  match fields.get? name with
  | none => some default
  | some (.str s) => some s
  | _ => none

/-- A field `float` with `gt=0`. What reads as an infinity is refused here: it is no JSON value. -/
def amount? (fields : Fields) (name : String) : Option Amount :=
  match fields.get? name with
  | none => none
  | some value => match value.toFloat with
    | .error _ => none
    | .ok x => if h : 0 < x.1 then some ⟨x.1, x.2, h⟩ else none

/-- The payload model that the discriminator names, if the fields are valid for it. -/
def validate (fields : Fields) : Option ActionPayload :=
  match fields.get? "action" with
  | some (.str "issue_refund") => do
    return .issueRefund (← str? fields "order_id") (← str? fields "customer_id")
      (← amount? fields "refund_amount") (← strOr fields "currency" "USD")
      (← str? fields "payment_method") (← str? fields "reason")
  | some (.str "issue_store_credit") => do
    return .issueStoreCredit (← str? fields "order_id") (← str? fields "customer_id")
      (← amount? fields "amount") (← strOr fields "currency" "USD") (← str? fields "reason")
  | some (.str "update_case_status") => do
    return .updateCaseStatus (← str? fields "target_status") (← str? fields "reason")
  | some (.str "file_eft_dispute") => do
    return .fileEftDispute (← str? fields "customer_id") (← str? fields "transaction_id")
      (← amount? fields "amount") (← (str? fields "dispute_type").bind DisputeType.ofValue?)
  | some (.str "issue_provisional_credit") => do
    return .issueProvisionalCredit (← str? fields "customer_id") (← str? fields "dispute_id")
      (← amount? fields "amount")
  | some (.str "escalate_to_supervisor") => do
    return .escalateToSupervisor (← str? fields "reason")
      (← (strOr fields "priority" "normal").bind Priority.ofValue?)
  | some (.str "add_case_note") => do
    let note ← str? fields "note"
    if h : 1 ≤ note.length ∧ note.length ≤ 10000 then some (.addCaseNote note h) else none
  | some (.str "flag_account") => do
    return .flagAccount (← str? fields "account_id") (← str? fields "reason")
      (← (str? fields "restriction").bind Restriction.ofValue?)
  | some (.str "submit_sar") => do
    return .submitSar (← str? fields "account_id") (← str? fields "alert_id")
      (← str? fields "narrative_ref")
  | some (.str "close_alert") => do
    return .closeAlert (← str? fields "alert_id")
      (← (str? fields "resolution").bind Resolution.ofValue?)
  | _ => none

/-- The defaults of the models pass their own checks. -/
example : validate [("action", .str "escalate_to_supervisor"), ("reason", .str "r")] =
    some (.escalateToSupervisor "r" .normal) := rfl

/-- The model of a payload is the one that its field `action` names. -/
theorem action_of_validate {fields : Fields} {payload : ActionPayload}
    (h : validate fields = some payload) : fields.get? "action" = some (.str payload.action) := by
  unfold validate at h
  split at h
  case h_7 ha =>
    obtain ⟨note, -, h⟩ := Option.bind_eq_some_iff.1 h
    split_ifs at h
    cases h
    exact ha
  case h_11 => cases h
  all_goals
    rename_i ha
    simp only [Option.bind_eq_bind, Option.bind_eq_some_iff, Option.pure_def,
      Option.some.injEq] at h
    casesm* Exists _, And _ _
    subst_vars
    exact ha

theorem amount?_json {fields : Fields} {name : String} {amount : Amount}
    (h : fields.get? name = some amount.json) : amount? fields name = some amount := by
  simp [amount?, h, Amount.json, Json.toFloat, amount.pos]

/-- The dump of a payload is valid, and stands for it. -/
theorem validate_dumpPayload (payload : ActionPayload) :
    validate (ActionBridge.dumpPayload payload) = some payload := by
  cases payload with
  | issueRefund order customer amount currency method reason =>
    have hamount : amount? (ActionBridge.dumpPayload
      (.issueRefund order customer amount currency method reason)) "refund_amount" = some amount :=
        amount?_json rfl
    change (amount? _ "refund_amount").bind _ = _
    rw [hamount]
    rfl
  | issueStoreCredit order customer amount currency reason =>
    have hamount : amount? (ActionBridge.dumpPayload
      (.issueStoreCredit order customer amount currency reason)) "amount" = some amount :=
        amount?_json rfl
    change (amount? _ "amount").bind _ = _
    rw [hamount]
    rfl
  | fileEftDispute customer transaction amount kind =>
    have hamount : amount? (ActionBridge.dumpPayload
      (.fileEftDispute customer transaction amount kind)) "amount" = some amount := amount?_json rfl
    change (amount? _ "amount").bind _ = _
    rw [hamount]
    cases kind <;> rfl
  | issueProvisionalCredit customer dispute amount =>
    have hamount : amount? (ActionBridge.dumpPayload
      (.issueProvisionalCredit customer dispute amount)) "amount" = some amount := amount?_json rfl
    change (amount? _ "amount").bind _ = _
    rw [hamount]
    rfl
  | addCaseNote note h => exact dif_pos h
  | escalateToSupervisor reason priority => cases priority <;> rfl
  | flagAccount account reason restriction => cases restriction <;> rfl
  | closeAlert alert resolution => cases resolution <;> rfl
  | updateCaseStatus target reason => rfl
  | submitSar account alert narrative => rfl

end ActionPayload
end WorkflowEngine
