import WorkflowEngine.HashChain.Sha256
import WorkflowEngine.Spec.Json

/-! The case ids that the host derives (`main.py`). -/

namespace WorkflowEngine

/-- `hashlib.sha256(material.encode()).hexdigest()[:16].upper()` -/
def caseDigest (material : String) : String :=
  String.ofList (((Sha256.hexdigest material.toList).take 16).map Char.toUpper)

/-- `_action_case_id`; `upper` is Python's, the second text of the pair is hashed. -/
def actionCaseId (upper : String → String) (action customerId : String)
    (conversationId : Option String) (arguments : Fields) : String :=
  let orderId := (arguments.get? "order_id").getD .null
  let (kind, material) :=
    if action = "issue_refund" ∧ orderId.truthy then ("REFUND", customerId ++ ":" ++ orderId.pyStr)
    else
      (String.ofList ((upper (action.replace "_" "-")).toList.take 32),
        "(" ++ String.intercalate ", " [Json.strRepr customerId,
          (conversationId.map Json.strRepr).getD "None", Json.strRepr action,
          (Json.dict arguments).repr] ++ ")")
  "CASE-" ++ kind ++ "-" ++ caseDigest material

/-- The case id of `create_refund_command`. -/
def refundCommandCaseId (customerId orderId : String) : String :=
  "CASE-REFUND-" ++ caseDigest (customerId ++ ":" ++ orderId)

end WorkflowEngine
