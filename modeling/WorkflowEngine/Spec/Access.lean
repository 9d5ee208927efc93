import Mathlib.Data.List.Dedup
import WorkflowEngine.Spec.Channels

/-! Role-based access control (`auth/rbac.py`). -/

namespace WorkflowEngine

/-- The values of `Permission`. -/
def permissionValues : List String := [
  "order:read", "order:write", "refund:read", "refund:write", "customer:read", "customer:write",
  "case:read", "case:write", "escalation:create", "fraud_alert:read", "fraud_alert:write",
  "account:flag", "sar:submit", "transaction:read", "device:read", "admin:read", "admin:write",
  "table:browse", "session:read", "procedure:read", "channel:ingest", "channel:delivery",
  "provider:callback"]

/-- `get_permissions_for_role`, from `ROLE_PERMISSIONS`. -/
def permissionsForRole : Role → List String
  | .admin => permissionValues
  | .supervisor => [
      "order:read", "order:write", "refund:read", "refund:write", "customer:read",
      "customer:write", "case:read", "case:write", "escalation:create", "fraud_alert:read",
      "fraud_alert:write", "account:flag", "sar:submit", "transaction:read", "device:read",
      "admin:read", "table:browse", "session:read", "procedure:read"]
  | .customerServiceRep => [
      "order:read", "refund:read", "refund:write", "customer:read", "case:read", "case:write",
      "escalation:create", "session:read", "procedure:read"]
  | .fraudAnalyst => [
      "fraud_alert:read", "fraud_alert:write", "account:flag", "sar:submit", "transaction:read",
      "device:read", "case:read", "case:write", "escalation:create", "session:read",
      "procedure:read"]
  | .readonly => [
      "order:read", "customer:read", "case:read", "refund:read", "fraud_alert:read",
      "transaction:read", "session:read", "procedure:read"]
  | .customer => []
  | .integration => [
      "customer:read", "case:read", "channel:ingest", "channel:delivery", "provider:callback"]

/-- The permissions of the role with those that a token brings. -/
def buildUserContext (userId : String) (role : Role) (extraPermissions : List String := []) :
    UserContext where
  userId
  role
  permissions := (permissionsForRole role ++ extraPermissions).dedup

@[simp] theorem hasPermission_buildUserContext (userId : String) (role : Role)
    (extra : List String) (permission : String) :
    (buildUserContext userId role extra).hasPermission permission = true ↔
      permission ∈ permissionsForRole role ∨ permission ∈ extra := by
  simp [UserContext.hasPermission, buildUserContext]

end WorkflowEngine
