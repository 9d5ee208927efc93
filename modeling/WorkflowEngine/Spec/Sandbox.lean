import WorkflowEngine.Spec.Engine

/-! `SQLiteSandboxActionConnector` (`integrations/sandbox.py`), and an engine that has
it behind every action. The sandbox tables are written by the connector and by
`set_scenario` alone; whatever else the engine uses is a further signature. -/

namespace WorkflowEngine

open Interleave Relational

inductive SandboxScenario where
  | success | rejected | timeoutBeforeCommit | timeoutAfterCommit
  deriving DecidableEq, Repr

def SandboxScenario.value : SandboxScenario → String
  | .success => "success"
  | .rejected => "rejected"
  | .timeoutBeforeCommit => "timeout_before_commit"
  | .timeoutAfterCommit => "timeout_after_commit"

structure SandboxEffect where
  idempotencyKey : String
  providerActionId : String
  action : String
  command : ActionCommand
  committedAt : String

/-- The unique columns of `sandbox_action_effects`. -/
inductive EffectColumn where
  | key | providerActionId
  deriving DecidableEq

instance : Fintype EffectColumn :=
  ⟨⟨[EffectColumn.key, EffectColumn.providerActionId], by decide⟩, fun i => by cases i <;> decide⟩

def EffectColumn.of : EffectColumn → SandboxEffect → String
  | .key, r => r.idempotencyKey
  | .providerActionId, r => r.providerActionId

structure Sandbox where
  scenarios : String → Option SandboxScenario
  effects : Table EffectColumn String EffectColumn.of

namespace Sandbox

def empty : Sandbox := ⟨fun _ => none, .empty⟩

def effect? (s : Sandbox) (key : String) : Option SandboxEffect := s.effects.get? .key key

/-- `INSERT OR IGNORE INTO sandbox_action_effects` -/
def insertEffect (s : Sandbox) (row : SandboxEffect) : Sandbox :=
  { s with effects := (s.effects.insert? row).getD s.effects }

def setScenario (s : Sandbox) (key : String) (scenario : SandboxScenario) : Sandbox :=
  { s with scenarios := Function.update s.scenarios key (some scenario) }

end Sandbox

/-- The statements of the connector; `insertEffect` reads the clock when it runs. -/
inductive SandboxOp where
  | effect (key : String)
  | scenario (key : String)
  | insertEffect (command : ActionCommand) (providerActionId : String)

def sandboxSig : Sig where
  Op := SandboxOp
  Res
    | .effect _ => Option SandboxEffect
    | .scenario _ => SandboxScenario
    | .insertEffect .. => Unit

variable {Y : Sig}

/-- `scenario` is a call of `set_scenario` that comes in. -/
structure SandboxChoice (V : World Y) where
  committedAt : String
  scenario : Option (String × SandboxScenario)
  rest : V.Choice

def World.sandboxed (V : World Y) : World (sandboxSig.sum Y) where
  State := Sandbox × V.State
  Choice := SandboxChoice V
  exec e s
    | .inl (.effect key) => (s.1.effect? key, s)
    | .inl (.scenario key) => ((s.1.scenarios key).getD .success, s)
    | .inl (.insertEffect command providerActionId) =>
      ((), s.1.insertEffect ⟨command.idempotencyKey, providerActionId, command.action, command,
        e.committedAt⟩, s.2)
    | .inr o => ((V.exec e.rest s.2 o).1, s.1, (V.exec e.rest s.2 o).2)
  drift e s := (match e.scenario with
    | none => s.1
    | some (key, scenario) => s.1.setScenario key scenario, V.drift e.rest s.2)

/-- The connector; `hexdigest` is that of SHA-256. -/
structure SQLiteSandboxActionConnector where
  hexdigest : String → String

namespace SQLiteSandboxActionConnector

variable (sandbox : SQLiteSandboxActionConnector)

def providerId : String := "sqlite-action-sandbox"

def details (effect : SandboxEffect) (extra : Fields) : Fields :=
  [("provider_id", .str providerId), ("provider_action_id", .str effect.providerActionId),
    ("action", .str effect.action), ("committed_at", .str effect.committedAt),
    ("simulated", .bool true)] ++ extra

def effect (key : String) : Prog (sandboxSig.sum Y) PyErr (Option SandboxEffect) :=
  Prog.perform (S := sandboxSig.sum Y) (.inl (.effect key))

def scenario (key : String) : Prog (sandboxSig.sum Y) PyErr SandboxScenario :=
  Prog.perform (S := sandboxSig.sum Y) (.inl (.scenario key))

def providerActionId (key : String) : String :=
  "SBX-" ++ String.ofList (((sandbox.hexdigest key).toList.take 20).map Char.toUpper)

def commit (command : ActionCommand) : Prog (sandboxSig.sum Y) PyErr SandboxEffect := do
  Prog.perform (S := sandboxSig.sum Y)
    (.inl (.insertEffect command (sandbox.providerActionId command.idempotencyKey)))
  match ← effect command.idempotencyKey with
  | some effect => return effect
  | none => throw .assertionError

def dispatch (command : ActionCommand) : Prog (sandboxSig.sum Y) PyErr ConnectorOutcome := do
  match ← effect command.idempotencyKey with
  | some existing => return ⟨.succeeded, details existing [("idempotent_replay", .bool true)]⟩
  | none =>
    match ← scenario command.idempotencyKey with
    | .rejected =>
      return ⟨.failed, [("provider_id", .str providerId), ("reason", .str "sandbox_rejected"),
        ("simulated", .bool true)]⟩
    | .timeoutBeforeCommit =>
      return ⟨.unknown, [("provider_id", .str providerId),
        ("reason", .str SandboxScenario.timeoutBeforeCommit.value), ("simulated", .bool true)]⟩
    | .timeoutAfterCommit =>
      let effect ← sandbox.commit command
      return ⟨.unknown, [("provider_id", .str providerId),
        ("provider_action_id", .str effect.providerActionId),
        ("reason", .str SandboxScenario.timeoutAfterCommit.value), ("simulated", .bool true)]⟩
    | .success =>
      let effect ← sandbox.commit command
      return ⟨.succeeded, details effect []⟩

def reconcile (command : ActionCommand) (prior : Option Fields) :
    Prog (sandboxSig.sum Y) PyErr ConnectorOutcome := do
  match ← effect command.idempotencyKey with
  | some effect => return ⟨.succeeded, details effect [("reconciled", .bool true)]⟩
  | none =>
    return ⟨.unknown, [("provider_id", .str providerId),
      ("reason", .str "no_authoritative_provider_record"), ("prior", .dict (prior.getD [])),
      ("simulated", .bool true)]⟩

def connector : ActionConnector (sandboxSig.sum Y) := ⟨sandbox.dispatch, reconcile⟩

end SQLiteSandboxActionConnector

end WorkflowEngine
