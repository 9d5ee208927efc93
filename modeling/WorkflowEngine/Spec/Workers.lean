import WorkflowEngine.Spec.Gateway

/-! The delivery and reconciliation workers (`core/workers.py`). -/

namespace WorkflowEngine

open Interleave SQLiteCoreStore

structure WorkerRun where
  claimed : ℕ
  completed : ℕ
  failed : ℕ
  deriving DecidableEq, Repr

structure ActionDeliveryWorker (X : Sig) where
  gateway : ActionGateway X
  owner : String
  leaseSeconds : ℤ := 30
  maxAttempts : ℕ := 5
  binding : TextBinding := {}

namespace ActionDeliveryWorker

variable {X : Sig} (worker : ActionDeliveryWorker X)

/-- `get_action(record.payload["action_id"])`; NULL equals nothing. -/
def namedAction (record : OutboxRecord) : Task X (Option ActionRecord) := do
  let some actionId := record.payload.get? "action_id" | throw (.keyError "action_id")
  match ← Prog.ofExcept (sqlText worker.binding actionId) with
  | none => return none
  | some key => getAction key

/-- The `except` branch: retry later, or quarantine after `max_attempts`. -/
def retryLater (record : OutboxRecord) (exc : PyErr) : Task X Unit := do
  if record.attempts ≥ worker.maxAttempts then
    let _ ← failOutbox record.outboxId exc.typeName none true
  else
    let now ← Task.now
    let retryAt := now + seconds (min 300 (2 ^ (record.attempts - 1)))
    let _ ← failOutbox record.outboxId exc.typeName (some retryAt) false

/-- One iteration of the loop; the answer is whether the record was completed. -/
def deliver (record : OutboxRecord) : Task X Bool := do
  if record.topic ≠ "action.dispatch" then
    let _ ← failOutbox record.outboxId ("unsupported_topic:" ++ record.topic) none true
    return false
  match ← worker.namedAction record with
  | none =>
    let _ ← failOutbox record.outboxId "action_not_found" none true
    return false
  | some action =>
    try
      let _ ← worker.gateway.dispatch action
      let _ ← completeOutbox record.outboxId
      pure true
    catch exc =>
      worker.retryLater record exc
      pure false

def deliverAll : List OutboxRecord → WorkerRun → Task X WorkerRun
  | [], run => return run
  | record :: records, run => do
    if ← worker.deliver record then
      deliverAll records { run with completed := run.completed + 1 }
    else
      deliverAll records { run with failed := run.failed + 1 }

def runOnce (limit : ℤ) : Task X WorkerRun := do
  let records ← claimOutbox worker.owner worker.leaseSeconds limit
  worker.deliverAll records ⟨records.length, 0, 0⟩

end ActionDeliveryWorker

structure ReconciliationWorker (X : Sig) where
  gateway : ActionGateway X
  dispatchStaleSeconds : ℤ := 30

namespace ReconciliationWorker

variable {X : Sig} (worker : ReconciliationWorker X)

def reconcileAll : List ActionRecord → WorkerRun → Task X WorkerRun
  | [], run => return run
  | action :: actions, run => do
    let settled ←
      try
        let result ← worker.gateway.reconcile action
        pure (decide (result.status = .reconciled ∨ result.status = .failed))
      catch _ => pure false
    if settled then
      reconcileAll actions { run with completed := run.completed + 1 }
    else
      reconcileAll actions { run with failed := run.failed + 1 }

/-- `actions[:limit]` -/
def upTo (limit : ℤ) (actions : List ActionRecord) : List ActionRecord :=
  if limit < 0 then actions.take (actions.length + limit).toNat else actions.take limit.toNat

def runOnce (limit : ℤ) : Task X WorkerRun := do
  let unknown ← listActions (some .unknown) limit
  let dispatched ← listActions (some .dispatched) limit
  let staleBefore ← Prog.ofExcept (plusSeconds (← Task.now) (-worker.dispatchStaleSeconds))
  let stale (action : ActionRecord) := decide (action.updatedAt ≤ staleBefore)
  let actions := upTo limit (unknown.filter stale ++ dispatched.filter stale)
  worker.reconcileAll actions ⟨actions.length, 0, 0⟩

end ReconciliationWorker
end WorkflowEngine
