import Mathlib.Data.List.Sort
import WorkflowEngine.Spec.Records

/-! The transactions of `SQLiteCoreStore`. A transaction is a stateful computation
that may raise; `commit` runs one, and a transaction that raises leaves the
database as it was. Each constructor of `Tx` is one transaction, or one read, of
the adapter: the methods that read a row again after their commit issue two. -/

namespace WorkflowEngine

open Relational

abbrev Txn := StateT Db (Except PyErr)

/-- `commit`, or `rollback` when the body raises. -/
def Txn.commit {α : Type} (t : Txn α) (db : Db) : Except PyErr α × Db :=
  match t db with
  | .ok (a, db') => (.ok a, db')
  | .error e => (.error e, db)

namespace Txn

def insertCase (r : CaseRecord) : Txn Unit := fun db =>
  match db.cases.insert? r with
  | some t => .ok ((), { db with cases := t })
  | none => .error .integrityError

def insertActionRow (a : ActionRecord) : Txn Unit := fun db =>
  match db.actions.insert? a with
  | some t => .ok ((), { db with actions := t })
  | none => .error .integrityError

def insertEvent (e : ActionEvent) : Txn Unit := fun db =>
  match db.events.insert? e with
  | some t => .ok ((), { db with events := t })
  | none => .error .integrityError

def insertProposal (p : ActionProposal) : Txn Unit := fun db =>
  match db.proposals.insert? p with
  | some t => .ok ((), { db with proposals := t })
  | none => .error .integrityError

def insertOutbox (r : OutboxRecord) : Txn Unit := fun db =>
  match db.outbox.insert? r with
  | some t => .ok ((), { db with outbox := t })
  | none => .error .integrityError

/-- `UPDATE workflow_cases SET version=version+1 WHERE case_id=? AND version=?` -/
def bumpVersion (caseId : String) (expected : ℤ) : Txn ℕ := fun db =>
  let p (c : CaseRecord) := decide (c.caseId = caseId) && decide (c.version = expected)
  .ok (db.cases.count p,
    { db with
      cases := db.cases.updateWhere p (fun c => { c with version := c.version + 1 })
        (fun _ _ => rfl) })

/-- `INSERT INTO case_facts .. ON CONFLICT(case_id,name) DO UPDATE` -/
def upsertFact (f : FactRecord) : Txn Unit := fun db =>
  match db.facts.insert? f with
  | some t => .ok ((), { db with facts := t })
  | none => .ok ((), { db with
      facts := db.facts.updateWhere (fun g => decide ((g.caseId, g.name) = (f.caseId, f.name)))
        (fun g => { f with caseId := g.caseId, name := g.name }) (fun _ _ => rfl) })

/-- `UPDATE action_attempts SET .. WHERE action_id=? AND status=?` -/
def updateActionWhere (actionId : String) (expected : ActionStatus)
    (f : ActionRecord → ActionRecord) (hf : ∀ i a, ActionColumn.of i (f a) = ActionColumn.of i a) :
    Txn ℕ := fun db =>
  let p (a : ActionRecord) := decide (a.actionId = actionId) && decide (a.status = expected)
  .ok (db.actions.count p, { db with actions := db.actions.updateWhere p f hf })

def createCase (record : CaseRecord) : Txn Unit := insertCase record

def appendFact (now : Time) (caseId : String) (proposal : FactProposal) (expectedVersion : ℤ) :
    Txn Unit := do
  let rowcount ← bumpVersion caseId expectedVersion
  if rowcount ≠ 1 then
    throw (.caseConflict ("Case " ++ caseId ++ " version conflict"))
  upsertFact { proposal with caseId, committedAt := now }

def insertAction (now : Time) (ids : ℕ → String) (record : ActionRecord)
    (expectedVersion : ℤ) : Txn Unit := do
  let rowcount ← bumpVersion record.command.caseId expectedVersion
  if rowcount ≠ 1 then
    throw (.caseConflict ("Case " ++ record.command.caseId ++ " version conflict"))
  insertActionRow { record with outcome := none }
  insertEvent ⟨"AEV-" ++ ids 0, record.actionId, .requested, none, now⟩
  insertEvent ⟨"AEV-" ++ ids 1, record.actionId, .authorized, none, now⟩
  insertOutbox {
    outboxId := "OUT-" ++ ids 2, topic := "action.dispatch", aggregateId := record.actionId,
    payload := [("action_id", .str record.actionId)], status := .pending, availableAt := now,
    createdAt := now, updatedAt := now }

def transitionAction (now : Time) (ids : ℕ → String) (actionId : String)
    (expected status : ActionStatus) (outcome : Option Fields) : Txn Unit := do
  let rowcount ← updateActionWhere actionId expected
    (fun a => { a with status, outcome, updatedAt := now }) (fun i _ => by cases i <;> rfl)
  if rowcount ≠ 1 then
    throw (.actionConflict
      ("Action " ++ actionId ++ " transition conflict from " ++ expected.value))
  insertEvent ⟨"AEV-" ++ ids 0, actionId, status, outcome, now⟩

def claimAction (now : Time) (ids : ℕ → String) (actionId : String) : Txn Bool := do
  let rowcount ← updateActionWhere actionId .authorized
    (fun a => { a with status := .dispatched, updatedAt := now }) (fun i _ => by cases i <;> rfl)
  let claimed := rowcount = 1
  if claimed then
    insertEvent ⟨"AEV-" ++ ids 0, actionId, .dispatched, none, now⟩
  return claimed

def transitionProposal (now : Time) (proposalId : String)
    (expected status : ActionProposalStatus) (confirmationEvidenceRef actionId : Option String) :
    Txn Unit := do
  let db ← get
  let confirmedAt := if status = .confirmed then some now else none
  let cancelledAt := if status = .cancelled then some now else none
  let p (r : ActionProposal) := decide (r.proposalId = proposalId) && decide (r.status = expected)
  set { db with
    proposals := db.proposals.updateWhere p (fun r => { r with
      status
      confirmationEvidenceRef := confirmationEvidenceRef.or r.confirmationEvidenceRef
      actionId := actionId.or r.actionId
      updatedAt := now
      confirmedAt := confirmedAt.or r.confirmedAt
      cancelledAt := cancelledAt.or r.cancelledAt }) (fun _ _ => rfl) }
  if db.proposals.count p ≠ 1 then
    throw (.actionConflict
      ("Action proposal " ++ proposalId ++ " transition conflict from " ++ expected.value))

/-- The events that the migration reconstructs for a pre-v3 row. -/
def backfillSequence (status : ActionStatus) : List ActionStatus :=
  let terminal := status ∈ [ActionStatus.succeeded, .failed, .unknown, .reconciled]
  [.requested] ++ (if status ≠ .requested then [.authorized] else []) ++
    (if status = .dispatched ∨ terminal then [.dispatched] else []) ++
    (if status = .reconciled then [.unknown] else []) ++ (if terminal then [status] else [])

def insertEvents : List ActionEvent → Txn Unit
  | [] => pure ()
  | e :: es => do
    insertEvent e
    insertEvents es

/-- The transaction at the end of `initialize`; the schema script before it is idempotent. -/
def initializeStore (ids : ℕ → String) : Txn Unit := do
  let db ← get
  if "action_events_v3_backfill" ∈ db.migrations then
    return ()
  let legacy := db.actions.rows.filter fun a => (db.eventsOf a.actionId).isEmpty
  let events := legacy.flatMap fun a => (backfillSequence a.status).map fun s => (a, s)
  insertEvents (events.zipIdx.map fun ((a, s), n) =>
    ⟨"AEV-" ++ ids n, a.actionId, s, some [("migrated", .bool true)],
      if s = a.status then a.updatedAt else a.createdAt⟩)
  modify fun db => { db with migrations := db.migrations ++ ["action_events_v3_backfill"] }

end Txn

namespace Db

/-- `ORDER BY created_at LIMIT ?`; a negative limit is no limit. -/
def oldest {α : Type} (createdAt : α → Time) (limit : ℤ) (rows : List α) : List α :=
  let sorted := rows.insertionSort fun a b => createdAt a ≤ createdAt b
  if limit < 0 then sorted else sorted.take limit.toNat

def listActions (db : Db) (status : Option ActionStatus) (limit : ℤ) : List ActionRecord :=
  oldest ActionRecord.createdAt limit
    (db.actions.rows.filter fun a => status = none ∨ status = some a.status)

/-- A record that `claim_outbox` may lease: `lease_until < now` is false of NULL. -/
def due (now : Time) (r : OutboxRecord) : Bool :=
  decide (r.availableAt ≤ now) &&
    (decide (r.status = .pending) || decide (r.status = .failed) ||
      (decide (r.status = .leased) && r.leaseUntil.any (· < now)))

def dueIds (db : Db) (now : Time) (limit : ℤ) : List String :=
  (oldest OutboxRecord.createdAt limit (db.outbox.rows.filter (due now))).map
    OutboxRecord.outboxId

def leaseRow (owner : String) (now leaseUntil : Time) (r : OutboxRecord) : OutboxRecord :=
  { r with
    status := .leased, leaseOwner := some owner, leaseUntil := some leaseUntil
    attempts := r.attempts + 1, updatedAt := now }

/-- Each selected row is updated once, by its id. -/
def lease (db : Db) (owner : String) (now leaseUntil : Time) (ids : List String) : Db :=
  { db with
    outbox := db.outbox.updateWhere (fun r => ids.contains r.outboxId)
      (leaseRow owner now leaseUntil) (fun _ _ => rfl) }

/-- `WHERE outbox_id IN (..)`, which goes through the index of the ids. -/
def selectIn (db : Db) (ids : List String) : List OutboxRecord :=
  (db.outbox.rows.filter fun r => ids.contains r.outboxId).insertionSort
    fun a b => a.outboxId ≤ b.outboxId

theorem mem_selectIn {db : Db} {ids : List String} {r : OutboxRecord} :
    r ∈ db.selectIn ids ↔ r ∈ db.outbox.rows ∧ r.outboxId ∈ ids := by
  simp [selectIn]

theorem nodup_selectIn (db : Db) (ids : List String) :
    ((db.selectIn ids).map OutboxRecord.outboxId).Nodup := by
  have hperm := (List.perm_insertionSort (fun a b : OutboxRecord => a.outboxId ≤ b.outboxId)
    (db.outbox.rows.filter fun r => ids.contains r.outboxId)).map OutboxRecord.outboxId
  exact hperm.nodup_iff.2 ((db.outbox.unique ()).sublist (List.filter_sublist.map _))

def settleRow (status : OutboxStatus) (retryAt : Option Time) (error : Option String)
    (now : Time) (r : OutboxRecord) : OutboxRecord :=
  { r with
    status, availableAt := retryAt.getD now, leaseOwner := none, leaseUntil := none
    lastError := error, updatedAt := now }

/-- `_update_outbox` names the row by its id alone. -/
def settle (db : Db) (outboxId : String) (status : OutboxStatus) (retryAt : Option Time)
    (error : Option String) (now : Time) : Db :=
  { db with
    outbox := db.outbox.updateWhere (fun r => decide (r.outboxId = outboxId))
      (settleRow status retryAt error now) (fun _ _ => rfl) }

end Db

inductive Tx where
  | initializeStore
  | createCase (record : CaseRecord)
  | getCase (caseId : String)
  | appendFact (caseId : String) (proposal : FactProposal) (expectedVersion : ℤ)
  | getFact (caseId name : String)
  | insertAction (record : ActionRecord) (expectedVersion : ℤ)
  | getActionByKey (key : String)
  | getAction (actionId : String)
  | listActions (status : Option ActionStatus) (limit : ℤ)
  | listActionEvents (actionId : String)
  | transitionAction (actionId : String) (expected status : ActionStatus)
      (outcome : Option Fields)
  | claimAction (actionId : String)
  | createProposal (record : ActionProposal)
  | getProposal (proposalId : String)
  | transitionProposal (proposalId : String) (expected status : ActionProposalStatus)
      (confirmationEvidenceRef actionId : Option String)
  | insertOutbox (record : OutboxRecord)
  | claimOutbox (owner : String) (now leaseUntil : Time) (limit : ℤ)
  | selectOutbox (ids : List String)
  | updateOutbox (outboxId : String) (status : OutboxStatus) (retryAt : Option Time)
      (error : Option String) (now : Time)

namespace Tx

def Res : Tx → Type
  | .initializeStore => Except PyErr Unit
  | .createCase _ => Except PyErr Unit
  | .getCase _ => Option CaseRecord
  | .appendFact .. => Except PyErr Unit
  | .getFact .. => Option FactRecord
  | .insertAction .. => Except PyErr Unit
  | .getActionByKey _ => Option ActionRecord
  | .getAction _ => Option ActionRecord
  | .listActions .. => List ActionRecord
  | .listActionEvents _ => List ActionEvent
  | .transitionAction .. => Except PyErr Unit
  | .claimAction _ => Except PyErr Bool
  | .createProposal _ => Except PyErr Unit
  | .getProposal _ => Option ActionProposal
  | .transitionProposal .. => Except PyErr Unit
  | .insertOutbox _ => Except PyErr Unit
  | .claimOutbox .. => List String
  | .selectOutbox _ => List OutboxRecord
  | .updateOutbox .. => Unit

/-- The effect of one transaction at time `now`; `ids` supplies its `uuid4` values. -/
def exec (now : Time) (ids : ℕ → String) (db : Db) : (o : Tx) → o.Res × Db
  | .initializeStore => (Txn.initializeStore ids).commit db
  | .createCase record => (Txn.createCase record).commit db
  | .getCase caseId => (db.case? caseId, db)
  | .appendFact caseId proposal v => (Txn.appendFact now caseId proposal v).commit db
  | .getFact caseId name => ((db.fact? caseId name).filter (·.supersededAt.isNone), db)
  | .insertAction record v => (Txn.insertAction now ids record v).commit db
  | .getActionByKey key => (db.actionByKey? key, db)
  | .getAction actionId => (db.action? actionId, db)
  | .listActions status limit => (db.listActions status limit, db)
  | .listActionEvents actionId => (db.eventsOf actionId, db)
  | .transitionAction id expected status outcome =>
    (Txn.transitionAction now ids id expected status outcome).commit db
  | .claimAction actionId => (Txn.claimAction now ids actionId).commit db
  | .createProposal record => (Txn.insertProposal record).commit db
  | .getProposal proposalId => (db.proposal? proposalId, db)
  | .transitionProposal id expected status evidence actionId =>
    (Txn.transitionProposal now id expected status evidence actionId).commit db
  | .insertOutbox record => (Txn.insertOutbox record).commit db
  | .claimOutbox owner start leaseUntil limit =>
    (db.dueIds start limit, db.lease owner start leaseUntil (db.dueIds start limit))
  | .selectOutbox ids => (db.selectIn ids, db)
  | .updateOutbox id status retryAt error at' => ((), db.settle id status retryAt error at')

end Tx
end WorkflowEngine
