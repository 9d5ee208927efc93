import WorkflowEngine.HashChain.Sha256
import WorkflowEngine.JsonText.Value

/-! The audit trail: `AuditEntry.to_dict` (`audit/logger.py`), the writer and the verifier of
`AuditRepository` (`database/repository.py`), and the backfill of `init_db` (`database/db.py`).
The rows of the table are listed in the order of `rowid`; an operation that raises leaves no
rows. -/

namespace WorkflowEngine

open JsonText

/-- DbText of the database. -/
abbrev DbText := List Char

variable {F : Type}

/-- A dict with string keys. -/
abbrev JsonDict (F : Type) := { kvs : List (Str × Value F) // (Value.dict kvs).Distinct }

structure AuditEntry (F : Type) where
  entryId : DbText
  timestamp : DbText
  correlationId : Option DbText
  action : DbText
  actor : DbText
  resourceType : DbText
  resourceId : DbText
  sessionId : Option DbText
  procedureId : Option DbText
  stepId : Option DbText
  beforeState : Option (JsonDict F)
  afterState : Option (JsonDict F)
  metadata : Option (JsonDict F)

namespace AuditEntry

/-- `if self.session_id:` -/
def given (value : Option DbText) : Option DbText := value.filter fun s => !s.isEmpty

def givenDict (value : Option (JsonDict F)) : Option (JsonDict F) :=
  value.filter fun d => !d.1.isEmpty

/-- The texts of `to_dict`, those that are left out among them. -/
def texts (e : AuditEntry F) : List (String × Option DbText) := [
  ("entry_id", some e.entryId), ("timestamp", some e.timestamp), ("action", some e.action),
  ("actor", some e.actor), ("resource_type", some e.resourceType),
  ("resource_id", some e.resourceId), ("correlation_id", given e.correlationId),
  ("session_id", given e.sessionId), ("procedure_id", given e.procedureId),
  ("step_id", given e.stepId)]

def states (e : AuditEntry F) : List (String × Option (JsonDict F)) := [
  ("before_state", givenDict e.beforeState), ("after_state", givenDict e.afterState),
  ("metadata", givenDict e.metadata)]

end AuditEntry

def auditKey (name : String) : Str := ofText name.toList

/-- The items that are not left out. -/
def auditItems {α : Type} (value : α → Value F) (kvs : List (String × Option α)) :
    List (Str × Value F) :=
  kvs.filterMap fun kv => kv.2.map fun v => (auditKey kv.1, value v)

def AuditEntry.toDict (e : AuditEntry F) : List (Str × Value F) :=
  auditItems (fun s => .str (ofText s)) e.texts ++ auditItems (fun d => .dict d.1) e.states

/-- A row of `audit_trail`. -/
structure AuditRow where
  entryId : Option DbText
  timestamp : Option DbText
  action : Option DbText
  actor : Option DbText
  resourceType : Option DbText
  resourceId : Option DbText
  correlationId : Option DbText
  sessionId : Option DbText
  procedureId : Option DbText
  stepId : Option DbText
  beforeState : Option DbText
  afterState : Option DbText
  metadata : Option DbText
  previousHash : Option DbText
  entryHash : Option DbText

namespace AuditRow

def texts (row : AuditRow) : List (String × Option DbText) := [
  ("entry_id", row.entryId), ("timestamp", row.timestamp), ("action", row.action),
  ("actor", row.actor), ("resource_type", row.resourceType), ("resource_id", row.resourceId),
  ("correlation_id", row.correlationId), ("session_id", row.sessionId),
  ("procedure_id", row.procedureId), ("step_id", row.stepId)]

def states (row : AuditRow) : List (String × Option DbText) := [
  ("before_state", row.beforeState), ("after_state", row.afterState), ("metadata", row.metadata)]

variable [FloatText F]

/-- `if row[key]: entry[key] = json.loads(row[key])` -/
def loadState (kv : String × Option DbText) : Option (String × Option (Value F)) :=
  match kv.2.getD [] with
  | [] => some (kv.1, none)
  | text => (Value.loads text).map fun v => (kv.1, some v)

/-- The entry that the verifier and the backfill make of a row. -/
def entry (row : AuditRow) : Option (List (Str × Value F)) :=
  (row.states.mapM loadState).map fun states =>
    auditItems (fun s => .str (ofText s)) row.texts ++ auditItems id states

end AuditRow

def GENESIS : DbText := "GENESIS".toList

variable [FloatText F]

def chained (previousHash canonical : DbText) : DbText :=
  Sha256.hexdigest (previousHash ++ ':' :: canonical)

def hashEntry (previousHash : DbText) (entry : List (Str × Value F)) : DbText :=
  chained previousHash (Value.dict entry).canonical

namespace AuditRepository

/-- `row[0] if row and row[0] else "GENESIS"` of the last row. -/
def previousHash (rows : List AuditRow) : DbText :=
  match (rows.getLast?.bind AuditRow.entryHash).getD [] with
  | [] => GENESIS
  | hash => hash

/-- `entry.get(key)`, and the text of a state if it is not empty. -/
def column (e : AuditEntry F) (key : String) : Option DbText := (e.texts.lookup key).join

def stateColumn (e : AuditEntry F) (key : String) : Option DbText :=
  (e.states.lookup key).join.map fun d => Value.dumps (.dict d.1)

/-- The values of the `INSERT`. -/
def insertRow (previous : DbText) (e : AuditEntry F) : AuditRow where
  entryId := column e "entry_id"
  timestamp := column e "timestamp"
  action := column e "action"
  actor := column e "actor"
  resourceType := column e "resource_type"
  resourceId := column e "resource_id"
  correlationId := column e "correlation_id"
  sessionId := column e "session_id"
  procedureId := column e "procedure_id"
  stepId := column e "step_id"
  beforeState := stateColumn e "before_state"
  afterState := stateColumn e "after_state"
  metadata := stateColumn e "metadata"
  previousHash := some previous
  entryHash := some (hashEntry previous e.toDict)

/-- `write(entry.to_dict())`; the entry id is the primary key. -/
def write (rows : List AuditRow) (e : AuditEntry F) : Option (List AuditRow) :=
  let row := insertRow (previousHash rows) e
  if rows.any fun r => r.entryId = row.entryId then none else some (rows ++ [row])

inductive Report where
  | valid (checked : ℕ) (headHash : DbText)
  | broken (checked : ℕ) (brokenEntryId : Option DbText)
  deriving DecidableEq

variable (F) in
def verifyFrom (previous : DbText) (index : ℕ) : List AuditRow → Option Report
  | [] => some (.valid index previous)
  | row :: rest => (row.entry (F := F)).bind fun entry =>
    let expected := hashEntry previous entry
    if row.previousHash ≠ some previous ∨ row.entryHash ≠ some expected then
      some (.broken index row.entryId)
    else verifyFrom expected (index + 1) rest

variable (F) in
def verifyChain (rows : List AuditRow) : Option Report := verifyFrom F GENESIS 0 rows

end AuditRepository

variable (F) in
/-- The rows get a hash that have none. -/
def backfillAudit (previous : DbText) : List AuditRow → Option (List AuditRow)
  | [] => some []
  | row :: rest =>
    match row.entryHash.getD [] with
    | [] => (row.entry (F := F)).bind fun entry =>
      let hash := hashEntry previous entry
      (backfillAudit hash rest).map
        ({ row with previousHash := some previous, entryHash := some hash } :: ·)
    | hash => (backfillAudit hash rest).map (row :: ·)

variable (F) in
/-- `init_db`, on this table. -/
def initDb (rows : List AuditRow) : Option (List AuditRow) := backfillAudit F GENESIS rows

inductive AuditCall (F : Type) where
  | initDb
  | write (e : AuditEntry F)

/-- The table after a call; one that raises is rolled back. -/
def AuditCall.exec (rows : List AuditRow) : AuditCall F → List AuditRow
  | .initDb => (WorkflowEngine.initDb F rows).getD rows
  | .write e => (AuditRepository.write rows e).getD rows

def auditRun (rows : List AuditRow) (calls : List (AuditCall F)) : List AuditRow :=
  calls.foldl AuditCall.exec rows

end WorkflowEngine
