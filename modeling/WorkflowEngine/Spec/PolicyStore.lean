import Mathlib.Data.List.Sort
import WorkflowEngine.Interleave.System
import WorkflowEngine.Spec.ActionSpecs
import WorkflowEngine.Spec.Policy

/-! The policy repository and the lifecycle operations of `PolicyService`
(`core/policy_store.py`), with the signing side of `PolicySigner` and the
in-process `PolicyRegistry` (`core/policy.py`). -/

namespace WorkflowEngine

open Interleave Relational

/-- One row of `policy_packages`. -/
structure PolicyRow where
  packageId : String
  procedureId : String
  version : String
  jurisdiction : String
  lifecycle : PolicyLifecycle
  packageJson : PolicyPackage

namespace PolicyRow

/-- The values that `save` binds. -/
def ofPackage (package : PolicyPackage) : PolicyRow where
  packageId := package.packageId
  procedureId := package.procedureId
  version := package.version
  jurisdiction := package.jurisdiction
  lifecycle := package.lifecycle
  packageJson := package

/-- `DO UPDATE SET lifecycle=excluded.lifecycle, package_json=excluded.package_json`: the
other columns keep the values of the first insertion. -/
def merge (old new : PolicyRow) : PolicyRow :=
  { old with lifecycle := new.lifecycle, packageJson := new.packageJson }

@[simp] theorem packageId_merge (old new : PolicyRow) : (old.merge new).packageId = old.packageId :=
  rfl

/-- `idx_one_active_policy` -/
def activeSlot (row : PolicyRow) : Option (String × String) :=
  if row.lifecycle = .active then some (row.procedureId, row.jurisdiction) else none

/-- `ORDER BY procedure_id,version` -/
def le (a b : PolicyRow) : Prop :=
  a.procedureId < b.procedureId ∨ a.procedureId = b.procedureId ∧ a.version ≤ b.version

instance : DecidableRel le := fun a b =>
  inferInstanceAs (Decidable (a.procedureId < b.procedureId ∨
    a.procedureId = b.procedureId ∧ a.version ≤ b.version))

end PolicyRow

/-- The table `policy_packages` with its primary key and its partial unique index. -/
abbrev PolicyPackages := Indexed Unit String (String × String) (fun _ => PolicyRow.packageId)
  PolicyRow.activeSlot

namespace SQLitePolicyRepository

/-- The upsert that `save` and `replace_active` share. -/
def upsert (t : PolicyPackages) (package : PolicyPackage) : Except PyErr PolicyPackages :=
  match Indexed.check? (t.toTable.upsert (.ofPackage package) .merge PolicyRow.packageId_merge) with
  | some t' => .ok t'
  | none => .error .integrityError

def retireRow (t : PolicyPackages) (package : PolicyPackage) : Except PyErr PolicyPackages :=
  match Indexed.check? (t.toTable.updateWhere (fun row => row.packageId = package.packageId)
      (fun row => { row with lifecycle := .retired, packageJson := package }) fun _ _ => rfl) with
  | some t' => .ok t'
  | none => .error .integrityError

def save (t : PolicyPackages) (package : PolicyPackage) : Except PyErr PolicyPackages :=
  upsert t package

/-- Retire prior packages and activate one replacement. -/
def replaceActive (t : PolicyPackages) (active : PolicyPackage) (retired : List PolicyPackage) :
    Except PyErr PolicyPackages := do
  let t ← retired.foldlM retireRow t
  upsert t active

def get (t : PolicyPackages) (packageId : String) : Option PolicyPackage :=
  (t.toTable.get? () packageId).map (·.packageJson)

def list (t : PolicyPackages) (lifecycle : Option PolicyLifecycle) : List PolicyPackage :=
  let rows := match lifecycle with
    | none => t.rows
    | some lifecycle => t.rows.filter fun row => row.lifecycle = lifecycle
  (rows.insertionSort PolicyRow.le).map (·.packageJson)

end SQLitePolicyRepository

namespace PolicySigner

variable (hmac : Hmac) (signer : PolicySigner)

def approve (package : PolicyPackage) (approver : String) : Except PyErr PolicyPackage :=
  if approver = package.author then
    .error (.valueError "Policy author and approver must be separate")
  else
    let approved := { package with
      approver := some approver
      lifecycle := .approved
      signingKeyId := some signer.keyId
      signature := none }
    .ok { approved with signature := some (hmac signer.key approved.canonicalPayload) }

def activate (package : PolicyPackage) : Except PyErr PolicyPackage :=
  if package.lifecycle ≠ .approved ∨ !signer.verify hmac package then
    .error (.valueError "Only a valid approved package can be activated")
  else
    let active := { package with
      lifecycle := .active
      signingKeyId := some signer.keyId
      signature := none }
    let signature := hmac signer.key active.canonicalPayload
    .ok { active with signature := some signature, activationSignature := some signature }

def retire (package : PolicyPackage) : Except PyErr PolicyPackage :=
  if package.lifecycle ≠ .active ∨ !signer.verify hmac package then
    .error (.valueError "Only a valid active package can be retired")
  else
    let retired := { package with
      lifecycle := .retired
      signingKeyId := some signer.keyId
      signature := none }
    .ok { retired with signature := some (hmac signer.key retired.canonicalPayload) }

/-- `verification_keys.get(key_id)` -/
def verificationKey (keyId : String) : Option String :=
  ((signer.keyId, signer.key) :: signer.verificationKeys).lookup keyId

/-- A rotation that keeps every earlier key for verification. -/
def Keeps (new old : PolicySigner) : Prop :=
  ∀ keyId ∈ old.keyId :: old.verificationKeys.map (·.1),
    new.verificationKey keyId = old.verificationKey keyId

instance (new old : PolicySigner) : Decidable (new.Keeps old) :=
  inferInstanceAs (Decidable (∀ keyId ∈ old.keyId :: old.verificationKeys.map (·.1),
    new.verificationKey keyId = old.verificationKey keyId))

end PolicySigner

/-- The in-process registry; its dicts map package ids to packages. -/
structure PolicyRegistry where
  signer : PolicySigner
  active : String → Option PolicyPackage := fun _ => none
  packages : String → Option PolicyPackage := fun _ => none

inductive RegistryUpdate where
  | load (package : PolicyPackage)
  | loadHistory (package : PolicyPackage)
  | retire (packageId : String)

namespace PolicyRegistry

variable (hmac : Hmac) (registry : PolicyRegistry)

def load (package : PolicyPackage) : Except PyErr PolicyRegistry :=
  if package.lifecycle ≠ .active ∨ !registry.signer.verify hmac package then
    .error (.valueError "Policy registry accepts only valid active packages")
  else .ok { registry with
    active := Function.update registry.active package.packageId (some package)
    packages := Function.update registry.packages package.packageId (some package) }

def loadHistory (package : PolicyPackage) : Except PyErr PolicyRegistry :=
  if package.lifecycle ∉ [PolicyLifecycle.active, .retired] then
    .error (.valueError "Policy history accepts only active or retired packages")
  else if !registry.signer.verify hmac package then
    .error (.valueError "Policy history package signature is invalid")
  else .ok { registry with
    packages := Function.update registry.packages package.packageId (some package)
    active := if package.lifecycle = .active then
        Function.update registry.active package.packageId (some package)
      else registry.active }

def retire (packageId : String) : PolicyRegistry :=
  { registry with active := Function.update registry.active packageId none }

def update : RegistryUpdate → Except PyErr PolicyRegistry
  | .load package => registry.load hmac package
  | .loadHistory package => registry.loadHistory hmac package
  | .retire packageId => .ok (registry.retire packageId)

/-- Updates made one after the other; an exception leaves those before it in place. -/
def updateAll : PolicyRegistry → List RegistryUpdate → Except PyErr Unit × PolicyRegistry
  | registry, [] => (.ok (), registry)
  | registry, u :: us => match registry.update hmac u with
    | .ok registry' => registry'.updateAll us
    | .error e => (.error e, registry)

def requireActive (packageId : String) : Except PyErr PolicyPackage :=
  match registry.active packageId with
  | some package => .ok package
  | none => .error (.valueError ("Policy package is not active: " ++ packageId))

def requireAuthorizationSnapshot (packageId activationSignature : String) :
    Except PyErr PolicyPackage :=
  match registry.packages packageId with
  | none => .error (.valueError ("Policy package history is unavailable: " ++ packageId))
  | some package =>
    if package.activationSignature ≠ some activationSignature then
      .error (.valueError "Action policy activation snapshot does not match policy history")
    else if !registry.signer.verify hmac package then
      .error (.valueError "Action policy history signature is invalid")
    else .ok package

end PolicyRegistry

structure PolicyState where
  packages : PolicyPackages
  registry : PolicyRegistry

/-- What a `PolicyService` does: it reads its signer, calls the repository, one transaction
each, and updates its registry. -/
inductive PolicyStoreOp where
  | signer
  | get (packageId : String)
  | list (lifecycle : Option PolicyLifecycle)
  | save (package : PolicyPackage)
  | replaceActive (active : PolicyPackage) (retired : List PolicyPackage)
  | registry (updates : List RegistryUpdate)

abbrev policyStoreSig : Sig where
  Op := PolicyStoreOp
  Res
    | .signer => PolicySigner
    | .get _ => Option PolicyPackage
    | .list _ => List PolicyPackage
    | .save _ => Except PyErr Unit
    | .replaceActive .. => Except PyErr Unit
    | .registry _ => Except PyErr Unit

namespace PolicyState

/-- A transaction that fails is rolled back. -/
def commit (s : PolicyState) : Except PyErr PolicyPackages → Except PyErr Unit × PolicyState
  | .ok packages => (.ok (), { s with packages })
  | .error e => (.error e, s)

def exec (hmac : Hmac) (s : PolicyState) :
    (o : policyStoreSig.Op) → policyStoreSig.Res o × PolicyState
  | .signer => (s.registry.signer, s)
  | .get packageId => (SQLitePolicyRepository.get s.packages packageId, s)
  | .list lifecycle => (SQLitePolicyRepository.list s.packages lifecycle, s)
  | .save package => s.commit (SQLitePolicyRepository.save s.packages package)
  | .replaceActive active retired =>
    s.commit (SQLitePolicyRepository.replaceActive s.packages active retired)
  | .registry updates =>
    ((s.registry.updateAll hmac updates).1,
      { s with registry := (s.registry.updateAll hmac updates).2 })

end PolicyState

/-- A program of a `PolicyService`. -/
abbrev PolicyTask := Prog policyStoreSig PyErr

namespace PolicyTask

def signer : PolicyTask PolicySigner := Prog.perform (S := policyStoreSig) .signer

def get (packageId : String) : PolicyTask (Option PolicyPackage) :=
  Prog.perform (S := policyStoreSig) (.get packageId)

def list (lifecycle : Option PolicyLifecycle) : PolicyTask (List PolicyPackage) :=
  Prog.perform (S := policyStoreSig) (.list lifecycle)

def save (package : PolicyPackage) : PolicyTask Unit := do
  Prog.ofExcept (← Prog.perform (S := policyStoreSig) (.save package))

def replaceActive (active : PolicyPackage) (retired : List PolicyPackage) : PolicyTask Unit := do
  Prog.ofExcept (← Prog.perform (S := policyStoreSig) (.replaceActive active retired))

def registry (updates : List RegistryUpdate) : PolicyTask Unit := do
  Prog.ofExcept (← Prog.perform (S := policyStoreSig) (.registry updates))

end PolicyTask

namespace PolicyService

/-- The test of `allowed_actions` in `create_draft`. -/
def checkActions (rules : Fields) : Except PyErr Unit :=
  match (rules.get? "allowed_actions").getD (.list []) with
  | .list allowed =>
    match allowed.mapM fun | .str action => some action | _ => none with
    | none => .error (.valueError "allowed_actions must be a list of action names")
    | some actions =>
      let unknown := (actions.filter fun action => (specification? action).isNone).dedup
      if unknown.isEmpty then .ok ()
      else .error (.valueError ("Policy contains unknown actions: " ++
        String.intercalate ", " (unknown.insertionSort (· ≤ ·))))
  | _ => .error (.valueError "allowed_actions must be a list of action names")

def createDraft (package : PolicyPackage) : PolicyTask PolicyPackage := do
  if package.lifecycle ≠ .draft then
    throw (.valueError "New policy packages must begin as drafts")
  match ← PolicyTask.get package.packageId with
  | some _ => throw (.valueError ("Policy package already exists: " ++ package.packageId))
  | none =>
    Prog.ofExcept (checkActions package.rules)
    PolicyTask.save package
    return package

/-- A program that only reads the repository. -/
def reading {α : Type} (p : Prog policySig PyErr α) : PolicyTask α :=
  Prog.lift (S := policySig) (T := policyStoreSig) (fun | .get packageId => .get packageId)
    (fun | .get _, r => r) p

variable (hmac : Hmac) (signer : PolicySigner)

def approve (packageId approver : String) : PolicyTask PolicyPackage := do
  let package ← reading (require packageId)
  if package.lifecycle ≠ .draft then
    throw (.valueError "Only draft policies can be approved")
  let approved ← Prog.ofExcept (signer.approve hmac package approver)
  PolicyTask.save approved
  return approved

/-- The other packages of the procedure and jurisdiction. -/
def prior (active : PolicyPackage) (existing : List PolicyPackage) : List PolicyPackage :=
  existing.filter fun existing =>
    existing.procedureId = active.procedureId ∧ existing.jurisdiction = active.jurisdiction ∧
      existing.packageId ≠ active.packageId

def activate (packageId : String) : PolicyTask PolicyPackage := do
  let package ← reading (require packageId)
  let active ← Prog.ofExcept (signer.activate hmac package)
  let existing ← PolicyTask.list (some .active)
  let retired ← Prog.ofExcept ((prior active existing).mapM (signer.retire hmac))
  PolicyTask.replaceActive active retired
  PolicyTask.registry (retired.map (fun existing => .retire existing.packageId) ++ [.load active])
  return active

def retire (packageId : String) : PolicyTask PolicyPackage := do
  let package ← reading (require packageId)
  let retired ← Prog.ofExcept (signer.retire hmac package)
  PolicyTask.save retired
  PolicyTask.registry [.retire packageId]
  return retired

def hydrate : PolicyTask Unit := do
  let packages ← PolicyTask.list none
  PolicyTask.registry ((packages.filter fun package =>
    package.lifecycle ∈ [PolicyLifecycle.active, .retired]).map .loadHistory)

/-- A lookup, and the registry's copy of what it returns. -/
def loading (p : Prog policySig PyErr PolicyPackage) : PolicyTask PolicyPackage := do
  let package ← reading p
  PolicyTask.registry [.loadHistory package]
  return package

/-- The lookups of the running service. -/
def current : PolicyResolver policyStoreSig where
  requireActive packageId := do
    let signer ← PolicyTask.signer
    loading (requireActive hmac signer packageId)
  requireAuthorizationSnapshot packageId activationSignature := do
    let signer ← PolicyTask.signer
    loading (requireAuthorizationSnapshot hmac signer packageId activationSignature)

end PolicyService

inductive PolicyCall where
  | createDraft (package : PolicyPackage)
  | approve (packageId approver : String)
  | activate (packageId : String)
  | retire (packageId : String)

namespace PolicyCall

variable (hmac : Hmac)

/-- The call, on the service that runs when it arrives. -/
def body (call : PolicyCall) : PolicyTask PolicyPackage := do
  let signer ← PolicyTask.signer
  match call with
  | .createDraft package => PolicyService.createDraft package
  | .approve packageId approver => PolicyService.approve hmac signer packageId approver
  | .activate packageId => PolicyService.activate hmac signer packageId
  | .retire packageId => PolicyService.retire hmac signer packageId

end PolicyCall

/-- A call of the service: one of its operations, or a lookup. -/
inductive PolicyServiceCall where
  | operation (call : PolicyCall)
  | requireActive (packageId : String)
  | requireAuthorizationSnapshot (packageId activationSignature : String)

def PolicyServiceCall.body (hmac : Hmac) : PolicyServiceCall → PolicyTask PolicyPackage
  | .operation call => call.body hmac
  | .requireActive packageId => (PolicyService.current hmac).requireActive packageId
  | .requireAuthorizationSnapshot packageId activationSignature =>
    (PolicyService.current hmac).requireAuthorizationSnapshot packageId activationSignature

namespace PolicyState

variable (hmac : Hmac)

/-- The process starts with a cleared registry and hydrates it; a signer that lost a key is
not a rotation. -/
def restart (s : PolicyState) (signer : PolicySigner) : PolicyState :=
  if signer.Keeps s.registry.signer then
    (PolicyService.hydrate.alone (exec hmac) { s with registry := { signer } }).2
  else s

/-- A call executed with nothing in between. -/
def perform (s : PolicyState) (call : PolicyCall) : PolicyState :=
  ((call.body hmac).alone (exec hmac) s).2

/-- An empty repository. -/
def empty (signer : PolicySigner) : PolicyState := ⟨Indexed.empty, { signer }⟩

/-- Calls of one process, one after the other, whether they raise or not. -/
def serve (s : PolicyState) (calls : List PolicyServiceCall) : PolicyState :=
  calls.foldl (fun s call => ((call.body hmac).alone (exec hmac) s).2) s

/-- A new registry, and what `hydrate` answers and makes of it. -/
def hydrated (s : PolicyState) : Except PyErr Unit × PolicyRegistry :=
  let fresh :=
    PolicyService.hydrate.alone (exec hmac) { s with registry := { signer := s.registry.signer } }
  (fresh.1, fresh.2.registry)

/-- The repository after non-overlapping `create_draft` calls. -/
def drafted (signer : PolicySigner) (packages : List PolicyPackage) : PolicyState :=
  packages.foldl (fun s package => s.perform hmac (.createDraft package)) (empty signer)

end PolicyState

/-- The policy service as a system of tasks. A drift is a restart of the process, possibly
with a rotated key. -/
abbrev policySystem (hmac : Hmac) (admits : PolicyCall → Bool) :
    System policyStoreSig PyErr PolicyPackage where
  State := PolicyState
  Choice := PolicySigner
  Call := PolicyCall
  exec _ s o := s.exec hmac o
  drift signer s := s.restart hmac signer
  admits _ call := admits call
  body call := call.body hmac

abbrev PolicyLog := Hist policyStoreSig PolicyState PolicyCall

/-- The history of the run of a schedule from a state of the repository. -/
def policyHistory (hmac : Hmac) (admits : PolicyCall → Bool) (s : PolicyState)
    (acts : List (policySystem hmac admits).Move) : PolicyLog :=
  ((policySystem hmac admits).run ((policySystem hmac admits).init s) acts).hist

end WorkflowEngine
