import WorkflowEngine.Interleave.Prog
import WorkflowEngine.Spec.Records

/-! Signed policy packages (`core/policy.py`) and the two lookups of `PolicyService`
that the gateway uses (`core/policy_store.py`). HMAC-SHA256 is a parameter. -/

namespace WorkflowEngine

open Interleave

inductive PolicyLifecycle where
  | draft | approved | active | retired
  deriving DecidableEq, Repr

structure PolicyPackage where
  packageId : String
  procedureId : String
  version : String
  jurisdiction : String
  author : String
  rules : Fields
  lifecycle : PolicyLifecycle := .draft
  approver : Option String := none
  signingKeyId : Option String := none
  activationSignature : Option String := none
  signature : Option String := none
  deriving DecidableEq

/-- The signed fields: everything but the two signatures. -/
def PolicyPackage.canonicalPayload (p : PolicyPackage) : PolicyPackage :=
  { p with signature := none, activationSignature := none }

/-- What the canonical JSON of the signed fields shows; its keys are sorted. -/
def PolicyPackage.canonicalForm (p : PolicyPackage) : PolicyPackage :=
  { p.canonicalPayload with rules := p.rules.sortKeys }

structure PolicySigner where
  key : String
  keyId : String
  verificationKeys : List (String × String)

/-- `hmac.new(key, canonical_payload, sha256).hexdigest()` -/
abbrev Hmac := String → PolicyPackage → String

def PolicySigner.verify (hmac : Hmac) (signer : PolicySigner) (package : PolicyPackage) : Bool :=
  if package.signature.getD "" = "" ∨
      package.lifecycle ∉ [PolicyLifecycle.approved, .active, .retired] then false
  else match package.signingKeyId with
    | none => false
    | some keyId => match ((signer.keyId, signer.key) :: signer.verificationKeys).lookup keyId with
      | none => false
      | some key => package.signature == some (hmac key package.canonicalPayload)

inductive PolicyOp where
  | get (packageId : String)

/-- The reads of the policy repository. -/
def policySig : Sig where
  Op := PolicyOp
  Res
    | .get _ => Option PolicyPackage

/-- `PolicyResolver`, and the in-process `PolicyRegistry` behind the same two methods. -/
structure PolicyResolver (X : Sig) where
  requireActive : String → Prog X PyErr PolicyPackage
  requireAuthorizationSnapshot : String → String → Prog X PyErr PolicyPackage

namespace PolicyService

def require (packageId : String) : Prog policySig PyErr PolicyPackage := do
  match ← Prog.perform (S := policySig) (.get packageId) with
  | none => throw (.keyError packageId)
  | some package => return package

variable (hmac : Hmac) (signer : PolicySigner)

def requireActive (packageId : String) : Prog policySig PyErr PolicyPackage := do
  let package ← require packageId
  if package.lifecycle ≠ .active ∨ !signer.verify hmac package then
    throw (.valueError ("Policy package is not active: " ++ packageId))
  return package

def requireAuthorizationSnapshot (packageId activationSignature : String) :
    Prog policySig PyErr PolicyPackage := do
  let package ← require packageId
  if package.lifecycle ∉ [PolicyLifecycle.active, .retired] then
    throw (.valueError "Policy package is not executable history")
  if !signer.verify hmac package then
    throw (.valueError "Policy history signature is invalid")
  if package.activationSignature ≠ some activationSignature then
    throw (.valueError "Action policy activation snapshot does not match history")
  return package

def resolver : PolicyResolver policySig where
  requireActive := requireActive hmac signer
  requireAuthorizationSnapshot := requireAuthorizationSnapshot hmac signer

end PolicyService
end WorkflowEngine
