import WorkflowEngine.Spec.Engine

/-! The engine over a durable policy repository (`core/policy_store.py`) and a
resource adapter. Policies may be published at any moment, and every lookup of a
resource may answer anything. What the connectors use is a further signature. -/

namespace WorkflowEngine

open Interleave Relational

/-- The lookups of an authoritative resource adapter. -/
def resourceSig : Sig where
  Op := AuthoritativeResourceRef
  Res _ := Except PyErr (Option Resource)

abbrev deployedSig (Y : Sig) : Sig := policySig.sum (resourceSig.sum Y)

/-- The rows of `policy_packages`, by their primary key. -/
abbrev PolicyTable := Table Unit String fun _ => PolicyPackage.packageId

variable {Y : Sig}

structure DeployedChoice (V : World Y) where
  policies : PolicyTable
  resource : Except PyErr (Option Resource)
  rest : V.Choice

/-- A publication replaces the rows of the repository; `resource` is the adapter's answer. -/
def World.deployed (V : World Y) : World (deployedSig Y) where
  State := PolicyTable × V.State
  Choice := DeployedChoice V
  exec e s
    | .inl (.get packageId) => (s.1.get? () packageId, s)
    | .inr (.inl _) => (e.resource, s)
    | .inr (.inr o) => ((V.exec e.rest s.2 o).1, (s.1, (V.exec e.rest s.2 o).2))
  drift e s := (e.policies, V.drift e.rest s.2)

def PolicyResolver.deployed (resolver : PolicyResolver policySig) :
    PolicyResolver (deployedSig Y) where
  requireActive packageId := (resolver.requireActive packageId).lift Sum.inl fun _ r => r
  requireAuthorizationSnapshot packageId signature :=
    (resolver.requireAuthorizationSnapshot packageId signature).lift Sum.inl fun _ r => r

def getResource : AuthoritativeResourceProvider (deployedSig Y) := fun resourceType resourceId =>
  Prog.bind (Prog.perform (S := deployedSig Y) (.inr (.inl ⟨resourceType, resourceId⟩)))
    fun answer => Prog.ofExcept answer

/-- The engine with a `PolicyService` as its resolver and the adapter as its provider. -/
def Engine.deployed (hmac : Hmac) (signer : PolicySigner) (engine : Engine (deployedSig Y)) :
    Engine (deployedSig Y) :=
  { engine with
    gateway := { engine.gateway with
      policyResolver := some (PolicyService.resolver hmac signer).deployed }
    resources := getResource }

end WorkflowEngine
