import WorkflowEngine.Spec.Engine
import WorkflowEngine.Spec.PolicyStore

/-! The engine with a running `PolicyService` as its policy resolver. The operations of the
service are executed atomically, between any two steps of the engine's tasks. -/

namespace WorkflowEngine

open Interleave

/-- An operation of the service, or a restart of its process with a signer. -/
inductive PolicyEvent where
  | call (call : PolicyCall)
  | restart (signer : PolicySigner)

namespace PolicyState

variable (hmac : Hmac)

def apply (s : PolicyState) : PolicyEvent → PolicyState
  | .call call => s.perform hmac call
  | .restart signer => s.restart hmac signer

def applyAll (s : PolicyState) (events : List PolicyEvent) : PolicyState :=
  events.foldl (apply hmac) s

end PolicyState

section
variable {S Y : Sig}

def PolicyResolver.ahead (resolver : PolicyResolver S) : PolicyResolver (S.sum Y) where
  requireActive packageId := (resolver.requireActive packageId).lift Sum.inl fun _ r => r
  requireAuthorizationSnapshot packageId signature :=
    (resolver.requireAuthorizationSnapshot packageId signature).lift Sum.inl fun _ r => r

end

variable {Y : Sig}

structure GovernedChoice (V : World Y) where
  events : List PolicyEvent
  rest : V.Choice

/-- The policy service beside the world of the connectors. -/
def World.governed (hmac : Hmac) (V : World Y) : World (policyStoreSig.sum Y) where
  State := PolicyState × V.State
  Choice := GovernedChoice V
  exec e s
    | .inl o => ((s.1.exec hmac o).1, ((s.1.exec hmac o).2, s.2))
    | .inr o => ((V.exec e.rest s.2 o).1, (s.1, (V.exec e.rest s.2 o).2))
  drift e s := (s.1.applyAll hmac e.events, V.drift e.rest s.2)

/-- The engine with the service as its policy resolver. -/
def Engine.governed (hmac : Hmac) (engine : Engine Y) : Engine (policyStoreSig.sum Y) where
  gateway := {
    connectors := engine.gateway.connectors.beside
    policyResolver := some (PolicyService.current hmac).ahead }
  resources resourceType resourceId :=
    (engine.resources resourceType resourceId).lift Sum.inr fun _ r => r
  validatePayload := engine.validatePayload
  binding := engine.binding

end WorkflowEngine
