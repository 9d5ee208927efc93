import WorkflowEngine.Spec.Engine

/-! The authoritative resources of the sandbox (`integrations/sandbox.py`): `get_resource` is
what the engine reads, and `put_resource` is called by others at any moment. -/

namespace WorkflowEngine

open Interleave

/-- `sandbox_authoritative_resources`, by type and id. -/
abbrev ResourceTable := String → String → Option Resource

/-- `put_resource`: an update counts the version up. -/
def ResourceTable.put (t : ResourceTable) (resourceType resourceId : String) (payload : Fields) :
    ResourceTable := fun resourceType' resourceId' =>
  if resourceType' = resourceType ∧ resourceId' = resourceId then
    some ⟨payload, match t resourceType resourceId with
      | none => 1
      | some resource => resource.version + 1⟩
  else t resourceType' resourceId'

/-- `get_resource`, beside the operations of `Y`. -/
abbrev stockSig : Sig := ⟨AuthoritativeResourceRef, fun _ => Option Resource⟩

section
variable {Y : Sig}

structure ResourceChoice (V : World Y) where
  put : Option (AuthoritativeResourceRef × Fields)
  rest : V.Choice

def World.stocked (V : World Y) : World (stockSig.sum Y) where
  State := ResourceTable × V.State
  Choice := ResourceChoice V
  exec e s
    | .inl ref => (s.1 ref.resourceType ref.resourceId, s)
    | .inr o => ((V.exec e.rest s.2 o).1, s.1, (V.exec e.rest s.2 o).2)
  drift e s := (match e.put with
    | none => s.1
    | some (ref, payload) => s.1.put ref.resourceType ref.resourceId payload, V.drift e.rest s.2)

/-- The engine that reads its resources from the table. -/
def Engine.stocked (engine : Engine Y) : Engine (stockSig.sum Y) where
  gateway := {
    connectors := engine.gateway.connectors.beside
    policyRegistry := engine.gateway.policyRegistry.map .beside
    policyResolver := engine.gateway.policyResolver.map .beside }
  resources resourceType resourceId :=
    Prog.perform (S := stockSig.sum Y) (.inl ⟨resourceType, resourceId⟩)
  connectorResolver := engine.connectorResolver.map fun resolve action =>
    (resolve action).map fun resolved => .backedBy resolved.connector.beside resolved
  validatePayload := engine.validatePayload
  binding := engine.binding

end

end WorkflowEngine
