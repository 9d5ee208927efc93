import WorkflowEngine.Fallible.Loops
import WorkflowEngine.Sanity.Footprint
import WorkflowEngine.Sanity.History
import WorkflowEngine.Spec.Registry

/-! A binding is resolved by its own action, id, version and contract version and by nothing
else, so an action is dispatched and reconciled by the connector that it was authorized with, or
by none. -/

namespace WorkflowEngine

open Fallible Interleave Engine

section Update

variable {α β : Type} [DecidableEq α]

/-- `d[k] = v` -/
def put (d : α → Option β) (kv : α × β) : α → Option β := Function.update d kv.1 (some kv.2)

theorem foldl_put_of_not_mem {kvs : List (α × β)} {k : α} (h : k ∉ kvs.map Prod.fst)
    (d : α → Option β) :
    kvs.foldl put d k = d k := by
  induction kvs generalizing d with
  | nil => rfl
  | cons kv kvs ih =>
    rw [List.map_cons, List.mem_cons, not_or] at h
    rw [List.foldl_cons, ih h.2, put, Function.update_of_ne h.1]

theorem foldl_put_of_mem {kvs : List (α × β)} (hnd : (kvs.map Prod.fst).Nodup) {k : α} {v : β}
    (h : (k, v) ∈ kvs) (d : α → Option β) :
    kvs.foldl put d k = some v := by
  induction kvs generalizing d with
  | nil => cases h
  | cons kv kvs ih =>
    obtain ⟨hkv, hkvs⟩ := List.nodup_cons.1 hnd
    rw [List.foldl_cons]
    rcases List.mem_cons.1 h with rfl | h
    · rw [foldl_put_of_not_mem hkv, put, Function.update_self]
    · exact ih hkvs h _

end Update

variable {X Y : Sig}

/-- What the registry keeps of a binding. -/
def ActionConnectorBinding.resolvedWith (binding : ActionConnectorBinding)
    (connector : ActionConnector X) : ResolvedActionConnector X where
  actionName := binding.actionName
  bindingId := binding.bindingId
  bindingVersion := binding.bindingVersion
  contractVersion := binding.contractVersion
  connector := connector

def ActionConnectorBinding.key (binding : ActionConnectorBinding) : String × String × String :=
  (binding.actionName, binding.bindingId, binding.bindingVersion)

theorem unique_of_valid {bindings : List ActionConnectorBinding}
    (h : uniqueActiveActions bindings = .ok ()) :
    ((bindings.filter (·.enabled)).map (·.actionName)).Nodup ∧
      (bindings.map fun b => (b.bindingId, b.bindingVersion)).Nodup := by
  have hnodup : ∀ {α : Type} [DecidableEq α] {xs : List α}, ¬ xs.length ≠ xs.dedup.length →
      xs.Nodup := fun {α} _ xs hlen =>
    (List.dedup_eq_self.1 (xs.dedup_sublist.eq_of_length (not_not.1 hlen).symm))
  unfold uniqueActiveActions at h
  dsimp only at h
  refine ⟨hnodup fun h1 => ?_, hnodup fun h2 => ?_⟩
  · rw [if_pos h1] at h
    split_ifs at h <;> cases h
  · rw [if_pos h2] at h
    split_ifs at h
    cases h

namespace ActionConnectorRegistry

variable {options : RegistryOptions Y} {config : ActionRegistryConfig}
  {registry : ActionConnectorRegistry (httpSig.sum Y)}

/-- A registry that has been built, as the bindings with their connectors. -/
theorem built_from {bindings : List ActionConnectorBinding}
    {registry0 : ActionConnectorRegistry (httpSig.sum Y)}
    (h : bindings.foldlM (fun registry binding => do
      return registry.register binding (← options.connectorOf binding)) registry0 = .ok registry) :
    ∃ built : List (ActionConnectorBinding × ActionConnector (httpSig.sum Y)),
      built.map Prod.fst = bindings ∧ (∀ bc ∈ built, options.connectorOf bc.1 = .ok bc.2) ∧
      registry = built.foldl (fun registry bc => registry.register bc.1 bc.2) registry0 := by
  induction bindings generalizing registry0 with
  | nil =>
    cases h
    exact ⟨[], rfl, nofun, rfl⟩
  | cons binding bindings ih =>
    rw [List.foldlM_cons] at h
    obtain ⟨registry1, hone, h⟩ := bind_eq_ok.1 h
    obtain ⟨connector, hconnector, hone⟩ := bind_eq_ok.1 hone
    cases hone
    obtain ⟨built, rfl, hbuilt, rfl⟩ := ih h
    refine ⟨(binding, connector) :: built, rfl, fun bc hbc => ?_, rfl⟩
    rcases List.mem_cons.1 hbc with rfl | hbc
    · exact hconnector
    · exact hbuilt bc hbc

theorem resolved_foldl (built : List (ActionConnectorBinding × ActionConnector X))
    (registry : ActionConnectorRegistry X) :
    (built.foldl (fun registry bc => registry.register bc.1 bc.2) registry).resolved =
      (built.map fun bc => (bc.1.key, bc.1.resolvedWith bc.2)).foldl put registry.resolved := by
  induction built generalizing registry with
  | nil => rfl
  | cons bc built ih => exact ih _

theorem active_foldl (built : List (ActionConnectorBinding × ActionConnector X))
    (registry : ActionConnectorRegistry X) :
    (built.foldl (fun registry bc => registry.register bc.1 bc.2) registry).active =
      ((built.filter fun bc => bc.1.enabled).map fun bc =>
        (bc.1.actionName, bc.1.resolvedWith bc.2)).foldl put registry.active := by
  induction built generalizing registry with
  | nil => rfl
  | cons bc built ih =>
    rw [List.foldl_cons, ih, List.filter_cons]
    cases he : bc.1.enabled with
    | false => simp [register, he]
    | true => simp [register, he, ActionConnectorBinding.resolvedWith, put]

/-- The registry holds each binding under its key, and nothing else. -/
theorem resolved_iff (h : build options config = .ok registry) {key : String × String × String}
    {r : ResolvedActionConnector (httpSig.sum Y)} :
    registry.resolved key = some r ↔ ∃ binding ∈ config.bindings, ∃ connector,
      options.connectorOf binding = .ok connector ∧ binding.key = key ∧
        r = binding.resolvedWith connector := by
  obtain ⟨built, hmap, hbuilt, rfl⟩ := built_from h
  have hnd : ((built.map fun bc => (bc.1.key, bc.1.resolvedWith bc.2)).map Prod.fst).Nodup := by
    have hids := (unique_of_valid config.valid).2
    rw [← hmap, List.map_map] at hids
    rw [List.map_map]
    exact List.Nodup.of_map Prod.snd (by rw [List.map_map]; exact hids)
  rw [resolved_foldl]
  constructor
  · intro hr
    by_cases hkey : key ∈ (built.map fun bc => (bc.1.key, bc.1.resolvedWith bc.2)).map Prod.fst
    · rw [List.map_map] at hkey
      obtain ⟨bc, hbc, rfl⟩ := List.mem_map.1 hkey
      have hfound := foldl_put_of_mem hnd (List.mem_map.2 ⟨bc, hbc, rfl⟩) fun _ => none
      refine ⟨bc.1, hmap ▸ List.mem_map.2 ⟨bc, hbc, rfl⟩, bc.2, hbuilt bc hbc, rfl, ?_⟩
      exact Option.some.inj (hr.symm.trans hfound)
    · rw [foldl_put_of_not_mem hkey] at hr
      cases hr
  · rintro ⟨binding, hmem, connector, hconnector, rfl, rfl⟩
    rw [← hmap] at hmem
    obtain ⟨bc, hbc, rfl⟩ := List.mem_map.1 hmem
    cases (hbuilt bc hbc).symm.trans hconnector
    exact foldl_put_of_mem hnd (List.mem_map.2 ⟨bc, hbc, rfl⟩) _

theorem active_some (h : build options config = .ok registry) {actionName : String}
    {r : ResolvedActionConnector (httpSig.sum Y)} (hr : registry.active actionName = some r) :
    ∃ binding ∈ config.bindings, binding.enabled = true ∧ binding.actionName = actionName ∧
      ∃ connector, options.connectorOf binding = .ok connector ∧
      r = binding.resolvedWith connector := by
  obtain ⟨built, hmap, hbuilt, rfl⟩ := built_from h
  rw [active_foldl] at hr
  have hnd : (((built.filter fun bc => bc.1.enabled).map fun bc =>
      (bc.1.actionName, bc.1.resolvedWith bc.2)).map Prod.fst).Nodup := by
    have hnames := (unique_of_valid config.valid).1
    rw [← hmap, List.filter_map, List.map_map] at hnames
    rw [List.map_map]
    exact hnames
  by_cases hkey : actionName ∈ ((built.filter fun bc => bc.1.enabled).map fun bc =>
      (bc.1.actionName, bc.1.resolvedWith bc.2)).map Prod.fst
  · rw [List.map_map] at hkey
    obtain ⟨bc, hbc, rfl⟩ := List.mem_map.1 hkey
    obtain ⟨hin, henabled⟩ := List.mem_filter.1 hbc
    have hfound := foldl_put_of_mem hnd (List.mem_map.2 ⟨bc, hbc, rfl⟩) fun _ => none
    exact ⟨bc.1, hmap ▸ List.mem_map.2 ⟨bc, hin, rfl⟩, henabled, rfl, bc.2, hbuilt bc hin,
      Option.some.inj (hr.symm.trans hfound)⟩
  · rw [foldl_put_of_not_mem hkey] at hr
    cases hr

/-- The pins of a configured binding are never empty. -/
theorem resolve_full {bindingId bindingVersion contractVersion actionName : String}
    (hknown : (specification? actionName).isSome = true) (hid : bindingId ≠ "")
    (hversion : bindingVersion ≠ "") (hcontract : contractVersion ≠ "") :
    registry.resolve actionName (some bindingId) (some bindingVersion) (some contractVersion) =
      match registry.resolved (actionName, bindingId, bindingVersion) with
      | none => .error (.valueError ("Configured action binding is unavailable: " ++ actionName ++
          "/" ++ bindingId ++ "/" ++ bindingVersion))
      | some resolved => if resolved.contractVersion ≠ contractVersion then
          .error (.valueError ("Configured action contract is unavailable: " ++ actionName ++ "/" ++
            contractVersion))
        else .ok resolved := by
  have hnone : ¬ (specification? actionName).isNone = true := by
    rw [Option.isNone_iff_eq_none]
    exact Option.isSome_iff_ne_none.1 hknown
  unfold resolve
  rw [if_neg hnone, if_neg (by simp), if_neg (by simp [hid, hversion, hcontract])]
  simp only [Option.getD_some]
  cases registry.resolved (actionName, bindingId, bindingVersion) with
  | none => rfl
  | some resolved =>
    dsimp only
    split_ifs <;> rfl

/-- A full pin resolves to the binding that has exactly its names, or raises. -/
theorem resolve_pinned (h : build options config = .ok registry)
    {actionName bindingId bindingVersion contractVersion : String}
    {r : ResolvedActionConnector (httpSig.sum Y)}
    (hr : registry.resolve actionName (some bindingId) (some bindingVersion)
      (some contractVersion) =
      .ok r) :
    ∃ binding ∈ config.bindings, ∃ connector, options.connectorOf binding = .ok connector ∧
      binding.actionName = actionName ∧ binding.bindingId = bindingId ∧
      binding.bindingVersion = bindingVersion ∧ binding.contractVersion = contractVersion ∧
      r = binding.resolvedWith connector := by
  by_cases hnone : (specification? actionName).isNone = true
  · unfold resolve at hr
    rw [if_pos hnone] at hr
    cases hr
  · have hknown : (specification? actionName).isSome = true := by
      rw [Option.isSome_iff_ne_none]
      exact fun he => hnone (Option.isNone_iff_eq_none.2 he)
    by_cases hempty : bindingId = "" ∨ bindingVersion = "" ∨ contractVersion = ""
    · unfold resolve at hr
      rw [if_neg hnone, if_neg (by simp)] at hr
      simp only [Option.getD_some] at hr
      rw [if_pos hempty] at hr
      cases hr
    · rw [not_or, not_or] at hempty
      rw [resolve_full hknown hempty.1 hempty.2.1 hempty.2.2] at hr
      cases hfound : registry.resolved (actionName, bindingId, bindingVersion) with
      | none =>
        rw [hfound] at hr
        cases hr
      | some resolved =>
        rw [hfound] at hr
        dsimp only at hr
        split_ifs at hr with hcontract
        obtain rfl := Except.ok.inj hr
        obtain ⟨binding, hmem, connector, hconnector, hkey, rfl⟩ := (resolved_iff h).1 hfound
        obtain ⟨hname, hrest⟩ := Prod.mk.inj hkey
        obtain ⟨hid, hversion⟩ := Prod.mk.inj hrest
        exact ⟨binding, hmem, connector, hconnector, hname, hid, hversion, not_not.1 hcontract, rfl⟩

theorem resolve_active (h : build options config = .ok registry) {actionName : String}
    {r : ResolvedActionConnector (httpSig.sum Y)}
    (hr : registry.resolve actionName none none none = .ok r) :
    ∃ binding ∈ config.bindings, binding.enabled = true ∧ binding.actionName = actionName ∧
      ∃ connector, options.connectorOf binding = .ok connector ∧
      r = binding.resolvedWith connector := by
  unfold resolve at hr
  by_cases hknown : (specification? actionName).isNone = true
  · rw [if_pos hknown] at hr
    cases hr
  · rw [if_neg hknown, if_pos ⟨rfl, rfl, rfl⟩] at hr
    cases hfound : registry.active actionName with
    | none =>
      rw [hfound] at hr
      cases hr
    | some resolved =>
      rw [hfound] at hr
      cases hr
      exact active_some h hfound

/-- The lookups of a registry are exact. -/
structure Exact (options : RegistryOptions Y) (config : ActionRegistryConfig)
    (registry : ActionConnectorRegistry (httpSig.sum Y)) : Prop where
  configured : ∀ binding ∈ config.bindings, ∃ connector,
    options.connectorOf binding = .ok connector ∧
    registry.resolve binding.actionName (some binding.bindingId) (some binding.bindingVersion)
      (some binding.contractVersion) = .ok (binding.resolvedWith connector)
  other : ∀ actionName bindingId bindingVersion contractVersion,
    (∀ binding ∈ config.bindings,
      ¬ (binding.actionName = actionName ∧ binding.bindingId = bindingId ∧
      binding.bindingVersion = bindingVersion ∧ binding.contractVersion = contractVersion)) →
    ∃ exc, registry.resolve actionName (some bindingId) (some bindingVersion)
      (some contractVersion) = .error exc
  sole : ∀ actionName, (config.bindings.filter fun binding =>
    decide (binding.actionName = actionName) && binding.enabled).length ≤ 1
  active : ∀ actionName r, registry.resolve actionName none none none = .ok r →
    ∃ binding ∈ config.bindings, binding.enabled = true ∧ binding.actionName = actionName ∧
      ∃ connector, options.connectorOf binding = .ok connector ∧ r = binding.resolvedWith connector

theorem exact_build (h : build options config = .ok registry) : Exact options config registry where
  configured binding hmem := by
    obtain ⟨built, hmap, hbuilt, -⟩ := built_from h
    obtain ⟨bc, hbc, rfl⟩ := List.mem_map.1 (hmap ▸ hmem : binding ∈ built.map Prod.fst)
    have hfound := (resolved_iff h).2 ⟨bc.1, hmem, bc.2, hbuilt bc hbc, rfl, rfl⟩
    refine ⟨bc.2, hbuilt bc hbc, ?_⟩
    rw [resolve_full bc.1.known bc.1.bindingIdMin bc.1.bindingVersionMin bc.1.contractVersionMin]
    change (match registry.resolved bc.1.key with | none => _ | some resolved => _) = _
    rw [hfound]
    exact if_neg (not_not.2 rfl)
  other actionName bindingId bindingVersion contractVersion hnone := by
    cases hr : registry.resolve actionName (some bindingId) (some bindingVersion)
        (some contractVersion) with
    | error exc => exact ⟨exc, rfl⟩
    | ok r =>
      obtain ⟨binding, hmem, -, -, hname, hid, hversion, hcontract, -⟩ := resolve_pinned h hr
      exact absurd ⟨hname, hid, hversion, hcontract⟩ (hnone binding hmem)
  sole actionName := by
    have hcount := List.nodup_iff_count_le_one.1 (unique_of_valid config.valid).1 actionName
    rw [List.count_eq_countP, List.countP_map, List.countP_filter,
      List.countP_eq_length_filter] at hcount
    exact hcount
  active _ _ hr := resolve_active h hr

end ActionConnectorRegistry

/-- The command carries the pins of the binding. -/
structure ActionConnectorBinding.Pins (binding : ActionConnectorBinding) (command : ActionCommand) :
    Prop where
  action : command.action = binding.actionName
  bindingId : command.connectorBindingId = some binding.bindingId
  bindingVersion : command.connectorBindingVersion = some binding.bindingVersion
  contractVersion : command.contractVersion = some binding.contractVersion

namespace ActionGateway

variable (gateway : ActionGateway X)

/-- `dispatch` with the connector that it is given. -/
def dispatchThrough (connector : ActionConnector X) (action : ActionRecord) :
    Task X ActionRecord := do
  if action.status ≠ .authorized then
    return action
  gateway.checkSnapshot action.command
  let (claimedAction, claimed) ← SQLiteCoreStore.claimAction action.actionId
  if !claimed then
    return claimedAction
  let outcome ← callConnector connector action
  CaseKernel.recordOutcome action.actionId outcome.status (some outcome.details)

/-- `dispatch` that raises before it claims the action. -/
def dispatchRefused (exc : PyErr) (action : ActionRecord) : Task X ActionRecord := do
  if action.status ≠ .authorized then
    return action
  gateway.checkSnapshot action.command
  throw exc

/-- `reconcile` with the connector that it is given. -/
def reconcileThrough (connector : ActionConnector X) (action : ActionRecord) :
    Task X ActionRecord := do
  Prog.perform (S := sig X) (.reconcileCalled action)
  let action ← markStale action
  if action.status ≠ .unknown then
    return action
  let outcome ← Task.ext (connector.reconcile action.command action.outcome)
  if outcome.status = .succeeded then
    CaseKernel.recordOutcome action.actionId .reconciled (some outcome.details)
  else
    CaseKernel.recordOutcome action.actionId outcome.status (some outcome.details)

/-- `reconcile` that raises before it calls a connector. -/
def reconcileRefused (exc : PyErr) (action : ActionRecord) : Task X ActionRecord := do
  Prog.perform (S := sig X) (.reconcileCalled action)
  let action ← markStale action
  if action.status ≠ .unknown then
    return action
  throw exc

variable {gateway} {command : ActionCommand}

theorem dispatch_resolved {action : ActionRecord} {r : ResolvedActionConnector X}
    (h : gateway.resolveConnector action.command true = .ok r) :
    gateway.dispatch action = gateway.dispatchThrough r.connector action := by
  unfold dispatch dispatchThrough
  rw [h]
  rfl

theorem dispatch_unresolved {action : ActionRecord} {exc : PyErr}
    (h : gateway.resolveConnector action.command true = .error exc) :
    gateway.dispatch action = gateway.dispatchRefused exc action := by
  unfold dispatch dispatchRefused
  rw [h]
  rfl

/-- The row that a stale action is marked in carries its command. -/
theorem markStale_yields (action : ActionRecord) :
    (markStale action : Task X ActionRecord).Yields
      (Op.reads action.actionId fun a => a.command = action.command)
      fun a => a.command = action.command := by
  unfold markStale
  split_ifs
  · exact recordOutcome_yields ..
  · rfl

theorem reconcile_resolved {action : ActionRecord} {r : ResolvedActionConnector X}
    (h : gateway.resolveConnector action.command true = .ok r) :
    Prog.EqOn (Op.reads action.actionId fun a => a.command = action.command)
      (gateway.reconcile action) (reconcileThrough r.connector action) := by
  refine Prog.eqOn_bind (Prog.yields_true _) fun _ _ => ?_
  refine Prog.eqOn_bind (markStale_yields action) fun row hrow => ?_
  rw [← hrow] at h
  split_ifs
  · exact .refl _
  · unfold query
    rw [h]
    exact .refl _

theorem reconcile_unresolved {action : ActionRecord} {exc : PyErr}
    (h : gateway.resolveConnector action.command true = .error exc) :
    Prog.EqOn (Op.reads action.actionId fun a => a.command = action.command)
      (gateway.reconcile action) (reconcileRefused exc action) := by
  refine Prog.eqOn_bind (Prog.yields_true _) fun _ _ => ?_
  refine Prog.eqOn_bind (markStale_yields action) fun row hrow => ?_
  rw [← hrow] at h
  split_ifs
  · exact .refl _
  · unfold query
    rw [h]
    exact .refl _

theorem authorizeAction_yields (command : ActionCommand) (v : ℤ) :
    (CaseKernel.authorizeAction command v : Task X ActionRecord).Yields (fun _ _ => True)
      fun a => a.command.action = command.action ∧
        a.command.connectorBindingId = command.connectorBindingId ∧
        a.command.connectorBindingVersion = command.connectorBindingVersion ∧
        a.command.contractVersion = command.contractVersion := by
  unfold CaseKernel.authorizeAction
  refine Prog.yields_skip fun found => ?_
  cases found with
  | some duplicate =>
    dsimp only
    split_ifs with heq
    · trivial
    · have hsame : duplicate.command.pyEq command = true := by simpa using heq
      simp only [ActionCommand.pyEq, Bool.and_eq_true, beq_iff_eq] at hsame
      exact ⟨hsame.1.1.1.1.1.1.1.1.1.1.1.1.1, hsame.1.1.2, hsame.1.2, hsame.2⟩
  | none =>
    refine Prog.yields_skip fun _ => Prog.yields_skip fun _ => Prog.yields_skip fun now =>
      Prog.yields_skip fun hex => ?_
    exact Prog.yields_skip fun _ => ⟨rfl, rfl, rfl, rfl⟩

/-- Whatever the store and the world answer, an authorization carries the active binding. -/
theorem authorize_yields {r : ResolvedActionConnector X} (v : ℤ)
    (h : gateway.resolveConnector command false = .ok r) :
    (gateway.authorize command v).Yields (fun _ _ => True) fun a =>
      a.command.action = command.action ∧ a.command.connectorBindingId = some r.bindingId ∧
        a.command.connectorBindingVersion = some r.bindingVersion ∧
        a.command.contractVersion = some r.contractVersion := by
  unfold authorize
  rw [h, Prog.bind_eq, Prog.ofExcept_ok, Prog.bind_ret]
  cases gateway.policy with
  | none => exact authorizeAction_yields _ v
  | some policy =>
    refine Prog.yields_skip fun package => Prog.yields_skip fun case => ?_
    cases case with
    | none => trivial
    | some case =>
      dsimp only
      split_ifs
      · trivial
      · exact Prog.yields_skip fun _ => authorizeAction_yields _ v

theorem authorize_unresolved {exc : PyErr} (v : ℤ)
    (h : gateway.resolveConnector command false = .error exc) :
    gateway.authorize command v = Prog.raise exc := by
  unfold authorize
  rw [h]
  rfl

end ActionGateway

section Store

open Relational

variable {now : Time} {ids : ℕ → String} {db db' : Db} {id : String} {a : ActionRecord}

theorem command_kept_moved {id' : String} {expected : ActionStatus}
    {f : ActionRecord → ActionRecord}
    {event : ActionEvent} (h : Moved id' expected f event db db')
    (hf : ∀ a, (f a).command = a.command) (ha : db.action? id = some a) :
    ∃ b, db'.action? id = some b ∧ b.command = a.command := by
  refine ⟨_, (h.actions ActionColumn.id id).trans (congrArg (Option.map _) ha), ?_⟩
  dsimp only
  split_ifs
  · exact hf a
  · rfl

/-- No transaction changes the command of an action. -/
theorem command_kept {o : Tx} {r : o.Res} (h : Tx.Effect now ids db o r db')
    (ha : db.action? id = some a) : ∃ b, db'.action? id = some b ∧ b.command = a.command := by
  cases h with
  | nothing => exact ⟨a, ha, rfl⟩
  | initialized hm he hf =>
    rw [hf]
    exact ⟨a, ha, rfl⟩
  | created h => exact ⟨a, ha, rfl⟩
  | appended h =>
    rw [h.frame]
    exact ⟨a, ha, rfl⟩
  | inserted h => exact ⟨a, Table.get?_of_insert? h.action ha, rfl⟩
  | moved h => exact command_kept_moved h (fun _ => rfl) ha
  | claimed h => exact command_kept_moved h (fun _ => rfl) ha
  | decided h =>
    rw [h.frame]
    exact ⟨a, ha, rfl⟩
  | proposed h | enqueued h | leased | settled => exact ⟨a, ha, rfl⟩

variable {W : World X} {engine : Engine X} {admits : Admission X W}

/-- The store holds the action with its command, and has answered so. -/
structure HoldsCommand (id : String) (command : ActionCommand) (h : Log W) : Prop where
  stored : ∃ a, h.state.db.action? id = some a ∧ a.command = command
  answered : ∀ x ∈ h.trace, Op.reads id (fun a => a.command = command) x.op x.res

theorem holdsCommand_run {id : String} {s : EngineState W} (ha : s.db.action? id = some a)
    (acts : List (engine.system W admits).Move) :
    HoldsCommand id a.command (engine.history W admits s acts) := by
  refine System.run_induction (G := fun _ _ => True)
    (J := fun c => HoldsCommand id a.command c.hist)
    (c := (engine.system W admits).init s) ⟨⟨a, ha, rfl⟩, fun _ hx => absurd hx List.not_mem_nil⟩
    (fun before m hi _ => ?_) acts
    (System.guarded_true _ _)
  generalize System.run _ _ before = c at hi ⊢
  rcases System.next_cases c m with hn | ⟨call, -, -, hn⟩ | ⟨τ, e, o, k, -, -, hn⟩ |
      ⟨τ, -, hn⟩ | ⟨e, -, hn⟩ <;> rw [hn]
  · exact hi
  · exact ⟨hi.stored, hi.answered⟩
  · obtain ⟨⟨b, hb, hcommand⟩, hanswered⟩ := hi
    constructor
    · obtain ⟨b', hb', hcommand'⟩ : ∃ b',
        ((engine.system W admits).after c.hist τ o e).state.db.action? id =
          some b' ∧ b'.command = b.command := by
        cases o with
        | tx o => exact command_kept (Tx.effect _ e.ids c.hist.state.db o) hb
        | _ => exact ⟨b, hb, rfl⟩
      exact ⟨b', hb', hcommand'.trans hcommand⟩
    · intro x hx
      rcases List.mem_append.1 hx with hx | hx
      · exact hanswered x hx
      · obtain rfl := List.mem_singleton.1 hx
        cases o with
        | tx o =>
          cases o with
          | getAction id' =>
            rintro rfl a' ha'
            obtain rfl : b = a' := Option.some.inj (hb.symm.trans ha')
            exact hcommand
          | _ => trivial
        | _ => trivial
  · exact ⟨hi.stored, hi.answered⟩
  · exact ⟨hi.stored, hi.answered⟩

end Store

/-- A gateway over a registry calls the connector of the binding that the command is pinned to, or
raises before it claims the action and calls any connector. -/
structure UsesPinned (options : RegistryOptions Y) (config : ActionRegistryConfig)
    (gateway : ActionGateway (httpSig.sum Y)) (action : ActionRecord) : Prop where
  dispatch : (∃ binding ∈ config.bindings, ∃ connector,
    options.connectorOf binding = .ok connector ∧
      binding.Pins action.command ∧
      gateway.dispatch action = gateway.dispatchThrough connector action) ∨
    ∃ exc, gateway.dispatch action = gateway.dispatchRefused exc action
  reconcile : (∃ binding ∈ config.bindings, ∃ connector,
    options.connectorOf binding = .ok connector ∧
      binding.Pins action.command ∧
      Prog.EqOn (Op.reads action.actionId fun row => row.command = action.command)
        (gateway.reconcile action) (ActionGateway.reconcileThrough connector action)) ∨
    ∃ exc, Prog.EqOn (Op.reads action.actionId fun row => row.command = action.command)
      (gateway.reconcile action) (ActionGateway.reconcileRefused exc action)

theorem usesPinned {options : RegistryOptions Y} {config : ActionRegistryConfig}
    {registry : ActionConnectorRegistry (httpSig.sum Y)}
    (h : ActionConnectorRegistry.build options config = .ok registry)
    {gateway : ActionGateway (httpSig.sum Y)} (hg : gateway.connectors = registry.connectors)
    {action : ActionRecord} {bindingId bindingVersion contractVersion : String}
    (hid : action.command.connectorBindingId = some bindingId)
    (hversion : action.command.connectorBindingVersion = some bindingVersion)
    (hcontract : action.command.contractVersion = some contractVersion) :
    UsesPinned options config gateway action := by
  have hresolve : gateway.resolveConnector action.command true = registry.resolve
      action.command.action (some bindingId) (some bindingVersion) (some contractVersion) := by
    unfold ActionGateway.resolveConnector
    rw [hg, ← hid, ← hversion, ← hcontract]
    rfl
  cases hr : registry.resolve action.command.action (some bindingId) (some bindingVersion)
      (some contractVersion) with
  | error exc =>
    have hrefused := hresolve.trans hr
    exact ⟨Or.inr ⟨exc, ActionGateway.dispatch_unresolved hrefused⟩,
      Or.inr ⟨exc, ActionGateway.reconcile_unresolved hrefused⟩⟩
  | ok r =>
    have hresolved := hresolve.trans hr
    obtain ⟨binding, hmem, connector, hconnector, hname, rfl, rfl, rfl, rfl⟩ :=
      ActionConnectorRegistry.resolve_pinned h hr
    have hpins : binding.Pins action.command := ⟨hname.symm, hid, hversion, hcontract⟩
    have hdispatch := ActionGateway.dispatch_resolved hresolved
    have hreconcile := ActionGateway.reconcile_resolved hresolved
    exact ⟨Or.inl ⟨binding, hmem, connector, hconnector, hpins, hdispatch⟩,
      Or.inl ⟨binding, hmem, connector, hconnector, hpins, hreconcile⟩⟩

/-- The lookups of a registry are exact, an authorization over it carries the pins of the active
binding, and whatever registry the action is dispatched or reconciled over later, it is by a
connector of these pins. -/
theorem connector_pins_exact (options : RegistryOptions Y) (config : ActionRegistryConfig)
    (registry : ActionConnectorRegistry (httpSig.sum Y))
    (h : ActionConnectorRegistry.build options config = .ok registry)
    (gateway : ActionGateway (httpSig.sum Y)) (hg : gateway.connectors = registry.connectors)
    (command : ActionCommand) (v : ℤ) :
    ActionConnectorRegistry.Exact options config registry ∧
    ((gateway.authorize command v).Yields (fun _ _ => True) fun a => ∃ active ∈ config.bindings,
      active.enabled = true ∧ active.actionName = command.action ∧ active.Pins a.command ∧
      ∀ (options' : RegistryOptions Y) (config' : ActionRegistryConfig)
        (registry' : ActionConnectorRegistry (httpSig.sum Y))
        (gateway' : ActionGateway (httpSig.sum Y)) (action : ActionRecord),
        ActionConnectorRegistry.build options' config' = .ok registry' →
        gateway'.connectors = registry'.connectors → action.command = a.command →
          UsesPinned options' config' gateway' action) ∧
    ∀ (engine : Engine (httpSig.sum Y)) (W : World (httpSig.sum Y)) (admits : Admission _ W)
      (s : EngineState W) (acts : List (engine.system W admits).Move) (id : String)
      (a : ActionRecord), s.db.action? id = some a →
        HoldsCommand id a.command (engine.history W admits s acts) := by
  refine ⟨ActionConnectorRegistry.exact_build h, ?_, fun engine W admits s acts id a ha =>
    holdsCommand_run ha acts⟩
  have hresolve : gateway.resolveConnector command false =
      registry.resolve command.action none none none := by
    unfold ActionGateway.resolveConnector
    rw [hg]
    rfl
  cases hr : registry.resolve command.action none none none with
  | error exc =>
    rw [ActionGateway.authorize_unresolved v (hresolve.trans hr)]
    trivial
  | ok r =>
    refine Prog.yields_mono (fun a hpins => ?_)
      (ActionGateway.authorize_yields v (hresolve.trans hr))
    obtain ⟨haction, hid, hversion, hcontract⟩ := hpins
    obtain ⟨active, hmem, henabled, hname, connector, -, rfl⟩ :=
      ActionConnectorRegistry.resolve_active h hr
    refine ⟨active, hmem, henabled, hname, ⟨haction.trans hname.symm, hid, hversion, hcontract⟩, ?_⟩
    intro options' config' registry' gateway' action h' hg' hcommand
    exact usesPinned h' hg' (by rw [hcommand]; exact hid) (by rw [hcommand]; exact hversion)
      (by rw [hcommand]; exact hcontract)

/-- One binding, of a case system that settles everything. -/
def caseBinding : ActionConnectorBinding where
  actionName := "update_case_status"
  bindingId := "case-system"
  bindingVersion := "7"
  contractVersion := "3"
  transport := .sqlite
  known := by decide
  bindingIdMin := by decide
  bindingIdPattern := by
    have hall : "case-system".toList.all
        (fun c => c.isAlphanum || decide (c ∈ ['_', '.', ':', '-'])) = true := by decide
    intro c hc
    have hc' := List.all_eq_true.1 hall c hc
    rw [Bool.or_eq_true, decide_eq_true_eq] at hc'
    exact hc'
  bindingVersionMin := by decide
  contractVersionMin := by decide

def caseConnector : ActionConnector (httpSig.sum ⟨Empty, Empty.elim⟩) where
  dispatch _ := return ⟨.succeeded, []⟩
  reconcile _ _ := return ⟨.succeeded, []⟩

def caseOptions : RegistryOptions ⟨Empty, Empty.elim⟩ where
  sqliteConnectors _ := some caseConnector
  resolveSecret _ := .ok ""
  tables := ⟨fun _ => true, id⟩
  loadFactory _ _ := .ok none
  readBytes path := .error (.other path)
  loadDocument path := .error (.other path)
  upper := id

def caseConfig : ActionRegistryConfig where
  bindings := [caseBinding]
  versionMin := by decide
  valid := by decide

def caseRegistry : ActionConnectorRegistry (httpSig.sum ⟨Empty, Empty.elim⟩) :=
  ActionConnectorRegistry.register {} caseBinding caseConnector

theorem connector_pins_exact_case : (∃ connector, caseRegistry.resolve "update_case_status"
      (some "case-system") (some "7") (some "3") = .ok (caseBinding.resolvedWith connector)) ∧
    ∀ command v, (ActionGateway.authorize ⟨caseRegistry.connectors, none, none⟩ command v).Yields
      (fun _ _ => True) fun a => a.command.connectorBindingId = some "case-system" := by
  have h : ActionConnectorRegistry.build caseOptions caseConfig = .ok caseRegistry := rfl
  constructor
  · obtain ⟨connector, -, hr⟩ := (connector_pins_exact caseOptions caseConfig caseRegistry h
      ⟨caseRegistry.connectors, none, none⟩ rfl
      ⟨"update_case_status", "C", "P", "A", "key-1", [], [], [],
        none, none, none, none, none, none, by decide⟩ 0).1.configured caseBinding
          (List.mem_singleton_self _)
    exact ⟨connector, hr⟩
  · intro command v
    refine Prog.yields_mono (fun a ha => ?_)
      (connector_pins_exact caseOptions caseConfig caseRegistry h
      ⟨caseRegistry.connectors, none, none⟩ rfl command v).2.1
    obtain ⟨active, hmem, -, -, hpins, -⟩ := ha
    obtain rfl := List.mem_singleton.1 hmem
    exact hpins.bindingId

end WorkflowEngine
