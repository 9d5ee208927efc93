import WorkflowEngine.Interleave.Trail
import WorkflowEngine.Proofs.PolicySnapshot
import WorkflowEngine.Sanity.Alone

/-! The allow-list of a policy package. `create_draft` reads a missing list as the empty one, and
the gateway reads it as every action. -/

namespace WorkflowEngine

open Interleave Engine PolicyPackages

variable {hmac : Hmac} {Y : Sig} {V : World Y} {engine : Engine Y}

abbrev GovernedOp (Y : Sig) := Op (policyStoreSig.sum Y)

abbrev GovernedEvent (Y : Sig) := Event (sig (policyStoreSig.sum Y))

/-- The task has read `package` under the id `k`. -/
def readPackage (k : String) (package : PolicyPackage) : GovernedEvent Y :=
  ⟨.ext (.inl (.get k)), some package⟩

/-- Nothing is written to the policy repository. -/
def Op.sparesPolicies : GovernedOp Y → Prop
  | .ext (.inl o) => PolicyStoreOp.writes o = []
  | _ => True

/-! The lookups of the running service. -/

/-- A lookup that returns a package has read it. -/
theorem path_lookup {k : String} {check : PolicyPackage → Prog policySig PyErr PolicyPackage}
    (hcheck : ∀ package, (∃ e, check package = .raise e) ∨ check package = .ret package)
    {package : PolicyPackage} {xs : List (GovernedEvent Y)}
    (h : Follows (Task.ext (Prog.lift Sum.inl (fun _ r => r) (PolicyService.loading
      (PolicyService.require k >>= check))) : Task (policyStoreSig.sum Y) PolicyPackage) xs
        (.ret package)) : readPackage k package ∈ xs := by
  cases h with
  | @cons _ _ found ys _ h =>
    cases found with
    | none => cases h.of_raise.2
    | some package' =>
      change Follows (Prog.lift Op.ext (fun _ r => r) (Prog.lift Sum.inl (fun _ r => r)
        ((PolicyService.reading (check package')).bind fun package =>
          (PolicyTask.registry [.loadHistory package]).bind fun _ => .ret package))) ys
            (.ret package) at h
      rcases hcheck package' with ⟨e, he⟩ | he
      · rw [he] at h
        cases h.of_raise.2
      · rw [he] at h
        cases h with
        | @cons _ _ updated zs _ h =>
          cases updated with
          | error e => cases h.of_raise.2
          | ok u =>
            obtain ⟨-, hp⟩ := h.of_ret
            cases hp
            exact List.mem_cons_self

theorem path_requireActive {k : String} {package : PolicyPackage} {xs : List (GovernedEvent Y)}
    (h : Follows (Task.ext ((PolicyService.current hmac).ahead.requireActive k) :
      Task (policyStoreSig.sum Y) PolicyPackage) xs (.ret package)) :
    readPackage k package ∈ xs := by
  cases h with
  | @cons _ _ signer ys _ h =>
    refine List.mem_cons_of_mem _ (path_lookup (fun package => ?_) h)
    simp only [Prog.throw_eq, Prog.bind_eq, Prog.bind_raise, Prog.pure_eq]
    split_ifs
    · exact Or.inl ⟨_, rfl⟩
    · exact Or.inr rfl

theorem path_requireAuthorizationSnapshot {k signature : String} {package : PolicyPackage}
    {xs : List (GovernedEvent Y)}
    (h : Follows (Task.ext
      ((PolicyService.current hmac).ahead.requireAuthorizationSnapshot k signature) :
        Task (policyStoreSig.sum Y) PolicyPackage) xs (.ret package)) :
    readPackage k package ∈ xs := by
  cases h with
  | @cons _ _ signer ys _ h =>
    refine List.mem_cons_of_mem _ (path_lookup (fun package => ?_) h)
    simp only [Prog.throw_eq, Prog.bind_eq, Prog.bind_raise, Prog.pure_eq]
    split_ifs <;> first | exact Or.inl ⟨_, rfl⟩ | exact Or.inr rfl

/-! The gateway. -/

/-- A path of `authorize` with an insertion has read the package of the inserted command, which
allows its action. -/
theorem path_authorize {command : ActionCommand} {v v' : ℤ} {record : ActionRecord}
    {res : Except PyErr Unit} {xs : List (GovernedEvent Y)}
    {q : Task (policyStoreSig.sum Y) ActionRecord}
    (h : Follows ((engine.governed hmac).gateway.authorize command v) xs q)
    (hx : (⟨.tx (.insertAction record v'), res⟩ : GovernedEvent Y) ∈ xs) :
    ∃ package, readPackage record.command.policyPackageId package ∈ xs ∧
      ActionGateway.checkAllowed package record.command.action = .ok () := by
  obtain ⟨resolved, -, h⟩ := h.of_ofExcept hx
  obtain ⟨ys, zs, package, rfl, hactive, h, hin⟩ := h.beyond
    (issues_ext (P := fun o => ∀ record v, o ≠ Op.tx (.insertAction record v)) (fun _ _ _ => nofun)
      _) hx fun hn => hn _ _ rfl
  obtain ⟨found, ws, rfl, hrest⟩ := h.of_perform hin
  replace hin := (List.mem_cons.1 hin).resolve_left nofun
  cases found with
  | none =>
    rw [hrest.of_raise.1] at hin
    cases hin
  | some case =>
    simp only [Prog.bind_eq, Prog.throw_eq, Prog.bind_raise] at hrest
    split_ifs at hrest
    · rw [hrest.of_raise.1] at hin
      cases hin
    · obtain ⟨u, hallowed, hrest⟩ := hrest.of_ofExcept hin
      have hcommand : record.command = _ := (hrest.issues (issues_authorizeAction _ v)).1 _ hin
      refine ⟨package, List.mem_append_left _ ?_, ?_⟩
      · rw [hcommand]
        exact path_requireActive hactive
      · rw [hcommand]
        exact hallowed

theorem path_checkSnapshot {command : ActionCommand} {xs : List (GovernedEvent Y)}
    (h : Follows ((engine.governed hmac).gateway.checkSnapshot command) xs (.ret ())) :
    ∃ package, readPackage command.policyPackageId package ∈ xs ∧
      ActionGateway.checkAllowed package command.action = .ok () := by
  obtain ⟨ys, zs, package, rfl, hread, h⟩ := h.of_bind_ret
  obtain ⟨rfl, hallowed⟩ := h.of_ofExcept_ret
  refine ⟨package, List.mem_append_left _ ?_, hallowed⟩
  split at hread
  · exact path_requireActive hread
  · exact path_requireAuthorizationSnapshot hread

/-- A path of `dispatch` that calls the connector has read the package of the command, which
allows its action. -/
theorem path_dispatch {action : ActionRecord} {id : String} {command : ActionCommand}
    {xs : List (GovernedEvent Y)} {q : Task (policyStoreSig.sum Y) ActionRecord}
    (h : Follows ((engine.governed hmac).gateway.dispatch action) xs q)
    (hx : (⟨.dispatchCalled id command, ()⟩ : GovernedEvent Y) ∈ xs) :
    ∃ package, readPackage command.policyPackageId package ∈ xs ∧
      ActionGateway.checkAllowed package command.action = .ok () := by
  have hcommand : command = action.command := by
    refine (h.issues (P := fun o => ∀ id' command', o = Op.dispatchCalled id' command' →
      command' = action.command) ?_).1 _ hx _ _ rfl
    refine ActionGateway.issues_dispatch_of _
      (ActionGateway.policyIssues_of_ext _ fun _ _ _ ho => by cases ho)
      (fun _ _ => (Prog.issues_true _).mono fun _ _ _ _ ho => by cases ho)
      (fun _ _ ho => by cases ho) (fun _ _ _ ho => by cases ho)
      (fun _ _ _ _ _ _ ho => by cases ho) ?_ fun _ _ _ ho => by cases ho
    rintro _ _ ⟨⟩
    rfl
  subst hcommand
  unfold ActionGateway.dispatch at h
  simp only [Prog.bind_eq, Prog.pure_eq] at h
  split_ifs at h
  · rw [h.of_ret.1] at hx
    cases hx
  · obtain ⟨ys, zs, u, rfl, hcheck, -, -⟩ := h.beyond
      (ActionGateway.issues_checkSnapshot _ _) hx fun hn => hn
    obtain ⟨package, hread, hallowed⟩ := path_checkSnapshot hcheck
    exact ⟨package, List.mem_append_left _ hread, hallowed⟩

/-! What stays in the repository. -/

theorem sparesPolicies_loading {p : Prog policySig PyErr PolicyPackage} :
    (PolicyService.loading p).Issues fun o : PolicyStoreOp => o.writes = [] := by
  refine Prog.issues_bind (Prog.issues_lift ?_) fun package => ?_
  · exact (Prog.issues_true p).mono fun o _ => by cases o; rfl
  · refine Prog.issues_bind ?_ fun _ => trivial
    exact Prog.issues_bind ((Prog.issues_perform (S := policyStoreSig) _).2 rfl) fun _ =>
      Prog.issues_ofExcept _

theorem sparesPolicies_policy :
    (engine.governed hmac).gateway.PolicyIssues Op.sparesPolicies := by
  rintro policy ⟨⟩
  refine ⟨fun k => Prog.issues_lift ?_, fun k signature => Prog.issues_lift ?_⟩
  · exact ⟨rfl, fun signer => sparesPolicies_loading⟩
  · exact ⟨rfl, fun signer => sparesPolicies_loading⟩

/-- Every connector of the engine is one that stands beside the policy service. -/
theorem connector_of_governed {command : ActionCommand} {pinned : Bool}
    {resolved : ResolvedActionConnector (policyStoreSig.sum Y)}
    (h : (engine.governed hmac).gateway.resolveConnector command pinned = .ok resolved) :
    ∃ connector : ActionConnector Y, resolved.connector = connector.beside := by
  have hmap : ∀ x : Except PyErr (ResolvedActionConnector Y),
      x.map (fun r => (⟨r.actionName, r.bindingId, r.bindingVersion, r.contractVersion,
        r.connector.beside⟩ : ResolvedActionConnector (policyStoreSig.sum Y))) = .ok resolved →
      ∃ connector : ActionConnector Y, resolved.connector = connector.beside := by
    intro x hx
    cases x with
    | error e => cases hx
    | ok r =>
      cases hx
      exact ⟨r.connector, rfl⟩
  simp only [ActionGateway.resolveConnector, Engine.governed] at h
  cases hc : engine.gateway.connectors with
  | mapping get =>
    simp only [hc, Connectors.beside] at h
    cases hg : get command.action with
    | none =>
      simp only [hg, Option.map_none] at h
      cases h
    | some connector =>
      simp only [hg, Option.map_some] at h
      cases h
      exact ⟨connector, rfl⟩
  | resolver resolve =>
    simp only [hc, Connectors.beside] at h
    split_ifs at h
    · exact hmap _ h
    · exact hmap _ h

/-- Calls of the gateway, beside any transactions of the store. -/
def allowListCalls {X : Sig} {W : World X} : Admission X W
  | _, .authorize .. => true
  | _, .dispatch _ => true
  | _, .transaction _ => true
  | _, _ => false

theorem sparesPolicies_body {h : GovernedLog hmac V} {call : Call (policyStoreSig.sum Y)}
    (ha : allowListCalls h call = true) :
    ((engine.governed hmac).body call).Issues Op.sparesPolicies := by
  cases call with
  | authorize command v =>
    refine Prog.issues_bind ?_ fun _ => trivial
    exact ActionGateway.issues_authorize _ sparesPolicies_policy (fun _ => trivial)
      (fun _ => trivial) (fun _ _ => trivial) trivial trivial (fun _ _ _ => trivial) v
  | dispatch action =>
    refine Prog.issues_bind ?_ fun _ => trivial
    refine ActionGateway.issues_dispatch_of _ sparesPolicies_policy (fun resolved hresolved => ?_)
      trivial (fun _ => trivial) (fun _ _ _ _ => trivial) trivial fun _ => trivial
    obtain ⟨connector, hconnector⟩ := connector_of_governed hresolved
    rw [hconnector]
    exact Prog.issues_lift ((Prog.issues_true _).mono fun _ _ => trivial)
  | transaction o => exact Prog.issues_bind (issues_tx trivial) fun _ => trivial
  | _ => cases ha

/-- `rules.get("allowed_actions", [])`, as `create_draft` and `_action_policy` read it. -/
def PolicyPackage.allowedActions (p : PolicyPackage) : List Json :=
  match (p.rules.get? "allowed_actions").getD (.list []) with
  | .list actions => actions
  | _ => []

/-- `create_draft` has admitted the package, at some moment in the past of the service. -/
def Drafted (hmac : Hmac) (p : PolicyPackage) (s : PolicyState) : Prop :=
  ∃ (signer : PolicySigner) (before after : List PolicyEvent),
    ((PolicyService.createDraft p).alone (PolicyState.exec hmac)
      ((PolicyState.empty signer).applyAll hmac before)).1 = .ok p ∧
    s = ((PolicyState.empty signer).applyAll hmac
      (before ++ .call (.createDraft p) :: after))

/-- The policy service with the rules of `p` in its repository. -/
structure Ruled (hmac : Hmac) (p : PolicyPackage) (s : PolicyState) : Prop where
  published : Published hmac s
  stored : ∃ row, s.packages.row? p.packageId = some row ∧ row.packageJson.rules = p.rules

theorem Ruled.onward {p : PolicyPackage} {s s' : PolicyState} (h : Ruled hmac p s)
    (hp : Published hmac s') (hon : s.packages.Onward s'.packages) : Ruled hmac p s' := by
  obtain ⟨row, hrow, hrules⟩ := h.stored
  obtain ⟨row', hrow', hl⟩ := hon _ row hrow
  exact ⟨hp, row', hrow', hl.content.rules.trans hrules⟩

theorem Drafted.ruled (hd : PolicySigner.Digest hmac) {p : PolicyPackage} {s : PolicyState}
    (h : Drafted hmac p s) : Ruled hmac p s ∧ PolicyService.checkActions p.rules = .ok () := by
  obtain ⟨signer, before, after, hok, rfl⟩ := h
  obtain ⟨-, hnone, hactions, t', hput, hstate⟩ := PolicyState.of_createDraft_ok hmac hok
  refine ⟨?_, hactions⟩
  have hbefore := (PolicyState.applyAll_published hd (PolicyState.published_empty signer) before).1
  have hdraft := PolicyState.apply_published hd hbefore (.call (.createDraft p))
  have hruled : Ruled hmac p (((PolicyState.empty signer).applyAll hmac before).apply hmac
      (.call (.createDraft p))) := by
    refine ⟨hdraft.1, .ofPackage p, ?_, rfl⟩
    change ((PolicyService.createDraft p).alone (PolicyState.exec hmac)
      ((PolicyState.empty signer).applyAll hmac before)).2.packages.row? _ = _
    rw [hstate]
    refine (hput p.packageId).trans ((if_pos rfl).trans ?_)
    rw [hnone]
    rfl
  obtain ⟨hafter, hon⟩ := PolicyState.applyAll_published hd hdraft.1 after
  have hall : (PolicyState.empty signer).applyAll hmac (before ++ .call (.createDraft p) :: after) =
      (((PolicyState.empty signer).applyAll hmac before).apply hmac
        (.call (.createDraft p))).applyAll hmac after := by
    simp only [PolicyState.applyAll, List.foldl_append, List.foldl_cons]
  rw [hall]
  exact hruled.onward hafter hon

/-- In every run, the rules of `p` stay, and every read of its id has found them. -/
structure AllowListKept (hmac : Hmac) (p : PolicyPackage) (h : GovernedLog hmac V) : Prop where
  ruled : Ruled hmac p h.state.ext.1
  reads : ∀ x ∈ h.trace, ∀ package, x.event = readPackage p.packageId package →
    package.rules = p.rules

theorem AllowListKept.after {p : PolicyPackage} {h : GovernedLog hmac V}
    (hi : AllowListKept hmac p h) {τ : ℕ} {o : GovernedOp Y} (ho : o.sparesPolicies)
    (e : EngineChoice (World.governed hmac V)) :
    AllowListKept hmac p (((engine.governed hmac).system (World.governed hmac V)
      allowListCalls).after h τ o e) := by
  obtain ⟨row, hrow, hrules⟩ := hi.ruled.stored
  have hkeep : (((engine.governed hmac).system (World.governed hmac V) allowListCalls).after h τ o
        e).state.ext.1.packages = h.state.ext.1.packages ∧
      (((engine.governed hmac).system (World.governed hmac V) allowListCalls).after h τ o
        e).state.ext.1.registry.signer = h.state.ext.1.registry.signer := by
    cases o with
    | ext o =>
      cases o with
      | inl po => exact ⟨PolicyState.packages_of_silent hmac _ ho,
          @PolicyState.signer_exec hmac _ po⟩
      | inr o => exact ⟨rfl, rfl⟩
    | _ => exact ⟨rfl, rfl⟩
  refine ⟨⟨?_, row, ?_, hrules⟩, fun x hmem package hx => ?_⟩
  · unfold Published
    rw [hkeep.1, hkeep.2]
    exact hi.ruled.published
  · rw [hkeep.1]
    exact hrow
  · rcases List.mem_append.1 hmem with hmem | hmem
    · exact hi.reads x hmem package hx
    · -- the read itself
      rw [List.mem_singleton.1 hmem] at hx
      obtain ⟨rfl, hres⟩ := Sigma.mk.inj hx
      obtain ⟨row', hrow', rfl⟩ := PolicyPackages.get_eq_some.1 (eq_of_heq hres)
      rw [hrow] at hrow'
      obtain rfl := Option.some.inj hrow'
      exact hrules

theorem allowListKept_run (hd : PolicySigner.Digest hmac) {p : PolicyPackage}
    (s : EngineState (World.governed hmac V)) (hs : Ruled hmac p s.ext.1)
    (acts : List ((engine.governed hmac).system (World.governed hmac V) allowListCalls).Move) :
    AllowListKept hmac p
      ((engine.governed hmac).history (World.governed hmac V) allowListCalls s acts) := by
  refine System.run_induction (G := fun _ _ => True) (J := fun c => AllowListKept hmac p c.hist)
    (c := ((engine.governed hmac).system (World.governed hmac V) allowListCalls).init s)
    ⟨hs, fun _ hx => absurd hx List.not_mem_nil⟩ (fun before a hi _ => ?_) acts
    (System.guarded_true _ _)
  rcases System.next_cases _ a with hn | ⟨call, rfl, -, hn⟩ | ⟨τ, e, o, k, rfl, hr, hn⟩ |
      ⟨τ, -, hn⟩ | ⟨e, rfl, hn⟩
  · rw [hn]
    exact hi
  · rw [hn]
    exact ⟨hi.ruled, hi.reads⟩
  · have hspares : o.sparesPolicies := by
      refine System.op_of_ready s before hr fun call hcall => ?_
      obtain ⟨h, ha⟩ := System.admitted_run s before call hcall
      exact sparesPolicies_body ha
    rw [hn]
    exact hi.after hspares e
  · rw [hn]
    exact ⟨hi.ruled, hi.reads⟩
  · rw [hn]
    obtain ⟨hp, hon⟩ := PolicyState.applyAll_published hd hi.ruled.published e.ext.events
    exact ⟨hi.ruled.onward hp hon, hi.reads⟩

/-- Under the id of a package that was drafted, `authorize` inserts and `dispatch` executes only
actions that are elements of its list. -/
def FailsClosed (hmac : Hmac) (p : PolicyPackage) : Prop :=
  ∀ (Y : Sig) (engine : Engine Y) (V : World Y) (s : EngineState (World.governed hmac V))
    (acts : List ((engine.governed hmac).system (World.governed hmac V) allowListCalls).Move),
    Drafted hmac p s.ext.1 →
    let h := (engine.governed hmac).history (World.governed hmac V) allowListCalls s acts
    (∀ τ command v record v', h.calls[τ]? = some (.authorize command v) →
      (⟨τ, .tx (.insertAction record v'), .ok ()⟩ : Entry (sig (policyStoreSig.sum Y))) ∈ h.trace →
      record.command.policyPackageId = p.packageId →
      .str record.command.action ∈ p.allowedActions) ∧
    ∀ τ id command,
      (⟨τ, .dispatchCalled id command, ()⟩ : Entry (sig (policyStoreSig.sum Y))) ∈ h.trace →
      command.policyPackageId = p.packageId → .str command.action ∈ p.allowedActions

/-- A list that `create_draft` admits allows only its elements. -/
theorem mem_allowedActions {p package : PolicyPackage} {action : String}
    (hactions : PolicyService.checkActions p.rules = .ok ())
    (hlist : p.rules.has "allowed_actions" = true) (hrules : package.rules = p.rules)
    (h : ActionGateway.checkAllowed package action = .ok ()) : .str action ∈ p.allowedActions := by
  obtain ⟨value, hvalue⟩ := Option.isSome_iff_exists.1 hlist
  have hallow := allows_of_checkAllowed h value (hrules ▸ hvalue)
  unfold PolicyService.checkActions at hactions
  unfold PolicyPackage.allowedActions
  rw [hvalue] at hactions ⊢
  cases value with
  | list actions =>
    have hin : actions.any (fun x => x.pyEq (.str action)) = true :=
      Except.ok.inj (hallow fun h => by cases h)
    obtain ⟨x, hx, heq⟩ := List.any_eq_true.1 hin
    rw [← Json.eq_of_pyEq_str heq]
    exact hx
  | _ => cases hactions

theorem failsClosed_of_list (hd : PolicySigner.Digest hmac) {p : PolicyPackage}
    (hlist : p.rules.has "allowed_actions" = true) : FailsClosed hmac p := by
  intro Y engine V s acts hdrafted
  obtain ⟨hruled, hactions⟩ := hdrafted.ruled hd
  have hkept : AllowListKept hmac p
      ((engine.governed hmac).history (World.governed hmac V) allowListCalls s acts) :=
    allowListKept_run hd s hruled acts
  have hread : ∀ (τ : ℕ) (action : String), (∃ package, readPackage p.packageId package ∈
      (((engine.governed hmac).history (World.governed hmac V) allowListCalls s acts).own τ).map
        Entry.event ∧ ActionGateway.checkAllowed package action = .ok ()) →
      .str action ∈ p.allowedActions := by
    rintro τ action ⟨package, hin, hallowed⟩
    obtain ⟨x, hx, he⟩ := List.mem_map.1 hin
    refine mem_allowedActions hactions hlist ?_ hallowed
    exact hkept.reads x (List.mem_of_mem_filter hx) package he
  refine ⟨fun τ command v record v' hcall hmem hid => ?_, fun τ id command hmem hid => ?_⟩
  · obtain ⟨q, hq⟩ := System.task_of_mem s acts hmem
    obtain ⟨call, hcall', hf⟩ := System.follows_run s acts hq
    obtain rfl := Option.some.inj (hcall'.symm.trans hcall)
    obtain ⟨q', hauthorize⟩ := Follows.of_map hf
    obtain ⟨package, hin, hallowed⟩ := path_authorize hauthorize (Entry.event_mem hmem)
    rw [hid] at hin
    exact hread τ _ ⟨package, hin, hallowed⟩
  · obtain ⟨q, hq⟩ := System.task_of_mem s acts hmem
    obtain ⟨call, hcall, hf⟩ := System.follows_run s acts hq
    obtain ⟨h', ha⟩ := System.admitted_run s acts call (List.mem_of_getElem? hcall)
    have hx := Entry.event_mem hmem
    cases call with
    | authorize command' v =>
      have hissues : ((engine.governed hmac).body (.authorize command' v)).Issues
          fun o => ∀ id command, o ≠ Op.dispatchCalled id command :=
        Prog.issues_bind (ActionGateway.issues_authorize _
          (ActionGateway.policyIssues_of_ext _ fun _ _ _ => nofun) (fun _ _ _ => nofun)
          (fun _ _ _ => nofun) (fun _ _ _ _ => nofun) (fun _ _ => nofun) (fun _ _ => nofun)
          (fun _ _ _ _ _ => nofun) v) fun _ => trivial
      exact absurd rfl ((hf.issues hissues).1 _ hx id command)
    | dispatch action =>
      obtain ⟨q', hdispatch⟩ := Follows.of_map hf
      obtain ⟨package, hin, hallowed⟩ := path_dispatch hdispatch hx
      rw [hid] at hin
      exact hread τ _ ⟨package, hin, hallowed⟩
    | transaction o =>
      have hissues : ((engine.governed hmac).body (.transaction o)).Issues
          fun o => ∀ id command, o ≠ Op.dispatchCalled id command :=
        Prog.issues_bind (issues_tx fun _ _ => nofun) fun _ => trivial
      exact absurd rfl ((hf.issues hissues).1 _ hx id command)
    | _ => cases ha

/-! A package without the list. -/

/-- The repository has one row. -/
def PolicyPackages.Sole (t : PolicyPackages) (row : PolicyRow) : Prop :=
  ∀ k, t.row? k = if k = row.packageId then some row else none

theorem PolicyPackages.Sole.eq_of_mem {t : PolicyPackages} {row row' : PolicyRow}
    (h : t.Sole row) (hrow : row' ∈ t.rows) : row' = row := by
  have hget := row?_of_mem hrow
  rw [h] at hget
  split_ifs at hget
  exact (Option.some.inj hget).symm

theorem PolicyPackages.Sole.upsert {t : PolicyPackages} {row : PolicyRow} {q : PolicyPackage}
    (h : t.Sole row) (hid : q.packageId = row.packageId) :
    ∃ t', SQLitePolicyRepository.upsert t q = .ok t' ∧ t'.Sole (row.merge (.ofPackage q)) := by
  obtain ⟨t', ht', hput⟩ := upsert_of_sole (t := t) (p := q) fun k hk => by
    rw [h] at hk
    split_ifs at hk with he
    · exact he.trans hid.symm
    · cases hk
  refine ⟨t', ht', fun k => ?_⟩
  rw [hput, h, hid, PolicyRow.packageId_merge]
  split_ifs <;> rfl

/-- `approve` of the only package. -/
theorem PolicyState.perform_approve {s : PolicyState} {row : PolicyRow} {approver : String}
    {q : PolicyPackage} (h : s.packages.Sole row) (hl : row.packageJson.lifecycle = .draft)
    (hok : s.registry.signer.approve hmac row.packageJson approver = .ok q)
    (hid : q.packageId = row.packageId) :
    ∃ t', s.perform hmac (.approve row.packageId approver) = { s with packages := t' } ∧
      t'.Sole (row.merge (.ofPackage q)) := by
  obtain ⟨t', ht', hsole⟩ := h.upsert hid
  refine ⟨t', ?_, hsole⟩
  change ((PolicyService.approve hmac s.registry.signer row.packageId approver).alone
    (PolicyState.exec hmac) s).2 = _
  rw [PolicyService.approve, Prog.bind_eq, PolicyState.alone_require, h, if_pos rfl]
  simp only [hl, ne_eq, not_true, if_false, hok, Prog.bind_eq, Prog.ofExcept_ok, Prog.bind_ret,
    Prog.pure_eq]
  change ((Prog.bind (Prog.ofExcept (s.commit (SQLitePolicyRepository.upsert s.packages q)).1)
    fun _ => .ret q).alone _ (s.commit (SQLitePolicyRepository.upsert s.packages q)).2).2 = _
  rw [ht']
  rfl

/-- `activate` of the only package has nothing to retire. -/
theorem PolicyState.perform_activate {s : PolicyState} {row : PolicyRow} {q : PolicyPackage}
    (h : s.packages.Sole row)
    (hok : s.registry.signer.activate hmac row.packageJson = .ok q)
    (hid : q.packageId = row.packageId) (hsame : q.packageId = row.packageJson.packageId) :
    (s.perform hmac (.activate row.packageId)).packages.Sole (row.merge (.ofPackage q)) := by
  obtain ⟨t', ht', hsole⟩ := h.upsert hid
  have hprior : PolicyService.prior q (SQLitePolicyRepository.list s.packages (some .active)) =
      [] := by
    refine List.filter_eq_nil_iff.2 fun existing hexisting => ?_
    obtain ⟨row', hrow', rfl, -⟩ := mem_list hexisting
    rw [h.eq_of_mem hrow']
    simp [hsame]
  change ((PolicyService.activate hmac s.registry.signer row.packageId).alone
    (PolicyState.exec hmac) s).2.packages.Sole _
  rw [PolicyService.activate, Prog.bind_eq, PolicyState.alone_require, h, if_pos rfl]
  simp only [hok, Prog.bind_eq, Prog.ofExcept_ok, Prog.bind_ret, Prog.pure_eq]
  rw [PolicyTask.list, Prog.bind_perform, Prog.alone_call]
  change ((Prog.bind (Prog.ofExcept ((PolicyService.prior q (SQLitePolicyRepository.list s.packages
    (some .active))).mapM (s.registry.signer.retire hmac))) _).alone _ s).2.packages.Sole _
  rw [hprior]
  change ((Prog.bind (Prog.ofExcept (s.commit (SQLitePolicyRepository.upsert s.packages q)).1)
    fun _ => (PolicyTask.registry [.load q]).bind fun _ => .ret q).alone _
      (s.commit (SQLitePolicyRepository.upsert s.packages q)).2).2.packages.Sole _
  rw [ht']
  change (((PolicyTask.registry [.load q]).bind fun _ => .ret q).alone _
    { s with packages := t' }).2.packages.Sole _
  rw [PolicyState.alone_registry]
  exact hsole

/-- A drafted package can be approved and activated. -/
theorem exists_activated (hd : PolicySigner.Digest hmac) {p : PolicyPackage}
    (hl : p.lifecycle = .draft) (hactions : PolicyService.checkActions p.rules = .ok ()) :
    ∃ s row, Drafted hmac p s ∧ s.packages.row? p.packageId = some row ∧
      p.SameContent row.packageJson ∧ row.packageJson.lifecycle = .active ∧
      s.registry.signer.verify hmac row.packageJson = true := by
  let signer : PolicySigner := ⟨"key", "1", []⟩
  let s0 := PolicyState.empty signer
  have hother : p.author ++ "'" ≠ p.author := by
    intro he
    have hlength := congrArg String.length he
    rw [String.length_append] at hlength
    exact absurd hlength (Nat.succ_ne_self _)
  obtain ⟨q1, hq1⟩ : ∃ q1, signer.approve hmac p (p.author ++ "'") = .ok q1 := ⟨_, if_neg hother⟩
  obtain ⟨-, hsame1, hsigned1, hl1, -⟩ := PolicySigner.approve_ok hq1
  have hverify1 : signer.verify hmac q1 = true :=
    hsigned1.verify hd (by simp [hl1]) signer.verificationKey_self
  obtain ⟨q2, hq2⟩ : ∃ q2, signer.activate hmac q1 = .ok q2 :=
    ⟨_, if_neg (by simp [hl1, hverify1])⟩
  obtain ⟨-, -, hsame2, hsigned2, hl2, -⟩ := PolicySigner.activate_ok hq2
  have hverify2 : signer.verify hmac q2 = true :=
    hsigned2.verify hd (by simp [hl2]) signer.verificationKey_self
  -- the draft
  obtain ⟨t1, ht1, hput1⟩ := upsert_of_sole (t := s0.packages) (p := p) fun _ hk => by cases hk
  have hsole1 : t1.Sole (.ofPackage p) := hput1
  have hdraft : (PolicyService.createDraft p).alone (PolicyState.exec hmac) s0 =
      (.ok p, { s0 with packages := t1 }) := by
    have hrow : s0.packages.row? p.packageId = none := rfl
    have hsave : SQLitePolicyRepository.save s0.packages p = .ok t1 := ht1
    simp only [PolicyState.alone_createDraft hmac s0 hl, hrow, hactions, hsave]
  -- its approval and activation
  obtain ⟨t2, happroved, hsole2⟩ := PolicyState.perform_approve (s := { s0 with packages := t1 })
    hsole1 hl hq1 hsame1.packageId
  have hsole3 := PolicyState.perform_activate (s := { s0 with packages := t2 }) hsole2 hq2
    (hsame2.packageId.trans hsame1.packageId) hsame2.packageId
  have hall : s0.applyAll hmac ([] ++ .call (.createDraft p) ::
      [.call (.approve p.packageId (p.author ++ "'")), .call (.activate p.packageId)]) =
      { s0 with packages := t2 }.perform hmac (.activate p.packageId) := by
    change ((((PolicyService.createDraft p).alone (PolicyState.exec hmac) s0).2.perform hmac
      (.approve p.packageId (p.author ++ "'"))).perform hmac (.activate p.packageId)) = _
    rw [hdraft]
    exact congrArg (fun s => s.perform hmac (.activate p.packageId)) happroved
  have hsigner : ({ s0 with packages := t2 }.perform hmac
      (.activate p.packageId)).registry.signer = signer :=
    PolicyState.signer_alone hmac _ _
  refine ⟨_, ((PolicyRow.ofPackage p).merge (.ofPackage q1)).merge (.ofPackage q2),
    ⟨signer, [], _, congrArg Prod.fst hdraft, hall.symm⟩, ?_, hsame1.trans hsame2, hl2, ?_⟩
  · exact (hsole3 p.packageId).trans (if_pos rfl)
  · rw [hsigner]
    exact hverify2

/-- A package without the list lets an action in. -/
theorem not_failsClosed (hd : PolicySigner.Digest hmac) {p : PolicyPackage}
    (hl : p.lifecycle = .draft) (hactions : PolicyService.checkActions p.rules = .ok ())
    (hmissing : p.rules.get? "allowed_actions" = none) : ¬ FailsClosed hmac p := by
  intro hclosed
  obtain ⟨ps, row, hdrafted, hrow, hsame, hactive, hverify⟩ := exists_activated hd hl hactions
  let W := World.governed hmac World.isolated
  let engine := refundDesk.governed hmac
  let command := { escalation with policyPackageId := p.packageId }
  let case : CaseRecord := ⟨"C-1", "U-1", p.procedureId, "1", "active", 0⟩
  let start : EngineState W :=
    ⟨{ Db.empty with cases := ⟨[case], fun _ => List.nodup_singleton _⟩ }, 0, (ps, ())⟩
  let choices : ℕ → EngineChoice W := fun _ => ⟨toString, 0, ⟨[], ()⟩⟩
  let lookup : Task (policyStoreSig.sum ⟨Empty, Empty.elim⟩) PolicyPackage :=
    Task.ext ((PolicyService.current hmac).ahead.requireActive p.packageId)
  have hread : lookup.alone (execAlone W choices) (0, start) =
      (.ok row.packageJson, (lookup.alone (execAlone W choices) (0, start)).2) := by
    refine Prod.ext ?_ rfl
    rw [← active_alone hrow hactive hverify]
    refine (@Prog.alone_lift _ _ _ _ _ (W.exec ⟨[], ()⟩) _ _ _ _ (fun s => s.2.ext)
      (fun _ _ => rfl) (fun _ _ => rfl) _ _).trans ?_
    exact @Prog.alone_lift _ _ _ _ _ _ _ _ _ _ Prod.fst (fun _ _ => rfl) (fun _ _ => rfl) _ _
  have hdb : (lookup.alone (execAlone W choices) (0, start)).2.2.db = start.db := db_alone_ext ..
  have hcase : start.db.case? "C-1" = some case := rfl
  have hallowed : ActionGateway.checkAllowed row.packageJson command.action = .ok () := by
    unfold ActionGateway.checkAllowed
    rw [hsame.rules, hmissing]
  have hauthorize := @alone_authorize _ W choices engine.gateway _ command 0 _ _ _ _ _ rfl rfl hread
    (by rw [hdb]; exact hcase) hsame.procedureId hallowed
  dsimp only at hauthorize
  have hinserted := @inserts_of_accepts _ W choices { command with
      connectorBindingId := some "legacy"
      connectorBindingVersion := some "1"
      contractVersion := some "1"
      policyActivationSignature := row.packageJson.activationSignature } 0
    (passed choices (lookup.alone (execAlone W choices) (0, start)).2) (fun _ => rfl)
    (by rw [passed, hdb]; rfl) rfl rfl ⟨case, by rw [passed, hdb]; rfl, rfl⟩ toString (fun _ => rfl)
    (by rw [passed, hdb]; exact ⟨fun _ h => (by cases h), fun _ h => (by cases h), by decide, rfl⟩)
    (by rw [passed, hdb]; rfl)
  have hbody : ((engine.body (.authorize command 0)).alone (execAlone W choices) (0, start)).2 =
      ((engine.gateway.authorize command 0).alone (execAlone W choices) (0, start)).2 :=
    Prog.alone_bind_pure _ Reply.action _
  obtain ⟨a, hsome, hpackage⟩ : ∃ a, ((engine.body (.authorize command 0)).alone
      (execAlone W choices) (0, start)).2.2.db.action? "ACT-0" = some a ∧
        a.command.policyPackageId = p.packageId := by
    rw [hbody, hauthorize]
    exact ⟨_, hinserted, rfl⟩
  obtain ⟨acts, τ, record, v, hcall, hmem, hcommand⟩ :=
    @exists_run_inserts _ _ engine allowListCalls _ (fun _ => rfl) _ _ rfl _ _ rfl hsome
  have hlisted := (hclosed _ refundDesk World.isolated start acts hdrafted).1 τ command 0 record v
    hcall hmem (by rw [hcommand]; exact hpackage)
  unfold PolicyPackage.allowedActions at hlisted
  rw [hmissing] at hlisted
  cases hlisted

/-- An admitted package fails closed exactly when it has a list. -/
theorem allow_list_fails_closed_iff (hd : PolicySigner.Digest hmac) {p : PolicyPackage}
    (hl : p.lifecycle = .draft) (hactions : PolicyService.checkActions p.rules = .ok ()) :
    FailsClosed hmac p ↔ p.rules.has "allowed_actions" = true := by
  constructor
  · intro hclosed
    by_contra hmissing
    refine not_failsClosed hd hl hactions ?_ hclosed
    exact Option.not_isSome_iff_eq_none.1 hmissing
  · exact failsClosed_of_list hd

def listedDraft : PolicyPackage :=
  { refundDraft "refund@1" with rules := [("allowed_actions", .list [.str "issue_refund"])] }

theorem listed_draft_fails_closed : FailsClosed lifecycleTag listedDraft :=
  (allow_list_fails_closed_iff lifecycleTag_digest rfl (by decide +kernel)).2 rfl

/-- A draft without rules allows every action. -/
theorem unlisted_draft_fails_open : PolicyService.checkActions (refundDraft "refund@1").rules =
    .ok () ∧ ¬ FailsClosed lifecycleTag (refundDraft "refund@1") :=
  ⟨by decide +kernel, not_failsClosed lifecycleTag_digest rfl (by decide +kernel) rfl⟩

end WorkflowEngine
