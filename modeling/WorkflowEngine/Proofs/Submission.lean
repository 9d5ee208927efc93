import WorkflowEngine.Proofs.Authorization
import WorkflowEngine.Spec.Deployment

/-! What a `submit` call has established when it puts a new action into the store.
Its checks are spread over the service, the gateway and the kernel, and over
separate transactions; each of them still holds at the insertion. -/

namespace WorkflowEngine

open Interleave Engine Relational SQLiteCoreStore ConsequentialActionService

/-- Evidence that is neither absent nor empty. -/
def Evident (ref : Option String) : Prop := ref.getD "" ≠ ""

/-- What the checks of a command establish without reading the store. -/
structure WellSpecified (command : ActionCommand) (specification : ActionSpecification) :
    Prop where
  known : specification? command.action = some specification
  required : ∀ p ∈ specification.requiredParameters, command.parameters.has p = true
  consent : specification.requiresConsent = true → Evident command.consentEvidenceRef
  approval : specification.requiresApproval = true → Evident command.approvalEvidenceRef

/-- A test that raises was passed. -/
theorem except_check {c : Prop} [Decidable c] {α : Type} {e : PyErr} {f : Unit → Except PyErr α}
    {a : α} : (if c then (throw e >>= f) else f ()) = .ok a ↔ ¬ c ∧ f () = .ok a := by
  split_ifs with h
  · simp only [h, not_true, false_and, iff_false]
    exact fun h => by cases h
  · simp [h]

theorem except_guard {c : Prop} [Decidable c] {e : PyErr} :
    (if c then throw e else pure () : Except PyErr Unit) = .ok () ↔ ¬ c := by
  split_ifs with h
  · simp [h]
  · simp only [h, not_false_eq_true, iff_true]
    rfl

theorem except_forM {α : Type} {f : α → Except PyErr Unit} {l : List α} (h : l.forM f = .ok ()) :
    ∀ x ∈ l, f x = .ok () := by
  induction l with
  | nil => exact fun _ hx => by cases hx
  | cons y l ih =>
    rw [List.forM_eq_forM, List.forM_cons] at h
    cases hy : f y with
    | error e =>
      rw [hy] at h
      cases h
    | ok u =>
      rw [hy] at h
      intro x hx
      rcases List.mem_cons.1 hx with rfl | hx
      · exact hy
      · exact ih h x hx

theorem wellSpecified_of_checkCommand {command : ActionCommand}
    (h : CaseKernel.checkCommand command = .ok ()) :
    ∃ specification, WellSpecified command specification := by
  unfold CaseKernel.checkCommand at h
  cases hs : specification? command.action with
  | none =>
    rw [hs] at h
    cases h
  | some specification =>
    simp only [hs] at h
    obtain ⟨hreq, h⟩ := except_check.1 h
    obtain ⟨hcon, h⟩ := except_check.1 h
    obtain ⟨happ, h⟩ := except_check.1 h
    refine ⟨specification, hs, fun p hp => ?_, fun hc he => hcon ?_, fun hc he => happ ?_⟩
    · by_contra hne
      refine hreq ?_
      have hmem : p ∈ specification.requiredParameters.filter
          fun p => !command.parameters.has p := List.mem_filter.2 ⟨hp, by simpa using hne⟩
      cases hl : specification.requiredParameters.filter fun p => !command.parameters.has p with
      | nil =>
        rw [hl] at hmem
        cases hmem
      | cons => rfl
    · simp [hc, he]
    · simp [hc, he]

/-- The upstream payload agrees with the request. -/
structure Upstream (request : ConsequentialActionRequest) (specification : ActionSpecification)
    (upstream : Fields) : Prop where
  binding : ∀ b, specification.customerBindingParameter = some b →
    ∃ value, upstream.get? b = some value ∧ value.pyStr = request.customerId
  parameters : ∀ p ∈ specification.authoritativeParameters, ∃ value, upstream.get? p = some value ∧
    value.pyEq ((request.payload.dump.get? p).getD .null) = true

theorem upstream_of_checkUpstream {request : ConsequentialActionRequest}
    {specification : ActionSpecification} {upstream : Fields}
    (h : checkUpstream request specification upstream = .ok ()) :
    Upstream request specification upstream := by
  have hboth : checkBinding request specification upstream = .ok () ∧
      specification.authoritativeParameters.forM (checkParameter request upstream) = .ok () := by
    unfold checkUpstream at h
    cases hb : checkBinding request specification upstream with
    | error e =>
      rw [hb] at h
      cases h
    | ok u =>
      rw [hb] at h
      exact ⟨rfl, h⟩
  refine ⟨fun b hb => ?_, fun p hp => ?_⟩
  · have hbind := hboth.1
    simp only [checkBinding, hb] at hbind
    cases hv : upstream.get? b with
    | none =>
      rw [hv] at hbind
      cases hbind
    | some value =>
      simp only [hv] at hbind
      exact ⟨value, rfl, not_not.1 (except_guard.1 hbind)⟩
  · have hp := except_forM hboth.2 p hp
    unfold checkParameter at hp
    cases hv : upstream.get? p with
    | none =>
      rw [hv] at hp
      cases hp
    | some value =>
      simp only [hv] at hp
      exact ⟨value, rfl, by simpa using except_guard.1 hp⟩

/-- The package lets the action through. -/
def PolicyPackage.Allows (package : PolicyPackage) (action : String) : Prop :=
  ∀ allowed, package.rules.get? "allowed_actions" = some allowed → allowed ≠ .null →
    pyIn action allowed = .ok true

theorem allows_of_checkAllowed {package : PolicyPackage} {action : String}
    (h : ActionGateway.checkAllowed package action = .ok ()) : package.Allows action := by
  intro allowed hget hnull
  unfold ActionGateway.checkAllowed at h
  rw [hget] at h
  have h : (pyIn action allowed >>= fun b => if (!b) = true then throw (PyErr.valueError
      ("Policy package " ++ package.packageId ++ " does not allow " ++ action)) else pure ()) =
      Except.ok () := by
    cases allowed with
    | null => exact absurd rfl hnull
    | _ => exact h
  cases hin : pyIn action allowed with
  | error e =>
    rw [hin] at h
    cases h
  | ok b =>
    rw [hin] at h
    cases b with
    | false => cases h
    | true => rfl

theorem PolicyPackage.Allows.checkAllowed {package : PolicyPackage} {action : String}
    (h : package.Allows action) : ActionGateway.checkAllowed package action = .ok () := by
  unfold ActionGateway.checkAllowed
  cases hget : package.rules.get? "allowed_actions" with
  | none => rfl
  | some allowed =>
    cases allowed with
    | null => rfl
    | _ =>
      dsimp only
      rw [h _ hget (by simp)]
      rfl

section
variable {Y : Sig} {V : World Y}

/-- The task loaded the resource of the request, and this is its normalized payload. -/
def Loaded (h : Log (World.deployed V)) (τ : ℕ) (request : ConsequentialActionRequest)
    (upstream : Fields) : Prop :=
  ∃ ref resource, request.resource = some ref ∧
    (⟨τ, Op.ext (.inr (.inl ref)), Except.ok (some resource)⟩ : Entry (sig (deployedSig Y))) ∈
      h.trace ∧
    upstream = normalizeResourcePayload request.payload.action resource.payload

/-- The task read this package by its id, active and with a valid signature. -/
structure Vetted (hmac : Hmac) (signer : PolicySigner) (h : Log (World.deployed V)) (τ : ℕ)
    (packageId : String) (package : PolicyPackage) : Prop where
  read : (⟨τ, Op.ext (.inl (.get packageId)), some package⟩ : Entry (sig (deployedSig Y))) ∈ h.trace
  id : package.packageId = packageId
  active : package.lifecycle = .active
  verified : signer.verify hmac package = true

/-- The case of the request belongs to its customer and runs its procedure version. -/
structure Owned (db : Db) (request : ConsequentialActionRequest) (case : CaseRecord) : Prop where
  stored : db.case? request.caseId = some case
  customer : case.customerId = request.customerId
  version : case.procedureVersion = request.procedureVersion

/-- Everything that a new action of the request rests on. -/
structure Entitled (hmac : Hmac) (signer : PolicySigner) (h : Log (World.deployed V)) (τ : ℕ)
    (request : ConsequentialActionRequest) (command : ActionCommand)
    (specification : ActionSpecification) : Prop where
  specified : WellSpecified command specification
  action : command.action = request.payload.action
  caseId : command.caseId = request.caseId
  authoritative : ∃ upstream,
    (specification.authoritativeParameters ≠ [] → Loaded h τ request upstream) ∧
    ∀ p ∈ specification.authoritativeParameters, ∃ value loaded fact,
      command.parameters.get? p = some value ∧ upstream.get? p = some loaded ∧
      loaded.pyEq value = true ∧
      h.state.db.fact? request.caseId (factName command.action p) = some fact ∧
      fact.supersededAt = none ∧ fact.authority = .verified ∧ value.pyEq fact.value = true
  binding : ∀ b, specification.customerBindingParameter = some b →
    command.parameters.get? b = some (.str request.customerId)
  governed : ∃ case package, Owned h.state.db request case ∧
    Vetted hmac signer h τ request.policyPackageId package ∧
    command.policyActivationSignature = package.activationSignature ∧
    package.procedureId = case.procedureId ∧ package.Allows command.action

theorem Loaded.mono {h h' : Log (World.deployed V)} {τ : ℕ} {request : ConsequentialActionRequest}
    {upstream : Fields} (ht : h.trace <+: h'.trace) (hl : Loaded h τ request upstream) :
    Loaded h' τ request upstream := by
  obtain ⟨ref, resource, href, hmem, hup⟩ := hl
  exact ⟨ref, resource, href, ht.subset hmem, hup⟩

theorem Vetted.mono {hmac : Hmac} {signer : PolicySigner} {h h' : Log (World.deployed V)} {τ : ℕ}
    {packageId : String} {package : PolicyPackage} (ht : h.trace <+: h'.trace)
    (hv : Vetted hmac signer h τ packageId package) : Vetted hmac signer h' τ packageId package :=
  ⟨ht.subset hv.read, hv.id, hv.active, hv.verified⟩

theorem Owned.mono {db db' : Db} {request : ConsequentialActionRequest} {case : CaseRecord}
    (hp : db.Pinned db') (ho : Owned db request case) :
    ∃ case', Owned db' request case' ∧ case'.procedureId = case.procedureId := by
  obtain ⟨d, hd, hcd, -⟩ := hp _ case ho.stored
  exact ⟨d, ⟨hd, hcd.customer.trans ho.customer, hcd.procedureVersion.trans ho.version⟩,
    hcd.procedure⟩

end

section
variable {Y : Sig} {V : World Y} {engine : Engine (deployedSig Y)}
  {admits : Admission (deployedSig Y) (World.deployed V)}
  {J : ℕ → ActionRecord → Log (World.deployed V) → Prop} {τ : ℕ} {h : Log (World.deployed V)}
  {hmac : Hmac} {signer : PolicySigner}

theorem wp_getCase {caseId : String} :
    (insertLogic engine (World.deployed V) admits J).wp τ (getCase caseId)
      (fun r h' => r = .ok (h'.state.db.case? caseId)) h :=
  fun _ _ _ _ => ⟨fun _ _ he => (by cases he), fun _ => rfl⟩

theorem wp_requireActive {packageId : String} :
    (insertLogic engine (World.deployed V) admits J).wp τ
      (Task.ext ((PolicyService.resolver hmac signer).deployed.requireActive packageId))
      (fun r h' => ∀ package, r = .ok package → Vetted hmac signer h' τ packageId package) h := by
  intro h1 _ _ _
  refine ⟨fun _ _ he => (by cases he), fun e => ?_⟩
  have hmem : (⟨τ, Op.ext (.inl (.get packageId)), h1.state.ext.1.get? () packageId⟩ :
      Entry (sig (deployedSig Y))) ∈
        ((engine.system _ admits).after h1 τ (.ext (.inl (.get packageId))) e).trace :=
    List.mem_append_right _ (List.mem_singleton_self _)
  have hres : ((engine.system _ admits).exec e h1.state (.ext (.inl (.get packageId)))).1 =
      h1.state.ext.1.get? () packageId := rfl
  rw [hres]
  cases hfound : h1.state.ext.1.get? () packageId with
  | none => exact fun package he => by cases he
  | some package =>
    rw [hfound] at hmem
    change (insertLogic engine (World.deployed V) admits J).wp τ (Prog.lift _ _ (Prog.lift _ _
      (if package.lifecycle ≠ .active ∨ (!signer.verify hmac package) = true then
        Prog.raise (PyErr.valueError ("Policy package is not active: " ++ packageId))
      else Prog.ret package))) _ _
    split_ifs with hbad
    · exact fun package he => by cases he
    · rintro package' he
      cases he
      rw [not_or, not_not] at hbad
      exact ⟨hmem, (Table.get?_eq_some.1 hfound).2, hbad.1, by simpa using hbad.2⟩

theorem wp_loadResource {request : ConsequentialActionRequest}
    {specification : ActionSpecification} :
    (insertLogic (engine.deployed hmac signer) (World.deployed V) admits J).wp τ
      ((engine.deployed hmac signer).service.loadResource request specification)
      (fun r h' => ∀ upstream evidenceRef, r = .ok (upstream, evidenceRef) →
        specification.authoritativeParameters ≠ [] →
        Loaded h' τ request upstream ∧ Upstream request specification upstream) h := by
  unfold loadResource
  split_ifs with hempty
  · exact fun _ _ _ hne => absurd (List.isEmpty_iff.1 hempty) hne
  · cases hres : request.resource with
    | none => exact fun _ _ he => by cases he
    | some ref =>
      intro h1 _ _ _
      refine ⟨fun _ _ he => (by cases he), fun e => ?_⟩
      have hmem : (⟨τ, Op.ext (.inr (.inl ref)), e.ext.resource⟩ : Entry (sig (deployedSig Y))) ∈
          (((engine.deployed hmac signer).system _ admits).after h1 τ (.ext (.inr (.inl ref)))
            e).trace := List.mem_append_right _ (List.mem_singleton_self _)
      have hans : (((engine.deployed hmac signer).system _ admits).exec e h1.state
          (.ext (.inr (.inl ref)))).1 = e.ext.resource := rfl
      rw [hans]
      cases hload : e.ext.resource with
      | error exc => exact fun _ _ he => by cases he
      | ok found =>
        rw [hload] at hmem
        cases found with
        | none => exact fun _ _ he => by cases he
        | some resource =>
          change (insertLogic (engine.deployed hmac signer) (World.deployed V) admits J).wp τ
            ((Prog.ofExcept (checkUpstream request specification
              (normalizeResourcePayload request.payload.action resource.payload))).bind
                fun _ => Prog.ret _) _ _
          cases hcheck : checkUpstream request specification
              (normalizeResourcePayload request.payload.action resource.payload) with
          | error exc => exact fun _ _ he => by cases he
          | ok u =>
            rintro upstream evidenceRef he -
            cases he
            exact ⟨⟨ref, resource, hres, hmem, rfl⟩, upstream_of_checkUpstream hcheck⟩

/-- The case that `submit` goes on with: its own, at a version it has had. -/
def Opened (request : ConsequentialActionRequest) (r : Except PyErr CaseRecord)
    (h : Log (World.deployed V)) : Prop :=
  ∀ case, r = .ok case → (∃ c, Owned h.state.db request c) ∧
    Reached h.state.db request.caseId case.version

theorem wp_openCase {request : ConsequentialActionRequest} :
    (insertLogic engine (World.deployed V) admits J).wp τ (openCase request) (Opened request)
      h := by
  have hL : (insertLogic engine (World.deployed V) admits J).Stepwise := insertLogic_stepwise
  refine hL.wp_seq wp_getCase (fun found h1 _ hfound => ?_) fun _ _ _ _ _ he => by cases he
  injection hfound with hfound
  cases found with
  | none =>
    intro h2 _ _ _
    refine ⟨fun _ _ he => (by cases he), fun e => ?_⟩
    set record : CaseRecord := ⟨request.caseId, request.customerId, request.procedureId,
      request.procedureVersion, "active", 0⟩
    cases hx : ((Tx.createCase record).exec h2.state.clock e.ids h2.state.db).1 with
    | error exc =>
      have hres : (exec (World.deployed V) e h2.state (.tx (.createCase record))).1 =
        Except.error exc := hx
      rw [hres]
      exact fun _ he => by cases he
    | ok u =>
      have hres : (exec (World.deployed V) e h2.state (.tx (.createCase record))).1 =
        Except.ok u := hx
      rw [hres]
      rintro case he
      cases he
      have hcase : ((engine.system _ admits).after h2 τ (.tx (.createCase record)) e).state.db.case?
          request.caseId = some record := created_of_ok (Prod.ext hx rfl)
      exact ⟨⟨record, hcase, rfl, rfl⟩, Reached.of_read hcase⟩
  | some case =>
    simp only [Prog.bind_eq, Prog.throw_eq, Prog.bind_raise, Prog.pure_eq]
    split_ifs with hcust hver
    · exact fun _ he => by cases he
    · exact fun _ he => by cases he
    · rintro case' he
      cases he
      exact ⟨⟨case, hfound.symm, not_not.1 hcust, not_not.1 hver⟩, Reached.of_read hfound.symm⟩

theorem wp_commitFacts {action caseId : String} {upstream : Fields} {evidenceRef : String}
    {parameters : List String} {case : CaseRecord}
    (hv : Reached h.state.db caseId case.version) :
    (insertLogic engine (World.deployed V) admits J).wp τ
      (commitFacts action caseId upstream evidenceRef parameters case)
      (fun r h' => ∀ case', r = .ok case' → Reached h'.state.db caseId case'.version) h := by
  have hL : (insertLogic engine (World.deployed V) admits J).Stepwise := insertLogic_stepwise
  induction parameters generalizing h case with
  | nil =>
    rintro case' he
    cases he
    exact hv
  | cons parameter rest ih =>
    unfold commitFacts
    cases upstream.get? parameter with
    | none => exact fun _ he => by cases he
    | some value =>
      refine hL.wp_seq (R := fun r h' => ∀ case', r = .ok case' →
        Reached h'.state.db caseId case'.version) ?_ (fun case' h1 _ hc => ih (hc case' rfl))
        fun _ _ _ _ _ he => by cases he
      refine hL.wp_seq (wp_noInsert (issues_attempt fun _ _ he => by cases he))
        (fun _ h1 _ _ => ?_) fun _ _ _ _ _ he => by cases he
      refine hL.wp_seq wp_getCase (fun found h2 _ hfound => ?_) fun _ _ _ _ _ he => by cases he
      injection hfound with hfound
      cases found with
      | none => exact fun _ he => by cases he
      | some case' =>
        rintro case'' he
        cases he
        exact Reached.of_read hfound.symm

/-- `ActionGateway.authorize` with a version that the case has had, for a case that belongs
to the request: what it adds is the package that governs the case. -/
theorem wp_authorize_read {request : ConsequentialActionRequest} {command : ActionCommand} {v : ℤ}
    (hid : command.caseId = request.caseId)
    (hpid : command.policyPackageId = request.policyPackageId)
    (hv : Reached h.state.db request.caseId v) (ho : ∃ c, Owned h.state.db request c)
    (hJ : ∀ h' record (stamped : ActionCommand) resolved (package : PolicyPackage),
      (insertLogic (engine.deployed hmac signer) (World.deployed V) admits J).Rely h h' →
      record.command = stamped →
      stamped = { command with
        connectorBindingId := some (resolved : ResolvedActionConnector (deployedSig Y)).bindingId
        connectorBindingVersion := some resolved.bindingVersion
        contractVersion := some resolved.contractVersion
        policyActivationSignature := package.activationSignature } →
      CaseKernel.checkCommand stamped = .ok () →
      (∀ ref ∈ stamped.parameterFactRefs, Backed h'.state.db stamped ref) →
      Vetted hmac signer h' τ request.policyPackageId package →
      (∃ case, Owned h'.state.db request case ∧ package.procedureId = case.procedureId) →
      package.Allows command.action → J τ record h') :
    (insertLogic (engine.deployed hmac signer) (World.deployed V) admits J).wp τ
      ((engine.deployed hmac signer).gateway.authorize command v) (fun _ _ => True) h := by
  have hL : (insertLogic (engine.deployed hmac signer) (World.deployed V) admits J).Stepwise :=
    insertLogic_stepwise
  refine hL.wp_seq (wp_noInsert (Prog.issues_ofExcept _)) (fun resolved h1 hr1 _ => ?_)
    fun _ _ _ _ => trivial
  refine hL.wp_seq wp_requireActive (fun package h2 hr2 hpack => ?_) fun _ _ _ _ => trivial
  have hvet := hpack package rfl
  refine hL.wp_seq wp_getCase (fun found h3 hr3 hfound => ?_) fun _ _ _ _ => trivial
  injection hfound with hfound
  have hr03 := hL.trans _ _ _ hr1 (hL.trans _ _ _ hr2 hr3)
  cases found with
  | none => trivial
  | some case =>
    obtain ⟨c, ho⟩ := ho
    obtain ⟨c', ho', -⟩ := ho.mono hr03.1
    rw [hid, ho'.stored] at hfound
    injection hfound with hfound
    subst hfound
    simp only [Prog.bind_eq, Prog.throw_eq, Prog.bind_raise]
    split_ifs with hproc
    · trivial
    · refine hL.wp_seq (R := fun r _ => r = ActionGateway.checkAllowed package command.action)
        (Logic.wp_ofExcept.2 rfl) (fun u h4 hr4 hallow => ?_) fun _ _ _ _ => trivial
      have hr04 := hL.trans _ _ _ hr03 hr4
      refine wp_authorizeAction_read (hid ▸ hv.mono hr04.1) fun h5 record hr5 hrec hcheck hfacts =>
        ?_
      have hr05 := hL.trans _ _ _ hr04 hr5
      obtain ⟨c5, ho5, hp5⟩ := ho'.mono (hL.trans _ _ _ hr4 hr5).1
      refine hJ h5 record _ resolved package hr05 hrec rfl hcheck hfacts ?_
        ⟨c5, ho5, (not_not.1 hproc).trans hp5.symm⟩ (allows_of_checkAllowed hallow.symm)
      rw [← hpid]
      exact hvet.mono (hL.trans _ _ _ hr3 (hL.trans _ _ _ hr4 hr5)).2.1

/-- What a `submit` call must have established at its insertion. -/
def SubmitJustified (hmac : Hmac) (signer : PolicySigner) (τ : ℕ) (record : ActionRecord)
    (h : Log (World.deployed V)) : Prop :=
  ∀ request actorId, h.calls[τ]? = some (.submit request actorId) →
    ∃ specification, Entitled hmac signer h τ request record.command specification

theorem noInsert_of_dispatches {X : Sig} {o : Op X} (ho : o.dispatches) : o.noInsert := by
  rintro record v rfl
  exact ho

theorem lookup_map_self {α : Type} (f : String → α) {p : String} {l : List String} (hp : p ∈ l) :
    (l.map fun q => (q, f q)).lookup p = some (f p) := by
  induction l with
  | nil => cases hp
  | cons q l ih =>
    rw [List.map_cons, List.lookup_cons]
    by_cases hq : p = q
    · simp [hq]
    · have hne : (p == q) = false := by simpa using hq
      simp only [hne]
      exact ih (List.mem_of_ne_of_mem hq hp)

/-- The assembly: the checks of the service, the gateway and the kernel together. -/
theorem entitled_of_checks {request : ConsequentialActionRequest} {actorId : String}
    {specification : ActionSpecification} {upstream : Fields} {stamped : ActionCommand}
    {resolved : ResolvedActionConnector (deployedSig Y)} {package : PolicyPackage}
    (hs : specification? request.payload.action = some specification)
    (hstamped : stamped = { command request actorId
        (specification.authoritativeParameters.insertionSort (· ≤ ·)) with
      connectorBindingId := some resolved.bindingId
      connectorBindingVersion := some resolved.bindingVersion
      contractVersion := some resolved.contractVersion
      policyActivationSignature := package.activationSignature })
    (hload : specification.authoritativeParameters ≠ [] →
      Loaded h τ request upstream ∧ Upstream request specification upstream)
    (hcheck : CaseKernel.checkCommand stamped = .ok ())
    (hfacts : ∀ ref ∈ stamped.parameterFactRefs, Backed h.state.db stamped ref)
    (hvet : Vetted hmac signer h τ request.policyPackageId package)
    (hcase : ∃ case, Owned h.state.db request case ∧ package.procedureId = case.procedureId)
    (hallow : package.Allows request.payload.action) :
    Entitled hmac signer h τ request stamped specification := by
  obtain ⟨specification', hwell⟩ := wellSpecified_of_checkCommand hcheck
  have hsame : specification' = specification := by
    have hknown := hwell.known
    rw [hstamped] at hknown
    exact Option.some.inj (hknown.symm.trans hs)
  subst hsame
  obtain ⟨hauth, hbound⟩ := specification_coherent _ (specification?_mem hs).1
  have hvalue : ∀ p ∈ specification'.authoritativeParameters,
      ∃ value, request.payload.dump.get? p = some value := by
    intro p hp
    have hhas := hwell.required p (hauth p hp)
    rw [hstamped] at hhas
    exact Option.isSome_iff_exists.1 hhas
  have hup : ∀ p ∈ specification'.authoritativeParameters,
      Upstream request specification' upstream := fun p hp =>
    (hload (List.ne_nil_of_mem hp)).2
  obtain ⟨case, howned, hproc⟩ := hcase
  refine ⟨hwell, by rw [hstamped]; rfl, by rw [hstamped]; rfl,
    ⟨upstream, fun hne => (hload hne).1, fun p hp => ?_⟩, fun b hb => ?_,
    ⟨case, package, howned, hvet, by rw [hstamped], hproc, by rw [hstamped]; exact hallow⟩⟩
  · obtain ⟨value, hval⟩ := hvalue p hp
    obtain ⟨loaded, hget, heq⟩ := (hup p hp).parameters p hp
    have hsorted := (List.mem_insertionSort (· ≤ ·)).2 hp
    obtain ⟨fact, required, hfact, hcur, hfv, hreq, hrank⟩ :=
      hfacts (p, factName request.payload.action p) (by
        rw [hstamped]
        exact List.mem_map.2 ⟨p, hsorted, rfl⟩)
    rw [hstamped] at hfact hfv hreq ⊢
    have hver : required = .verified :=
      (Option.some.inj ((lookup_map_self (fun _ => FactAuthority.verified) hsorted).symm.trans
        hreq)).symm
    subst hver
    have hparam : (command request actorId
      (specification'.authoritativeParameters.insertionSort (· ≤ ·))).parameters.get? p =
        some value := hval
    simp only [hparam, hval, Option.getD_some] at hfv heq
    exact ⟨value, loaded, fact, hval, hget, heq, hfact, hcur,
      FactAuthority.verified_of_rank hrank, hfv⟩
  · have hp := hbound b hb
    obtain ⟨v, hget, hstr⟩ := (hup b hp).binding b hb
    obtain ⟨v', hget', heq⟩ := (hup b hp).parameters b hp
    obtain ⟨s', hs', -, hbinding⟩ := request.payload.specification_of_action
    have hss : s' = specification' := Option.some.inj (hs'.symm.trans hs)
    obtain ⟨c, hc⟩ := hbinding b (hss ▸ hb)
    have hvv : v' = v := Option.some.inj (hget'.symm.trans hget)
    rw [hvv, hc, Option.getD_some] at heq
    have hv := Json.eq_of_pyEq_str heq
    rw [hv] at hstr
    rw [hstamped]
    exact hc.trans (congrArg (fun x => some (Json.str x)) hstr)

theorem wp_submit_justified {request : ConsequentialActionRequest} {actorId : String}
    (hc : h.calls[τ]? = some (.submit request actorId)) :
    (insertLogic (engine.deployed hmac signer) (World.deployed V) admits
      (SubmitJustified hmac signer)).wp τ
      ((engine.deployed hmac signer).service.submit request actorId) (fun _ _ => True) h := by
  have hL : (insertLogic (engine.deployed hmac signer) (World.deployed V) admits
    (SubmitJustified hmac signer)).Stepwise := insertLogic_stepwise
  refine hL.wp_seq (wp_noInsert (issues_tx fun _ _ he => by cases he))
    (fun (found : Option ActionRecord) h1 hr1 _ => ?_) fun _ _ _ _ => trivial
  cases found with
  | some duplicate =>
    refine wp_noInsert (issues_replay _ request (fun _ _ _ => nofun) ?_)
    exact (ActionGateway.issues_dispatch _ duplicate).mono fun _ => noInsert_of_dispatches
  | none =>
    refine hL.wp_seq (R := fun _ _ => True) ?_ (fun a h2 _ _ => ?_) fun _ _ _ _ => trivial
    · unfold authorizeNew
      cases hs : specification? request.payload.action with
      | none => trivial
      | some specification =>
        refine hL.wp_seq wp_loadResource (fun ⟨upstream, evidenceRef⟩ h2 hr2 hload => ?_)
          fun _ _ _ _ => trivial
        have hload := hload upstream evidenceRef rfl
        refine hL.wp_seq wp_openCase (fun case h3 hr3 hopen => ?_) fun _ _ _ _ => trivial
        obtain ⟨⟨c, howned⟩, hreached⟩ := hopen case rfl
        refine hL.wp_seq (wp_commitFacts hreached) (fun case' h4 hr4 hv => ?_)
          fun _ _ _ _ => trivial
        obtain ⟨c', howned', -⟩ := howned.mono hr4.1
        refine wp_authorize_read rfl rfl (hv case' rfl) ⟨c', howned'⟩ ?_
        intro h5 record stamped resolved package hr5 hrec hst hcheck hfacts hvet hcase hallow
        have hr25 := hL.trans _ _ _ hr3 (hL.trans _ _ _ hr4 hr5)
        have hr05 := hL.trans _ _ _ hr1 (hL.trans _ _ _ hr2 hr25)
        intro request' actorId' hc'
        have hcc := (getElem?_of_extends hr05.2.2 hc).symm.trans hc'
        injection hcc with hcc
        injection hcc with hreq hact
        subst hreq hact
        rw [hrec]
        exact ⟨specification, entitled_of_checks hs hst
          (fun hne => ⟨(hload hne).1.mono hr25.2.1, (hload hne).2⟩) hcheck hfacts hvet hcase hallow⟩
    · refine wp_noInsert (Prog.Issues.mono (fun _ => noInsert_of_dispatches) ?_)
      exact ActionGateway.issues_dispatch _ a

end

/-- Every call is open, with any arguments. -/
def anyCalls {X : Sig} {W : World X} : Admission X W := fun _ _ => true

section
variable {Y : Sig}

theorem submitJustified_sound (hmac : Hmac) (signer : PolicySigner)
    (engine : Engine (deployedSig Y))
    (V : World Y) :
    (insertLogic (engine.deployed hmac signer) (World.deployed V) anyCalls
      (SubmitJustified hmac signer)).Sound := by
  refine insertLogic_sound fun h call _ _ => ?_
  have hc : (((engine.deployed hmac signer).system (World.deployed V) anyCalls).spawned h
      call).calls[h.calls.length]? = some call := calls_spawned h call
  cases call with
  | submit request actorId =>
    exact insertLogic_stepwise.wp_seq (wp_submit_justified hc) (fun _ _ _ _ => trivial)
      fun _ _ _ _ => trivial
  | _ =>
    refine wp_unconcerned (fun h' record hc' request actorId hc'' => ?_) _ hc
    rw [hc'] at hc''
    cases hc''

/-- In every run, over any policy publications, resource answers, connectors and other calls:
when a `submit` call puts a new action into the store, everything that `Entitled` lists holds
in the state just before, for the command that was stored. -/
theorem submit_soundly_authorized (hmac : Hmac) (signer : PolicySigner)
    (engine : Engine (deployedSig Y)) (V : World Y) (s : EngineState (World.deployed V))
    (before between : List ((engine.deployed hmac signer).system (World.deployed V) anyCalls).Move)
    (request : ConsequentialActionRequest) (actorId : String)
    (e : EngineChoice (World.deployed V)) (id : String) (a : ActionRecord)
    (hnone : ((engine.deployed hmac signer).history (World.deployed V) anyCalls s
      (before ++ .spawn (.submit request actorId) :: between)).state.db.action? id = none)
    (hnew : ((engine.deployed hmac signer).history (World.deployed V) anyCalls s
      (before ++ .spawn (.submit request actorId) :: between ++
        [.run ((engine.deployed hmac signer).history (World.deployed V) anyCalls s
          before).calls.length e])).state.db.action? id = some a) :
    ∃ specification, Entitled hmac signer ((engine.deployed hmac signer).history
        (World.deployed V) anyCalls s (before ++ .spawn (.submit request actorId) :: between))
      ((engine.deployed hmac signer).history (World.deployed V) anyCalls s before).calls.length
      request a.command specification := by
  obtain ⟨record, rfl, hJ⟩ :=
    justified_of_appeared (submitJustified_sound hmac signer engine V) hnone hnew
  refine hJ request actorId ?_
  simp only [history, System.run_append]
  exact System.call_of_spawn rfl between

end

/-- A toy signature scheme for the runs below. -/
def keyHmac : Hmac := fun key _ => key

def testSigner : PolicySigner := ⟨"secret", "key-1", []⟩

def activePackage : PolicyPackage where
  packageId := "P-1"
  procedureId := "proc"
  version := "1"
  jurisdiction := "US"
  author := "author"
  rules := [("allowed_actions", .list [.str "flag_account"])]
  lifecycle := .active
  approver := some "approver"
  signingKeyId := some "key-1"
  activationSignature := some "secret"
  signature := some "secret"

def publishedPolicies : PolicyTable := ⟨[activePackage], fun _ => List.nodup_singleton _⟩

def flagRequest : ConsequentialActionRequest where
  caseId := "C-1"
  customerId := "U-1"
  procedureId := "proc"
  procedureVersion := "1"
  policyPackageId := "P-1"
  idempotencyKey := "key-1"
  resource := some ⟨"account", "A-1"⟩
  payload := .flagAccount "A-1" "r" .freeze
  approvalEvidenceRef := some "approval-1"
  keyMin := keyMin_one
  keyMax := keyMax_one

/-- A connector that never answers. -/
def silentConnector : ActionConnector (deployedSig ⟨Empty, Empty.elim⟩) where
  dispatch _ := .raise (.other "Timeout")
  reconcile _ _ := .raise (.other "Timeout")

def oneConnector : Engine (deployedSig ⟨Empty, Empty.elim⟩) where
  gateway := { connectors := .mapping fun _ => some silentConnector }
  resources _ _ := return none

def accountChoice : EngineChoice (World.deployed World.isolated) :=
  ⟨toString, 0, publishedPolicies, .ok (some ⟨[("account_id", .str "A-1")], 1⟩), ()⟩

theorem submit_soundly_authorized_flag :
    ∃ specification, Entitled keyHmac testSigner
      ((oneConnector.deployed keyHmac testSigner).history (World.deployed World.isolated) anyCalls
        ⟨.empty, 0, publishedPolicies, ()⟩
        ([] ++ .spawn (.submit flagRequest "agent") :: List.replicate 12 (.run 0 accountChoice)))
      0 flagRequest { flagCommand with
        policyActivationSignature := some "secret"
        connectorBindingId := some "legacy"
        connectorBindingVersion := some "1"
        contractVersion := some "1" } specification :=
  submit_soundly_authorized keyHmac testSigner oneConnector World.isolated
    ⟨.empty, 0, publishedPolicies, ()⟩ [] (List.replicate 12 (.run 0 accountChoice)) flagRequest
    "agent" accountChoice "ACT-0" (firstAction { flagCommand with
        policyActivationSignature := some "secret"
        connectorBindingId := some "legacy"
        connectorBindingVersion := some "1"
        contractVersion := some "1" }) (by decide +kernel) (by decide +kernel)

end WorkflowEngine
