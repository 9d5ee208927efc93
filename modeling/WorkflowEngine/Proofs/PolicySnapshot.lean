import WorkflowEngine.Proofs.PolicyLifecycle
import WorkflowEngine.Proofs.Submission
import WorkflowEngine.Spec.Governance

/-! Authorized work stays dispatchable: what `authorize` stamps on an action is the
activation of a package, and no operation of the policy service, restart or rotation takes a
package out of the signed history, changes its rules or its activation. -/

namespace WorkflowEngine

open Interleave PolicyPackages Engine

variable {hmac : Hmac}

/-- What the operations of the service keep of every package that is stored. -/
structure Standing (hmac : Hmac) (signer : PolicySigner) (p : PolicyPackage) : Prop where
  activated : p.Activated
  governed : Governed hmac signer p
  stamped : p.lifecycle = .active → p.activationSignature = p.signature

theorem Revision.standing (hd : PolicySigner.Digest hmac) {signer : PolicySigner}
    {q p : PolicyPackage} (h : Revision hmac signer q p) (hq : Standing hmac signer q) :
    Standing hmac signer p := by
  refine ⟨h.activated hq.activated,
    h.governed hd hq.governed (PolicySigner.verificationKey_self signer), fun hl => ?_⟩
  cases h with
  | approve hql h =>
    rw [(PolicySigner.approve_ok h).2.2.2.1] at hl
    cases hl
  | activate h => exact (PolicySigner.activate_ok h).2.2.2.2.2.2
  | retire h =>
    rw [(PolicySigner.retire_ok h).2.2.2.2.1] at hl
    cases hl

def Published (hmac : Hmac) (s : PolicyState) : Prop :=
  ∀ row ∈ s.packages.rows, row.Coherent ∧ Standing hmac s.registry.signer row.packageJson

namespace PolicyState

/-- The operation writes revisions of what is stored. -/
structure Steady (hmac : Hmac) (s : PolicyState) (o : PolicyStoreOp) : Prop where
  written : ∀ p ∈ o.writes, ∃ row ∈ s.packages.rows,
    Revision hmac s.registry.signer row.packageJson p
  retired : ∀ active retired, o = .replaceActive active retired →
    ∀ p ∈ retired, p.lifecycle = .retired

theorem steady_save {s : PolicyState} {row : PolicyRow} {p : PolicyPackage}
    (hrow : row ∈ s.packages.rows) (h : Revision hmac s.registry.signer row.packageJson p) :
    s.Steady hmac (.save p) := by
  refine ⟨fun p' hp => ?_, fun _ _ he => (by cases he)⟩
  rw [List.mem_singleton.1 hp]
  exact ⟨row, hrow, h⟩

/-- A call, executed alone: nothing, a new draft, or one steady operation. -/
theorem Effect.steady {s s' : PolicyState} (h : Effect hmac s s') :
    s'.packages = s.packages ∨
      (∃ p, p.lifecycle = .draft ∧ s.packages.row? p.packageId = none ∧
        s.packages.Put p s'.packages) ∨
      ∃ o, s.Steady hmac o ∧ s'.packages = (s.exec hmac o).2.packages := by
  have hmem : ∀ {k row}, s.packages.row? k = some row → row ∈ s.packages.rows :=
    fun h => (row?_eq_some.1 h).1
  cases h with
  | unchanged => exact Or.inl rfl
  | draft hl hrow hput => exact Or.inr (Or.inl ⟨_, hl, hrow, hput⟩)
  | approve hrow hl ha ht =>
    refine Or.inr (Or.inr ⟨_, steady_save (hmem hrow) (.approve hl ha), ?_⟩)
    simp only [exec, ht, commit]
  | @activate k row active retired t' hrow ha hm ht =>
    refine Or.inr (Or.inr ⟨.replaceActive active retired, ⟨fun p hp => ?_, ?_⟩, ?_⟩)
    · rcases List.mem_append.1 hp with hp | hp
      · obtain ⟨q, hq, hp'⟩ := Fallible.of_mem_mapM hm hp
        obtain ⟨row', hrow', rfl, -⟩ := mem_list (List.mem_of_mem_filter hq)
        exact ⟨row', hrow', .retire hp'⟩
      · rw [List.mem_singleton.1 hp]
        exact ⟨row, hmem hrow, .activate ha⟩
    · rintro a r ⟨⟩ p hp
      obtain ⟨q, -, hp'⟩ := Fallible.of_mem_mapM hm hp
      exact (PolicySigner.retire_ok hp').2.2.2.2.1
    · simp only [exec, ht, commit]
  | retire hrow hr ht =>
    refine Or.inr (Or.inr ⟨_, steady_save (hmem hrow) (.retire hr), ?_⟩)
    simp only [exec, ht, commit]

theorem Steady.extends_of {s : PolicyState} {o : PolicyStoreOp} (h : s.Steady hmac o)
    (hd : PolicySigner.Digest hmac) (hs : Published hmac s) {p : PolicyPackage}
    (hp : p ∈ o.writes) : s.packages.Extends p ∧ Standing hmac s.registry.signer p := by
  obtain ⟨row, hrow, hrev⟩ := h.written p hp
  obtain ⟨hc, hst⟩ := hs row hrow
  have hstored : s.packages.row? row.packageJson.packageId = some row := by
    rw [← hc.fits.packageId]
    exact row?_of_mem hrow
  refine ⟨Or.inr ⟨row, extends_of_revision (fun row hrow => ⟨(hs row hrow).1,
    (hs row hrow).2.activated⟩) hstored (.refl _) hrev ?_⟩, hrev.standing hd hst⟩
  rw [← hrev.content.packageId] at hstored
  simp only [Succeeds, hstored, hc.lifecycle]
  exact hrev.rank

/-- An atomically executed operation, or a restart. -/
theorem apply_published (hd : PolicySigner.Digest hmac) {s : PolicyState} (hs : Published hmac s)
    (event : PolicyEvent) :
    Published hmac (s.apply hmac event) ∧ s.packages.Onward (s.apply hmac event).packages := by
  cases event with
  | restart signer =>
    rcases restart_cases hmac s signer with he | ⟨hk, hp, hr⟩
    · simp only [apply, he]
      exact ⟨hs, .refl _⟩
    · unfold Published
      simp only [apply, hp, hr]
      refine ⟨fun row hrow => ⟨(hs row hrow).1, ?_⟩, .refl _⟩
      have hst := (hs row hrow).2
      exact ⟨hst.activated, governed_of_keeps hk hst.governed, hst.stamped⟩
  | call call =>
    have hsigner : (s.perform hmac call).registry.signer = s.registry.signer :=
      signer_alone hmac _ s
    unfold Published
    simp only [apply, hsigner]
    rcases (perform_effect s call).steady with he | ⟨p, hl, hnone, hput⟩ | ⟨o, ho, he⟩
    · rw [he]
      exact ⟨hs, .refl _⟩
    · have hadm : s.packages.Admissible p := Extends.admissible (Or.inl ⟨hl, hnone⟩)
      refine ⟨hput.coherent hadm ⟨?_, ?_, ?_⟩ hs, hput.onward hadm⟩
      · intro h2
        simp [hl, PolicyLifecycle.rank] at h2
      · exact fun hne => absurd hl hne
      · intro ha
        rw [hl] at ha
        cases ha
    · obtain ⟨hon, -, hrows⟩ := @PolicyState.forward hmac s o _
        (fun p hp => ho.extends_of hd hs hp) ho.retired hs
      rw [he]
      exact ⟨hrows, hon⟩

theorem applyAll_published (hd : PolicySigner.Digest hmac) {s : PolicyState}
    (hs : Published hmac s) (events : List PolicyEvent) :
    Published hmac (s.applyAll hmac events) ∧
      s.packages.Onward (s.applyAll hmac events).packages := by
  unfold applyAll
  induction events using List.reverseRecOn with
  | nil => exact ⟨hs, .refl _⟩
  | append_singleton events event ih =>
    rw [List.foldl_append]
    obtain ⟨hp, hon⟩ := ih
    obtain ⟨hp', hon'⟩ := apply_published hd hp event
    exact ⟨hp', hon.trans hon'⟩

theorem published_empty (signer : PolicySigner) : Published hmac (empty signer) := by
  intro row hrow
  cases hrow

end PolicyState

/-- A lookup, once the registry takes what it found. -/
theorem loading_alone {s : PolicyState} {p : Prog policySig PyErr PolicyPackage}
    {package : PolicyPackage}
    (hlook : (PolicyService.reading p).alone (PolicyState.exec hmac) s = (.ok package, s))
    (hload : (s.registry.updateAll hmac [.loadHistory package]).1 = .ok ()) :
    ((PolicyService.loading p).alone (PolicyState.exec hmac) s).1 = .ok package := by
  rw [PolicyService.loading, Prog.bind_eq, Prog.alone_bind, hlook]
  change ((Prog.bind (Prog.ofExcept (s.registry.updateAll hmac
    [.loadHistory package]).1) fun _ => .ret package).alone _ _).1 = _
  rw [hload]
  rfl

/-- The lookup by which `dispatch` checks its policy, in a repository whose package is
history. -/
theorem snapshot_alone {s : PolicyState} (hs : Published hmac s) {k signature : String}
    {row : PolicyRow} (hrow : s.packages.row? k = some row)
    (hr : 2 ≤ row.packageJson.lifecycle.rank)
    (ha : row.packageJson.activationSignature = some signature) :
    (((PolicyService.current hmac).requireAuthorizationSnapshot k signature).alone
      (PolicyState.exec hmac) s).1 = .ok row.packageJson := by
  obtain ⟨-, hst⟩ := hs row (row?_eq_some.1 hrow).1
  have hl : row.packageJson.lifecycle = .active ∨ row.packageJson.lifecycle = .retired := by
    cases h : row.packageJson.lifecycle <;> simp [h, PolicyLifecycle.rank] at hr ⊢
  have hv : s.registry.signer.verify hmac row.packageJson = true := by
    refine (hst.governed fun hd => ?_).1
    simp [hd, PolicyLifecycle.rank] at hr
  have hread : (s.exec hmac (.get k)).1 = some row.packageJson :=
    PolicyPackages.get_eq_some.2 ⟨row, hrow, rfl⟩
  have hlook : (PolicyService.reading (PolicyService.requireAuthorizationSnapshot hmac
      s.registry.signer k signature)).alone (PolicyState.exec hmac) s =
      (.ok row.packageJson, s) := by
    unfold PolicyService.requireAuthorizationSnapshot PolicyService.reading
    rw [Prog.bind_eq, Prog.lift_bind]
    change ((PolicyService.reading (PolicyService.require k)).bind _).alone _ _ = _
    rw [PolicyService.reading_require, Prog.bind_call, Prog.alone_call, hread]
    rcases hl with hl | hl <;> simp [hl, hv, ha, PolicyState.exec]
  have hload : (s.registry.updateAll hmac [.loadHistory row.packageJson]).1 = .ok () := by
    rcases hl with hl | hl <;>
      simp [PolicyRegistry.updateAll, PolicyRegistry.update, PolicyRegistry.loadHistory, hl, hv]
  exact loading_alone hlook hload

/-- The lookup by which `authorize` finds its package. -/
theorem active_alone {s : PolicyState} {k : String} {row : PolicyRow}
    (hrow : s.packages.row? k = some row) (hl : row.packageJson.lifecycle = .active)
    (hv : s.registry.signer.verify hmac row.packageJson = true) :
    (((PolicyService.current hmac).requireActive k).alone (PolicyState.exec hmac) s).1 =
      .ok row.packageJson := by
  have hread : (s.exec hmac (.get k)).1 = some row.packageJson :=
    PolicyPackages.get_eq_some.2 ⟨row, hrow, rfl⟩
  have hlook : (PolicyService.reading (PolicyService.requireActive hmac
      s.registry.signer k)).alone (PolicyState.exec hmac) s = (.ok row.packageJson, s) := by
    unfold PolicyService.requireActive PolicyService.reading
    rw [Prog.bind_eq, Prog.lift_bind]
    change ((PolicyService.reading (PolicyService.require k)).bind _).alone _ _ = _
    rw [PolicyService.reading_require, Prog.bind_call, Prog.alone_call, hread]
    simp [hl, hv, PolicyState.exec]
  have hload : (s.registry.updateAll hmac [.loadHistory row.packageJson]).1 = .ok () := by
    simp [PolicyRegistry.updateAll, PolicyRegistry.update, PolicyRegistry.loadHistory, hl, hv]
  exact loading_alone hlook hload

section
variable {Y : Sig} {V : World Y} {engine : Engine Y}

/-- Authorizations by the gateway beside any transactions of the store. -/
def governanceCalls {X : Sig} {W : World X} : Admission X W
  | _, .authorize .. => true
  | _, .transaction _ => true
  | _, _ => false

abbrev GovernedLog (hmac : Hmac) (V : World Y) := Log (World.governed hmac V)

/-- What a read of an active package leaves behind: the package, or its later version, under
the id that was read. -/
structure Remembered (s : PolicyState) (k : String) (package : PolicyPackage) : Prop where
  stored : ∃ row, s.packages.row? k = some row ∧ package.Later row.packageJson
  stamped : package.lifecycle = .active →
    ∃ signature, package.activationSignature = some signature ∧ signature ≠ ""

/-- The task has read the active package whose activation the record carries, and the package
allows the action. -/
def Stamps (h : GovernedLog hmac V) (τ : ℕ) (record : ActionRecord) : Prop :=
  ∃ package, (⟨τ, Op.ext (.inl (.get record.command.policyPackageId)), some package⟩ :
      Entry (sig (policyStoreSig.sum Y))) ∈ h.trace ∧
    package.lifecycle = .active ∧
    record.command.policyActivationSignature = package.activationSignature ∧
    ActionGateway.checkAllowed package record.command.action = .ok ()

variable (hmac V engine) in
def stampLogic : Logic ((engine.governed hmac).system (World.governed hmac V) governanceCalls) where
  Inv h := Published hmac h.state.ext.1 ∧ ∀ τ k package,
    (⟨τ, Op.ext (.inl (.get k)), some package⟩ : Entry (sig (policyStoreSig.sum Y))) ∈ h.trace →
      Remembered h.state.ext.1 k package
  Rely h h' := h.trace <+: h'.trace ∧ h.calls <+: h'.calls
  Pre τ o h := (∀ po, o = .ext (.inl po) → PolicyStoreOp.writes po = []) ∧
    ∀ record v, o = .tx (.insertAction record v) →
      (∃ command v', h.calls[τ]? = some (.authorize command v')) → Stamps h τ record

variable {τ : ℕ}

theorem Remembered.onward {s s' : PolicyState} {k : String} {package : PolicyPackage}
    (h : Remembered s k package) (hon : s.packages.Onward s'.packages) :
    Remembered s' k package := by
  obtain ⟨row, hrow, hl⟩ := h.stored
  obtain ⟨row', hrow', hl'⟩ := hon k row hrow
  exact ⟨⟨row', hrow', hl.trans hl'⟩, h.stamped⟩

/-- What is read now is remembered. -/
theorem remembered_of_get {s : PolicyState} (hs : Published hmac s) {k : String}
    {package : PolicyPackage} (h : SQLitePolicyRepository.get s.packages k = some package) :
    Remembered s k package := by
  obtain ⟨row, hrow, rfl⟩ := PolicyPackages.get_eq_some.1 h
  obtain ⟨-, hst⟩ := hs row (row?_eq_some.1 hrow).1
  refine ⟨⟨row, hrow, .refl _⟩, fun hl => ?_⟩
  obtain ⟨-, keyId, key, -, -, hsig, hne⟩ :=
    PolicySigner.verify_iff.1 (hst.governed (by simp [hl])).1
  exact ⟨_, (hst.stamped hl).trans hsig, hne⟩

theorem stampLogic_stepwise : (stampLogic hmac V engine).Stepwise where
  refl _ := ⟨List.prefix_refl _, List.prefix_refl _⟩
  trans _ _ _ h1 h2 := ⟨h1.1.trans h2.1, h1.2.trans h2.2⟩
  step τ o e h hi hp := by
    refine ⟨?_, List.prefix_append _ _, List.prefix_refl _⟩
    obtain ⟨hpub, hreads⟩ := hi
    -- no operation of a task changes the packages or the signer
    have hkeep :
        (((engine.governed hmac).system (World.governed hmac V) governanceCalls).after h τ o
          e).state.ext.1.packages = h.state.ext.1.packages ∧
        (((engine.governed hmac).system (World.governed hmac V) governanceCalls).after h τ o
          e).state.ext.1.registry.signer = h.state.ext.1.registry.signer := by
      cases o with
      | ext o =>
        cases o with
        | inl po => exact ⟨PolicyState.packages_of_silent hmac _ (hp.1 po rfl),
            @PolicyState.signer_exec hmac _ po⟩
        | inr o => exact ⟨rfl, rfl⟩
      | _ => exact ⟨rfl, rfl⟩
    refine ⟨?_, fun τ' k package hmem => ?_⟩
    · unfold Published
      rw [hkeep.1, hkeep.2]
      exact hpub
    · have hon : h.state.ext.1.packages.Onward (((engine.governed hmac).system
          (World.governed hmac V) governanceCalls).after h τ o e).state.ext.1.packages := by
        rw [hkeep.1]
        exact .refl _
      rcases List.mem_append.1 hmem with hmem | hmem
      · exact (hreads τ' k package hmem).onward hon
      · injection List.mem_singleton.1 hmem with _ ho hr
        subst ho
        exact (remembered_of_get hpub (eq_of_heq hr).symm).onward hon

/-- `require_active` by the running service. -/
theorem wp_requireActive_current {k : String} {h : GovernedLog hmac V} :
    (stampLogic hmac V engine).wp τ
      (Task.ext ((PolicyService.current hmac).ahead.requireActive k))
      (fun r h' => ∀ package, r = .ok package → package.lifecycle = .active ∧
        (⟨τ, Op.ext (.inl (.get k)), some package⟩ : Entry (sig (policyStoreSig.sum Y))) ∈
          h'.trace) h := by
  have hsilent : ∀ {o : PolicyStoreOp} {h : GovernedLog hmac V}, o.writes = [] →
      (stampLogic hmac V engine).Pre τ (.ext (.inl o)) h := by
    intro o h ho
    refine ⟨fun po he => ?_, fun record v he => (by cases he)⟩
    cases he
    exact ho
  intro h1 _ _ _
  refine ⟨hsilent rfl, fun e1 => ?_⟩
  intro h2 _ _ _
  refine ⟨hsilent rfl, fun e2 => ?_⟩
  have hmem : (⟨τ, Op.ext (.inl (.get k)), SQLitePolicyRepository.get h2.state.ext.1.packages k⟩ :
      Entry (sig (policyStoreSig.sum Y))) ∈ (((engine.governed hmac).system (World.governed hmac V)
        governanceCalls).after h2 τ (.ext (.inl (.get k))) e2).trace :=
    List.mem_append_right _ (List.mem_singleton_self _)
  have hres : (((engine.governed hmac).system (World.governed hmac V) governanceCalls).exec e2
      h2.state (.ext (.inl (.get k)))).1 = SQLitePolicyRepository.get h2.state.ext.1.packages k :=
      rfl
  rw [hres]
  cases hfound : SQLitePolicyRepository.get h2.state.ext.1.packages k with
  | none => exact fun package he => by cases he
  | some package =>
    rw [hfound] at hmem
    change (stampLogic hmac V engine).wp τ (Prog.lift Op.ext (fun _ r => r)
      (Prog.lift Sum.inl (fun _ r => r) ((PolicyService.reading
        (if package.lifecycle ≠ .active ∨
            (!PolicySigner.verify hmac h1.state.ext.1.registry.signer package) = true then
          Prog.raise (PyErr.valueError ("Policy package is not active: " ++ k))
        else Prog.ret package)).bind fun package =>
          (PolicyTask.registry [.loadHistory package]).bind fun _ => .ret package))) _ _
    split_ifs with hbad
    · exact fun package he => by cases he
    · intro h3 _ hq3 _
      refine ⟨hsilent rfl, fun e3 => ?_⟩
      have hkept : (⟨τ, Op.ext (.inl (.get k)), some package⟩ :
          Entry (sig (policyStoreSig.sum Y))) ∈ (((engine.governed hmac).system
            (World.governed hmac V) governanceCalls).after h3 τ
              (.ext (.inl (.registry [.loadHistory package]))) e3).trace :=
        List.mem_append_left _ (hq3.mem hmem)
      change (stampLogic hmac V engine).wp τ (Prog.lift Op.ext (fun _ r => r)
        (Prog.lift Sum.inl (fun _ r => r) ((Prog.ofExcept (PolicyRegistry.updateAll hmac
          h3.state.ext.1.registry [.loadHistory package]).1).bind fun _ => .ret package))) _ _
      cases (PolicyRegistry.updateAll hmac h3.state.ext.1.registry [.loadHistory package]).1 with
      | error e => exact fun package he => by cases he
      | ok u =>
        rintro package' he
        cases he
        exact ⟨not_not.1 (not_or.1 hbad).1, hkept⟩

/-- `ActionGateway.authorize` with the running service. -/
theorem wp_authorize_current {command : ActionCommand} {v : ℤ} {h : GovernedLog hmac V} :
    (stampLogic hmac V engine).wp τ ((engine.governed hmac).gateway.authorize command v)
      (fun _ _ => True) h := by
  have hL : (stampLogic hmac V engine).Stepwise := stampLogic_stepwise
  refine hL.wp_seq (R := fun _ _ => True) (Logic.wp_ofExcept.2 trivial) (fun resolved h1 _ _ => ?_)
    fun _ _ _ _ => trivial
  refine hL.wp_seq wp_requireActive_current (fun package h2 _ hpack => ?_) fun _ _ _ _ => trivial
  obtain ⟨hactive, hmem⟩ := hpack package rfl
  refine hL.wp_seq (R := fun _ h' => h2.trace <+: h'.trace) (fun h' hr _ _ =>
    ⟨⟨fun _ he => (by cases he), fun _ _ he => (by cases he)⟩, fun _ =>
      hr.1.trans (List.prefix_append _ _)⟩) (fun (found : Option CaseRecord) h3 _ ht3 => ?_)
    fun _ _ _ _ => trivial
  cases found with
  | none => trivial
  | some case =>
    simp only [Prog.bind_eq, Prog.throw_eq, Prog.bind_raise]
    split_ifs with hproc
    · trivial
    · refine hL.wp_seq (R := fun r h' => r = ActionGateway.checkAllowed package command.action ∧
        h2.trace <+: h'.trace) (Logic.wp_ofExcept.2 ⟨rfl, ht3⟩) (fun _ h4 _ hR => ?_)
        fun _ _ _ _ => trivial
      obtain ⟨hallow, ht4⟩ := hR
      -- until the insertion, the task keeps the trace of its read
      refine Logic.wp_mono (fun _ _ _ => trivial) (Logic.wp_frame
        (J := fun h' : GovernedLog hmac V => h2.trace <+: h'.trace)
        (issues_authorizeAction _ v) (fun h' h'' ht hr _ => ht.trans hr.1) (fun h' o ht _ ho =>
          ⟨⟨fun po he => ?_, fun record v' he _ => ?_⟩,
            fun e => ht.trans (List.prefix_append _ _)⟩) ht4)
      · subst he
        exact absurd ho id
      · subst he
        have hc : record.command = _ := ho
        refine ⟨package, ?_, hactive, ?_, ?_⟩
        · rw [hc]
          exact ht.subset hmem
        · rw [hc]
        · rw [hc]
          exact hallow.symm

theorem stampLogic_sound (hd : PolicySigner.Digest hmac) : (stampLogic hmac V engine).Sound where
  toStepwise := stampLogic_stepwise
  spawn _ _ hi _ := ⟨hi, List.prefix_refl _, List.prefix_append _ _⟩
  crash _ _ hi := ⟨hi, List.prefix_refl _, List.prefix_refl _⟩
  drift h e hi := by
    obtain ⟨hpub, hon⟩ := PolicyState.applyAll_published hd hi.1 e.ext.events
    exact ⟨⟨hpub, fun τ k package hmem => (hi.2 τ k package hmem).onward hon⟩,
      List.prefix_refl _, List.prefix_refl _⟩
  body h call _ ha _ := by
    have hc : (((engine.governed hmac).system (World.governed hmac V) governanceCalls).spawned h
        call).calls[h.calls.length]? = some call := by simp [System.spawned]
    cases call with
    | authorize command v =>
      exact stampLogic_stepwise.wp_seq wp_authorize_current (fun _ _ _ _ => trivial)
        fun _ _ _ _ => trivial
    | transaction o =>
      intro h' _ hq _
      refine ⟨⟨fun _ he => (by cases he), fun record v _ hcall => ?_⟩, fun _ => trivial⟩
      obtain ⟨command, v', hcall⟩ := hcall
      rw [getElem?_of_extends hq.calls hc] at hcall
      cases hcall
    | _ => cases ha

/-- An action that an `authorize` call puts into the store carries what its task has read. -/
theorem stamps_of_appeared (hd : PolicySigner.Digest hmac)
    {s : EngineState (World.governed hmac V)} (hs : Published hmac s.ext.1)
    {acts : List ((engine.governed hmac).system (World.governed hmac V) governanceCalls).Move}
    {e : EngineChoice (World.governed hmac V)} {id : String} {a : ActionRecord}
    (hcall : ∃ command v, ((engine.governed hmac).history (World.governed hmac V) governanceCalls s
      acts).calls[τ]? = some (.authorize command v))
    (hnone : ((engine.governed hmac).history (World.governed hmac V) governanceCalls s
      acts).state.db.action? id = none)
    (hsome : ((engine.governed hmac).history (World.governed hmac V) governanceCalls s
      (acts ++ [.run τ e])).state.db.action? id = some a) :
    Stamps ((engine.governed hmac).history (World.governed hmac V) governanceCalls s acts) τ a := by
  have hgood := (@stampLogic_sound hmac _ V engine hd).good_run (s := s)
    ⟨hs, fun _ _ _ hm => by cases hm⟩ acts
  simp only [history, System.run_snoc] at hnone hsome hcall ⊢
  rcases System.next_cases (((engine.governed hmac).system (World.governed hmac V)
      governanceCalls).run (((engine.governed hmac).system (World.governed hmac V)
      governanceCalls).init s) acts) (.run τ e) with
      hn | ⟨_, ha, _⟩ | ⟨τ', e', o, k, ha, hready, hn⟩ | ⟨_, ha, _⟩ | ⟨_, ha, _⟩
  · rw [hn, hnone] at hsome
    cases hsome
  · cases ha
  · cases ha
    rw [hn] at hsome
    cases o with
    | tx o =>
      obtain ⟨record, v, rfl, hins, rfl⟩ := (Tx.effect _ e.ids _ o).appeared hnone hsome
      exact (hgood.pre (stampLogic_sound hd) hready).2 record v rfl hcall
    | _ =>
      rw [Db.action?] at hnone
      exact absurd (hnone.symm.trans hsome) (by simp)
  · cases ha
  · cases ha

/-- The policy checks of `dispatch`, for a command whose stamp is in the history. -/
theorem checkSnapshot_alone (e : EngineChoice (World.governed hmac V))
    {s : EngineState (World.governed hmac V)} {command : ActionCommand} {signature : String}
    {now : PolicyPackage} (hsig : command.policyActivationSignature = some signature)
    (hne : signature ≠ "")
    (hlook : (((PolicyService.current hmac).requireAuthorizationSnapshot command.policyPackageId
      signature).alone (PolicyState.exec hmac) s.ext.1).1 = .ok now)
    (hallow : ActionGateway.checkAllowed now command.action = .ok ()) :
    (((engine.governed hmac).gateway.checkSnapshot command).alone
      (Engine.exec (World.governed hmac V) e) s).1 = .ok () := by
  have hext : ((Task.ext ((PolicyService.current hmac).ahead.requireAuthorizationSnapshot
      command.policyPackageId signature)).alone (Engine.exec (World.governed hmac V) e) s).1 =
      .ok now := by
    rw [← hlook]
    refine (@Prog.alone_lift _ _ _ _ _ ((World.governed hmac V).exec e.ext) _ _ _ _ (fun s => s.ext)
      (fun _ _ => rfl) (fun _ _ => rfl) _ s).trans ?_
    exact @Prog.alone_lift _ _ _ _ _ _ _ _ _ _ Prod.fst (fun _ _ => rfl) (fun _ _ => rfl) _ s.ext
  unfold ActionGateway.checkSnapshot
  split
  case h_1 hnone => cases hnone
  case h_2 policy hpolicy =>
  cases hpolicy
  rw [hsig, Option.getD_some]
  split
  · exact absurd rfl hne
  · refine (congrArg Prod.fst (Prog.alone_bind_ok hext)).trans ?_
    rw [hallow]
    rfl

variable (hmac V engine) in
/-- The history of the gateway's authorizations beside the policy service. -/
def governedHistory (s : EngineState (World.governed hmac V))
    (acts : List ((engine.governed hmac).system (World.governed hmac V) governanceCalls).Move) :
    GovernedLog hmac V :=
  (engine.governed hmac).history (World.governed hmac V) governanceCalls s acts

/-- Whatever the policy service does after `authorize` has put an action into the store, the
activation that the action carries stays in the history with the rules that were checked, and
the policy checks of `dispatch` pass. -/
theorem authorized_work_stays_dispatchable (hd : PolicySigner.Digest hmac) (engine : Engine Y)
    (V : World Y) (signer : PolicySigner) (published : List PolicyEvent)
    (s : EngineState (World.governed hmac V))
    (hs : s.ext.1 = (PolicyState.empty signer).applyAll hmac published)
    (before between after :
      List ((engine.governed hmac).system (World.governed hmac V) governanceCalls).Move)
    (command : ActionCommand) (v : ℤ) (e : EngineChoice (World.governed hmac V)) (id : String)
    (a : ActionRecord)
    (hnone : (governedHistory hmac V engine s
      (before ++ .spawn (.authorize command v) :: between)).state.db.action? id = none)
    (hnew : (governedHistory hmac V engine s (before ++ .spawn (.authorize command v) :: between ++
      [.run (governedHistory hmac V engine s before).calls.length e])).state.db.action? id =
        some a) :
    ∃ package signature now,
      (⟨(governedHistory hmac V engine s before).calls.length,
        Op.ext (.inl (.get a.command.policyPackageId)), some package⟩ :
          Entry (sig (policyStoreSig.sum Y))) ∈ (governedHistory hmac V engine s
            (before ++ .spawn (.authorize command v) :: between)).trace ∧
      package.activationSignature = some signature ∧
      a.command.policyActivationSignature = some signature ∧
      (((PolicyService.current hmac).requireAuthorizationSnapshot a.command.policyPackageId
        signature).alone (PolicyState.exec hmac) (governedHistory hmac V engine s
          (before ++ .spawn (.authorize command v) :: between ++
            [.run (governedHistory hmac V engine s before).calls.length e] ++
              after)).state.ext.1).1 = .ok now ∧
      now.rules = package.rules ∧
      ∀ e', (((engine.governed hmac).gateway.checkSnapshot a.command).alone
        (Engine.exec (World.governed hmac V) e') (governedHistory hmac V engine s
          (before ++ .spawn (.authorize command v) :: between ++
            [.run (governedHistory hmac V engine s before).calls.length e] ++
              after)).state).1 = .ok () := by
  have hpub : Published hmac s.ext.1 := by
    rw [hs]
    exact (PolicyState.applyAll_published hd (PolicyState.published_empty signer) published).1
  have hcall : (governedHistory hmac V engine s
      (before ++ .spawn (.authorize command v) :: between)).calls[
        (governedHistory hmac V engine s before).calls.length]? = some (.authorize command v) := by
    simp only [governedHistory, history, System.run_append]
    exact System.call_of_spawn rfl between
  obtain ⟨package, hmem, hactive, hstamp, hallow⟩ :=
    stamps_of_appeared hd hpub ⟨command, v, hcall⟩ hnone hnew
  -- what was read then is remembered at the end of the run
  have hgood := (@stampLogic_sound hmac _ V engine hd).good_run (s := s)
    ⟨hpub, fun _ _ _ hm => by cases hm⟩ (before ++ .spawn (.authorize command v) :: between ++
      [.run (governedHistory hmac V engine s before).calls.length e] ++ after)
  have hgood0 := (@stampLogic_sound hmac _ V engine hd).good_run (s := s)
    ⟨hpub, fun _ _ _ hm => by cases hm⟩ (before ++ .spawn (.authorize command v) :: between)
  have hrely := (@stampLogic_sound hmac _ V engine hd).rely_run hgood0
    ([.run (governedHistory hmac V engine s before).calls.length e] ++ after)
  rw [← System.run_append, ← List.append_assoc] at hrely
  obtain ⟨hpub', hreads⟩ := hgood.inv
  have hrem := hreads _ _ package (hrely.1.subset hmem)
  obtain ⟨signature, hsig, hne⟩ := hrem.stamped hactive
  obtain ⟨row, hrow, hl⟩ := hrem.stored
  have hrank : 2 ≤ package.lifecycle.rank := by simp [hactive, PolicyLifecycle.rank]
  have hlook := snapshot_alone hpub' hrow (hrank.trans hl.rank)
    ((hl.activation hrank).trans hsig)
  have hnow : ActionGateway.checkAllowed row.packageJson a.command.action = .ok () := by
    refine PolicyPackage.Allows.checkAllowed fun allowed hget => ?_
    exact allows_of_checkAllowed hallow allowed (hl.content.rules ▸ hget)
  exact ⟨package, signature, row.packageJson, hmem, hsig, hstamp.trans hsig, hlook,
    hl.content.rules, fun e' => checkSnapshot_alone e' (hstamp.trans hsig) hne hlook hnow⟩

end

/-- Two versions of the refund policy; the first is active. -/
def twoVersions : List PolicyEvent :=
  [.call (.createDraft (refundDraft "refund@1")), .call (.approve "refund@1" "bob"),
    .call (.activate "refund@1"), .call (.createDraft (refundDraft "refund@2")),
    .call (.approve "refund@2" "bob")]

/-- The second version replaces the first under a rotated key, and is retired too. -/
def succession : List PolicyEvent :=
  [.restart ⟨"rotated-key", "2027", [("2026", "signing-key")]⟩, .call (.activate "refund@2"),
    .call (.retire "refund@2")]

def escalation : ActionCommand where
  action := "escalate_to_supervisor"
  caseId := "C-1"
  policyPackageId := "refund@1"
  actorId := "rep-1"
  idempotencyKey := "escalation:C-1"
  parameters := [("reason", .str "manual review"), ("priority", .str "high")]
  parameterFactRefs := []
  requiredFactAuthority := []
  keyMin := by decide

def idleConnector : ActionConnector ⟨Empty, Empty.elim⟩ where
  dispatch _ := .raise (.other "Timeout")
  reconcile _ _ := .raise (.other "Timeout")

def refundDesk : Engine ⟨Empty, Empty.elim⟩ where
  gateway := { connectors := .mapping fun _ => some idleConnector }
  resources _ _ := return none

theorem deskCase_unique (_ : Unit) :
    ([(⟨"C-1", "U-1", "cs_refund", "1", "active", 0⟩ : CaseRecord)].map
    CaseRecord.caseId).Nodup :=
  List.nodup_singleton _

def refundState : EngineState (World.governed lifecycleTag World.isolated) where
  db := { Db.empty with
    cases := ⟨[⟨"C-1", "U-1", "cs_refund", "1", "active", 0⟩], deskCase_unique⟩ }
  clock := 0
  ext := ((PolicyState.empty deskSigner).applyAll lifecycleTag twoVersions, ())

def policyMoves (events : List PolicyEvent) :
    EngineChoice (World.governed lifecycleTag World.isolated) := ⟨toString, 0, ⟨events, ()⟩⟩

/-- The package of the action is retired under another key, and the checks pass. -/
theorem authorized_work_stays_dispatchable_retired :
    let acts := [] ++ .spawn (.authorize escalation 0) ::
      List.replicate 7 (.run 0 (policyMoves [])) ++ [.run 0 (policyMoves [])] ++
        [.drift (policyMoves succession)]
    let h := governedHistory lifecycleTag World.isolated refundDesk refundState acts
    h.state.ext.1.packages.rows.map (·.lifecycle) = [.retired, .retired] ∧
    ∃ signature now, (((PolicyService.current lifecycleTag).requireAuthorizationSnapshot "refund@1"
      signature).alone (PolicyState.exec lifecycleTag) h.state.ext.1).1 = .ok now := by
  refine ⟨by decide +kernel, ?_⟩
  obtain ⟨package, signature, now, -, -, -, hnow, -⟩ := authorized_work_stays_dispatchable
    lifecycleTag_digest refundDesk World.isolated deskSigner twoVersions refundState rfl []
    (List.replicate 7 (.run 0 (policyMoves []))) [.drift (policyMoves succession)] escalation 0
    (policyMoves []) "ACT-0" (firstAction { escalation with
      connectorBindingId := some "legacy"
      connectorBindingVersion := some "1"
      contractVersion := some "1"
      policyActivationSignature := some (String.ofList (List.replicate 64 'b')) })
    (by decide +kernel) (by decide +kernel)
  exact ⟨signature, now, hnow⟩

end WorkflowEngine
