import WorkflowEngine.Proofs.PolicyLifecycle

/-! Tampering with the stored packages. Whoever writes to the table without a signing key can
only place tags that the signer has issued. Every tag that was issued belongs to a package
that was approved, or that descends from one, so that a package which is accepted says what
was approved. -/

namespace WorkflowEngine

open Interleave PolicyLog

/-- The packages that the operation wrote, when it answers that it did. -/
def PolicyStoreOp.stored : (o : PolicyStoreOp) → policyStoreSig.Res o → List PolicyPackage
  | .save package, .ok _ => [package]
  | .replaceActive active retired, .ok _ => retired ++ [active]
  | _, _ => []

namespace PolicyPackages

theorem json_of_upsert {t t' : PolicyPackages} {p : PolicyPackage}
    (h : SQLitePolicyRepository.upsert t p = .ok t') {row' : PolicyRow} (hr : row' ∈ t'.rows) :
    row'.packageJson = p ∨ ∃ row ∈ t.rows, row.packageJson = row'.packageJson := by
  rcases (put_of_upsert h).cases (row?_of_mem hr) with ⟨hold, -⟩ | ⟨row, -, -, rfl⟩ | ⟨-, -, rfl⟩
  · exact Or.inr ⟨row', (row?_eq_some.1 hold).1, rfl⟩
  · exact Or.inl rfl
  · exact Or.inl rfl

theorem json_of_retireRow {t t' : PolicyPackages} {p : PolicyPackage}
    (h : SQLitePolicyRepository.retireRow t p = .ok t') {row' : PolicyRow} (hr : row' ∈ t'.rows) :
    row'.packageJson = p ∨ ∃ row ∈ t.rows, row.packageJson = row'.packageJson := by
  unfold SQLitePolicyRepository.retireRow at h
  split at h
  case h_1 u hu =>
    cases h
    rw [Relational.Indexed.toTable_of_check? hu, Relational.Table.mem_updateWhere] at hr
    obtain ⟨row, hrow, rfl⟩ := hr
    split_ifs
    · exact Or.inl rfl
    · exact Or.inr ⟨row, hrow, rfl⟩
  case h_2 => cases h

theorem json_of_retireRows {t t' : PolicyPackages} {ps : List PolicyPackage}
    (h : ps.foldlM SQLitePolicyRepository.retireRow t = .ok t') {row' : PolicyRow}
    (hr : row' ∈ t'.rows) :
    row'.packageJson ∈ ps ∨ ∃ row ∈ t.rows, row.packageJson = row'.packageJson := by
  induction ps generalizing t with
  | nil =>
    cases h
    exact Or.inr ⟨row', hr, rfl⟩
  | cons p ps ih =>
    rw [List.foldlM_cons] at h
    cases h1 : SQLitePolicyRepository.retireRow t p with
    | error e =>
      rw [h1] at h
      cases h
    | ok t1 =>
      rw [h1] at h
      rcases ih h with hm | ⟨row1, hrow1, he1⟩
      · exact Or.inl (List.mem_cons_of_mem _ hm)
      · rcases json_of_retireRow h1 hrow1 with hp | ⟨row, hrow, he⟩
        · exact Or.inl (by simp [← he1, hp])
        · exact Or.inr ⟨row, hrow, he.trans he1⟩

end PolicyPackages

open PolicyPackages

variable {hmac : Hmac}

/-- What is in the repository after an operation was there, or was written by it. -/
theorem PolicyState.json_exec (s : PolicyState) (o : policyStoreSig.Op) {row' : PolicyRow}
    (hr : row' ∈ (s.exec hmac o).2.packages.rows) :
    row'.packageJson ∈ PolicyStoreOp.stored o (s.exec hmac o).1 ∨
      ∃ row ∈ s.packages.rows, row.packageJson = row'.packageJson := by
  cases o with
  | save p =>
    simp only [exec, SQLitePolicyRepository.save] at hr ⊢
    cases h : SQLitePolicyRepository.upsert s.packages p with
    | error e =>
      rw [h] at hr
      exact Or.inr ⟨row', hr, rfl⟩
    | ok t' =>
      rw [h] at hr
      rcases json_of_upsert h hr with he | hold
      · exact Or.inl (List.mem_singleton.2 he)
      · exact Or.inr hold
  | replaceActive active retired =>
    simp only [exec, SQLitePolicyRepository.replaceActive] at hr ⊢
    cases h : retired.foldlM SQLitePolicyRepository.retireRow s.packages with
    | error e =>
      rw [h] at hr
      exact Or.inr ⟨row', hr, rfl⟩
    | ok t1 =>
      rw [h] at hr
      change row' ∈ (s.commit (SQLitePolicyRepository.upsert t1 active)).2.packages.rows at hr
      change row'.packageJson ∈ PolicyStoreOp.stored (.replaceActive active retired)
        (s.commit (SQLitePolicyRepository.upsert t1 active)).1 ∨ _
      cases h1 : SQLitePolicyRepository.upsert t1 active with
      | error e =>
        rw [h1] at hr
        exact Or.inr ⟨row', hr, rfl⟩
      | ok t' =>
        rw [h1] at hr
        rcases json_of_upsert h1 hr with he | ⟨row1, hrow1, he1⟩
        · exact Or.inl (by simp [PolicyStoreOp.stored, commit, he])
        · rcases json_of_retireRows h hrow1 with hm | ⟨row, hrow, he⟩
          · exact Or.inl (by simp [PolicyStoreOp.stored, commit, ← he1, hm])
          · exact Or.inr ⟨row, hrow, he.trans he1⟩
  | _ => exact Or.inr ⟨row', hr, rfl⟩

theorem PolicyStoreOp.mem_writes_of_stored {o : PolicyStoreOp} {r : policyStoreSig.Res o}
    {p : PolicyPackage} (h : p ∈ o.stored r) : p ∈ o.writes := by
  cases o with
  | save package =>
    cases r with
    | ok _ => exact h
    | error e => cases h
  | replaceActive active retired =>
    cases r with
    | ok _ => exact h
    | error e => cases h
  | _ => cases h

namespace PolicyLog

/-- Every package that was written. -/
def stored (h : PolicyLog) : List PolicyPackage :=
  h.trace.flatMap fun x => PolicyStoreOp.stored x.op x.res

/-- Every package that left the service with a tag. A tag that was computed for a write that
failed is dropped with the package. -/
def issued (h : PolicyLog) : List PolicyPackage :=
  h.stored.filter fun package => package.lifecycle ≠ .draft

/-- The keys of the services that have run. -/
def signingKeys (h : PolicyLog) : List String :=
  h.trace.filterMap fun
    | ⟨_, .signer, signer⟩ => some signer.key
    | _ => none

/-- The signer approved the package. -/
structure Approved (hmac : Hmac) (h : PolicyLog) (p : PolicyPackage) : Prop where
  stored : p ∈ h.stored
  approved : ∃ draft signer approver, h.Signs signer ∧ signer.approve hmac draft approver = .ok p

/-- The signer activated the package `p` as `p'`. -/
structure Activated (hmac : Hmac) (h : PolicyLog) (p p' : PolicyPackage) : Prop where
  stored : p' ∈ h.stored
  activated : ∃ signer, h.Signs signer ∧ signer.activate hmac p = .ok p'

/-- Everything in the repository, and everything read from it, was written, and whatever is
not a draft was made by the signer of something that was written. -/
structure Traced (hmac : Hmac) (h : PolicyLog) : Prop where
  rows : ∀ row ∈ h.state.packages.rows, row.packageJson ∈ h.stored
  reads : ∀ q, h.Reads q → q ∈ h.stored
  stored : ∀ p ∈ h.stored, p.lifecycle = .draft ∨
    ∃ q ∈ h.stored, ∃ signer, h.Signs signer ∧ Revision hmac signer q p

theorem Grows.stored {h h' : PolicyLog} (hg : Grows h h') : h.stored ⊆ h'.stored := by
  intro p hp
  obtain ⟨x, hx, hm⟩ := List.mem_flatMap.1 hp
  exact List.mem_flatMap.2 ⟨x, hg.trace hx, hm⟩

theorem mem_signingKeys {h : PolicyLog} {signer : PolicySigner} (hs : h.Signs signer) :
    signer.key ∈ h.signingKeys := by
  obtain ⟨τ, hx⟩ := hs
  exact List.mem_filterMap.2 ⟨_, hx, rfl⟩

namespace Traced

variable {h : PolicyLog} {p : PolicyPackage}

theorem approved (ht : Traced hmac h) (hp : p ∈ h.stored) (hl : p.lifecycle = .approved) :
    Approved hmac h p := by
  rcases ht.stored p hp with hd | ⟨q, -, signer, hs, hrev⟩
  · rw [hd] at hl
    cases hl
  · cases hrev with
    | approve _ h => exact ⟨hp, q, signer, _, hs, h⟩
    | activate h =>
      rw [(PolicySigner.activate_ok h).2.2.2.2.1] at hl
      cases hl
    | retire h =>
      rw [(PolicySigner.retire_ok h).2.2.2.2.1] at hl
      cases hl

theorem activated (ht : Traced hmac h) (hp : p ∈ h.stored) (hl : p.lifecycle = .active) :
    ∃ q, Approved hmac h q ∧ Activated hmac h q p ∧ q.SameContent p ∧ p.approver = q.approver := by
  rcases ht.stored p hp with hd | ⟨q, hq, signer, hs, hrev⟩
  · rw [hd] at hl
    cases hl
  · cases hrev with
    | approve _ h =>
      rw [(PolicySigner.approve_ok h).2.2.2.1] at hl
      cases hl
    | activate h =>
      obtain ⟨hql, -, hc, -, -, ha, -⟩ := PolicySigner.activate_ok h
      exact ⟨q, ht.approved hq hql, ⟨hp, signer, hs, h⟩, hc, ha⟩
    | retire h =>
      rw [(PolicySigner.retire_ok h).2.2.2.2.1] at hl
      cases hl

/-- The approval behind a package that is not a draft. -/
theorem origin (ht : Traced hmac h) (hp : p ∈ h.stored) (hl : p.lifecycle ≠ .draft) :
    ∃ q, Approved hmac h q ∧ q.SameContent p ∧ p.approver = q.approver := by
  rcases hlp : p.lifecycle with _ | _ | _ | _
  · exact absurd hlp hl
  · exact ⟨p, ht.approved hp hlp, .refl p, rfl⟩
  · obtain ⟨q, hq, -, hc, ha⟩ := ht.activated hp hlp
    exact ⟨q, hq, hc, ha⟩
  · rcases ht.stored p hp with hd | ⟨q', hq', signer, -, hrev⟩
    · exact absurd hd hl
    · cases hrev with
      | approve _ h =>
        rw [(PolicySigner.approve_ok h).2.2.2.1] at hlp
        cases hlp
      | activate h =>
        rw [(PolicySigner.activate_ok h).2.2.2.2.1] at hlp
        cases hlp
      | retire h =>
        obtain ⟨hql, -, hc, -, -, ha, -⟩ := PolicySigner.retire_ok h
        obtain ⟨q, hq, -, hc', ha'⟩ := ht.activated hq' hql
        exact ⟨q, hq, hc'.trans hc, ha.trans ha'⟩

end Traced

/-- Whatever left the service is tagged under the key of a service that has run. -/
theorem Traced.signed {h : PolicyLog} {p : PolicyPackage} (ht : Traced hmac h) (hp : p ∈ h.issued) :
    ∃ key ∈ h.signingKeys, p.signature = some (hmac key p.canonicalPayload) := by
  obtain ⟨hst, hl⟩ := List.mem_filter.1 hp
  rcases ht.stored p hst with hd | ⟨q, -, signer, hs, hrev⟩
  · simp [hd] at hl
  · exact ⟨signer.key, mem_signingKeys hs, hrev.signed.signature⟩

end PolicyLog

section
variable {admits : PolicyCall → Bool}

theorem stored_after (h : PolicyLog) (τ : ℕ) (o : policyStoreSig.Op) (e : PolicySigner) :
    stored ((policySystem hmac admits).after h τ o e) =
      h.stored ++ PolicyStoreOp.stored o (h.state.exec hmac o).1 := by
  simp [stored, System.after]

theorem PolicyLog.Traced.step {h : PolicyLog} (ht : Traced hmac h) (τ : ℕ) (o : policyStoreSig.Op)
    (e : PolicySigner) (hd : h.Derived hmac o) :
    Traced hmac ((policySystem hmac admits).after h τ o e) := by
  have hg : Grows h ((policySystem hmac admits).after h τ o e) := grows_after h o e
  refine ⟨fun row hrow => ?_, fun q hq => ?_, fun p hp => ?_⟩
  · rw [stored_after]
    rcases PolicyState.json_exec h.state o hrow with hm | ⟨old, hold, he⟩
    · exact List.mem_append_right _ hm
    · rw [← he]
      exact List.mem_append_left _ (ht.rows old hold)
  · apply hg.stored
    rcases reads_of_after hq with hq | hq
    · exact ht.reads q hq
    · obtain ⟨row, hrow, rfl⟩ := PolicyState.row_of_reads hq
      exact ht.rows row hrow
  · rw [stored_after] at hp
    rcases List.mem_append.1 hp with hp | hp
    · rcases ht.stored p hp with hl | ⟨q, hq, signer, hs, hrev⟩
      · exact Or.inl hl
      · exact Or.inr ⟨q, hg.stored hq, signer, hs.mono hg, hrev⟩
    · rcases hd.written p (PolicyStoreOp.mem_writes_of_stored hp) with ⟨hl, -⟩ |
          ⟨q, signer, hq, hs, hrev⟩
      · exact Or.inl hl
      · exact Or.inr ⟨q, hg.stored (ht.reads q hq), signer, hs.mono hg, hrev⟩

theorem traced_run (signer : PolicySigner) (acts : List (policySystem hmac admits).Move) :
    Traced hmac (policyHistory hmac admits (.empty signer) acts) := by
  refine System.run_induction (G := fun _ _ => True) (J := fun c => Traced hmac c.hist) ?_
    (fun acts a ht _ => ?_) acts (System.guarded_true _ _)
  · refine ⟨fun row hrow => (by cases hrow), ?_, fun p hp => (by cases hp)⟩
    rintro q ⟨x, hx, -⟩
    cases hx
  · have hgood := (@derivedLogic_sound hmac admits).good_run
      (s := .empty signer) (fun call hc => by cases hc) acts
    rcases System.next_cases _ a with h | ⟨call, -, -, h⟩ | ⟨τ, e, o, k, -, hr, h⟩ | ⟨τ, -, h⟩ |
        ⟨e, -, h⟩ <;> rw [h]
    · exact ht
    · exact ⟨ht.rows, ht.reads, ht.stored⟩
    · exact ht.step τ o e (hgood.pre derivedLogic_sound hr)
    · exact ⟨ht.rows, ht.reads, ht.stored⟩
    · refine ⟨?_, ht.reads, ht.stored⟩
      have hp : ((policySystem hmac admits).drifted
          ((policySystem hmac admits).run ((policySystem hmac admits).init (.empty signer))
            acts).hist e).state.packages = _ := PolicyState.packages_restart hmac _ e
      rw [hp]
      exact ht.rows

end

/-- The keys that the signer verifies with. -/
def PolicySigner.keys (signer : PolicySigner) : List String :=
  signer.key :: signer.verificationKeys.map (·.2)

theorem PolicySigner.key_mem {signer : PolicySigner} {keyId key : String}
    (h : signer.verificationKey keyId = some key) : key ∈ signer.keys := by
  obtain ⟨l1, l2, he, -⟩ := List.lookup_eq_some_iff.1 h
  have hm : (keyId, key) ∈ (signer.keyId, signer.key) :: signer.verificationKeys := by
    simp [he]
  rcases List.mem_cons.1 hm with h1 | h1
  · cases h1
    exact List.mem_cons_self
  · exact List.mem_cons_of_mem _ (List.mem_map.2 ⟨_, h1, rfl⟩)

namespace PolicyService

theorem loading_ok {s : PolicyState} {p : Prog policySig PyErr PolicyPackage} {q : PolicyPackage}
    (h : ((loading p).alone (PolicyState.exec hmac) s).1 = .ok q) :
    ((reading p).alone (PolicyState.exec hmac) s).1 = .ok q := by
  rw [loading, Prog.bind_eq, Prog.alone_bind] at h
  rcases hr : (reading p).alone (PolicyState.exec hmac) s with ⟨r, s'⟩
  rw [hr] at h
  cases r with
  | error e => exact h
  | ok a =>
    change (((PolicyTask.registry [.loadHistory a]).bind fun _ => .ret a).alone _ s').1 = _ at h
    change ((Prog.bind (Prog.ofExcept (s'.registry.updateAll hmac [.loadHistory a]).1)
      fun _ => .ret a).alone _ _).1 = _ at h
    cases hu : (s'.registry.updateAll hmac [.loadHistory a]).1 with
    | error e =>
      rw [hu] at h
      cases h
    | ok _ =>
      rw [hu] at h
      exact h

theorem requireActive_accepts {s : PolicyState} {k : String} {q : PolicyPackage}
    (h : (((current hmac).requireActive k).alone (PolicyState.exec hmac) s).1 = .ok q) :
    ∃ row ∈ s.packages.rows, row.packageJson = q ∧
      s.registry.signer.verify hmac row.packageJson = true ∧
      row.packageJson.lifecycle = .active := by
  change ((loading (requireActive hmac s.registry.signer k)).alone _ s).1 = _ at h
  obtain ⟨row, hrow, hf⟩ := PolicyState.reading_bind_ok (loading_ok h)
  by_cases hc : row.packageJson.lifecycle ≠ .active ∨
      (!s.registry.signer.verify hmac row.packageJson) = true
  · simp only [hc, if_true] at hf
    cases hf
  · simp only [hc, if_false] at hf
    obtain ⟨hl, hv⟩ := not_or.1 hc
    refine ⟨row, hrow, Except.ok.inj hf, ?_, not_not.1 hl⟩
    simpa using hv

theorem requireAuthorizationSnapshot_accepts {s : PolicyState} {k signature : String}
    {q : PolicyPackage}
    (h : (((current hmac).requireAuthorizationSnapshot k signature).alone
      (PolicyState.exec hmac) s).1 = .ok q) :
    ∃ row ∈ s.packages.rows, row.packageJson = q ∧
      s.registry.signer.verify hmac row.packageJson = true := by
  change ((loading (requireAuthorizationSnapshot hmac s.registry.signer k signature)).alone
    _ s).1 = _ at h
  obtain ⟨row, hrow, hf⟩ := PolicyState.reading_bind_ok (loading_ok h)
  refine ⟨row, hrow, ?_⟩
  by_cases hl : row.packageJson.lifecycle ∈ [PolicyLifecycle.active, .retired]
  · by_cases hv : s.registry.signer.verify hmac row.packageJson = true
    · by_cases ha : row.packageJson.activationSignature = some signature
      · simp only [hl, hv, ha, not_true, Bool.not_true, Bool.false_eq_true, ne_eq, if_false] at hf
        exact ⟨Except.ok.inj hf, hv⟩
      · simp [hl, hv, ha, reading] at hf
    · simp [hl, hv, reading] at hf
  · simp [hl, reading] at hf

end PolicyService

/-- Approved by another than the author. -/
def PolicyPackage.Separated (p : PolicyPackage) : Prop :=
  ∃ approver, p.approver = some approver ∧ approver ≠ p.author

theorem PolicyLog.Approved.separated {h : PolicyLog} {p : PolicyPackage} (hp : Approved hmac h p) :
    p.Separated := by
  obtain ⟨draft, signer, approver, -, ha⟩ := hp.approved
  obtain ⟨hne, hc, -, -, happ⟩ := PolicySigner.approve_ok ha
  exact ⟨approver, happ, hc.author ▸ hne⟩

/-- `q` says what `p` says; the keys of its rules may stand in another order. -/
structure PolicyPackage.Says (p q : PolicyPackage) : Prop where
  packageId : q.packageId = p.packageId
  procedureId : q.procedureId = p.procedureId
  version : q.version = p.version
  jurisdiction : q.jurisdiction = p.jurisdiction
  author : q.author = p.author
  approver : q.approver = p.approver
  rules : q.rules.sortKeys = p.rules.sortKeys

/-- What an adversary without a signing key cannot do to the rows, and what SHA-256 does not
do to the messages at hand. -/
structure Secure (hmac : Hmac) (h : PolicyLog) (t : PolicyPackages) : Prop where
  unforgeable : ∀ row ∈ t.rows, ∀ key ∈ h.state.registry.signer.keys,
    row.packageJson.signature = some (hmac key row.packageJson.canonicalPayload) →
    ∃ p ∈ h.issued, p.signature = row.packageJson.signature
  collisionFree : ∀ p ∈ h.issued, ∀ row ∈ t.rows, ∀ key ∈ h.signingKeys,
    ∀ key' ∈ h.state.registry.signer.keys,
    hmac key p.canonicalPayload = hmac key' row.packageJson.canonicalPayload →
    p.canonicalForm = row.packageJson.canonicalForm

/-- A row that verifies carries the canonical form of a package that was issued. -/
theorem Secure.issued_of_verify {h : PolicyLog} {t : PolicyPackages} (hsec : Secure hmac h t)
    (ht : Traced hmac h) {row : PolicyRow} (hrow : row ∈ t.rows)
    (hv : h.state.registry.signer.verify hmac row.packageJson = true) :
    ∃ p ∈ h.issued, p.canonicalForm = row.packageJson.canonicalForm := by
  obtain ⟨-, keyId, key, -, hkey, hsig, -⟩ := PolicySigner.verify_iff.1 hv
  have hmem := PolicySigner.key_mem hkey
  obtain ⟨p, hp, hps⟩ := hsec.unforgeable row hrow key hmem hsig
  obtain ⟨key', hkey', hps'⟩ := ht.signed hp
  refine ⟨p, hp, hsec.collisionFree p hp row hrow key' hkey' key hmem ?_⟩
  rw [hps', hsig] at hps
  exact Option.some.inj hps

theorem PolicyPackage.says_of_canonicalForm {p0 p q : PolicyPackage} (hc : p0.SameContent p)
    (ha : p.approver = p0.approver) (h : p.canonicalForm = q.canonicalForm) : p0.Says q := by
  have hf := PolicyPackage.mk.inj h
  obtain ⟨h1, h2, h3, h4, h5, h6, -, h8, -⟩ := hf
  exact ⟨h1.symm.trans hc.packageId, h2.symm.trans hc.procedureId, h3.symm.trans hc.version,
    h4.symm.trans hc.jurisdiction, h5.symm.trans hc.author, h8.symm.trans ha,
    h6.symm.trans (by rw [hc.rules])⟩

/-- Whatever is put into the table after any run of the service, a package that a lookup
accepts says what the signer approved, by another than its author; and one that
`require_active` accepts was activated. -/
theorem tampering_cannot_forge (signer : PolicySigner)
    (acts : List (policySystem hmac anyPolicyCall).Move) (t : PolicyPackages)
    (hsec : Secure hmac (policyHistory hmac anyPolicyCall (.empty signer) acts) t)
    (packageId : String) (q : PolicyPackage) :
    let h := policyHistory hmac anyPolicyCall (.empty signer) acts
    let s : PolicyState := { h.state with packages := t }
    ((((PolicyService.current hmac).requireActive packageId).alone (PolicyState.exec hmac) s).1 =
        .ok q →
      ∃ p p', Approved hmac h p ∧ p.Separated ∧ p.Says q ∧ Activated hmac h p p') ∧
    ∀ signature, (((PolicyService.current hmac).requireAuthorizationSnapshot packageId
        signature).alone (PolicyState.exec hmac) s).1 = .ok q →
      ∃ p, Approved hmac h p ∧ p.Separated ∧ p.Says q := by
  intro h s
  have ht : Traced hmac h := traced_run signer acts
  refine ⟨fun hq => ?_, fun signature hq => ?_⟩
  · obtain ⟨row, hrow, rfl, hv, hl⟩ := PolicyService.requireActive_accepts hq
    obtain ⟨p', hp', hc⟩ := hsec.issued_of_verify ht hrow hv
    have hst := (List.mem_filter.1 hp').1
    have hl' : p'.lifecycle = .active := (congrArg (·.lifecycle) hc).trans hl
    obtain ⟨p, hp, hact, hsame, ha⟩ := ht.activated hst hl'
    exact ⟨p, p', hp, hp.separated, PolicyPackage.says_of_canonicalForm hsame ha hc, hact⟩
  · obtain ⟨row, hrow, rfl, hv⟩ := PolicyService.requireAuthorizationSnapshot_accepts hq
    obtain ⟨p', hp', hc⟩ := hsec.issued_of_verify ht hrow hv
    obtain ⟨hst, hl⟩ := List.mem_filter.1 hp'
    obtain ⟨p, hp, hsame, ha⟩ := ht.origin hst (by simpa using hl)
    exact ⟨p, hp, hp.separated, PolicyPackage.says_of_canonicalForm hsame ha hc⟩

/-- The active version of a package that has been retired since, with another activation. -/
def resurrected : PolicyPackage :=
  { refundDraft "refund@1" with
    lifecycle := .active
    approver := some "bob"
    signingKeyId := some "2026"
    activationSignature := some "any"
    signature := some (String.ofList (List.replicate 64 'b')) }

/-- An old tag makes an old package active again; it says what was approved all the same. -/
theorem tampering_cannot_forge_resurrected :
    let h := policyHistory lifecycleTag anyPolicyCall (.empty deskSigner)
      (authored ++ started 3 (.retire "refund@1") 4)
    h.state.packages.rows.map (·.lifecycle) = [.retired] ∧
    ∃ p p', Approved lifecycleTag h p ∧ p.Separated ∧ p.Says resurrected ∧
      Activated lifecycleTag h p p' := by
  refine ⟨by decide +kernel, (tampering_cannot_forge deskSigner
    (authored ++ started 3 (.retire "refund@1") 4)
    ⟨⟨[.ofPackage resurrected], fun _ => List.nodup_singleton _⟩, by decide +kernel⟩
    ⟨by decide +kernel, by decide +kernel⟩ "refund@1" resurrected).1 (by decide +kernel)⟩

end WorkflowEngine
