import WorkflowEngine.Proofs.PolicyTasks

/-! Safety of the policy repository: the service writes revisions of packages that it read
some time before, and still every row agrees with its package, everything that is not a
draft is signed and approved by somebody else, and one package is active. -/

namespace WorkflowEngine

open Interleave PolicyLog

/-- A package past its draft is signed and was approved by another than its author. -/
def Governed (hmac : Hmac) (signer : PolicySigner) (p : PolicyPackage) : Prop :=
  p.lifecycle ≠ .draft → signer.verify hmac p = true ∧ ∃ approver, p.approver = some approver ∧
    approver ≠ p.author

theorem governed_of_keeps {hmac : Hmac} {new old : PolicySigner} (h : new.Keeps old)
    {p : PolicyPackage} (hp : Governed hmac old p) : Governed hmac new p := by
  intro hl
  obtain ⟨hv, ha⟩ := hp hl
  exact ⟨PolicySigner.verify_of_keeps h hv, ha⟩

/-- A revision of a governed package is governed. -/
theorem Revision.governed {hmac : Hmac} (hd : PolicySigner.Digest hmac) {signer now : PolicySigner}
    {q p : PolicyPackage} (h : Revision hmac signer q p) (hq : Governed hmac now q)
    (hk : now.verificationKey signer.keyId = some signer.key) : Governed hmac now p := by
  intro hl
  refine ⟨h.signed.verify hd hl hk, ?_⟩
  have hauthor := h.content.author
  cases h with
  | approve hql h =>
    obtain ⟨hne, -, -, -, happ⟩ := PolicySigner.approve_ok h
    exact ⟨_, happ, hauthor ▸ hne⟩
  | activate h =>
    obtain ⟨hql, -, -, -, -, happ, -⟩ := PolicySigner.activate_ok h
    rw [happ, hauthor]
    exact (hq (by simp [hql])).2
  | retire h =>
    obtain ⟨hql, -, -, -, -, happ, -⟩ := PolicySigner.retire_ok h
    rw [happ, hauthor]
    exact (hq (by simp [hql])).2

namespace PolicyPackages

/-- The package has a row, and the columns of that row are the package's. -/
def Holds (t : PolicyPackages) (p : PolicyPackage) : Prop :=
  ∃ row, t.row? p.packageId = some row ∧ row.Fits p

theorem Holds.of_content {t : PolicyPackages} {q p : PolicyPackage} (h : t.Holds q)
    (hc : q.SameContent p) : t.Holds p := by
  obtain ⟨row, hrow, hf⟩ := h
  refine ⟨row, by rw [hc.packageId, hrow], ?_⟩
  exact ⟨hf.packageId.trans hc.packageId.symm, hf.procedureId.trans hc.procedureId.symm,
    hf.version.trans hc.version.symm, hf.jurisdiction.trans hc.jurisdiction.symm⟩

/-- A row keeps its columns. -/
theorem Put.holds {t t' : PolicyPackages} {p q : PolicyPackage} (h : t.Put p t')
    (hq : t.Holds q) : t'.Holds q := by
  obtain ⟨row, hrow, hf⟩ := hq
  refine ⟨_, h.row_of hrow, ?_⟩
  split_ifs
  · exact ⟨hf.packageId, hf.procedureId, hf.version, hf.jurisdiction⟩
  · exact hf

theorem Puts.holds {t t' : PolicyPackages} {ps : List PolicyPackage} {q : PolicyPackage}
    (h : t.Puts ps t') (hq : t.Holds q) : t'.Holds q := by
  induction h with
  | nil t => exact hq
  | cons hput _ ih => exact ih (hput.holds hq)

/-- What holds of the rows and of every package written holds of the rows afterwards. -/
theorem Puts.coherent {P : PolicyPackage → Prop} {t t' : PolicyPackages} {ps : List PolicyPackage}
    (h : t.Puts ps t') (hps : ∀ p ∈ ps, P p ∧ t.Holds p)
    (ht : ∀ row ∈ t.rows, row.Coherent ∧ P row.packageJson) :
    ∀ row ∈ t'.rows, row.Coherent ∧ P row.packageJson := by
  induction h with
  | nil t => exact ht
  | @cons t t1 _ p ps hput _ ih =>
    obtain ⟨hp, row, hrow, hf⟩ := hps p (by simp)
    refine ih (fun q hq => ?_) fun row' hrow' => ?_
    · obtain ⟨hPq, hq⟩ := hps q (List.mem_cons_of_mem _ hq)
      exact ⟨hPq, hput.holds hq⟩
    · rcases hput.cases (row?_of_mem hrow') with ⟨hold, -⟩ | ⟨old, hold, hk, rfl⟩ | ⟨hnone, hk, -⟩
      · exact ht _ (row?_eq_some.1 hold).1
      · have he : old = row := by
          rw [hk, hrow] at hold
          exact (Option.some.inj hold).symm
        subst he
        exact ⟨hf.coherent_merge, hp⟩
      · rw [hk, hrow] at hnone
        cases hnone

end PolicyPackages

/-- The invariant: the rows, every package that a task may still revise, and the keys of every
service that runs. -/
structure Safe (hmac : Hmac) (h : PolicyLog) : Prop where
  rows : ∀ row ∈ h.state.packages.rows,
    row.Coherent ∧ Governed hmac h.state.registry.signer row.packageJson
  reads : ∀ q, h.Reads q → Governed hmac h.state.registry.signer q ∧ h.state.packages.Holds q
  signers : ∀ signer, h.Signs signer →
    h.state.registry.signer.verificationKey signer.keyId = some signer.key

variable {hmac : Hmac}

theorem holds_of_coherent {t : PolicyPackages} {row : PolicyRow} (hr : row ∈ t.rows)
    (hc : row.Coherent) : t.Holds row.packageJson := by
  refine ⟨row, ?_, hc.fits⟩
  rw [← hc.fits.packageId]
  exact PolicyPackages.row?_of_mem hr

theorem Safe.revised (hd : PolicySigner.Digest hmac) {h : PolicyLog} (hs : Safe hmac h)
    {p : PolicyPackage} (hp : h.Revised hmac p) :
    Governed hmac h.state.registry.signer p ∧ h.state.packages.Holds p := by
  obtain ⟨q, signer, hq, hsig, hrev⟩ := hp
  obtain ⟨hg, hh⟩ := hs.reads q hq
  exact ⟨hrev.governed hd hg (hs.signers signer hsig), hh.of_content hrev.content⟩

section
variable {admits : PolicyCall → Bool}

theorem reads_of_after {h : PolicyLog} {τ : ℕ} {o : policyStoreSig.Op} {e : PolicySigner}
    {q : PolicyPackage} (hq : Reads ((policySystem hmac admits).after h τ o e) q) :
    h.Reads q ∨ q ∈ o.reads (h.state.exec hmac o).1 := by
  obtain ⟨x, hx, hm⟩ := hq
  rcases List.mem_append.1 hx with hx | hx
  · exact Or.inl ⟨x, hx, hm⟩
  · rw [List.mem_singleton.1 hx] at hm
    exact Or.inr hm

theorem signs_of_after {h : PolicyLog} {τ : ℕ} {o : policyStoreSig.Op} {e : PolicySigner}
    {signer : PolicySigner} (hs : Signs ((policySystem hmac admits).after h τ o e) signer) :
    h.Signs signer ∨ signer = h.state.registry.signer := by
  obtain ⟨τ', hx⟩ := hs
  rcases List.mem_append.1 hx with hx | hx
  · exact Or.inl ⟨τ', hx⟩
  · cases List.mem_singleton.1 hx
    exact Or.inr rfl

/-- An operation that writes only revisions keeps the invariant. -/
theorem Safe.step (hd : PolicySigner.Digest hmac) {h : PolicyLog} (hs : Safe hmac h) (τ : ℕ)
    (o : policyStoreSig.Op) (e : PolicySigner) (ho : ∀ p ∈ o.writes, h.Revised hmac p)
    (hr : ∀ active retired, o = .replaceActive active retired →
      ∀ p ∈ retired, p.lifecycle = .retired) :
    Safe hmac ((policySystem hmac admits).after h τ o e) := by
  have hsigner := @PolicyState.signer_exec hmac h.state o
  have hputs := @PolicyState.packages_exec hmac h.state o fun active retired heq p hp => by
    have hrev : h.Revised hmac p := by
      subst heq
      exact ho p (List.mem_append_left _ hp)
    obtain ⟨row, hrow, -⟩ := (hs.revised hd hrev).2
    exact ⟨hr active retired heq p hp, by rw [hrow]; rfl⟩
  have hholds : ∀ q, h.state.packages.Holds q → (h.state.exec hmac o).2.packages.Holds q := by
    intro q hq
    rcases hputs with he | hp
    · rw [he]
      exact hq
    · exact hp.holds hq
  have hrows : ∀ row ∈ (h.state.exec hmac o).2.packages.rows,
      row.Coherent ∧ Governed hmac h.state.registry.signer row.packageJson := by
    rcases hputs with he | hp
    · rw [he]
      exact hs.rows
    · exact hp.coherent (fun p hp => hs.revised hd (ho p hp)) hs.rows
  refine ⟨?_, fun q hq => ?_, fun signer hsg => ?_⟩
  · intro row hrow
    rw [show ((policySystem hmac admits).after h τ o e).state.registry.signer = _ from hsigner]
    exact hrows row hrow
  · rw [show ((policySystem hmac admits).after h τ o e).state.registry.signer = _ from hsigner]
    rcases reads_of_after hq with hq | hq
    · exact ⟨(hs.reads q hq).1, hholds q (hs.reads q hq).2⟩
    · obtain ⟨row, hrow, rfl⟩ := PolicyState.row_of_reads hq
      obtain ⟨hc, hg⟩ := hs.rows row hrow
      exact ⟨hg, hholds _ (holds_of_coherent hrow hc)⟩
  · rw [show ((policySystem hmac admits).after h τ o e).state.registry.signer = _ from hsigner]
    rcases signs_of_after hsg with hsg | rfl
    · exact hs.signers signer hsg
    · exact PolicySigner.verificationKey_self _

theorem Safe.restart {h : PolicyLog} (hs : Safe hmac h) (signer : PolicySigner) :
    Safe hmac ((policySystem hmac admits).drifted h signer) := by
  rcases PolicyState.restart_cases hmac h.state signer with he | ⟨hk, hp, hr⟩
  · rw [show (policySystem hmac admits).drifted h signer = h by
      simp only [System.drifted, he]]
    exact hs
  · refine ⟨?_, fun q hq => ?_, fun signer' hsg => ?_⟩
    · simp only [System.drifted, hp, hr]
      exact fun row hrow => ⟨(hs.rows row hrow).1, governed_of_keeps hk (hs.rows row hrow).2⟩
    · simp only [System.drifted, hp, hr]
      exact ⟨governed_of_keeps hk (hs.reads q hq).1, (hs.reads q hq).2⟩
    · simp only [System.drifted, hr]
      exact PolicySigner.verificationKey_of_keeps hk (hs.signers signer' hsg)

end

/-- The calls of the lifecycle after the drafts are written. -/
def lifecycleCalls : PolicyCall → Bool
  | .createDraft _ => false
  | _ => true

/-- Non-overlapping `create_draft` calls leave coherent drafts. -/
theorem drafted_rows (hmac : Hmac) (signer : PolicySigner) (drafts : List PolicyPackage) :
    ∀ row ∈ (PolicyState.drafted hmac signer drafts).packages.rows,
      row.Coherent ∧ row.packageJson.lifecycle = .draft := by
  unfold PolicyState.drafted
  induction drafts using List.reverseRecOn with
  | nil =>
    intro row hrow
    cases hrow
  | append_singleton drafts p ih =>
    rw [List.foldl_append]
    intro row hrow
    rcases PolicyState.perform_createDraft hmac (drafts.foldl (fun s package =>
        s.perform hmac (.createDraft package)) (.empty signer)) p with he | ⟨hl, hnone, -, hput⟩
    · exact ih row (he ▸ hrow)
    · rcases hput.cases (PolicyPackages.row?_of_mem hrow) with ⟨hold, -⟩ | ⟨old, hold, hk, -⟩ |
          ⟨-, -, rfl⟩
      · exact ih row (PolicyPackages.row?_eq_some.1 hold).1
      · rw [hk, hnone] at hold
        cases hold
      · exact ⟨PolicyRow.coherent_ofPackage p, hl⟩

theorem safe_init (hmac : Hmac) (signer : PolicySigner) (drafts : List PolicyPackage) :
    Safe hmac ((policySystem hmac lifecycleCalls).init (.drafted hmac signer drafts)).hist := by
  refine ⟨fun row hrow => ?_, fun q hq => ?_, fun signer' hs => ?_⟩
  · obtain ⟨hc, hl⟩ := drafted_rows hmac signer drafts row hrow
    exact ⟨hc, fun hne => absurd hl hne⟩
  · obtain ⟨x, hx, -⟩ := hq
    cases hx
  · obtain ⟨τ, hx⟩ := hs
    cases hx

theorem safe_run (hd : PolicySigner.Digest hmac) (signer : PolicySigner)
    (drafts : List PolicyPackage) (acts : List (policySystem hmac lifecycleCalls).Move) :
    Safe hmac (policyHistory hmac lifecycleCalls (.drafted hmac signer drafts) acts) := by
  refine System.run_induction (G := fun _ _ => True)
    (J := fun c => Safe hmac c.hist) (safe_init hmac signer drafts) (fun acts a hs _ => ?_) acts
    (System.guarded_true _ _)
  have hgood := (@derivedLogic_sound hmac lifecycleCalls).good_run
    (s := .drafted hmac signer drafts) (fun call hc => by cases hc) acts
  rcases System.next_cases _ a with h | ⟨call, -, -, h⟩ | ⟨τ, e, o, k, -, hr, h⟩ | ⟨τ, -, h⟩ |
      ⟨e, -, h⟩ <;> rw [h]
  · exact hs
  · exact ⟨hs.rows, hs.reads, hs.signers⟩
  · have hder : Derived hmac _ o := hgood.pre derivedLogic_sound hr
    refine hs.step hd τ o e (fun p hp => ?_) fun active retired ho p hp => ?_
    · rcases hder.written p hp with ⟨-, hc⟩ | hrev
      · cases hgood.inv _ hc
      · exact hrev
    · exact (hder.retired active retired ho p hp).1
  · exact ⟨hs.rows, hs.reads, hs.signers⟩
  · exact hs.restart e

/-- What the repository promises about the packages that are stored. -/
structure RepositorySafe (hmac : Hmac) (s : PolicyState) : Prop where
  oneActive : ∀ a ∈ s.packages.rows, ∀ b ∈ s.packages.rows,
    a.packageJson.lifecycle = .active → b.packageJson.lifecycle = .active →
    a.packageJson.procedureId = b.packageJson.procedureId →
    a.packageJson.jurisdiction = b.packageJson.jurisdiction → a = b
  lifecycle : ∀ row ∈ s.packages.rows, row.lifecycle = row.packageJson.lifecycle
  verified : ∀ row ∈ s.packages.rows, row.packageJson.lifecycle ≠ .draft →
    s.registry.signer.verify hmac row.packageJson = true
  separated : ∀ row ∈ s.packages.rows, row.packageJson.lifecycle ≠ .draft →
    ∃ approver, row.packageJson.approver = some approver ∧ approver ≠ row.packageJson.author

/-- Every interleaving of approvals, activations and retirements, with restarts and key
rotations between, on drafts that were written before. -/
theorem policy_repository_safe (hd : PolicySigner.Digest hmac) (signer : PolicySigner)
    (drafts : List PolicyPackage) (acts : List (policySystem hmac lifecycleCalls).Move) :
    RepositorySafe hmac
      (policyHistory hmac lifecycleCalls (.drafted hmac signer drafts) acts).state := by
  have hsafe := safe_run hd signer drafts acts
  refine ⟨fun a ha b hb hal hbl hp hj => ?_, fun row hrow => (hsafe.rows row hrow).1.lifecycle,
    fun row hrow hl => ((hsafe.rows row hrow).2 hl).1,
    fun row hrow hl => ((hsafe.rows row hrow).2 hl).2⟩
  obtain ⟨hca, -⟩ := hsafe.rows a ha
  obtain ⟨hcb, -⟩ := hsafe.rows b hb
  refine Relational.Indexed.eq_of_part _ (v := (a.procedureId, a.jurisdiction)) ha hb ?_ ?_
  · simp [PolicyRow.activeSlot, hca.lifecycle, hal]
  · simp [PolicyRow.activeSlot, hcb.lifecycle, hbl, hca.fits.procedureId, hcb.fits.procedureId,
      hca.fits.jurisdiction, hcb.fits.jurisdiction, hp, hj]

/-- A stand-in for HMAC-SHA256 that tells the states of the lifecycle apart. -/
def lifecycleTag : Hmac := fun _ p => String.ofList (List.replicate 64 (match p.lifecycle with
  | .draft => 'd'
  | .approved => 'a'
  | .active => 'b'
  | .retired => 'c'))

theorem lifecycleTag_digest : PolicySigner.Digest lifecycleTag := by
  intro key payload
  simp [lifecycleTag]

def deskSigner : PolicySigner := ⟨"signing-key", "2026", []⟩

def refundDraft (packageId : String) : PolicyPackage where
  packageId := packageId
  procedureId := "cs_refund"
  version := packageId
  jurisdiction := "NAM"
  author := "alice"
  rules := []

section
variable {admits : PolicyCall → Bool}

/-- A call, and the first `n` operations of its task. -/
def started (τ : ℕ) (call : PolicyCall) (n : ℕ) : List (policySystem lifecycleTag admits).Move :=
  .spawn call :: List.replicate n (.run τ deskSigner)

end

/-- Two activations that overlap: the second is refused by the index, and succeeds when it is
tried again. -/
theorem policy_repository_safe_overlapping :
    let drafts := [refundDraft "refund@1", refundDraft "refund@2"]
    let acts :=
      started 0 (.approve "refund@1" "bob") 3 ++ started 1 (.approve "refund@2" "bob") 3 ++
      started 2 (.activate "refund@1") 3 ++ started 3 (.activate "refund@2") 3 ++
      [.run 2 deskSigner, .run 3 deskSigner] ++ started 4 (.activate "refund@2") 4
    (policyHistory lifecycleTag lifecycleCalls (.drafted lifecycleTag deskSigner drafts)
      acts).state.packages.rows.map (·.lifecycle) = [.retired, .active] ∧
    RepositorySafe lifecycleTag (policyHistory lifecycleTag lifecycleCalls
      (.drafted lifecycleTag deskSigner drafts) acts).state :=
  ⟨by decide +kernel, policy_repository_safe lifecycleTag_digest _ _ _⟩

end WorkflowEngine
