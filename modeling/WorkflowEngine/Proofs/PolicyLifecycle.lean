import WorkflowEngine.Proofs.PolicySafety

/-! The lifecycle of a package. Every operation checks the lifecycle on a package that it has
read, and writes unconditionally. As long as a write finds the package where the check found
it, a package only moves forward and keeps its content; an approval that comes late takes an
active package back. -/

namespace WorkflowEngine

open Interleave PolicyLog

namespace PolicyPackage

/-- Since its activation a package has an activation signature. -/
def Activated (p : PolicyPackage) : Prop :=
  2 ≤ p.lifecycle.rank → p.activationSignature.isSome = true

/-- `p` is `q` some time later. -/
structure Later (q p : PolicyPackage) : Prop where
  content : q.SameContent p
  rank : q.lifecycle.rank ≤ p.lifecycle.rank
  activation : 2 ≤ q.lifecycle.rank → p.activationSignature = q.activationSignature

theorem Later.refl (p : PolicyPackage) : p.Later p := ⟨.refl p, le_rfl, fun _ => rfl⟩

theorem Later.trans {a b c : PolicyPackage} (h : a.Later b) (h' : b.Later c) : a.Later c :=
  ⟨h.content.trans h'.content, h.rank.trans h'.rank, fun ha =>
    (h'.activation (ha.trans h.rank)).trans (h.activation ha)⟩

end PolicyPackage

open PolicyPackage

namespace PolicyPackages

/-- Every package that was there is there, or its later version. -/
def Onward (t t' : PolicyPackages) : Prop :=
  ∀ k row, t.row? k = some row →
    ∃ row', t'.row? k = some row' ∧ row.packageJson.Later row'.packageJson

theorem Onward.refl (t : PolicyPackages) : t.Onward t := fun _ row hrow => ⟨row, hrow, .refl _⟩

theorem Onward.trans {a b c : PolicyPackages} (h : a.Onward b) (h' : b.Onward c) : a.Onward c := by
  intro k row hrow
  obtain ⟨row1, hrow1, hl1⟩ := h k row hrow
  obtain ⟨row2, hrow2, hl2⟩ := h' k row1 hrow1
  exact ⟨row2, hrow2, hl1.trans hl2⟩

/-- No package skips a state of its lifecycle. -/
def Adjacent (t t' : PolicyPackages) : Prop :=
  ∀ k row row', t.row? k = some row → t'.row? k = some row' →
    row'.packageJson.lifecycle.rank ≤ row.packageJson.lifecycle.rank + 1

theorem Adjacent.refl (t : PolicyPackages) : t.Adjacent t := by
  intro k row row' hrow hrow'
  rw [hrow] at hrow'
  cases hrow'
  omega

/-- The write finds nothing before a draft, and before any other package its predecessor. -/
def Succeeds (t : PolicyPackages) (p : PolicyPackage) : Prop :=
  match t.row? p.packageId with
  | none => p.lifecycle = .draft
  | some row => p.lifecycle.rank = row.lifecycle.rank + 1

instance (t : PolicyPackages) (p : PolicyPackage) : Decidable (t.Succeeds p) :=
  match h : t.row? p.packageId with
  | none => decidable_of_iff (p.lifecycle = .draft) (by simp [Succeeds, h])
  | some row => decidable_of_iff (p.lifecycle.rank = row.lifecycle.rank + 1)
      (by simp [Succeeds, h])

/-- Writing `p` takes nothing back. -/
def Admissible (t : PolicyPackages) (p : PolicyPackage) : Prop :=
  ∀ row, t.row? p.packageId = some row → row.Fits p ∧ row.packageJson.Later p

theorem Put.onward {t t' : PolicyPackages} {p : PolicyPackage} (h : t.Put p t')
    (hp : t.Admissible p) : t.Onward t' := by
  intro k row hrow
  refine ⟨_, h.row_of hrow, ?_⟩
  split_ifs with hk
  · subst hk
    exact (hp row hrow).2
  · exact .refl _

theorem Put.admissible {t t' : PolicyPackages} {p q : PolicyPackage} (h : t.Put p t')
    (hq : t.Admissible q) (hpq : p.packageId = q.packageId → p.Later q) : t'.Admissible q := by
  intro row' hrow'
  rcases h.cases hrow' with ⟨hold, -⟩ | ⟨row, hold, hk, rfl⟩ | ⟨-, hk, rfl⟩
  · exact hq row' hold
  · obtain ⟨hf, -⟩ := hq row hold
    exact ⟨⟨hf.packageId, hf.procedureId, hf.version, hf.jurisdiction⟩, hpq hk.symm⟩
  · have hl := hpq hk.symm
    exact ⟨⟨hk.symm, hl.content.procedureId.symm, hl.content.version.symm,
      hl.content.jurisdiction.symm⟩, hl⟩

section
variable {P : PolicyPackage → Prop}

theorem Put.coherent {t t' : PolicyPackages} {p : PolicyPackage} (h : t.Put p t')
    (hp : t.Admissible p) (hP : P p) (ht : ∀ row ∈ t.rows, row.Coherent ∧ P row.packageJson) :
    ∀ row ∈ t'.rows, row.Coherent ∧ P row.packageJson := by
  intro row' hrow'
  rcases h.cases (row?_of_mem hrow') with ⟨hold, -⟩ | ⟨row, hold, hk, rfl⟩ | ⟨-, -, rfl⟩
  · exact ht row' (row?_eq_some.1 hold).1
  · rw [hk] at hold
    exact ⟨(hp row hold).1.coherent_merge, hP⟩
  · exact ⟨PolicyRow.coherent_ofPackage p, hP⟩

/-- A transaction of steps forward. No package of it takes back what one before it wrote. -/
theorem Puts.forward {t t' : PolicyPackages} {ps : List PolicyPackage} (h : t.Puts ps t')
    (hps : ∀ p ∈ ps, t.Admissible p ∧ P p)
    (hpw : ps.Pairwise fun p q => p.packageId = q.packageId → p.Later q)
    (ht : ∀ row ∈ t.rows, row.Coherent ∧ P row.packageJson) :
    t.Onward t' ∧ ∀ row ∈ t'.rows, row.Coherent ∧ P row.packageJson := by
  induction h with
  | nil t => exact ⟨.refl t, ht⟩
  | @cons t t1 t' p ps hput _ ih =>
    obtain ⟨hp, hrest⟩ := List.pairwise_cons.1 hpw
    obtain ⟨hadm, hP⟩ := hps p (by simp)
    have hps1 : ∀ q ∈ ps, t1.Admissible q ∧ P q := by
      intro q hq
      obtain ⟨hq', hPq⟩ := hps q (List.mem_cons_of_mem _ hq)
      exact ⟨hput.admissible hq' (hp q hq), hPq⟩
    obtain ⟨hon, hrows⟩ := ih hps1 hrest (hput.coherent hadm hP ht)
    exact ⟨(hput.onward hadm).trans hon, hrows⟩

end

/-- A row after a transaction is one from before, or holds a package that was written. -/
theorem Puts.cases {t t' : PolicyPackages} {ps : List PolicyPackage} (h : t.Puts ps t')
    {k : String} {row' : PolicyRow} (hr : t'.row? k = some row') :
    t.row? k = some row' ∨ row'.packageJson ∈ ps ∧ row'.packageJson.packageId = k := by
  induction h with
  | nil t => exact Or.inl hr
  | @cons t t1 t' p ps hput _ ih =>
    rcases ih hr with h1 | ⟨hm, hk⟩
    · rcases hput.cases h1 with ⟨hold, -⟩ | ⟨row, -, hk, rfl⟩ | ⟨-, hk, rfl⟩
      · exact Or.inl hold
      · exact Or.inr ⟨by simp [PolicyRow.merge, PolicyRow.ofPackage], hk.symm⟩
      · exact Or.inr ⟨by simp [PolicyRow.ofPackage], hk.symm⟩
    · exact Or.inr ⟨List.mem_cons_of_mem _ hm, hk⟩

end PolicyPackages

open PolicyPackages

/-- The rows, and every package that a task may still revise. -/
structure Ordered (h : PolicyLog) : Prop where
  rows : ∀ row ∈ h.state.packages.rows, row.Coherent ∧ row.packageJson.Activated
  reads : ∀ q, h.Reads q → q.Activated ∧
    ∃ row, h.state.packages.row? q.packageId = some row ∧ q.Later row.packageJson

variable {hmac : Hmac}

theorem Revision.activated {signer : PolicySigner} {q p : PolicyPackage}
    (h : Revision hmac signer q p) (hq : q.Activated) : p.Activated := by
  intro hp
  cases h with
  | approve hql h => simp [(PolicySigner.approve_ok h).2.2.2.1, PolicyLifecycle.rank] at hp
  | activate h =>
    obtain ⟨-, -, -, hs, -, -, hact⟩ := PolicySigner.activate_ok h
    simp [hact, hs.signature]
  | retire h =>
    obtain ⟨hql, -, -, -, -, -, hact⟩ := PolicySigner.retire_ok h
    rw [hact]
    exact hq (by simp [hql, PolicyLifecycle.rank])

/-- A revision keeps the activation signature of an activated package. -/
theorem Revision.later {signer : PolicySigner} {q p : PolicyPackage}
    (h : Revision hmac signer q p) : q.Later p := by
  refine ⟨h.content, by have := h.rank; omega, fun hq => ?_⟩
  cases h with
  | approve hql h => simp [hql, PolicyLifecycle.rank] at hq
  | activate h => simp [(PolicySigner.activate_ok h).1, PolicyLifecycle.rank] at hq
  | retire h => exact (PolicySigner.retire_ok h).2.2.2.2.2.2

namespace PolicyPackages

/-- The row of the package is the state of the lifecycle before it. -/
structure Advances (t : PolicyPackages) (p : PolicyPackage) (row : PolicyRow) : Prop where
  stored : t.row? p.packageId = some row
  fits : row.Fits p
  rank : p.lifecycle.rank = row.packageJson.lifecycle.rank + 1
  later : row.packageJson.Later p

/-- A draft under a new id, or a step on from the row of the package. -/
def Extends (t : PolicyPackages) (p : PolicyPackage) : Prop :=
  (p.lifecycle = .draft ∧ t.row? p.packageId = none) ∨ ∃ row, t.Advances p row

theorem Extends.admissible {t : PolicyPackages} {p : PolicyPackage} (h : t.Extends p) :
    t.Admissible p := by
  intro row' hrow'
  rcases h with ⟨-, hnone⟩ | ⟨row, ha⟩
  · rw [hnone] at hrow'
    cases hrow'
  · rw [ha.stored] at hrow'
    cases hrow'
    exact ⟨ha.fits, ha.later⟩

/-- Two writes of one transaction on one id are both retirements of what the row holds. -/
theorem pairwise_of_extends {t : PolicyPackages} {o : PolicyStoreOp}
    (ho : ∀ p ∈ o.writes, t.Extends p)
    (hr : ∀ active retired, o = .replaceActive active retired →
      ∀ p ∈ retired, p.lifecycle = .retired) :
    o.writes.Pairwise fun p q => p.packageId = q.packageId → p.Later q := by
  cases o with
  | replaceActive active retired =>
    have hpair : ∀ p ∈ retired, ∀ q ∈ retired ++ [active], p.packageId = q.packageId →
        p.Later q := by
      intro p hp q hq hpq
      have h3 : p.lifecycle.rank = 3 := by simp [hr active retired rfl p hp, PolicyLifecycle.rank]
      rcases ho p (List.mem_append_left _ hp) with ⟨hd, -⟩ | ⟨row, hrow⟩
      · simp [hd, PolicyLifecycle.rank] at h3
      · have h2 := hrow.rank
        rcases ho q hq with ⟨-, hnone⟩ | ⟨row', hrow'⟩
        · rw [← hpq, hrow.stored] at hnone
          cases hnone
        · have he := hrow'.stored
          rw [← hpq, hrow.stored] at he
          cases he
          have h2' := hrow'.rank
          refine ⟨hrow.later.content.symm.trans hrow'.later.content, by omega, fun _ => ?_⟩
          rw [hrow'.later.activation (by omega), hrow.later.activation (by omega)]
    refine List.pairwise_append.2 ⟨?_, List.pairwise_singleton _ _, fun p hp q hq => ?_⟩
    · exact List.pairwise_of_forall_mem_list fun p hp q hq =>
        hpair p hp q (List.mem_append_left _ hq)
    · exact hpair p hp q (List.mem_append_right _ hq)
  | save p => exact List.pairwise_singleton _ _
  | _ => exact List.Pairwise.nil

end PolicyPackages

/-- An operation that only extends what is stored moves the repository on. -/
theorem PolicyState.forward {s : PolicyState} {o : policyStoreSig.Op} {P : PolicyPackage → Prop}
    (ho : ∀ p ∈ PolicyStoreOp.writes o, s.packages.Extends p ∧ P p)
    (hr : ∀ active retired, o = .replaceActive active retired →
      ∀ p ∈ retired, p.lifecycle = .retired)
    (hs : ∀ row ∈ s.packages.rows, row.Coherent ∧ P row.packageJson) :
    s.packages.Onward (s.exec hmac o).2.packages ∧
      s.packages.Adjacent (s.exec hmac o).2.packages ∧
      ∀ row ∈ (s.exec hmac o).2.packages.rows, row.Coherent ∧ P row.packageJson := by
  have hputs := @PolicyState.packages_exec hmac s o fun active retired heq p hp => by
    have hl := hr active retired heq p hp
    subst heq
    rcases (ho p (List.mem_append_left _ hp)).1 with ⟨hd, -⟩ | ⟨row, ha⟩
    · rw [hl] at hd
      cases hd
    · exact ⟨hl, by rw [ha.stored]; rfl⟩
  rcases hputs with he | hp
  · rw [he]
    exact ⟨.refl _, .refl _, hs⟩
  · obtain ⟨hon, hrows⟩ := hp.forward (fun p hp => ⟨(ho p hp).1.admissible, (ho p hp).2⟩)
      (pairwise_of_extends (fun p hp => (ho p hp).1) hr) hs
    refine ⟨hon, fun k row row' hrow hrow' => ?_, hrows⟩
    rcases hp.cases hrow' with hsame | ⟨hm, rfl⟩
    · rw [hrow] at hsame
      cases hsame
      omega
    · rcases (ho _ hm).1 with ⟨-, hnone⟩ | ⟨row1, ha⟩
      · rw [hrow] at hnone
        cases hnone
      · have h1 := ha.stored
        rw [hrow] at h1
        cases h1
        exact ha.rank.le

/-- A revision of a package that was read, over a row that is still where the reader found
it. -/
theorem extends_of_revision {t : PolicyPackages}
    (ht : ∀ row ∈ t.rows, row.Coherent ∧ row.packageJson.Activated) {signer : PolicySigner}
    {q p : PolicyPackage} {row : PolicyRow} (hrow : t.row? q.packageId = some row)
    (hl : q.Later row.packageJson) (hrev : Revision hmac signer q p) (hs : t.Succeeds p) :
    t.Advances p row := by
  obtain ⟨hc, -⟩ := ht row (row?_eq_some.1 hrow).1
  rw [← hrev.content.packageId] at hrow
  have hrank : p.lifecycle.rank = row.packageJson.lifecycle.rank + 1 := by
    simp only [Succeeds, hrow, hc.lifecycle] at hs
    exact hs
  have hsame : row.packageJson.SameContent p := hl.content.symm.trans hrev.content
  refine ⟨hrow, ?_, hrank, hsame, by omega, fun h2 => ?_⟩
  · exact ⟨hc.fits.packageId.trans hsame.packageId.symm,
      hc.fits.procedureId.trans hsame.procedureId.symm, hc.fits.version.trans hsame.version.symm,
      hc.fits.jurisdiction.trans hsame.jurisdiction.symm⟩
  · -- the row is in the lifecycle that was read, so it has the activation that was read
    have hqr : q.lifecycle.rank = row.packageJson.lifecycle.rank := by
      have := hrev.rank
      omega
    rw [hrev.later.activation (by omega), hl.activation (by omega)]

theorem Ordered.extends_of_derived {h : PolicyLog} (ho : Ordered h) {o : PolicyStoreOp}
    (hd : h.Derived hmac o) (hs : ∀ p ∈ o.writes, h.state.packages.Succeeds p)
    {p : PolicyPackage} (hp : p ∈ o.writes) : h.state.packages.Extends p ∧ p.Activated := by
  rcases hd.written p hp with ⟨hl, -⟩ | ⟨q, signer, hq, -, hrev⟩
  · refine ⟨Or.inl ⟨hl, ?_⟩, fun h2 => by simp [hl, PolicyLifecycle.rank] at h2⟩
    -- a draft finds no row
    have hsp := hs p hp
    cases hrow : h.state.packages.row? p.packageId with
    | none => rfl
    | some row => simp [Succeeds, hrow, hl, PolicyLifecycle.rank] at hsp
  · obtain ⟨hqa, row, hrow, hl⟩ := ho.reads q hq
    exact ⟨Or.inr ⟨row, extends_of_revision ho.rows hrow hl hrev (hs p hp)⟩, hrev.activated hqa⟩

section
variable {admits : PolicyCall → Bool}

/-- One operation of a run whose writes find the packages where their calls found them. -/
theorem Ordered.step {h : PolicyLog} (ho : Ordered h) (τ : ℕ) (o : policyStoreSig.Op)
    (e : PolicySigner) (hd : h.Derived hmac o)
    (hs : ∀ p ∈ o.writes, h.state.packages.Succeeds p) :
    Ordered ((policySystem hmac admits).after h τ o e) ∧
      h.state.packages.Onward (h.state.exec hmac o).2.packages ∧
      h.state.packages.Adjacent (h.state.exec hmac o).2.packages := by
  obtain ⟨hon, hadj, hrows⟩ := @PolicyState.forward hmac h.state o _
    (fun p hp => ho.extends_of_derived hd hs hp)
    (fun active retired heq p hp => (hd.retired active retired heq p hp).1) ho.rows
  refine ⟨⟨hrows, fun q hq => ?_⟩, hon, hadj⟩
  have hpast : q.Activated ∧ ∃ row, h.state.packages.row? q.packageId = some row ∧
      q.Later row.packageJson := by
    rcases reads_of_after hq with hq | hq
    · exact ho.reads q hq
    · obtain ⟨row, hrow, rfl⟩ := PolicyState.row_of_reads hq
      obtain ⟨hc, ha⟩ := ho.rows row hrow
      refine ⟨ha, row, ?_, .refl _⟩
      rw [← hc.fits.packageId]
      exact row?_of_mem hrow
  obtain ⟨ha, row, hrow, hl⟩ := hpast
  obtain ⟨row', hrow', hl'⟩ := hon _ row hrow
  exact ⟨ha, row', hrow', hl.trans hl'⟩

/-- What is written is written over what precedes it. -/
def Undisturbed (c : (policySystem hmac admits).Config) (a : (policySystem hmac admits).Move) :
    Prop :=
  ∀ o ∈ (policySystem hmac admits).performs c a, ∀ p ∈ PolicyStoreOp.writes o,
    c.hist.state.packages.Succeeds p

instance (c : (policySystem hmac admits).Config) (a : (policySystem hmac admits).Move) :
    Decidable (Undisturbed c a) :=
  inferInstanceAs (Decidable (∀ o ∈ (policySystem hmac admits).performs c a,
    ∀ p ∈ PolicyStoreOp.writes o, c.hist.state.packages.Succeeds p))

/-- One decision of the schedule. -/
theorem Ordered.next (hL : (derivedLogic hmac admits).Sound)
    {c : (policySystem hmac admits).Config} (hc : (derivedLogic hmac admits).Good c)
    (ho : Ordered c.hist) {a : (policySystem hmac admits).Move} (hG : Undisturbed c a) :
    Ordered ((policySystem hmac admits).next c a).hist ∧
      c.hist.state.packages.Onward ((policySystem hmac admits).next c a).hist.state.packages ∧
      c.hist.state.packages.Adjacent
        ((policySystem hmac admits).next c a).hist.state.packages := by
  rcases System.next_cases c a with h | ⟨call, -, -, h⟩ | ⟨τ, e, o, k, rfl, hr, h⟩ | ⟨τ, -, h⟩ |
      ⟨e, -, h⟩ <;> rw [h]
  · exact ⟨ho, .refl _, .refl _⟩
  · exact ⟨⟨ho.rows, ho.reads⟩, .refl _, .refl _⟩
  · exact ho.step τ o e (hc.pre hL hr) (hG o (System.performs_of_ready hr e))
  · exact ⟨⟨ho.rows, ho.reads⟩, .refl _, .refl _⟩
  · have hp : ((policySystem hmac admits).drifted c.hist e).state.packages =
        c.hist.state.packages := PolicyState.packages_restart hmac _ e
    rw [hp]
    refine ⟨⟨?_, ?_⟩, .refl _, .refl _⟩
    · rw [hp]
      exact ho.rows
    · rw [hp]
      exact ho.reads

theorem ordered_run (signer : PolicySigner) (acts : List (policySystem hmac admits).Move)
    (hG : System.Guarded Undisturbed ((policySystem hmac admits).init (.empty signer)) acts) :
    Ordered (policyHistory hmac admits (.empty signer) acts) := by
  refine System.run_induction (J := fun c => Ordered c.hist) ?_ (fun acts a ho ha => ?_) acts hG
  · refine ⟨fun row hrow => (by cases hrow), ?_⟩
    rintro q ⟨x, hx, -⟩
    cases hx
  · exact (ho.next derivedLogic_sound
      (derivedLogic_sound.good_run (fun call hc => by cases hc) acts) ha).1

/-- One more decision. -/
theorem forward_snoc (signer : PolicySigner) (acts : List (policySystem hmac admits).Move)
    (a : (policySystem hmac admits).Move)
    (hG : System.Guarded Undisturbed ((policySystem hmac admits).init (.empty signer))
      (acts ++ [a])) :
    (policyHistory hmac admits (.empty signer) acts).state.packages.Onward
      (policyHistory hmac admits (.empty signer) (acts ++ [a])).state.packages ∧
    (policyHistory hmac admits (.empty signer) acts).state.packages.Adjacent
      (policyHistory hmac admits (.empty signer) (acts ++ [a])).state.packages := by
  obtain ⟨hG', ha⟩ := System.guarded_snoc.1 hG
  have hnext := (ordered_run signer acts hG').next derivedLogic_sound
    (derivedLogic_sound.good_run (fun call hc => by cases hc) acts) ha
  unfold policyHistory
  rw [System.run_snoc]
  exact hnext.2

theorem onward_run (signer : PolicySigner) (acts acts' : List (policySystem hmac admits).Move)
    (hG : System.Guarded Undisturbed ((policySystem hmac admits).init (.empty signer))
      (acts ++ acts')) :
    (policyHistory hmac admits (.empty signer) acts).state.packages.Onward
      (policyHistory hmac admits (.empty signer) (acts ++ acts')).state.packages := by
  induction acts' using List.reverseRecOn with
  | nil =>
    rw [List.append_nil]
    exact .refl _
  | append_singleton acts' a ih =>
    rw [← List.append_assoc] at hG ⊢
    exact (ih (System.guarded_snoc.1 hG).1).trans (forward_snoc signer (acts ++ acts') a hG).1

end

def anyPolicyCall : PolicyCall → Bool := fun _ => true

/-- Every interleaving in which each write finds the package in the state that its call has
checked: no package goes back, skips a state, changes its content or its activation, or
disagrees with its columns. -/
theorem lifecycle_moves_forward (signer : PolicySigner)
    (acts acts' : List (policySystem hmac anyPolicyCall).Move)
    (hG : System.Guarded Undisturbed ((policySystem hmac anyPolicyCall).init (.empty signer))
      (acts ++ acts')) :
    (policyHistory hmac anyPolicyCall (.empty signer) acts).state.packages.Onward
      (policyHistory hmac anyPolicyCall (.empty signer) (acts ++ acts')).state.packages ∧
    (∀ a, acts' = [a] →
      (policyHistory hmac anyPolicyCall (.empty signer) acts).state.packages.Adjacent
      (policyHistory hmac anyPolicyCall (.empty signer) (acts ++ acts')).state.packages) ∧
    ∀ row ∈ (policyHistory hmac anyPolicyCall (.empty signer) acts).state.packages.rows,
      row.Coherent ∧ row.packageJson.Activated := by
  refine ⟨onward_run signer acts acts' hG, ?_, ?_⟩
  · rintro a rfl
    exact (forward_snoc signer acts a hG).2
  · exact (ordered_run signer acts (System.guarded_append.1 hG).1).rows

/-- One author, two approvers. -/
def authored : List (policySystem lifecycleTag anyPolicyCall).Move :=
  started 0 (.createDraft (refundDraft "refund@1")) 3 ++
    started 1 (.approve "refund@1" "bob") 3 ++ started 2 (.activate "refund@1") 5

theorem lifecycle_moves_forward_activated :
    ((policyHistory lifecycleTag anyPolicyCall (.empty deskSigner) authored).state.packages.rows.map
      (·.lifecycle) = [.active]) ∧
    (policyHistory lifecycleTag anyPolicyCall (.empty deskSigner) authored).state.packages.Onward
      (policyHistory lifecycleTag anyPolicyCall (.empty deskSigner)
        (authored ++ started 3 (.retire "refund@1") 4)).state.packages :=
  ⟨by decide +kernel, (lifecycle_moves_forward deskSigner authored
    (started 3 (.retire "refund@1") 4) (by decide +kernel)).1⟩

/-- The second approver has read the draft before the first one approves it. -/
def lateApproval : List (policySystem lifecycleTag anyPolicyCall).Move :=
  started 0 (.createDraft (refundDraft "refund@1")) 3 ++
    started 1 (.approve "refund@1" "carol") 2 ++ started 2 (.approve "refund@1" "bob") 3 ++
    started 3 (.activate "refund@1") 5

/-- Its write takes the active package back to `APPROVED` and drops the activation. -/
theorem late_approval_deactivates :
    ((policyHistory lifecycleTag anyPolicyCall (.empty deskSigner)
      lateApproval).state.packages.rows.map fun row =>
        (row.packageJson.lifecycle, row.packageJson.activationSignature.isSome)) =
      [(.active, true)] ∧
    ((policyHistory lifecycleTag anyPolicyCall (.empty deskSigner)
      (lateApproval ++ [.run 1 deskSigner])).state.packages.rows.map fun row =>
        (row.packageJson.lifecycle, row.packageJson.activationSignature.isSome)) =
      [(.approved, false)] := by
  decide +kernel

end WorkflowEngine
