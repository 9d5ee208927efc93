import WorkflowEngine.Fallible.Loops
import WorkflowEngine.Spec.PolicyStore

/-! What the operations of the policy repository and of the signer do. A write puts
packages one after the other; a revision is a package that the signer makes of
one it was given. -/

namespace WorkflowEngine

open Interleave Relational

/-- The columns that are written once. -/
structure PolicyRow.Fits (row : PolicyRow) (p : PolicyPackage) : Prop where
  packageId : row.packageId = p.packageId
  procedureId : row.procedureId = p.procedureId
  version : row.version = p.version
  jurisdiction : row.jurisdiction = p.jurisdiction

/-- Every column says what the package in `package_json` says. -/
structure PolicyRow.Coherent (row : PolicyRow) : Prop where
  fits : row.Fits row.packageJson
  lifecycle : row.lifecycle = row.packageJson.lifecycle

theorem PolicyRow.coherent_ofPackage (p : PolicyPackage) : (ofPackage p).Coherent :=
  ⟨⟨rfl, rfl, rfl, rfl⟩, rfl⟩

theorem PolicyRow.Fits.coherent_merge {row : PolicyRow} {p : PolicyPackage} (h : row.Fits p) :
    (row.merge (ofPackage p)).Coherent :=
  ⟨⟨h.packageId, h.procedureId, h.version, h.jurisdiction⟩, rfl⟩

namespace PolicyPackages

def row? (t : PolicyPackages) (packageId : String) : Option PolicyRow :=
  t.toTable.get? () packageId

theorem row?_eq_some {t : PolicyPackages} {k : String} {row : PolicyRow} :
    t.row? k = some row ↔ row ∈ t.rows ∧ row.packageId = k := Table.get?_eq_some

theorem row?_of_mem {t : PolicyPackages} {row : PolicyRow} (h : row ∈ t.rows) :
    t.row? row.packageId = some row := row?_eq_some.2 ⟨h, rfl⟩

/-- One package written under its id; the columns of a row that is there stay. -/
def Put (t : PolicyPackages) (p : PolicyPackage) (t' : PolicyPackages) : Prop :=
  ∀ k, t'.row? k = if k = p.packageId then
      some (((t.row? k).map fun row => row.merge (.ofPackage p)).getD (.ofPackage p))
    else t.row? k

inductive Puts : PolicyPackages → List PolicyPackage → PolicyPackages → Prop where
  | nil (t : PolicyPackages) : Puts t [] t
  | cons {t t1 t' : PolicyPackages} {p : PolicyPackage} {ps : List PolicyPackage} :
      Put t p t1 → Puts t1 ps t' → Puts t (p :: ps) t'

/-- The row that a write left is an old one, or the written one. -/
theorem Put.cases {t t' : PolicyPackages} {p : PolicyPackage} (h : Put t p t') {k : String}
    {row' : PolicyRow} (hr : t'.row? k = some row') :
    (t.row? k = some row' ∧ k ≠ p.packageId) ∨
    (∃ row, t.row? k = some row ∧ k = p.packageId ∧ row' = row.merge (.ofPackage p)) ∨
    (t.row? k = none ∧ k = p.packageId ∧ row' = .ofPackage p) := by
  rw [h k] at hr
  split_ifs at hr with hk
  · cases hrow : t.row? k with
    | none =>
      rw [hrow] at hr
      cases hr
      exact Or.inr (Or.inr ⟨rfl, hk, rfl⟩)
    | some row =>
      rw [hrow] at hr
      cases hr
      exact Or.inr (Or.inl ⟨row, rfl, hk, rfl⟩)
  · exact Or.inl ⟨hr, hk⟩

theorem Put.row_of {t t' : PolicyPackages} {p : PolicyPackage} (h : Put t p t') {k : String}
    {row : PolicyRow} (hr : t.row? k = some row) :
    t'.row? k = some (if k = p.packageId then row.merge (.ofPackage p) else row) := by
  rw [h k, hr]
  split_ifs <;> rfl

theorem put_of_upsert {t t' : PolicyPackages} {p : PolicyPackage}
    (h : SQLitePolicyRepository.upsert t p = .ok t') : Put t p t' := by
  intro k
  unfold SQLitePolicyRepository.upsert at h
  split at h
  case h_1 u hu =>
    cases h
    rw [row?, Indexed.toTable_of_check? hu, Table.get?_upsert]
    rfl
  case h_2 => cases h

/-- A table whose rows have one id has no two rows for the index to refuse. -/
theorem check?_of_sole {t : Table Unit String fun _ => PolicyRow.packageId} {k : String}
    (h : ∀ row ∈ t.rows, row.packageId = k) :
    ∃ u : PolicyPackages, Indexed.check? t = some u := by
  have hindex : (t.rows.filterMap PolicyRow.activeSlot).Nodup := by
    refine List.pairwise_filterMap.2 ((List.Nodup.of_map _ (t.unique ())).imp_of_mem ?_)
    intro a b ha hb hne
    exact absurd (Table.eq_of_mem (i := ()) ha hb ((h a ha).trans (h b hb).symm)) hne
  exact ⟨⟨t, hindex⟩, dif_pos hindex⟩

theorem upsert_of_sole {t : PolicyPackages} {p : PolicyPackage}
    (h : ∀ k, (t.row? k).isSome → k = p.packageId) :
    ∃ t', SQLitePolicyRepository.upsert t p = .ok t' ∧ Put t p t' := by
  obtain ⟨u, hu⟩ := check?_of_sole (k := p.packageId)
    (t := t.toTable.upsert (.ofPackage p) .merge PolicyRow.packageId_merge) fun row hrow => by
      have hget := (Table.mem_rows ()).1 hrow
      rw [Table.get?_upsert] at hget
      split_ifs at hget with hk
      · exact hk
      · exact h _ (Option.isSome_of_eq_some hget)
  have hok : SQLitePolicyRepository.upsert t p = .ok u := by
    unfold SQLitePolicyRepository.upsert
    rw [hu]
  exact ⟨u, hok, put_of_upsert hok⟩

theorem put_of_retireRow {t t' : PolicyPackages} {p : PolicyPackage} {row : PolicyRow}
    (hp : p.lifecycle = .retired) (hrow : t.row? p.packageId = some row)
    (h : SQLitePolicyRepository.retireRow t p = .ok t') : Put t p t' := by
  intro k
  unfold SQLitePolicyRepository.retireRow at h
  split at h
  case h_1 u hu =>
    cases h
    rw [row?, Indexed.toTable_of_check? hu, Table.get?_updateWhere]
    split_ifs with hk
    · subst hk
      have hid := (row?_eq_some.1 hrow).2
      unfold row? at hrow ⊢
      simp [hrow, hid, PolicyRow.merge, PolicyRow.ofPackage, hp]
    · cases hg : t.row? k with
      | none =>
        unfold row? at hg
        rw [hg]
        rfl
      | some old =>
        have hid := (row?_eq_some.1 hg).2
        unfold row? at hg
        simp [hg, hid, hk]
  case h_2 => cases h

theorem Puts.append {t t1 t' : PolicyPackages} {ps : List PolicyPackage} {p : PolicyPackage}
    (h : Puts t ps t1) (hp : Put t1 p t') : Puts t (ps ++ [p]) t' := by
  induction h with
  | nil t => exact .cons hp (.nil _)
  | cons hput _ ih => exact .cons hput (ih hp)

/-- No write removes a row. -/
theorem Puts.row_exists {t t' : PolicyPackages} {ps : List PolicyPackage} (h : Puts t ps t')
    {k : String} (hr : (t.row? k).isSome) : (t'.row? k).isSome := by
  induction h with
  | nil t => exact hr
  | cons hput _ ih =>
    obtain ⟨row, hrow⟩ := Option.isSome_iff_exists.1 hr
    apply ih
    rw [hput.row_of hrow]
    rfl

theorem puts_of_retireRows {t t' : PolicyPackages} {ps : List PolicyPackage}
    (hps : ∀ p ∈ ps, p.lifecycle = .retired ∧ (t.row? p.packageId).isSome)
    (h : ps.foldlM SQLitePolicyRepository.retireRow t = .ok t') : Puts t ps t' := by
  induction ps generalizing t with
  | nil =>
    cases h
    exact .nil _
  | cons p ps ih =>
    rw [List.foldlM_cons] at h
    cases h1 : SQLitePolicyRepository.retireRow t p with
    | error e =>
      rw [h1] at h
      cases h
    | ok t1 =>
      rw [h1] at h
      obtain ⟨hl, hs⟩ := hps p (by simp)
      obtain ⟨row, hrow⟩ := Option.isSome_iff_exists.1 hs
      have hput := put_of_retireRow hl hrow h1
      refine .cons hput (ih (fun q hq => ?_) h)
      obtain ⟨hql, hqs⟩ := hps q (List.mem_cons_of_mem _ hq)
      exact ⟨hql, Puts.row_exists (.cons hput (.nil _)) hqs⟩

theorem puts_of_replaceActive {t t' : PolicyPackages} {active : PolicyPackage}
    {retired : List PolicyPackage}
    (hps : ∀ p ∈ retired, p.lifecycle = .retired ∧ (t.row? p.packageId).isSome)
    (h : SQLitePolicyRepository.replaceActive t active retired = .ok t') :
    Puts t (retired ++ [active]) t' := by
  unfold SQLitePolicyRepository.replaceActive at h
  cases h1 : retired.foldlM SQLitePolicyRepository.retireRow t with
  | error e =>
    rw [h1] at h
    cases h
  | ok t1 =>
    rw [h1] at h
    exact (puts_of_retireRows hps h1).append (put_of_upsert h)

theorem get_eq_some {t : PolicyPackages} {k : String} {q : PolicyPackage} :
    SQLitePolicyRepository.get t k = some q ↔ ∃ row, t.row? k = some row ∧ row.packageJson = q := by
  simp [SQLitePolicyRepository.get, row?, Option.map_eq_some_iff]

theorem mem_list {t : PolicyPackages} {l : Option PolicyLifecycle} {q : PolicyPackage}
    (h : q ∈ SQLitePolicyRepository.list t l) :
    ∃ row ∈ t.rows, row.packageJson = q ∧ ∀ l', l = some l' → row.lifecycle = l' := by
  simp only [SQLitePolicyRepository.list, List.mem_map, List.mem_insertionSort] at h
  obtain ⟨row, hrow, rfl⟩ := h
  cases l with
  | none => exact ⟨row, hrow, rfl, by simp⟩
  | some l' =>
    obtain ⟨hm, hl⟩ := List.mem_filter.1 hrow
    refine ⟨row, hm, rfl, ?_⟩
    rintro l'' ⟨⟩
    simpa using hl

end PolicyPackages

namespace PolicyStoreOp

/-- The packages that the operation writes, in the order of its statements. -/
def writes : PolicyStoreOp → List PolicyPackage
  | .save package => [package]
  | .replaceActive active retired => retired ++ [active]
  | _ => []

/-- The packages in the answer to an operation. -/
def reads : (o : PolicyStoreOp) → policyStoreSig.Res o → List PolicyPackage
  | .get _, r => r.toList
  | .list _, r => r
  | _, _ => []

end PolicyStoreOp

theorem PolicyRegistry.signer_updateAll (hmac : Hmac) (registry : PolicyRegistry)
    (us : List RegistryUpdate) : (registry.updateAll hmac us).2.signer = registry.signer := by
  induction us generalizing registry with
  | nil => rfl
  | cons u us ih =>
    unfold updateAll
    split
    case h_1 registry' hu =>
      rw [ih]
      cases u with
      | load p =>
        simp only [update, load] at hu
        split_ifs at hu
        cases hu
        rfl
      | loadHistory p =>
        simp only [update, loadHistory] at hu
        split_ifs at hu <;> cases hu <;> rfl
      | retire k =>
        cases hu
        rfl
    case h_2 => rfl

namespace PolicyState

variable {hmac : Hmac}

@[simp] theorem signer_exec (s : PolicyState) (o : policyStoreSig.Op) :
    (s.exec hmac o).2.registry.signer = s.registry.signer := by
  have hcommit : ∀ r, (s.commit r).2.registry.signer = s.registry.signer := by
    intro r
    cases r <;> rfl
  cases o with
  | save p => exact hcommit _
  | replaceActive a r => exact hcommit _
  | registry us => exact PolicyRegistry.signer_updateAll hmac _ us
  | _ => rfl

/-- An operation leaves the repository alone, or puts what it writes. -/
theorem packages_exec (s : PolicyState) (o : policyStoreSig.Op)
    (ho : ∀ active retired, o = .replaceActive active retired →
      ∀ p ∈ retired, p.lifecycle = .retired ∧ (s.packages.row? p.packageId).isSome) :
    (s.exec hmac o).2.packages = s.packages ∨
      s.packages.Puts o.writes (s.exec hmac o).2.packages := by
  cases o with
  | save p =>
    simp only [exec, SQLitePolicyRepository.save]
    cases h : SQLitePolicyRepository.upsert s.packages p with
    | error e => exact Or.inl rfl
    | ok t' => exact Or.inr (.cons (PolicyPackages.put_of_upsert h) (.nil _))
  | replaceActive active retired =>
    simp only [exec]
    cases h : SQLitePolicyRepository.replaceActive s.packages active retired with
    | error e => exact Or.inl rfl
    | ok t' => exact Or.inr (PolicyPackages.puts_of_replaceActive (ho _ _ rfl) h)
  | _ => exact Or.inl rfl

/-- What was read is in the repository. -/
theorem row_of_reads {s : PolicyState} {o : policyStoreSig.Op} {q : PolicyPackage}
    (h : q ∈ o.reads (s.exec hmac o).1) : ∃ row ∈ s.packages.rows, row.packageJson = q := by
  cases o with
  | get k =>
    obtain ⟨row, hrow, rfl⟩ := PolicyPackages.get_eq_some.1 (Option.mem_toList.1 h)
    exact ⟨row, (PolicyPackages.row?_eq_some.1 hrow).1, rfl⟩
  | list l =>
    obtain ⟨row, hrow, he, -⟩ := PolicyPackages.mem_list h
    exact ⟨row, hrow, he⟩
  | _ => cases h

end PolicyState

namespace PolicySigner

variable {hmac : Hmac} {signer : PolicySigner}

theorem verify_iff {p : PolicyPackage} : signer.verify hmac p = true ↔
    p.lifecycle ≠ .draft ∧ ∃ keyId key, p.signingKeyId = some keyId ∧
      signer.verificationKey keyId = some key ∧
      p.signature = some (hmac key p.canonicalPayload) ∧ hmac key p.canonicalPayload ≠ "" := by
  have hl : p.lifecycle ∉ [PolicyLifecycle.approved, .active, .retired] ↔ p.lifecycle = .draft := by
    cases p.lifecycle <;> simp
  unfold verify verificationKey
  simp only [hl]
  by_cases hd : p.lifecycle = .draft
  · simp [hd]
  · cases hs : p.signature with
    | none => simp
    | some tag =>
      cases hk : p.signingKeyId with
      | none => simp
      | some keyId =>
        cases hkey : ((signer.keyId, signer.key) :: signer.verificationKeys).lookup keyId with
        | none => simp [hkey]
        | some key =>
          by_cases ht : tag = ""
          · subst ht
            simp only [Option.getD_some, true_or, if_true, Bool.false_eq_true, false_iff]
            rintro ⟨-, keyId, key, -, -, he, hne⟩
            exact hne (Option.some.inj he).symm
          · simp only [Option.getD_some, ht, hd, or_self, if_false, hkey, ne_eq, not_false_eq_true,
              true_and, beq_iff_eq, Option.some.injEq, exists_and_left, exists_eq_left']
            constructor
            · rintro rfl
              exact ⟨rfl, ht⟩
            · exact fun h => h.1

/-- The package carries the signer's tag. -/
structure Signed (hmac : Hmac) (signer : PolicySigner) (p : PolicyPackage) : Prop where
  keyId : p.signingKeyId = some signer.keyId
  signature : p.signature = some (hmac signer.key p.canonicalPayload)

theorem verificationKey_self (signer : PolicySigner) :
    signer.verificationKey signer.keyId = some signer.key := by
  simp [verificationKey]

/-- `hexdigest()` of a SHA-256 digest has 64 hexadecimal digits. -/
def Digest (hmac : Hmac) : Prop := ∀ key payload, (hmac key payload).length = 64

theorem Digest.ne_empty (h : Digest hmac) (key : String) (payload : PolicyPackage) :
    hmac key payload ≠ "" := by
  intro he
  have := h key payload
  simp [he] at this

theorem Signed.verify (hd : Digest hmac) {now : PolicySigner} {p : PolicyPackage}
    (h : Signed hmac signer p) (hp : p.lifecycle ≠ .draft)
    (hk : now.verificationKey signer.keyId = some signer.key) : now.verify hmac p = true :=
  verify_iff.2 ⟨hp, signer.keyId, signer.key, h.keyId, hk, h.signature, hd.ne_empty _ _⟩

theorem verificationKey_of_keeps {new old : PolicySigner} (h : new.Keeps old) {keyId key : String}
    (hk : old.verificationKey keyId = some key) : new.verificationKey keyId = some key := by
  rw [h keyId, hk]
  by_contra hne
  have hnone : old.verificationKey keyId = none := by
    rw [verificationKey, List.lookup_eq_none_iff]
    rintro ⟨a, b⟩ hab
    simp only [List.mem_cons, List.mem_map, not_or] at hne
    rcases List.mem_cons.1 hab with he | hm
    · cases he
      simpa using hne.1
    · have hka : keyId ≠ a := fun he => hne.2 ⟨(a, b), hm, he.symm⟩
      simpa using hka
  rw [hnone] at hk
  cases hk

theorem verify_of_keeps {new old : PolicySigner} (h : new.Keeps old) {p : PolicyPackage}
    (hv : old.verify hmac p = true) : new.verify hmac p = true := by
  obtain ⟨hl, keyId, key, hid, hkey, hsig, hne⟩ := verify_iff.1 hv
  exact verify_iff.2 ⟨hl, keyId, key, hid, verificationKey_of_keeps h hkey, hsig, hne⟩

end PolicySigner

/-- The package that the signer makes of `q`. -/
inductive Revision (hmac : Hmac) (signer : PolicySigner) (q : PolicyPackage) :
    PolicyPackage → Prop where
  | approve {p : PolicyPackage} {approver : String} (hq : q.lifecycle = .draft)
      (h : signer.approve hmac q approver = .ok p) : Revision hmac signer q p
  | activate {p : PolicyPackage} (h : signer.activate hmac q = .ok p) : Revision hmac signer q p
  | retire {p : PolicyPackage} (h : signer.retire hmac q = .ok p) : Revision hmac signer q p

/-- The fields that no operation of the service changes. -/
structure PolicyPackage.SameContent (q p : PolicyPackage) : Prop where
  packageId : p.packageId = q.packageId
  procedureId : p.procedureId = q.procedureId
  version : p.version = q.version
  jurisdiction : p.jurisdiction = q.jurisdiction
  author : p.author = q.author
  rules : p.rules = q.rules

theorem PolicyPackage.SameContent.refl (p : PolicyPackage) : p.SameContent p :=
  ⟨rfl, rfl, rfl, rfl, rfl, rfl⟩

theorem PolicyPackage.SameContent.trans {a b c : PolicyPackage} (h : a.SameContent b)
    (h' : b.SameContent c) : a.SameContent c :=
  ⟨h'.packageId.trans h.packageId, h'.procedureId.trans h.procedureId, h'.version.trans h.version,
    h'.jurisdiction.trans h.jurisdiction, h'.author.trans h.author, h'.rules.trans h.rules⟩

theorem PolicyPackage.SameContent.symm {a b : PolicyPackage} (h : a.SameContent b) :
    b.SameContent a :=
  ⟨h.packageId.symm, h.procedureId.symm, h.version.symm, h.jurisdiction.symm, h.author.symm,
    h.rules.symm⟩

/-- `draft -> approved -> active -> retired` -/
def PolicyLifecycle.rank : PolicyLifecycle → ℕ
  | .draft => 0
  | .approved => 1
  | .active => 2
  | .retired => 3

namespace PolicySigner

variable {hmac : Hmac} {signer : PolicySigner} {q p : PolicyPackage}

theorem approve_ok {approver : String} (h : signer.approve hmac q approver = .ok p) :
    approver ≠ q.author ∧ q.SameContent p ∧ Signed hmac signer p ∧ p.lifecycle = .approved ∧
      p.approver = some approver := by
  unfold approve at h
  split_ifs at h with ha
  cases h
  exact ⟨ha, ⟨rfl, rfl, rfl, rfl, rfl, rfl⟩, ⟨rfl, rfl⟩, rfl, rfl⟩

theorem activate_ok (h : signer.activate hmac q = .ok p) :
    q.lifecycle = .approved ∧ signer.verify hmac q = true ∧ q.SameContent p ∧
      Signed hmac signer p ∧ p.lifecycle = .active ∧ p.approver = q.approver ∧
      p.activationSignature = p.signature := by
  unfold activate at h
  split_ifs at h with hc
  obtain ⟨hl, hv⟩ := not_or.1 hc
  cases h
  exact ⟨not_not.1 hl, by simpa using hv, ⟨rfl, rfl, rfl, rfl, rfl, rfl⟩, ⟨rfl, rfl⟩, rfl, rfl, rfl⟩

theorem retire_ok (h : signer.retire hmac q = .ok p) :
    q.lifecycle = .active ∧ signer.verify hmac q = true ∧ q.SameContent p ∧
      Signed hmac signer p ∧ p.lifecycle = .retired ∧ p.approver = q.approver ∧
      p.activationSignature = q.activationSignature := by
  unfold retire at h
  split_ifs at h with hc
  obtain ⟨hl, hv⟩ := not_or.1 hc
  cases h
  exact ⟨not_not.1 hl, by simpa using hv, ⟨rfl, rfl, rfl, rfl, rfl, rfl⟩, ⟨rfl, rfl⟩, rfl, rfl, rfl⟩

end PolicySigner

namespace Revision

variable {hmac : Hmac} {signer : PolicySigner} {q p : PolicyPackage}

theorem content (h : Revision hmac signer q p) : q.SameContent p := by
  cases h with
  | approve hq h => exact (PolicySigner.approve_ok h).2.1
  | activate h => exact (PolicySigner.activate_ok h).2.2.1
  | retire h => exact (PolicySigner.retire_ok h).2.2.1

theorem signed (h : Revision hmac signer q p) : PolicySigner.Signed hmac signer p := by
  cases h with
  | approve hq h => exact (PolicySigner.approve_ok h).2.2.1
  | activate h => exact (PolicySigner.activate_ok h).2.2.2.1
  | retire h => exact (PolicySigner.retire_ok h).2.2.2.1

/-- A revision is the next state of the lifecycle. -/
theorem rank (h : Revision hmac signer q p) : p.lifecycle.rank = q.lifecycle.rank + 1 := by
  cases h with
  | approve hq h => simp [hq, (PolicySigner.approve_ok h).2.2.2.1, PolicyLifecycle.rank]
  | activate h =>
    obtain ⟨hq, -, -, -, hp, -⟩ := PolicySigner.activate_ok h
    simp [hq, hp, PolicyLifecycle.rank]
  | retire h =>
    obtain ⟨hq, -, -, -, hp, -⟩ := PolicySigner.retire_ok h
    simp [hq, hp, PolicyLifecycle.rank]

end Revision

namespace PolicyService

theorem reading_require (packageId : String) : reading (require packageId) =
    .call (.get packageId) fun r => match r with
      | none => .raise (.keyError packageId)
      | some package => .ret package := by
  refine congrArg (Prog.call (S := policyStoreSig) (.get packageId)) (funext fun r => ?_)
  cases r <;> rfl

end PolicyService

namespace PolicyState

variable (hmac : Hmac)

theorem signer_alone {α : Type} (p : PolicyTask α) (s : PolicyState) :
    (p.alone (exec hmac) s).2.registry.signer = s.registry.signer := by
  induction p generalizing s with
  | ret a => rfl
  | raise e => rfl
  | call o k ih => rw [Prog.alone_call, ih, signer_exec]

theorem packages_of_silent (s : PolicyState) {o : policyStoreSig.Op} (ho : o.writes = []) :
    (s.exec hmac o).2.packages = s.packages := by
  cases o with
  | save p => simp [PolicyStoreOp.writes] at ho
  | replaceActive a r => simp [PolicyStoreOp.writes] at ho
  | _ => rfl

/-- A program without writes leaves the repository alone. -/
theorem packages_alone {α : Type} {p : PolicyTask α}
    (hp : p.Issues fun o : PolicyStoreOp => o.writes = [])
    (s : PolicyState) : (p.alone (exec hmac) s).2.packages = s.packages := by
  induction p generalizing s with
  | ret a => rfl
  | raise e => rfl
  | call o k ih => rw [Prog.alone_call, ih _ (hp.2 _), packages_of_silent hmac s hp.1]

theorem restart_cases (s : PolicyState) (signer : PolicySigner) :
    s.restart hmac signer = s ∨ signer.Keeps s.registry.signer ∧
      (s.restart hmac signer).packages = s.packages ∧
      (s.restart hmac signer).registry.signer = signer := by
  unfold restart
  split_ifs with hk
  · refine Or.inr ⟨hk, packages_alone hmac ?_ _, signer_alone hmac _ _⟩
    refine Prog.issues_bind (Prog.issues_perform (S := policyStoreSig) _ |>.2 rfl)
      fun packages => ?_
    exact Prog.issues_bind (Prog.issues_perform (S := policyStoreSig) _ |>.2 rfl) fun _ =>
      Prog.issues_ofExcept _
  · exact Or.inl rfl

theorem packages_restart (s : PolicyState) (signer : PolicySigner) :
    (s.restart hmac signer).packages = s.packages := by
  rcases restart_cases hmac s signer with he | ⟨-, hp, -⟩
  · rw [he]
  · exact hp

/-- `create_draft` of a draft, executed alone. -/
theorem alone_createDraft (s : PolicyState) {p : PolicyPackage} (hl : p.lifecycle = .draft) :
    (PolicyService.createDraft p).alone (exec hmac) s = match s.packages.row? p.packageId with
      | some _ => (.error (.valueError ("Policy package already exists: " ++ p.packageId)), s)
      | none => match PolicyService.checkActions p.rules with
        | .error e => (.error e, s)
        | .ok _ => match SQLitePolicyRepository.save s.packages p with
          | .error e => (.error e, s)
          | .ok t' => (.ok p, { s with packages := t' }) := by
  have he : PolicyService.createDraft p = .call (.get p.packageId) fun r => match r with
      | some _ => .raise (.valueError ("Policy package already exists: " ++ p.packageId))
      | none => (Prog.ofExcept (PolicyService.checkActions p.rules)).bind fun _ =>
          .call (.save p) fun r => (Prog.ofExcept r).bind fun _ => .ret p := by
    unfold PolicyService.createDraft
    simp only [hl, ne_eq, not_true, if_false]
    refine congrArg (Prog.call (S := policyStoreSig) (.get p.packageId)) (funext fun r => ?_)
    cases r <;> rfl
  have hget : (s.exec hmac (.get p.packageId)).1 =
      (s.packages.row? p.packageId).map (·.packageJson) := rfl
  rw [he, Prog.alone_call, hget]
  cases s.packages.row? p.packageId with
  | some row => rfl
  | none =>
    dsimp only [Option.map_none]
    cases PolicyService.checkActions p.rules with
    | error e => rfl
    | ok _ =>
      change (Prog.bind (Prog.ofExcept (s.commit (SQLitePolicyRepository.save s.packages p)).1)
        fun _ => .ret p).alone (exec hmac)
          (s.commit (SQLitePolicyRepository.save s.packages p)).2 = _
      cases SQLitePolicyRepository.save s.packages p <;> rfl

/-- What `create_draft` has put when it answers. -/
theorem of_createDraft_ok {s : PolicyState} {p q : PolicyPackage}
    (h : ((PolicyService.createDraft p).alone (exec hmac) s).1 = .ok q) :
    p.lifecycle = .draft ∧ s.packages.row? p.packageId = none ∧
      PolicyService.checkActions p.rules = .ok () ∧
      ∃ t', s.packages.Put p t' ∧
        ((PolicyService.createDraft p).alone (exec hmac) s).2 = { s with packages := t' } := by
  have hl : p.lifecycle = .draft := by
    by_contra hl
    simp [PolicyService.createDraft, hl] at h
  rw [alone_createDraft hmac s hl] at h ⊢
  cases hrow : s.packages.row? p.packageId with
  | some row =>
    simp only [hrow] at h
    cases h
  | none =>
    cases hc : PolicyService.checkActions p.rules with
    | error e =>
      simp only [hrow, hc] at h
      cases h
    | ok u =>
      cases hs : SQLitePolicyRepository.save s.packages p with
      | error e =>
        simp only [hrow, hc, hs] at h
        cases h
      | ok t' => exact ⟨hl, rfl, rfl, t', PolicyPackages.put_of_upsert hs, rfl⟩

/-- `create_draft`, executed alone: nothing, or a draft under a new id. -/
theorem perform_createDraft (s : PolicyState) (p : PolicyPackage) :
    s.perform hmac (.createDraft p) = s ∨
      p.lifecycle = .draft ∧ s.packages.row? p.packageId = none ∧
      (s.perform hmac (.createDraft p)).registry = s.registry ∧
      s.packages.Put p (s.perform hmac (.createDraft p)).packages := by
  change ((PolicyService.createDraft p).alone (exec hmac) s).2 = s ∨ _ ∧ _ ∧
    ((PolicyService.createDraft p).alone (exec hmac) s).2.registry = _ ∧
    s.packages.Put p ((PolicyService.createDraft p).alone (exec hmac) s).2.packages
  cases hr : ((PolicyService.createDraft p).alone (exec hmac) s).1 with
  | ok q =>
    obtain ⟨hl, hrow, -, t', hput, he⟩ := of_createDraft_ok hmac hr
    rw [he]
    exact Or.inr ⟨hl, hrow, rfl, hput⟩
  | error e =>
    left
    by_cases hl : p.lifecycle = .draft
    · rw [alone_createDraft hmac s hl] at hr ⊢
      split at hr <;> try rfl
      split at hr <;> try rfl
      split at hr
      · rfl
      · cases hr
    · simp [PolicyService.createDraft, hl]

end PolicyState

namespace PolicyState

variable {hmac : Hmac}

theorem alone_save {α : Type} (s : PolicyState) (p : PolicyPackage) (k : Unit → PolicyTask α) :
    (((PolicyTask.save p).bind k).alone (exec hmac) s).2 = s ∨
      ∃ t', SQLitePolicyRepository.save s.packages p = .ok t' ∧
        (((PolicyTask.save p).bind k).alone (exec hmac) s).2 =
          ((k ()).alone (exec hmac) { s with packages := t' }).2 := by
  change ((Prog.bind
    (Prog.ofExcept (s.commit (SQLitePolicyRepository.save s.packages p)).1) k).alone
    (exec hmac) (s.commit (SQLitePolicyRepository.save s.packages p)).2).2 = s ∨ ∃ t', _ ∧
      ((Prog.bind (Prog.ofExcept (s.commit (SQLitePolicyRepository.save s.packages p)).1) k).alone
        (exec hmac) (s.commit (SQLitePolicyRepository.save s.packages p)).2).2 = _
  cases SQLitePolicyRepository.save s.packages p with
  | error e => exact Or.inl rfl
  | ok t' => exact Or.inr ⟨t', rfl, rfl⟩

theorem alone_replaceActive {α : Type} (s : PolicyState) (active : PolicyPackage)
    (retired : List PolicyPackage) (k : Unit → PolicyTask α) :
    (((PolicyTask.replaceActive active retired).bind k).alone (exec hmac) s).2 = s ∨
      ∃ t', SQLitePolicyRepository.replaceActive s.packages active retired = .ok t' ∧
        (((PolicyTask.replaceActive active retired).bind k).alone (exec hmac) s).2 =
          ((k ()).alone (exec hmac) { s with packages := t' }).2 := by
  let r := SQLitePolicyRepository.replaceActive s.packages active retired
  change ((Prog.bind (Prog.ofExcept (s.commit r).1) k).alone (exec hmac) (s.commit r).2).2 = s ∨
    ∃ t', r = .ok t' ∧
      ((Prog.bind (Prog.ofExcept (s.commit r).1) k).alone (exec hmac) (s.commit r).2).2 = _
  cases r with
  | error e => exact Or.inl rfl
  | ok t' => exact Or.inr ⟨t', rfl, rfl⟩

theorem alone_registry {α : Type} (s : PolicyState) (us : List RegistryUpdate) (a : α) :
    (((PolicyTask.registry us).bind fun _ => .ret a).alone (exec hmac) s).2 =
      { s with registry := (s.registry.updateAll hmac us).2 } := by
  change ((Prog.bind (Prog.ofExcept (s.registry.updateAll hmac us).1) fun _ => .ret a).alone
    (exec hmac) { s with registry := (s.registry.updateAll hmac us).2 }).2 = _
  cases (s.registry.updateAll hmac us).1 <;> rfl

/-- All that a call can do when nothing runs beside it. -/
inductive Effect (hmac : Hmac) (s : PolicyState) : PolicyState → Prop where
  | unchanged : Effect hmac s s
  | draft {p : PolicyPackage} {t' : PolicyPackages} (hl : p.lifecycle = .draft)
      (hrow : s.packages.row? p.packageId = none) (hput : s.packages.Put p t') :
      Effect hmac s { s with packages := t' }
  | approve {k approver : String} {row : PolicyRow} {p : PolicyPackage} {t' : PolicyPackages}
      (hrow : s.packages.row? k = some row) (hl : row.packageJson.lifecycle = .draft)
      (ha : s.registry.signer.approve hmac row.packageJson approver = .ok p)
      (ht : SQLitePolicyRepository.save s.packages p = .ok t') :
      Effect hmac s { s with packages := t' }
  | activate {k : String} {row : PolicyRow} {active : PolicyPackage}
      {retired : List PolicyPackage} {t' : PolicyPackages}
      (hrow : s.packages.row? k = some row)
      (ha : s.registry.signer.activate hmac row.packageJson = .ok active)
      (hm : (PolicyService.prior active (SQLitePolicyRepository.list s.packages
        (some .active))).mapM (s.registry.signer.retire hmac) = .ok retired)
      (ht : SQLitePolicyRepository.replaceActive s.packages active retired = .ok t') :
      Effect hmac s ⟨t', (s.registry.updateAll hmac
        (retired.map (fun existing => .retire existing.packageId) ++ [.load active])).2⟩
  | retire {k : String} {row : PolicyRow} {p : PolicyPackage} {t' : PolicyPackages}
      (hrow : s.packages.row? k = some row)
      (hr : s.registry.signer.retire hmac row.packageJson = .ok p)
      (ht : SQLitePolicyRepository.save s.packages p = .ok t') :
      Effect hmac s ⟨t', s.registry.retire k⟩

/-- A read by id, executed alone. -/
theorem alone_require {α : Type} (s : PolicyState) (k : String)
    (f : PolicyPackage → PolicyTask α) :
    ((PolicyService.reading (PolicyService.require k)).bind f).alone (exec hmac) s =
      match s.packages.row? k with
      | none => (.error (.keyError k), s)
      | some row => (f row.packageJson).alone (exec hmac) s := by
  have hread : (s.exec hmac (.get k)).1 = (s.packages.row? k).map (·.packageJson) := rfl
  rw [PolicyService.reading_require, Prog.bind_call, Prog.alone_call, hread]
  cases s.packages.row? k <;> rfl

/-- A lookup that succeeds found the package and passed its checks. -/
theorem reading_bind_ok {s : PolicyState} {k : String} {f : PolicyPackage → Prog policySig PyErr
      PolicyPackage} {q : PolicyPackage}
    (h : ((PolicyService.reading ((PolicyService.require k).bind f)).alone (exec hmac) s).1 =
      .ok q) :
    ∃ row ∈ s.packages.rows,
      ((PolicyService.reading (f row.packageJson)).alone (exec hmac) s).1 = .ok q := by
  unfold PolicyService.reading at h
  rw [Prog.lift_bind] at h
  change (((PolicyService.reading (PolicyService.require k)).bind _).alone _ _).1 = _ at h
  rw [alone_require] at h
  cases hrow : s.packages.row? k with
  | none =>
    rw [hrow] at h
    cases h
  | some row =>
    rw [hrow] at h
    exact ⟨row, (PolicyPackages.row?_eq_some.1 hrow).1, h⟩

theorem effect_approve (s : PolicyState) (k approver : String) :
    Effect hmac s
      ((PolicyService.approve hmac s.registry.signer k approver).alone (exec hmac) s).2 := by
  rw [PolicyService.approve, Prog.bind_eq, alone_require]
  cases hrow : s.packages.row? k with
  | none => exact .unchanged
  | some row =>
    by_cases hl : row.packageJson.lifecycle = .draft
    · cases ha : s.registry.signer.approve hmac row.packageJson approver with
      | error e =>
        simp only [hl, ne_eq, not_true, if_false, ha, Prog.bind_eq, Prog.ofExcept_error,
          Prog.bind_raise]
        exact .unchanged
      | ok p =>
        simp only [hl, ne_eq, not_true, if_false, ha, Prog.bind_eq, Prog.ofExcept_ok,
          Prog.bind_ret, Prog.pure_eq]
        rcases @alone_save hmac _ s p fun _ => .ret p with he | ⟨t', ht, he⟩
        · rw [he]
          exact .unchanged
        · rw [he]
          exact .approve hrow hl ha ht
    · simp only [hl, ne_eq, not_false_eq_true, if_true]
      exact .unchanged

theorem effect_activate (s : PolicyState) (k : String) :
    Effect hmac s ((PolicyService.activate hmac s.registry.signer k).alone (exec hmac) s).2 := by
  rw [PolicyService.activate, Prog.bind_eq, alone_require]
  cases hrow : s.packages.row? k with
  | none => exact .unchanged
  | some row =>
    cases ha : s.registry.signer.activate hmac row.packageJson with
    | error e =>
      simp only [ha, Prog.bind_eq, Prog.ofExcept_error, Prog.bind_raise]
      exact .unchanged
    | ok active =>
      simp only [ha, Prog.bind_eq, Prog.ofExcept_ok, Prog.bind_ret, Prog.pure_eq]
      rw [PolicyTask.list, Prog.bind_perform, Prog.alone_call]
      change Effect hmac s ((Prog.bind (Prog.ofExcept ((PolicyService.prior active
        (SQLitePolicyRepository.list s.packages (some .active))).mapM
          (s.registry.signer.retire hmac))) _).alone (exec hmac) s).2
      cases hm : (PolicyService.prior active (SQLitePolicyRepository.list s.packages
          (some .active))).mapM (s.registry.signer.retire hmac) with
      | error e => exact .unchanged
      | ok retired =>
        simp only [Prog.ofExcept_ok, Prog.bind_ret]
        rcases @alone_replaceActive hmac _ s active retired fun _ =>
          (PolicyTask.registry (retired.map (fun existing => .retire existing.packageId) ++
            [.load active])).bind fun _ => .ret active with he | ⟨t', ht, he⟩
        · rw [he]
          exact .unchanged
        · rw [he, alone_registry]
          exact .activate hrow ha hm ht

theorem effect_retire (s : PolicyState) (k : String) :
    Effect hmac s ((PolicyService.retire hmac s.registry.signer k).alone (exec hmac) s).2 := by
  rw [PolicyService.retire, Prog.bind_eq, alone_require]
  cases hrow : s.packages.row? k with
  | none => exact .unchanged
  | some row =>
    cases ha : s.registry.signer.retire hmac row.packageJson with
    | error e =>
      simp only [ha, Prog.bind_eq, Prog.ofExcept_error, Prog.bind_raise]
      exact .unchanged
    | ok p =>
      simp only [ha, Prog.bind_eq, Prog.ofExcept_ok, Prog.bind_ret, Prog.pure_eq]
      rcases @alone_save hmac _ s p fun _ =>
        (PolicyTask.registry [.retire k]).bind fun _ => .ret p with he | ⟨t', ht, he⟩
      · rw [he]
        exact .unchanged
      · rw [he, alone_registry]
        exact .retire hrow ha ht

theorem perform_effect (s : PolicyState) (call : PolicyCall) :
    Effect hmac s (s.perform hmac call) := by
  cases call with
  | createDraft p =>
    rcases perform_createDraft hmac s p with he | ⟨hl, hrow, hr, hput⟩
    · rw [he]
      exact .unchanged
    · have he : s.perform hmac (.createDraft p) =
          { s with packages := (s.perform hmac (.createDraft p)).packages } := by
        rw [← hr]
      rw [he]
      exact .draft hl hrow hput
  | approve k approver => exact effect_approve s k approver
  | activate k => exact effect_activate s k
  | retire k => exact effect_retire s k

end PolicyState
end WorkflowEngine
