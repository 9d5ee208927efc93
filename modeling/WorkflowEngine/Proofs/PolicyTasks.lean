import WorkflowEngine.Interleave.Logic
import WorkflowEngine.Sanity.Policies

/-! Where the packages that the policy service writes come from. The service checks a
package that it has read and writes a revision of it some time later, when the
repository may hold another. Whatever the schedule, what a task is about to write is a
draft that it was called with, or a revision of a package that was read. -/

namespace WorkflowEngine

open Interleave

namespace PolicyLog

/-- Some task has read `q` from the repository. -/
def Reads (h : PolicyLog) (q : PolicyPackage) : Prop := ∃ x ∈ h.trace, q ∈ x.op.reads x.res

/-- Some task runs on a service with this signer. -/
def Signs (h : PolicyLog) (signer : PolicySigner) : Prop :=
  ∃ τ, (⟨τ, .signer, signer⟩ : Entry policyStoreSig) ∈ h.trace

structure Grows (h h' : PolicyLog) : Prop where
  trace : h.trace ⊆ h'.trace
  calls : h.calls ⊆ h'.calls

theorem Grows.trans {a b c : PolicyLog} (h : Grows a b) (h' : Grows b c) : Grows a c :=
  ⟨List.Subset.trans h.trace h'.trace, List.Subset.trans h.calls h'.calls⟩

theorem Reads.mono {h h' : PolicyLog} {q : PolicyPackage} (hr : h.Reads q) (hg : Grows h h') :
    h'.Reads q := by
  obtain ⟨x, hx, hq⟩ := hr
  exact ⟨x, hg.trace hx, hq⟩

theorem Signs.mono {h h' : PolicyLog} {signer : PolicySigner} (hs : h.Signs signer)
    (hg : Grows h h') : h'.Signs signer := by
  obtain ⟨τ, hx⟩ := hs
  exact ⟨τ, hg.trace hx⟩

/-- A revision, by a service that runs, of a package that was read. -/
def Revised (hmac : Hmac) (h : PolicyLog) (p : PolicyPackage) : Prop :=
  ∃ q signer, h.Reads q ∧ h.Signs signer ∧ Revision hmac signer q p

theorem Revised.mono {hmac : Hmac} {h h' : PolicyLog} {p : PolicyPackage}
    (hr : h.Revised hmac p) (hg : Grows h h') : h'.Revised hmac p := by
  obtain ⟨q, signer, hq, hs, hrev⟩ := hr
  exact ⟨q, signer, hq.mono hg, hs.mono hg, hrev⟩

/-- What an operation writes, and where it comes from. -/
structure Derived (hmac : Hmac) (h : PolicyLog) (o : PolicyStoreOp) : Prop where
  written : ∀ p ∈ o.writes,
    (p.lifecycle = .draft ∧ .createDraft p ∈ h.calls) ∨ h.Revised hmac p
  retired : ∀ active retired, o = .replaceActive active retired →
    ∀ p ∈ retired, p.lifecycle = .retired ∧ h.Revised hmac p

theorem derived_of_silent {hmac : Hmac} {h : PolicyLog} {o : PolicyStoreOp}
    (ho : o.writes = []) : h.Derived hmac o := by
  refine ⟨by simp [ho], ?_⟩
  rintro active retired rfl
  simp [PolicyStoreOp.writes] at ho

theorem Revised.derived_save {hmac : Hmac} {h : PolicyLog} {p : PolicyPackage}
    (hr : h.Revised hmac p) : h.Derived hmac (.save p) := by
  refine ⟨fun p' hp => Or.inr ?_, fun _ _ ho => (by cases ho)⟩
  rw [List.mem_singleton.1 hp]
  exact hr

end PolicyLog

section
variable {hmac : Hmac} {admits : PolicyCall → Bool}

open PolicyLog

variable (hmac admits) in
/-- Every operation that is performed is derived. -/
def derivedLogic : Logic (policySystem hmac admits) where
  Inv h := ∀ call ∈ h.calls, admits call = true
  Rely _ _ := True
  Pre _ o h := Derived hmac h o

variable {τ : ℕ}

theorem grows_after (h : PolicyLog) (o : policyStoreSig.Op) (e : PolicySigner) :
    Grows h ((policySystem hmac admits).after h τ o e) :=
  ⟨List.subset_append_left _ _, List.Subset.refl _⟩

theorem grows_of_quiet {h h' : (policySystem hmac admits).History} (q : Quiet τ h h') :
    Grows h h' :=
  ⟨fun _ hx => q.mem hx, q.calls.subset⟩

theorem reads_after {h : PolicyLog} {o : policyStoreSig.Op} {e : PolicySigner} {q : PolicyPackage}
    (hq : q ∈ o.reads (h.state.exec hmac o).1) :
    Reads ((policySystem hmac admits).after h τ o e) q :=
  ⟨⟨τ, o, (h.state.exec hmac o).1⟩, by simp [System.after], hq⟩

/-- One operation: what the task relied on so far still holds, and holds after it. -/
theorem wp_store_op {α : Type} {o : policyStoreSig.Op} {k : policyStoreSig.Res o → PolicyTask α}
    {h : PolicyLog} {Q : Except PyErr α → PolicyLog → Prop}
    (ho : ∀ h', Grows h h' → Derived hmac h' o)
    (hk : ∀ h' e, Grows h h' → (derivedLogic hmac admits).wp τ (k (h'.state.exec hmac o).1) Q
      ((policySystem hmac admits).after h' τ o e)) :
    (derivedLogic hmac admits).wp τ (.call o k) Q h := by
  intro h' _ hq _
  exact ⟨ho h' (grows_of_quiet hq), fun e => hk h' e (grows_of_quiet hq)⟩

/-- The end of a task: a transaction whose failure is raised, then what follows it. -/
theorem wp_store_commit {α : Type} {o : policyStoreSig.Op}
    {r : policyStoreSig.Res o → Except PyErr Unit}
    {k : Unit → PolicyTask α} {h : PolicyLog} (ho : ∀ h', Grows h h' → Derived hmac h' o)
    (hk : ∀ h', (derivedLogic hmac admits).wp τ (k ()) (fun _ _ => True) h') :
    (derivedLogic hmac admits).wp τ
      (.call o fun a => (Prog.ofExcept (r a)).bind k) (fun _ _ => True) h := by
  refine wp_store_op ho fun h' e hg => ?_
  cases r ((h'.state).exec hmac o).1 with
  | ok _ => exact hk _
  | error _ => trivial

theorem wp_registry {α : Type} (us : List RegistryUpdate) (a : α) (h : PolicyLog) :
    (derivedLogic hmac admits).wp τ ((PolicyTask.registry us).bind fun _ => .ret a)
      (fun _ _ => True) h :=
  wp_store_commit (fun _ _ => derived_of_silent rfl) fun _ => trivial

theorem wp_createDraft {p : PolicyPackage} {h : PolicyLog} (hc : .createDraft p ∈ h.calls) :
    (derivedLogic hmac admits).wp τ (PolicyService.createDraft p) (fun _ _ => True) h := by
  unfold PolicyService.createDraft
  by_cases hl : p.lifecycle = .draft
  · simp only [hl, ne_eq, not_true, if_false]
    refine wp_store_op (fun _ _ => derived_of_silent rfl) fun h1 e hg1 => ?_
    cases (h1.state.exec hmac (.get p.packageId)).1 with
    | some q => trivial
    | none =>
      change (derivedLogic hmac admits).wp τ
        ((Prog.ofExcept (PolicyService.checkActions p.rules)).bind
        fun _ => .call (.save p) fun r => (Prog.ofExcept r).bind fun _ => .ret p) _ _
      cases PolicyService.checkActions p.rules with
      | error e => trivial
      | ok _ =>
        refine wp_store_commit (fun h2 hg2 => ⟨fun p' hp => ?_, fun _ _ ho => (by cases ho)⟩)
          fun _ => trivial
        rw [List.mem_singleton.1 hp]
        exact Or.inl ⟨hl, hg2.calls (hg1.calls hc)⟩
  · simp [hl]

theorem wp_approve {signer : PolicySigner} {k approver : String} {h : PolicyLog}
    (hs : h.Signs signer) : (derivedLogic hmac admits).wp τ
      (PolicyService.approve hmac signer k approver) (fun _ _ => True) h := by
  unfold PolicyService.approve
  rw [PolicyService.reading_require]
  refine wp_store_op (fun _ _ => derived_of_silent rfl) fun h1 e hg1 => ?_
  cases hr : (h1.state.exec hmac (.get k)).1 with
  | none => trivial
  | some q =>
    have hread : Reads ((policySystem hmac admits).after h1 τ (.get k) e) q :=
      reads_after (Option.mem_toList.2 hr)
    by_cases hl : q.lifecycle = .draft
    · cases ha : signer.approve hmac q approver with
      | error e => simp [hl, ha]
      | ok p =>
        simp only [Prog.bind_eq, Prog.bind_ret, hl, ne_eq, not_true, if_false, ha,
          Prog.ofExcept_ok]
        refine wp_store_commit (fun h2 hg2 => Revised.derived_save ?_) fun _ => trivial
        exact ⟨q, signer, hread.mono hg2, (hs.mono (hg1.trans (grows_after _ _ _))).mono hg2,
          .approve hl ha⟩
    · simp [hl]

theorem wp_retire {signer : PolicySigner} {k : String} {h : PolicyLog} (hs : h.Signs signer) :
    (derivedLogic hmac admits).wp τ (PolicyService.retire hmac signer k) (fun _ _ => True) h := by
  unfold PolicyService.retire
  rw [PolicyService.reading_require]
  refine wp_store_op (fun _ _ => derived_of_silent rfl) fun h1 e hg1 => ?_
  cases hr : (h1.state.exec hmac (.get k)).1 with
  | none => trivial
  | some q =>
    have hread : Reads ((policySystem hmac admits).after h1 τ (.get k) e) q :=
      reads_after (Option.mem_toList.2 hr)
    cases ha : signer.retire hmac q with
    | error e => simp [ha]
    | ok p =>
      simp only [Prog.bind_eq, Prog.bind_ret, ha, Prog.ofExcept_ok]
      refine wp_store_commit (fun h2 hg2 => Revised.derived_save ?_) fun _ => wp_registry _ _ _
      exact ⟨q, signer, hread.mono hg2, (hs.mono (hg1.trans (grows_after _ _ _))).mono hg2,
        .retire ha⟩

theorem wp_activate {signer : PolicySigner} {k : String} {h : PolicyLog} (hs : h.Signs signer) :
    (derivedLogic hmac admits).wp τ (PolicyService.activate hmac signer k) (fun _ _ => True) h := by
  unfold PolicyService.activate
  rw [PolicyService.reading_require]
  refine wp_store_op (fun _ _ => derived_of_silent rfl) fun h1 e hg1 => ?_
  cases hr : (h1.state.exec hmac (.get k)).1 with
  | none => trivial
  | some q =>
    have hread : Reads ((policySystem hmac admits).after h1 τ (.get k) e) q :=
      reads_after (Option.mem_toList.2 hr)
    cases ha : signer.activate hmac q with
    | error e => simp [ha]
    | ok active =>
      simp only [Prog.bind_eq, Prog.bind_ret, ha, Prog.ofExcept_ok]
      refine wp_store_op (fun _ _ => derived_of_silent rfl) fun h2 e2 hg2 => ?_
      cases hm : (PolicyService.prior active
          (h2.state.exec hmac (.list (some .active))).1).mapM (signer.retire hmac) with
      | error e => simp [hm]
      | ok retired =>
        simp only [hm, Prog.ofExcept_ok, Prog.bind_ret]
        have hs2 := ((hs.mono (hg1.trans (grows_after _ _ _))).mono hg2).mono
          (@grows_after hmac admits τ h2 (.list (some .active)) e2)
        have hret : ∀ p ∈ retired, p.lifecycle = .retired ∧
            Revised hmac ((policySystem hmac admits).after h2 τ (.list (some .active)) e2) p := by
          intro p hp
          obtain ⟨q', hq', hp'⟩ := Fallible.of_mem_mapM hm hp
          exact ⟨(PolicySigner.retire_ok hp').2.2.2.2.1, q', signer,
            reads_after (List.mem_of_mem_filter hq'), hs2, .retire hp'⟩
        refine wp_store_commit (fun h3 hg3 => ⟨fun p hp => Or.inr ?_, ?_⟩) fun _ =>
          wp_registry _ _ _
        · rcases List.mem_append.1 hp with hp | hp
          · exact (hret p hp).2.mono hg3
          · rw [List.mem_singleton.1 hp]
            exact ⟨q, signer, ((hread.mono hg2).mono (grows_after _ _ _)).mono hg3, hs2.mono hg3,
              .activate ha⟩
        · rintro a r ⟨⟩ p hp
          exact ⟨(hret p hp).1, (hret p hp).2.mono hg3⟩

theorem derivedLogic_sound : (derivedLogic hmac admits).Sound where
  refl _ := trivial
  trans _ _ _ _ _ := trivial
  step _ _ _ _ hi _ := ⟨hi, trivial⟩
  spawn h call hi ha := by
    refine ⟨fun c hc => ?_, trivial⟩
    rcases List.mem_append.1 hc with hc | hc
    · exact hi c hc
    · rw [List.mem_singleton.1 hc]
      exact ha
  crash _ _ hi := ⟨hi, trivial⟩
  drift _ _ hi := ⟨hi, trivial⟩
  body h call _ _ _ := by
    refine wp_store_op (fun _ _ => derived_of_silent rfl) fun h1 e hg1 => ?_
    have hs : Signs ((policySystem hmac admits).after h1 h.calls.length .signer e)
        h1.state.registry.signer := ⟨_, List.mem_append_right _ (List.mem_singleton.2 rfl)⟩
    cases call with
    | createDraft p => exact wp_createDraft (hg1.calls (List.mem_append_right _ (by simp)))
    | approve k approver => exact wp_approve hs
    | activate k => exact wp_activate hs
    | retire k => exact wp_retire hs

end
end WorkflowEngine
