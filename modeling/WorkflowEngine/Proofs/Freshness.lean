import WorkflowEngine.Proofs.Authorization
import WorkflowEngine.Sanity.Alone
import WorkflowEngine.Sanity.Requests

/-! Expired facts. A fact keeps the time at which it expires, and neither `get_fact` nor
`authorize_action` looks at it. -/

namespace WorkflowEngine

open Interleave Engine Relational SQLiteCoreStore

/-- A fact that never expires, or expires after `t`. -/
def FactRecord.FreshAt (fact : FactRecord) (t : Time) : Prop :=
  ∀ expiry, fact.expiresAt = some expiry → t < expiry

/-- A check of `authorize_action` refuses the command: its key is taken, it is incomplete, a fact
that it names does not back it, or the case is not at the version. -/
def Db.Refuses (db : Db) (command : ActionCommand) (v : ℤ) : Prop :=
  db.actionByKey? command.idempotencyKey ≠ none ∨ CaseKernel.checkCommand command ≠ .ok () ∨
  db.verifies command command.parameterFactRefs ≠ .ok () ∨
  ∀ c, db.case? command.caseId = some c → c.version ≠ v

def Db.NamesFresh (db : Db) (command : ActionCommand) (t : Time) : Prop :=
  ∀ ref ∈ command.parameterFactRefs, ∀ fact, db.current? command.caseId ref.2 = some fact →
    fact.FreshAt t

/-- An action that is inserted at `t` from this store names only facts that have not expired. -/
def StaleFailsClosed (db : Db) (command : ActionCommand) (v : ℤ) (t : Time) : Prop :=
  ∀ (X : Sig) (W : World X) (choices : ℕ → EngineChoice W) (s : EngineState W) (a : ActionRecord),
    s.db = db → db.action? a.actionId = none →
    (alone W choices (CaseKernel.authorizeAction command v) s).2.db.action? a.actionId = some a →
    a.createdAt = t → db.NamesFresh command t

section
variable {X : Sig} {W : World X} {choices : ℕ → EngineChoice W}

/-- A refused command leaves the store as it was. -/
theorem alone_of_refuses {command : ActionCommand} {v : ℤ} {s : EngineState W}
    (h : s.db.Refuses command v) :
    (alone W choices (CaseKernel.authorizeAction command v) s).2.db = s.db := by
  cases hkey : s.db.actionByKey? command.idempotencyKey with
  | some duplicate =>
    have hrun : (CaseKernel.authorizeAction command v).alone (execAlone W choices) (0, s) = _ :=
      @alone_getActionByKey _ _ choices _ _ _ (0, s) _ hkey
    refine (congrArg (fun t => t.2.2.db) hrun).trans ?_
    cases hsame : duplicate.command.pyEq command with
    | true =>
      exact congrArg (fun p => (Prog.alone (execAlone W choices) p (passed choices (0, s))).2.2.db)
        (if_neg (by simp [hsame]))
    | false =>
      exact congrArg (fun p => (Prog.alone (execAlone W choices) p (passed choices (0, s))).2.2.db)
        (if_pos (by simp [hsame]))
  | none =>
    rcases @alone_authorizeAction _ _ choices _ v (0, s) hkey with ⟨k, hk, -⟩ | ⟨k, hc, hf, hk⟩
    · exact (congrArg (fun t => t.2.db) hk).trans (passed_iterate choices k (0, s)).1
    · have hcase : ∀ c, s.db.case? command.caseId = some c → c.version ≠ v := by
        rcases h with h | h | h | h
        · exact absurd hkey h
        · exact absurd hc h
        · exact absurd hf h
        · exact h
      have hdb := (passed_iterate choices (k + 2) (0, s)).1
      refine (congrArg (fun t => t.2.2.db) hk).trans ((alone_insertAction ..).trans ?_)
      rw [hdb]
      rcases Txn.commit_cases (Txn.insertAction _ _ _ v) s.db with ⟨e, hcommit⟩ | ⟨u, db', hcommit⟩
      · exact congrArg Prod.snd hcommit
      · obtain ⟨c, hfound, hv⟩ := (inserted_of_ok hcommit).found
        exact absurd hv (hcase c hfound)

end

/-- A single command: a check refuses it, or every fact that it names is fresh. -/
theorem staleFailsClosed_iff {db : Db} {command : ActionCommand} {v : ℤ} {t : Time} :
    StaleFailsClosed db command v t ↔ db.Refuses command v ∨ db.NamesFresh command t := by
  constructor
  · intro hclosed
    by_contra hnot
    obtain ⟨hrefuses, hstale⟩ := not_or.1 hnot
    unfold Db.Refuses at hrefuses
    simp only [not_or, not_not, not_forall] at hrefuses
    obtain ⟨hkey, hc, hf, c, hcase, hv⟩ := hrefuses
    obtain ⟨ids, hfresh, hid⟩ := Txn.exists_fresh db
    have hnew := @inserts_of_accepts _ World.isolated (fun _ => ⟨ids, 0, ()⟩) command v
      (0, ⟨db, t, ()⟩) (fun _ => rfl) hkey hc hf ⟨c, hcase, hv⟩ ids (fun _ => rfl) hfresh hid
    exact hstale (hclosed _ World.isolated _ ⟨db, t, ()⟩ (newAction command (ids 0) t) rfl hid
      hnew rfl)
  · rintro (hrefuses | hfresh) X W choices s a rfl hnone hsome ht
    · rw [alone_of_refuses hrefuses, hnone] at hsome
      cases hsome
    · exact hfresh

namespace Json

theorem exists_pyEqList {ys : List Json} (h : ∀ y ∈ ys, ∃ x : Json, x.pyEq y = true) :
    ∃ xs, pyEqList xs ys = true := by
  induction ys with
  | nil => exact ⟨[], rfl⟩
  | cons y ys ih =>
    obtain ⟨x, hx⟩ := h y List.mem_cons_self
    obtain ⟨xs, hxs⟩ := ih fun y' hy' => h y' (List.mem_cons_of_mem _ hy')
    exact ⟨x :: xs, by rw [pyEqList, hx, hxs]; rfl⟩

theorem exists_pyEqFields {ys : Fields} (h : ∀ kv ∈ ys, ∃ x : Json, x.pyEq kv.2 = true) :
    ∃ xs : Fields, xs.length = ys.length ∧ pyEqFields xs ys = true := by
  have hread : ∀ kv : String × Json, ∃ x : Json, kv ∈ ys →
      ∃ w, ys.lookup kv.1 = some w ∧ x.pyEq w = true := by
    intro kv
    cases hw : ys.lookup kv.1 with
    | none =>
      refine ⟨.null, fun hmem => ?_⟩
      have hne := List.lookup_eq_none_iff.1 hw kv hmem
      simp at hne
    | some w =>
      obtain ⟨x, hx⟩ := h (kv.1, w) (Fields.mem_of_get? hw)
      exact ⟨x, fun _ => ⟨w, rfl, hx⟩⟩
  choose f hf using hread
  refine ⟨ys.map fun kv => (kv.1, f kv), List.length_map _, pyEqFields_iff.2 fun kv hkv => ?_⟩
  obtain ⟨kv, hmem, rfl⟩ := List.mem_map.1 hkv
  exact hf kv hmem

/-- There is a value that `==` takes for `v`, whatever its dicts look like. -/
theorem exists_pyEq (v : Json) : ∃ x : Json, x.pyEq v = true := by
  induction hn : sizeOf v using Nat.strong_induction_on generalizing v with
  | _ n ih =>
    subst hn
    cases v with
    | list ys =>
      have hxs : ∀ y ∈ ys, ∃ x : Json, x.pyEq y = true := by
        intro y hy
        refine ih (sizeOf y) ?_ y rfl
        rw [list.sizeOf_spec]
        have hlt := List.sizeOf_lt_of_mem hy
        omega
      obtain ⟨xs, hxs⟩ := exists_pyEqList hxs
      exact ⟨.list xs, by rw [pyEq, hxs]⟩
    | dict ys =>
      have hxs : ∀ kv ∈ ys, ∃ x : Json, x.pyEq kv.2 = true := by
        intro kv hkv
        refine ih (sizeOf kv.2) ?_ kv.2 rfl
        rw [dict.sizeOf_spec]
        have hlt := List.sizeOf_lt_of_mem hkv
        rw [Prod.mk.sizeOf_spec] at hlt
        omega
      obtain ⟨xs, hlength, hxs⟩ := exists_pyEqFields hxs
      exact ⟨.dict xs, by rw [pyEq, hxs, hlength]; simp⟩
    | _ => exact ⟨_, pyEq_self rfl⟩

end Json

/-- A key that no action of the store has. -/
theorem Db.exists_free_key (db : Db) : ∃ key : String, 4 ≤ key.length ∧
    db.actionByKey? key = none := by
  obtain ⟨n, hn⟩ := Txn.exists_longer (db.actions.rows.map (·.command.idempotencyKey))
  have hlength : 4 ≤ ("note" ++ String.ofList (List.replicate n 'a')).length := by
    rw [String.length_append]
    exact Nat.le_add_right 4 _
  refine ⟨_, hlength, Table.get?_eq_none.2 fun a ha heq => ?_⟩
  exact hn n le_rfl "note" (heq ▸ List.mem_map_of_mem ha)

/-- A fact of a case at version `v` can back the note of a command that no check refuses. -/
theorem Db.exists_accepted {db : Db} {caseId name : String} {c : CaseRecord} {fact : FactRecord}
    (hcase : db.case? caseId = some c) (hfact : db.current? caseId name = some fact) :
    ∃ command : ActionCommand, command.caseId = caseId ∧
      ("note", name) ∈ command.parameterFactRefs ∧ ¬ db.Refuses command c.version := by
  obtain ⟨key, hkey, hfree⟩ := db.exists_free_key
  obtain ⟨x, hx⟩ := Json.exists_pyEq fact.value
  refine ⟨{ action := "add_case_note", caseId, policyPackageId := "", actorId := ""
            idempotencyKey := key, parameters := [("note", x)]
            parameterFactRefs := [("note", name)]
            requiredFactAuthority := [("note", .asserted)], keyMin := hkey }, rfl, by simp, ?_⟩
  rintro (hbound | hcheck | hverify | hversion)
  · exact hbound hfree
  · exact hcheck rfl
  · have hrank : ¬ fact.authority.rank < FactAuthority.asserted.rank := Nat.not_lt_zero _
    apply hverify
    simp [Db.verifies, hfact, CaseKernel.checkFact, Fields.get?, hrank, hx]
    rfl
  · exact hversion c hcase rfl

/-- The account was verified until a time that is over. -/
def expiredStore : Db :=
  (history Engine.isolated World.isolated authorizationCalls emptyState
    (caseWithFact { accountFact with expiresAt := some 5 })).state.db

end WorkflowEngine
