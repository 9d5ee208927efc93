import WorkflowEngine.Sanity.Footprint
import WorkflowEngine.Sanity.History

/-! The insertion of an action as the moment of authorization. What a task read
before, one transaction at a time, still holds there when the compare-and-set on
the version of the case succeeds, since every writer of facts bumps the version. -/

namespace WorkflowEngine

open Interleave Engine Relational SQLiteCoreStore

variable {X : Sig} {W : World X}

/-- The case is there at exactly this version. -/
def AtVersion (db : Db) (caseId : String) (v : ℤ) : Prop :=
  ∃ c, db.case? caseId = some c ∧ c.version = v

/-- The case has had this version. -/
def Reached (db : Db) (caseId : String) (v : ℤ) : Prop :=
  ∃ c, db.case? caseId = some c ∧ v ≤ c.version

/-- A current fact backs the parameter, with the required authority. An absent parameter
reads as null. -/
def Backed (db : Db) (command : ActionCommand) (ref : String × String) : Prop :=
  ∃ fact required, db.fact? command.caseId ref.2 = some fact ∧ fact.supersededAt = none ∧
    ((command.parameters.get? ref.1).getD .null).pyEq fact.value = true ∧
    command.requiredFactAuthority.lookup ref.1 = some required ∧
    required.rank ≤ fact.authority.rank

section
variable {db db' : Db} {caseId : String} {v : ℤ}

theorem Reached.mono (hp : db.Pinned db') (h : Reached db caseId v) : Reached db' caseId v := by
  obtain ⟨c, hc, hv⟩ := h
  obtain ⟨d, hd, hcd, -⟩ := hp caseId c hc
  exact ⟨d, hd, hv.trans hcd.version⟩

theorem Reached.of_read {c : CaseRecord} (h : db.case? caseId = some c) :
    Reached db caseId c.version := ⟨c, h, le_rfl⟩

/-- A case that still has a version has had it all along since then, with the same facts. -/
theorem Reached.unchanged (h : Reached db caseId v) (hp : db.Pinned db')
    (ha : AtVersion db' caseId v) :
    AtVersion db caseId v ∧ ∀ name, db'.fact? caseId name = db.fact? caseId name := by
  obtain ⟨c, hc, hv⟩ := h
  obtain ⟨d, hd, hdv⟩ := ha
  obtain ⟨d', hd', hcd, hpin⟩ := hp caseId c hc
  have hdd : d' = d := Option.some.inj (hd'.symm.trans hd)
  subst hdd
  have hle := hcd.version
  exact ⟨⟨c, hc, by omega⟩, hpin (by omega)⟩

theorem Backed.pinned {command : ActionCommand} {ref : String × String} (hb : Backed db command ref)
    (h : Reached db command.caseId v) (hp : db.Pinned db') (ha : AtVersion db' command.caseId v) :
    Backed db' command ref := by
  obtain ⟨fact, required, hf, hrest⟩ := hb
  exact ⟨fact, required, ((h.unchanged hp ha).2 _).trans hf, hrest⟩

end

/-- An insertion is admissible when `J` holds, should the compare-and-set succeed; nothing
else is asked of anyone. -/
def insertLogic (engine : Engine X) (W : World X) (admits : Admission X W)
    (J : ℕ → ActionRecord → Log W → Prop) : Logic (engine.system W admits) where
  Inv h := ∀ τ id c, (⟨τ, Op.tx (.getCase id), some c⟩ : Entry (sig X)) ∈ h.trace →
    Reached h.state.db id c.version
  Rely h h' := h.state.db.Pinned h'.state.db ∧ h.trace <+: h'.trace ∧ h.calls <+: h'.calls
  Pre τ o h := ∀ record v, o = .tx (.insertAction record v) →
    AtVersion h.state.db record.command.caseId v → J τ record h

section
variable {engine : Engine X} {admits : Admission X W} {J : ℕ → ActionRecord → Log W → Prop}
  {τ : ℕ} {h : Log W}

theorem pinned_after (h : Log W) (τ : ℕ) (o : Op X) (e : EngineChoice W) :
    h.state.db.Pinned ((engine.system W admits).after h τ o e).state.db := by
  cases o with
  | tx o => exact pinned_effect (Tx.effect h.state.clock e.ids h.state.db o)
  | _ => exact .refl _

theorem insertLogic_stepwise : (insertLogic engine W admits J).Stepwise where
  refl _ := ⟨.refl _, List.prefix_refl _, List.prefix_refl _⟩
  trans _ _ _ h1 h2 := ⟨h1.1.trans h2.1, h1.2.1.trans h2.2.1, h1.2.2.trans h2.2.2⟩
  step τ o e h hi hp := by
    have hpin : h.state.db.Pinned ((engine.system W admits).after h τ o e).state.db :=
      pinned_after h τ o e
    refine ⟨fun τ' id c hc => ?_, hpin, List.prefix_append _ _, List.prefix_refl _⟩
    rcases List.mem_append.1 hc with hc | hc
    · exact (hi τ' id c hc).mono hpin
    · injection List.mem_singleton.1 hc with _ ho hr
      subst ho
      have hread : h.state.db.case? id = some c := (eq_of_heq hr).symm
      exact (Reached.of_read hread).mono hpin

theorem insertLogic_sound
    (hbody : ∀ h call, (insertLogic engine W admits J).Inv h → admits h call = true →
      (insertLogic engine W admits J).wp h.calls.length (engine.body call) (fun _ _ => True)
        ((engine.system W admits).spawned h call)) :
    (insertLogic engine W admits J).Sound where
  toStepwise := insertLogic_stepwise
  spawn _ _ hi _ := ⟨hi, .refl _, List.prefix_refl _, List.prefix_append _ _⟩
  crash _ _ hi := ⟨hi, .refl _, List.prefix_refl _, List.prefix_refl _⟩
  drift _ _ hi := ⟨hi, .refl _, List.prefix_refl _, List.prefix_refl _⟩
  body h call hi ha _ := hbody h call hi ha

/-- A task whose call `J` does not speak of may do what it likes. -/
theorem wp_unconcerned {α : Type} {call : Call X}
    (hJ : ∀ h record, h.calls[τ]? = some call → J τ record h) (p : Task X α)
    (hc : h.calls[τ]? = some call) :
    (insertLogic engine W admits J).wp τ p (fun _ _ => True) h := by
  refine Logic.wp_mono (fun _ _ _ => trivial) (Logic.wp_frame
    (J := fun h : Log W => h.calls[τ]? = some call) p.issues_true
    (fun h h' hc _ hq => getElem?_of_extends hq.calls hc)
    (fun h o hc _ _ => ⟨fun record _ _ _ => hJ h record hc, fun _ => hc⟩) hc)

theorem calls_spawned (h : Log W) (call : Call X) :
    ((engine.system W admits).spawned h call).calls[h.calls.length]? = some call := by
  simp [System.spawned]

def Op.noInsert (o : Op X) : Prop := ∀ record v, o ≠ .tx (.insertAction record v)

/-- A program that inserts no action needs no justification. -/
theorem wp_noInsert {α : Type} {p : Task X α} (hp : p.Issues Op.noInsert) :
    (insertLogic engine W admits J).wp τ p (fun _ _ => True) h :=
  Logic.wp_frame (J := fun _ => True) hp (fun _ _ _ _ _ => trivial)
    (fun _ _ _ _ ho => ⟨fun record v he _ => absurd he (ho record v), fun _ => trivial⟩) trivial

/-- A read has no precondition and leaves the database alone. -/
theorem wp_read {o : Tx} (ho : ∀ record v, o ≠ .insertAction record v) :
    (insertLogic engine W admits J).wp τ (Task.tx o)
      (fun r h' => ∃ h1 e, (insertLogic engine W admits J).Rely h h1 ∧
        r = .ok (o.exec h1.state.clock e.ids h1.state.db).1 ∧
        h' = (engine.system W admits).after h1 τ (.tx o) e) h := by
  intro h1 hr _ _
  refine ⟨fun record v he _ => ?_, fun e => ⟨h1, e, hr, rfl, rfl⟩⟩
  injection he with he
  exact absurd he (ho record v)

/-- What the check of one fact has established when it passes. -/
theorem backed_of_checkFact {db : Db} {command : ActionCommand} {parameter name : String}
    (hok : CaseKernel.checkFact command parameter name
      ((db.fact? command.caseId name).filter (·.supersededAt.isNone)) = .ok ()) :
    Backed db command (parameter, name) := by
  cases hf : (db.fact? command.caseId name).filter (·.supersededAt.isNone) with
  | none =>
    rw [hf] at hok
    cases hok
  | some fact =>
    obtain ⟨hfact, hcur⟩ := Option.filter_eq_some_iff.1 hf
    rw [hf] at hok
    unfold CaseKernel.checkFact at hok
    cases hreq : command.requiredFactAuthority.lookup parameter with
    | none =>
      simp only [hreq] at hok
      cases hok
    | some required =>
      simp only [hreq] at hok
      by_cases hrank : fact.authority.rank < required.rank
      · simp only [hrank, if_true] at hok
        cases hok
      · by_cases heq : ((command.parameters.get? parameter).getD .null).pyEq fact.value = true
        · exact ⟨fact, required, hfact, by simpa using hcur, heq, hreq, by omega⟩
        · simp [hrank, heq] at hok

/-- After the loop every fact that was read backs its parameter, whenever the case is at the
version that was read before the loop. -/
theorem wp_verifyFacts {command : ActionCommand} {v : ℤ} (done : List (String × String))
    (refs : List (String × String)) (hv : Reached h.state.db command.caseId v)
    (hdone : AtVersion h.state.db command.caseId v → ∀ ref ∈ done, Backed h.state.db command ref) :
    (insertLogic engine W admits J).wp τ (CaseKernel.verifyFacts command refs)
      (fun r h' => r = .ok () → AtVersion h'.state.db command.caseId v →
        ∀ ref ∈ done ++ refs, Backed h'.state.db command ref) h := by
  have hL : (insertLogic engine W admits J).Stepwise := insertLogic_stepwise
  induction refs generalizing h done with
  | nil =>
    intro _ ha
    simpa using hdone ha
  | cons ref refs ih =>
    obtain ⟨parameter, name⟩ := ref
    refine hL.wp_seq (wp_read fun _ _ he => by cases he) (fun fact h' hr' hread => ?_)
      fun _ _ _ _ he => by cases he
    obtain ⟨h1, e, hr1, hres, rfl⟩ := hread
    cases hres
    change (insertLogic engine W admits J).wp τ ((Prog.ofExcept (CaseKernel.checkFact command
      parameter name ((h1.state.db.fact? command.caseId name).filter
        (·.supersededAt.isNone)))).bind fun _ => CaseKernel.verifyFacts command refs) _ _
    cases hok : CaseKernel.checkFact command parameter name
        ((h1.state.db.fact? command.caseId name).filter (·.supersededAt.isNone)) with
    | error exc => exact fun he => by cases he
    | ok u =>
      have hnew := backed_of_checkFact hok
      have hrec :=
        ih (h := (engine.system W admits).after h1 τ (.tx (.getFact command.caseId name)) e)
        (done ++ [(parameter, name)]) (hv.mono hr1.1) fun ha ref hmem => ?_
      · simpa using hrec
      · rcases List.mem_append.1 hmem with hmem | hmem
        · exact (hdone (hv.unchanged hr1.1 ha).1 ref hmem).pinned hv hr1.1 ha
        · rw [List.mem_singleton.1 hmem]
          exact hnew

theorem wp_insertAction_at {record : ActionRecord} {v : ℤ}
    (hJ : ∀ h', (insertLogic engine W admits J).Rely h h' →
      AtVersion h'.state.db record.command.caseId v → J τ record h') :
    (insertLogic engine W admits J).wp τ (SQLiteCoreStore.insertAction record v)
      (fun _ _ => True) h := by
  intro h1 hr _ _
  refine ⟨fun record' v' he hat => ?_, fun e => ?_⟩
  · injection he with he
    injection he with hrecord hv
    subst hrecord hv
    exact hJ h1 hr hat
  · exact wp_noInsert (Prog.issues_bind (Prog.issues_ofExcept _) fun _ => trivial)

/-- `authorize_action` with a version that the case has had: `J` must follow from what the
checks established, at any later moment at which the case still has that version. -/
theorem wp_authorizeAction_read {command : ActionCommand} {v : ℤ}
    (hv : Reached h.state.db command.caseId v)
    (hJ : ∀ h' record, (insertLogic engine W admits J).Rely h h' → record.command = command →
      CaseKernel.checkCommand command = .ok () →
      (∀ ref ∈ command.parameterFactRefs, Backed h'.state.db command ref) → J τ record h') :
    (insertLogic engine W admits J).wp τ (CaseKernel.authorizeAction command v)
      (fun _ _ => True) h := by
  have hL : (insertLogic engine W admits J).Stepwise := insertLogic_stepwise
  refine hL.wp_seq (wp_noInsert ((Prog.issues_perform _).2 fun _ _ he => by cases he))
    (fun (found : Option ActionRecord) h1 hr1 _ => ?_) fun _ _ _ _ => trivial
  cases found with
  | some duplicate => exact wp_noInsert (by dsimp only; split_ifs <;> trivial)
  | none =>
    refine hL.wp_seq (R := fun r _ => r = CaseKernel.checkCommand command)
      (Logic.wp_ofExcept.2 rfl) (fun u h2 hr2 hcheck => ?_) fun _ _ _ _ => trivial
    have hv2 := (hv.mono hr1.1).mono hr2.1
    refine hL.wp_seq (wp_verifyFacts [] _ hv2 fun _ _ hm => by cases hm)
      (fun _ h3 hr3 hfacts => ?_) fun _ _ _ _ => trivial
    refine hL.wp_seq (wp_noInsert ((Prog.issues_perform _).2 fun _ _ he => by cases he))
      (fun now h4 hr4 _ => ?_) fun _ _ _ _ => trivial
    refine hL.wp_seq (wp_noInsert ((Prog.issues_perform _).2 fun _ _ he => by cases he))
      (fun hex h5 hr5 _ => ?_) fun _ _ _ _ => trivial
    refine wp_insertAction_at fun h6 hr6 hat => ?_
    have hr36 := hL.trans _ _ _ hr4 (hL.trans _ _ _ hr5 hr6)
    have hr26 := hL.trans _ _ _ hr1 (hL.trans _ _ _ hr2 (hL.trans _ _ _ hr3 hr36))
    refine hJ h6 _ hr26 rfl hcheck.symm fun ref href => ?_
    have hv3 := hv2.mono hr3.1
    exact (hfacts rfl (hv3.unchanged hr36.1 hat).1 ref href).pinned hv3 hr36.1 hat

/-- An action that a task puts into the store was justified, in the state just before. -/
theorem justified_of_appeared (hL : (insertLogic engine W admits J).Sound) {s : EngineState W}
    {acts : List (engine.system W admits).Move} {τ : ℕ} {e : EngineChoice W} {id : String}
    {a : ActionRecord}
    (hnone : (engine.history W admits s acts).state.db.action? id = none)
    (hsome : (engine.history W admits s (acts ++ [.run τ e])).state.db.action? id = some a) :
    ∃ record, a = { record with outcome := none } ∧
      J τ record (engine.history W admits s acts) := by
  have hgood := hL.good_run (s := s) (fun _ _ _ hm => by cases hm) acts
  simp only [history, System.run_snoc] at hnone hsome ⊢
  rcases System.next_cases ((engine.system W admits).run ((engine.system W admits).init s) acts)
      (.run τ e) with hn | ⟨_, ha, _⟩ | ⟨τ', e', o, k, ha, hready, hn⟩ | ⟨_, ha, _⟩ | ⟨_, ha, _⟩
  · rw [hn, hnone] at hsome
    cases hsome
  · cases ha
  · cases ha
    rw [hn] at hsome
    cases o with
    | tx o =>
      obtain ⟨record, v, rfl, hins, rfl⟩ := (Tx.effect _ e.ids _ o).appeared hnone hsome
      exact ⟨record, rfl, hgood.pre hL hready record v rfl hins.found⟩
    | _ =>
      rw [Db.action?] at hnone
      exact absurd (hnone.symm.trans hsome) (by simp)
  · cases ha
  · cases ha

end

/-- The entry read the case at this version. -/
def readsVersion (caseId : String) (v : ℤ) (x : Entry (sig X)) : Bool :=
  match x with
  | ⟨_, .tx (.getCase id), some c⟩ => decide (id = caseId ∧ c.version = v)
  | _ => false

/-- Any transactions, and authorizations with a version that was read before the call. -/
def authorizationCalls : Admission X W
  | h, .authorizeAction command v => h.trace.any (readsVersion command.caseId v)
  | _, .transaction _ => true
  | _, _ => false

/-- The task authorizes this command, and every reference of it is backed by a current fact. -/
def FactsCurrent (τ : ℕ) (record : ActionRecord) (h : Log W) : Prop :=
  ∀ command v, h.calls[τ]? = some (.authorizeAction command v) →
    record.command = command ∧ ∀ ref ∈ command.parameterFactRefs, Backed h.state.db command ref

theorem factsCurrent_sound (engine : Engine X) (W : World X) :
    (insertLogic engine W authorizationCalls FactsCurrent).Sound := by
  refine insertLogic_sound fun h call hi ha => ?_
  have hc : ((engine.system W authorizationCalls).spawned h call).calls[h.calls.length]? =
      some call := calls_spawned h call
  cases call with
  | authorizeAction command v =>
    obtain ⟨x, hx, hread⟩ := List.any_eq_true.1 ha
    have hv : Reached h.state.db command.caseId v := by
      unfold readsVersion at hread
      split at hread
      · obtain ⟨rfl, rfl⟩ := of_decide_eq_true hread
        exact hi _ _ _ hx
      · cases hread
    refine insertLogic_stepwise.wp_seq (wp_authorizeAction_read hv
      fun h' record hr hrecord _ hfacts command' v' hc' => ?_) (fun _ _ _ _ => trivial)
      fun _ _ _ _ => trivial
    have hcc := (getElem?_of_extends hr.2.2 hc).symm.trans hc'
    injection hcc with hcc
    injection hcc with hcommand hv'
    subst hcommand
    exact ⟨hrecord, hfacts⟩
  | transaction o =>
    refine wp_unconcerned (fun h' record hc' command v hc'' => ?_) _ hc
    rw [hc'] at hc''
    cases hc''
  | _ => cases ha

/-- In every run: when a call of `authorize_action`, whose version was read from the case
before the call, puts a new action into the store, then just before that step every fact
reference has a current fact in the case, with the value that the parameter reads as (null
when it is absent) and at least the required authority. -/
theorem facts_current_at_authorization (engine : Engine X) (W : World X) (s : EngineState W)
    (before between : List (engine.system W authorizationCalls).Move) (command : ActionCommand)
    (v : ℤ) (e : EngineChoice W) (id : String) (a : ActionRecord)
    (hread : (engine.history W authorizationCalls s before).trace.any
      (readsVersion command.caseId v) = true)
    (hnone : (engine.history W authorizationCalls s
      (before ++ .spawn (.authorizeAction command v) :: between)).state.db.action? id = none)
    (hnew : (engine.history W authorizationCalls s
      (before ++ .spawn (.authorizeAction command v) :: between ++
        [.run (engine.history W authorizationCalls s before).calls.length e])).state.db.action? id =
      some a) :
    a.command = command ∧ ∀ parameter factName, (parameter, factName) ∈ command.parameterFactRefs →
      ∃ fact required, (engine.history W authorizationCalls s
          (before ++ .spawn (.authorizeAction command v) :: between)).state.db.fact?
            command.caseId factName = some fact ∧ fact.supersededAt = none ∧
        ((command.parameters.get? parameter).getD .null).pyEq fact.value = true ∧
        command.requiredFactAuthority.lookup parameter = some required ∧
        required.rank ≤ fact.authority.rank := by
  obtain ⟨record, rfl, hJ⟩ := justified_of_appeared (factsCurrent_sound engine W) hnone hnew
  have hcall : (engine.history W authorizationCalls s
      (before ++ .spawn (.authorizeAction command v) :: between)).calls[
        (engine.history W authorizationCalls s before).calls.length]? =
        some (.authorizeAction command v) := by
    simp only [history, System.run_append]
    exact System.call_of_spawn hread between
  obtain ⟨hrecord, hfacts⟩ := hJ command v hcall
  exact ⟨hrecord, fun parameter factName href => hfacts (parameter, factName) href⟩

/-- A case is created, a fact is committed, and the case is read at version 1. -/
def caseWithFact (fact : FactProposal) :
    List (Engine.isolated.system World.isolated authorizationCalls).Move := [
  .spawn (.transaction (.createCase ⟨"C-1", "U-1", "proc", "1", "active", 0⟩)),
  .run 0 ⟨toString, 0, ()⟩, .spawn (.transaction (.appendFact "C-1" fact 0)),
  .run 1 ⟨toString, 0, ()⟩, .spawn (.transaction (.getCase "C-1")), .run 2 ⟨toString, 0, ()⟩]

/-- The steps of `authorize_action` for one reference, up to its insertion. -/
def authorizationSteps : List (Engine.isolated.system World.isolated authorizationCalls).Move :=
  List.replicate 4 (.run 3 ⟨toString, 0, ()⟩)

def emptyState : EngineState World.isolated := ⟨.empty, 0, ()⟩

def firstAction (command : ActionCommand) : ActionRecord where
  actionId := "ACT-0"
  command := command
  status := .authorized
  createdAt := 0
  updatedAt := 0

def accountFact : FactProposal where
  name := "flag_account.account_id"
  value := .str "A-1"
  authority := .verified
  source := "authoritative_resource_adapter"
  evidenceRef := "sandbox:account:A-1:v1"

def flagCommand : ActionCommand where
  action := "flag_account"
  caseId := "C-1"
  policyPackageId := "P-1"
  actorId := "agent"
  idempotencyKey := "key-1"
  parameters := [("account_id", .str "A-1"), ("reason", .str "r"), ("restriction", .str "freeze")]
  parameterFactRefs := [("account_id", "flag_account.account_id")]
  requiredFactAuthority := [("account_id", .verified)]
  approvalEvidenceRef := some "approval-1"
  keyMin := keyMin_one

theorem facts_current_at_authorization_flag :
    ∃ fact, (Engine.isolated.history World.isolated authorizationCalls emptyState
        (caseWithFact accountFact ++ .spawn (.authorizeAction flagCommand 1) ::
          authorizationSteps)).state.db.fact? "C-1" "flag_account.account_id" = some fact ∧
      (Json.str "A-1").pyEq fact.value = true := by
  obtain ⟨-, h⟩ := facts_current_at_authorization Engine.isolated World.isolated emptyState
    (caseWithFact accountFact) authorizationSteps flagCommand 1 ⟨toString, 0, ()⟩ "ACT-0"
    (firstAction flagCommand) (by decide +kernel) (by decide +kernel) (by decide +kernel)
  obtain ⟨fact, required, hf, -, hv, -⟩ := h "account_id" "flag_account.account_id" (by decide)
  exact ⟨fact, hf, hv⟩

/-- A command that refers to a fact for a parameter it does not have. -/
def ghostCommand : ActionCommand where
  action := "add_case_note"
  caseId := "C-1"
  policyPackageId := "P-1"
  actorId := "agent"
  idempotencyKey := "key-1"
  parameters := [("note", .str "n")]
  parameterFactRefs := [("ghost", "ghost_fact")]
  requiredFactAuthority := [("ghost", .asserted)]
  keyMin := keyMin_one

def nullFact : FactProposal where
  name := "ghost_fact"
  value := .null
  authority := .asserted
  source := "customer"
  evidenceRef := "message-1"

/-- The parameter of a reference need not be present: a null fact backs an absent one. -/
theorem fact_may_back_absent_parameter :
    ¬ ∀ (before between : List (Engine.isolated.system World.isolated authorizationCalls).Move)
      (command : ActionCommand) (v : ℤ) (e : EngineChoice World.isolated) (id : String)
      (a : ActionRecord),
      (Engine.isolated.history World.isolated authorizationCalls emptyState before).trace.any
        (readsVersion command.caseId v) = true →
      (Engine.isolated.history World.isolated authorizationCalls emptyState
        (before ++ .spawn (.authorizeAction command v) :: between)).state.db.action? id = none →
      (Engine.isolated.history World.isolated authorizationCalls emptyState
        (before ++ .spawn (.authorizeAction command v) :: between ++
          [.run (Engine.isolated.history World.isolated authorizationCalls emptyState
            before).calls.length e])).state.db.action? id = some a →
      ∀ parameter factName, (parameter, factName) ∈ command.parameterFactRefs →
        ∃ fact value, (Engine.isolated.history World.isolated authorizationCalls emptyState
          (before ++ .spawn (.authorizeAction command v) :: between)).state.db.fact?
            command.caseId factName = some fact ∧
          command.parameters.get? parameter = some value ∧ value.pyEq fact.value = true := by
  intro h
  obtain ⟨fact, value, -, hv, -⟩ := h (caseWithFact nullFact) authorizationSteps ghostCommand 1
    ⟨toString, 0, ()⟩ "ACT-0" (firstAction ghostCommand) (by decide +kernel) (by decide +kernel)
    (by decide +kernel) "ghost" "ghost_fact" (by decide)
  have habsent : ghostCommand.parameters.get? "ghost" = none := by decide +kernel
  rw [habsent] at hv
  cases hv

end WorkflowEngine
