import WorkflowEngine.Fallible.Loops
import WorkflowEngine.Interleave.Trail
import WorkflowEngine.Sanity.Footprint
import WorkflowEngine.Sanity.Transactions

/-! Programs of the engine that are executed alone. A step that only reads passes the time, and
an insertion is made once the store has what it asks for and the identifiers are fresh. -/

namespace WorkflowEngine

open Interleave Engine Relational SQLiteCoreStore

namespace Engine

variable {X : Sig} {W : World X} {choices : ℕ → EngineChoice W}

/-- The state after a step that only reads. -/
def passed (choices : ℕ → EngineChoice W) (s : ℕ × EngineState W) : ℕ × EngineState W :=
  (s.1 + 1, { s.2 with clock := s.2.clock + (choices s.1).elapsed })

theorem passed_iterate (choices : ℕ → EngineChoice W) (k : ℕ) (s : ℕ × EngineState W) :
    ((passed choices)^[k] s).2.db = s.2.db ∧ ((passed choices)^[k] s).2.ext = s.2.ext := by
  induction k generalizing s with
  | zero => exact ⟨rfl, rfl⟩
  | succ k ih => exact ih (passed choices s)

/-- Nothing changes while no time passes. -/
theorem passed_timeless (h : ∀ n, (choices n).elapsed = 0) (k : ℕ) (s : ℕ × EngineState W) :
    ((passed choices)^[k] s).2 = s.2 := by
  induction k generalizing s with
  | zero => rfl
  | succ k ih =>
    refine (ih (passed choices s)).trans ?_
    simp [passed, h]

end Engine

namespace Txn

variable {db : Db}

theorem bumpVersion_ok {caseId : String} {v : ℤ}
    (h : ∃ c, db.case? caseId = some c ∧ c.version = v) :
    ∃ t, bumpVersion caseId v db = .ok (1, { db with cases := t }) := by
  obtain ⟨c, hc, hv⟩ := h
  have hcount := (Table.count_eq_one (t := db.cases) (i := ())
    (q := fun c => decide (c.version = v))).2 ⟨c, hc, decide_eq_true hv⟩
  have hbump : bumpVersion caseId v db = .ok (db.cases.count fun c =>
      decide (c.caseId = caseId) && decide (c.version = v), _) := rfl
  rw [hcount] at hbump
  exact ⟨_, hbump⟩

theorem insert?_of_get? {ι κ α : Type} {col : ι → α → κ} [DecidableEq κ] [Fintype ι]
    {t : Table ι κ col} {a : α} (h : ∀ i, t.get? i (col i a) = none) :
    ∃ t', t.insert? a = some t' := by
  refine Option.ne_none_iff_exists'.1 fun hnone => ?_
  obtain ⟨i, b, hb⟩ := Table.insert?_eq_none.1 hnone
  rw [h i] at hb
  cases hb

/-- The identifiers that an insertion of an action takes are free. -/
structure Fresh (ids : ℕ → String) (db : Db) : Prop where
  requested : ∀ e ∈ db.events.rows, e.eventId ≠ "AEV-" ++ ids 0
  authorized : ∀ e ∈ db.events.rows, e.eventId ≠ "AEV-" ++ ids 1
  apart : "AEV-" ++ ids 1 ≠ "AEV-" ++ ids 0
  outbox : db.outbox? ("OUT-" ++ ids 2) = none

theorem insertAction_ok {now : Time} {ids : ℕ → String} {record : ActionRecord} {v : ℤ}
    (hcase : ∃ c, db.case? record.command.caseId = some c ∧ c.version = v)
    (hid : db.action? record.actionId = none)
    (hkey : db.actionByKey? record.command.idempotencyKey = none) (hfresh : Fresh ids db) :
    ∃ db', (insertAction now ids record v).commit db = (.ok (), db') := by
  obtain ⟨tc, hbump⟩ := bumpVersion_ok hcase
  obtain ⟨ta, hta⟩ : ∃ t, db.actions.insert? { record with outcome := none } = some t :=
    insert?_of_get? fun i => by cases i <;> assumption
  obtain ⟨t1, ht1⟩ : ∃ t, db.events.insert?
      ⟨"AEV-" ++ ids 0, record.actionId, .requested, none, now⟩ = some t :=
    insert?_of_get? fun _ => Table.get?_eq_none.2 hfresh.requested
  obtain ⟨t2, ht2⟩ : ∃ t, t1.insert?
      ⟨"AEV-" ++ ids 1, record.actionId, .authorized, none, now⟩ = some t := by
    refine insert?_of_get? fun _ => ?_
    rw [Table.get?_insert? ht1, if_neg hfresh.apart]
    exact Table.get?_eq_none.2 hfresh.authorized
  obtain ⟨tb, htb⟩ : ∃ t, db.outbox.insert? (dispatchRow now ("OUT-" ++ ids 2) record.actionId) =
      some t := insert?_of_get? fun _ => hfresh.outbox
  refine ⟨{ db with cases := tc, actions := ta, events := t2, outbox := tb }, ?_⟩
  refine commit_eq_ok.2 ?_
  unfold insertAction
  refine bind_eq_ok.2 ⟨1, _, hbump, ?_⟩
  refine check_eq_ok.2 ⟨fun h => h rfl, ?_⟩
  refine bind_eq_ok.2 ⟨(), _, insertActionRow_eq_ok.2 ⟨ta, hta, rfl⟩, ?_⟩
  refine bind_eq_ok.2 ⟨(), _, insertEvent_eq_ok.2 ⟨t1, ht1, rfl⟩, ?_⟩
  refine bind_eq_ok.2 ⟨(), _, insertEvent_eq_ok.2 ⟨t2, ht2, rfl⟩, ?_⟩
  exact insertOutbox_eq_ok.2 ⟨tb, htb, rfl⟩

/-- A list of strings has an identifier that is longer than each of them, whatever stands before
it. -/
theorem exists_longer (names : List String) : ∃ n : ℕ, ∀ m, n ≤ m → ∀ (pre : String),
    pre ++ String.ofList (List.replicate m 'a') ∉ names := by
  induction names with
  | nil => exact ⟨0, fun _ _ _ => List.not_mem_nil⟩
  | cons name names ih =>
    obtain ⟨n, hn⟩ := ih
    refine ⟨max n (name.length + 1), fun m hm pre hmem => ?_⟩
    rcases List.mem_cons.1 hmem with rfl | hmem
    · rw [String.length_append, String.length_ofList, List.length_replicate] at hm
      omega
    · exact hn m (by omega) pre hmem

/-- Identifiers that no row of the store has. -/
theorem exists_fresh (db : Db) : ∃ ids : ℕ → String, Fresh ids db ∧
    db.action? ("ACT-" ++ ids 0) = none := by
  obtain ⟨n, hn⟩ := exists_longer (db.actions.rows.map (·.actionId) ++
    db.events.rows.map (·.eventId) ++ db.outbox.rows.map (·.outboxId))
  simp only [List.mem_append, List.mem_map, not_or, not_exists, not_and] at hn
  refine ⟨fun i => String.ofList (List.replicate (n + i) 'a'), ⟨?_, ?_, ?_, ?_⟩, ?_⟩
  · exact (hn _ (by omega) _).1.2
  · exact (hn _ (by omega) _).1.2
  · intro h
    have hlength := congrArg String.length h
    simp only [String.length_append, String.length_ofList, List.length_replicate] at hlength
    omega
  · exact Table.get?_eq_none.2 (hn _ (by omega) _).2
  · exact Table.get?_eq_none.2 (hn _ (by omega) _).1.1

end Txn

/-- What `get_fact` reads. -/
def Db.current? (db : Db) (caseId name : String) : Option FactRecord :=
  (db.fact? caseId name).filter (·.supersededAt.isNone)

/-- The checks of `authorize_action` on the facts of a store. -/
def Db.verifies (db : Db) (command : ActionCommand) (refs : List (String × String)) :
    Except PyErr Unit :=
  refs.forM fun ref => CaseKernel.checkFact command ref.1 ref.2 (db.current? command.caseId ref.2)

section
variable {X : Sig} {W : World X} {choices : ℕ → EngineChoice W}

theorem alone_verifyFacts (command : ActionCommand) (refs : List (String × String))
    (s : ℕ × EngineState W) : ∃ k,
    (CaseKernel.verifyFacts command refs).alone (execAlone W choices) s =
      (s.2.db.verifies command refs, (passed choices)^[k] s) := by
  induction refs generalizing s with
  | nil => exact ⟨0, rfl⟩
  | cons ref rest ih =>
    obtain ⟨k, ih⟩ := ih (passed choices s)
    change ∃ k, ((Prog.ofExcept (CaseKernel.checkFact command ref.1 ref.2
      (s.2.db.current? command.caseId ref.2))).bind fun _ =>
        CaseKernel.verifyFacts command rest).alone (execAlone W choices) (passed choices s) = _
    have hstep : s.2.db.verifies command (ref :: rest) = (CaseKernel.checkFact command ref.1 ref.2
        (s.2.db.current? command.caseId ref.2)).bind fun _ => s.2.db.verifies command rest := rfl
    rw [hstep]
    cases CaseKernel.checkFact command ref.1 ref.2 (s.2.db.current? command.caseId ref.2) with
    | error e => exact ⟨1, rfl⟩
    | ok u => exact ⟨k + 1, ih⟩

/-- The record of a command that passed every check. -/
def newAction (command : ActionCommand) (hex : String) (now : Time) : ActionRecord where
  actionId := "ACT-" ++ hex
  command := command
  status := .authorized
  createdAt := now
  updatedAt := now

theorem alone_insertAction (record : ActionRecord) (v : ℤ) (s : ℕ × EngineState W) :
    ((insertAction record v).alone (execAlone W choices) s).2.2.db =
      ((Txn.insertAction s.2.clock (choices s.1).ids record v).commit s.2.db).2 := by
  change (((Prog.ofExcept ((Txn.insertAction s.2.clock (choices s.1).ids record v).commit
    s.2.db).1).bind fun _ => .ret record).alone (execAlone W choices) _).2.2.db = _
  cases ((Txn.insertAction s.2.clock (choices s.1).ids record v).commit s.2.db).1 <;> rfl

/-- A command whose key is free comes to the insertion when it passes the checks, and stops
before it otherwise. -/
theorem alone_getActionByKey {α : Type} {key : String} {k : Option ActionRecord → Task X α}
    {s : ℕ × EngineState W} {r : Option ActionRecord} (h : s.2.db.actionByKey? key = r) :
    (Prog.call (Op.tx (.getActionByKey key)) k : Task X α).alone (execAlone W choices) s =
      (k r).alone (execAlone W choices) (passed choices s) :=
  Prog.alone_answer h

theorem alone_getCase {α : Type} {caseId : String} {k : Option CaseRecord → Task X α}
    {s : ℕ × EngineState W} {r : Option CaseRecord} (h : s.2.db.case? caseId = r) :
    (Prog.call (Op.tx (.getCase caseId)) k : Task X α).alone (execAlone W choices) s =
      (k r).alone (execAlone W choices) (passed choices s) :=
  Prog.alone_answer h

theorem alone_authorizeAction {command : ActionCommand} (v : ℤ) {s : ℕ × EngineState W}
    (hkey : s.2.db.actionByKey? command.idempotencyKey = none) :
    (∃ k, ((CaseKernel.authorizeAction command v).alone (execAlone W choices) s).2 =
        (passed choices)^[k] s ∧
      ¬ (CaseKernel.checkCommand command = .ok () ∧
        s.2.db.verifies command command.parameterFactRefs = .ok ())) ∨
    ∃ k, CaseKernel.checkCommand command = .ok () ∧
      s.2.db.verifies command command.parameterFactRefs = .ok () ∧
      (CaseKernel.authorizeAction command v).alone (execAlone W choices) s =
        (insertAction (newAction command ((choices ((passed choices)^[k + 1] s).1).ids 0)
          ((passed choices)^[k] s).2.clock) v).alone (execAlone W choices)
            ((passed choices)^[k + 2] s) := by
  have hstart : (CaseKernel.authorizeAction command v).alone (execAlone W choices) s =
      ((Prog.ofExcept (CaseKernel.checkCommand command)).bind fun _ =>
        (CaseKernel.verifyFacts command command.parameterFactRefs).bind fun _ =>
          Task.now.bind fun now => Task.uuid.bind fun hex =>
            insertAction (newAction command hex now) v).alone (execAlone W choices)
              (passed choices s) := by
    exact alone_getActionByKey hkey
  rw [hstart]
  cases hc : CaseKernel.checkCommand command with
  | error e => exact Or.inl ⟨1, rfl, fun h => by cases h.1⟩
  | ok u =>
    obtain ⟨k, hk⟩ := @alone_verifyFacts _ _ choices command command.parameterFactRefs
      (passed choices s)
    rw [Prog.ofExcept_ok, Prog.bind_ret, Prog.alone_bind, hk]
    have hdb : (passed choices s).2.db = s.2.db := rfl
    rw [hdb]
    cases hf : s.2.db.verifies command command.parameterFactRefs with
    | error e => exact Or.inl ⟨k + 1, rfl, fun h => by cases h.2⟩
    | ok u =>
      refine Or.inr ⟨k + 1, rfl, rfl, ?_⟩
      rw [Function.iterate_succ_apply' _ (k + 2), Function.iterate_succ_apply' _ (k + 1)]
      rfl

/-- A command that no check refuses is inserted, once its identifiers are free. -/
theorem inserts_of_accepts {command : ActionCommand} {v : ℤ} {s : ℕ × EngineState W}
    (htime : ∀ n, (choices n).elapsed = 0)
    (hkey : s.2.db.actionByKey? command.idempotencyKey = none)
    (hc : CaseKernel.checkCommand command = .ok ())
    (hf : s.2.db.verifies command command.parameterFactRefs = .ok ())
    (hcase : ∃ c, s.2.db.case? command.caseId = some c ∧ c.version = v) {ids : ℕ → String}
    (hids : ∀ n, (choices n).ids = ids) (hfresh : Txn.Fresh ids s.2.db)
    (hid : s.2.db.action? ("ACT-" ++ ids 0) = none) :
    ((CaseKernel.authorizeAction command v).alone (execAlone W choices) s).2.2.db.action?
      ("ACT-" ++ ids 0) = some (newAction command (ids 0) s.2.clock) := by
  rcases @alone_authorizeAction _ _ choices _ v s hkey with ⟨k, -, hnot⟩ | ⟨k, -, -, hk⟩
  · exact absurd ⟨hc, hf⟩ hnot
  · rw [passed_timeless htime, hids] at hk
    obtain ⟨db', hcommit⟩ : ∃ db', (Txn.insertAction s.2.clock ids
        (newAction command (ids 0) s.2.clock) v).commit s.2.db = (.ok (), db') :=
      Txn.insertAction_ok hcase hid hkey hfresh
    have hdb : ((CaseKernel.authorizeAction command v).alone (execAlone W choices) s).2.2.db =
        db' := by
      rw [hk, alone_insertAction, passed_timeless htime, hids]
      exact congrArg Prod.snd hcommit
    rw [hdb]
    exact (Table.get?_insert? (inserted_of_ok hcommit).action ..).trans (if_pos rfl)

/-- What stands outside does not touch the store. -/
theorem db_alone_ext {α : Type} (p : Prog X PyErr α) (s : ℕ × EngineState W) :
    ((Task.ext p).alone (execAlone W choices) s).2.2.db = s.2.db := by
  induction p generalizing s with
  | ret a => rfl
  | raise e => rfl
  | call o k ih => exact ih _ _

/-- Only the status of actions has moved, and their events. -/
structure OnlyMoved (db db' : Db) : Prop where
  frame : db' = { db with actions := db'.actions, events := db'.events }
  actions : ∀ i k, (db'.actions.get? i k).isSome = (db.actions.get? i k).isSome

theorem OnlyMoved.refl (db : Db) : OnlyMoved db db := ⟨rfl, fun _ _ => rfl⟩

theorem OnlyMoved.trans {db db' db'' : Db} (h : OnlyMoved db db') (h' : OnlyMoved db' db'') :
    OnlyMoved db db'' := by
  refine ⟨?_, fun i k => (h'.actions i k).trans (h.actions i k)⟩
  rw [h'.frame, h.frame]

theorem onlyMoved_of_moved {actionId : String} {expected : ActionStatus}
    {f : ActionRecord → ActionRecord} {event : ActionEvent} {db db' : Db}
    (h : Moved actionId expected f event db db') : OnlyMoved db db' := by
  refine ⟨h.frame, fun i k => ?_⟩
  rw [h.actions, Option.isSome_map]

theorem onlyMoved_exec (e : EngineChoice W) (s : EngineState W) {o : Op X} (ho : o.dispatches) :
    OnlyMoved s.db (exec W e s o).2.db ∧ (exec W e s o).2.clock = s.clock := by
  cases o with
  | tx o =>
    have heffect := Tx.effect s.clock e.ids s.db o
    refine ⟨?_, rfl⟩
    change OnlyMoved s.db (o.exec s.clock e.ids s.db).2
    cases o with
    | getAction | listActions => exact .refl _
    | transitionAction id expected status outcome =>
      generalize ((Tx.transitionAction id expected status outcome).exec s.clock e.ids s.db) = done
        at heffect ⊢
      obtain ⟨res, db'⟩ := done
      cases heffect with
      | nothing => exact .refl _
      | moved h => exact onlyMoved_of_moved h
    | claimAction id =>
      generalize ((Tx.claimAction id).exec s.clock e.ids s.db) = done at heffect ⊢
      obtain ⟨res, db'⟩ := done
      cases heffect with
      | nothing => exact .refl _
      | claimed h => exact onlyMoved_of_moved h
    | _ => exact ho.elim
  | _ => exact ⟨.refl _, rfl⟩

/-- A dispatch moves actions, and nothing else. -/
theorem alone_dispatches {α : Type} {p : Task X α} (hp : p.Issues Op.dispatches)
    (s : ℕ × EngineState W) :
    OnlyMoved s.2.db (p.alone (execAlone W choices) s).2.2.db ∧
      s.2.clock ≤ (p.alone (execAlone W choices) s).2.2.clock := by
  refine Prog.alone_keeps (R := fun s s' : ℕ × EngineState W =>
      OnlyMoved s.2.db s'.2.db ∧ s.2.clock ≤ s'.2.clock) (fun _ => ⟨.refl _, le_rfl⟩)
    (fun _ _ _ h h' => ⟨h.1.trans h'.1, h.2.trans h'.2⟩) (fun s o ho => ?_) hp s
  obtain ⟨hmoved, hclock⟩ := onlyMoved_exec (choices s.1) s.2 ho
  exact ⟨hmoved, hclock.symm.le.trans (Int.le_add_of_nonneg_right (Int.natCast_nonneg _))⟩

/-- The way of `authorize` to the kernel. -/
theorem alone_authorize {gateway : ActionGateway X} {policy : PolicyResolver X}
    {command : ActionCommand} (v : ℤ) {resolved : ResolvedActionConnector X}
    {package : PolicyPackage} {case : CaseRecord} {s t : ℕ × EngineState W}
    (hpolicy : gateway.policy = some policy)
    (hresolve : gateway.resolveConnector command false = .ok resolved)
    (hread : (Task.ext (policy.requireActive command.policyPackageId)).alone
      (execAlone W choices) s =
      (.ok package, t))
    (hcase : t.2.db.case? command.caseId = some case)
    (hprocedure : package.procedureId = case.procedureId)
    (hallowed : ActionGateway.checkAllowed package command.action = .ok ()) :
    (gateway.authorize command v).alone (execAlone W choices) s =
      (CaseKernel.authorizeAction { command with
        connectorBindingId := some resolved.bindingId
        connectorBindingVersion := some resolved.bindingVersion
        contractVersion := some resolved.contractVersion
        policyActivationSignature := package.activationSignature } v).alone (execAlone W choices)
          (passed choices t) := by
  unfold ActionGateway.authorize
  rw [hresolve, Prog.bind_eq, Prog.ofExcept_ok, Prog.bind_ret]
  simp only [hpolicy]
  rw [Prog.bind_eq, Prog.alone_bind_ok (congrArg Prod.fst hread), hread]
  refine (alone_getCase hcase).trans ((congrArg (fun p => Prog.alone _ p _)
    (if_neg (not_not.2 hprocedure))).trans ?_)
  rw [hallowed]
  rfl

end

/-! In the system, a task may be the only one that takes steps. -/

section
variable {X : Sig} {W : World X} {engine : Engine X} {admits : Admission X W}

/-- The moves of one task lead to the state that its program leaves when it is executed alone. -/
theorem exists_run_alone {choices : ℕ → EngineChoice W} (htime : ∀ n, (choices n).elapsed = 0)
    {τ : ℕ} (p : Task X Reply) (n : ℕ) (c : (engine.system W admits).Config)
    (hp : c.tasks[τ]? = some p) (hc : τ ∉ c.hist.crashed) :
    ∃ acts, (System.run _ c acts).hist.state =
        (p.alone (execAlone W choices) (n, c.hist.state)).2.2 ∧
      (System.run _ c acts).hist.calls = c.hist.calls := by
  induction p generalizing n c with
  | ret a => exact ⟨[], rfl, rfl⟩
  | raise e => exact ⟨[], rfl, rfl⟩
  | call o k ih =>
    have hready : (engine.system W admits).Ready c τ o k := ⟨hp, hc⟩
    have hn := System.next_run hready (choices n)
    have hstep : execAlone W choices (n, c.hist.state) o =
        ((exec W (choices n) c.hist.state o).1, n + 1, (exec W (choices n) c.hist.state o).2) := by
      unfold execAlone
      simp only [htime, Int.natCast_zero, Int.add_zero]
      rfl
    have hset : (c.tasks.set τ (k (exec W (choices n) c.hist.state o).1))[τ]? =
        some (k (exec W (choices n) c.hist.state o).1) :=
      List.getElem?_set_self (List.getElem?_eq_some_iff.1 hp).1
    obtain ⟨acts, hstate, hcalls⟩ := ih _ (n + 1)
      ⟨(engine.system W admits).after c.hist τ o (choices n), _⟩ hset hc
    have hrun : System.run _ c (.run τ (choices n) :: acts) = System.run _ _ acts :=
      congrArg (fun c => System.run _ c acts) hn
    refine ⟨.run τ (choices n) :: acts, ?_, ?_⟩
    · rw [Prog.alone_call, hstep, hrun]
      exact hstate
    · rw [hrun]
      exact hcalls

/-- An action that has come into the store was inserted by a task. -/
theorem inserted_of_appeared {c : (engine.system W admits).Config}
    (acts : List (engine.system W admits).Move) {id : String} {a : ActionRecord}
    (hnone : c.hist.state.db.action? id = none)
    (hsome : (System.run _ c acts).hist.state.db.action? id = some a) :
    ∃ τ record v, (⟨τ, .tx (.insertAction record v), .ok ()⟩ : Entry (sig X)) ∈
      (System.run _ c acts).hist.trace ∧ record.command = a.command := by
  induction acts using List.reverseRecOn generalizing a with
  | nil => exact absurd (hnone.symm.trans hsome) nofun
  | append_singleton acts move ih =>
    rw [System.run_snoc] at hsome ⊢
    have hkept : ∀ {a'}, (System.run _ c acts).hist.state.db.action? id = some a' →
        a.command = a'.command → ∃ τ record v,
          (⟨τ, .tx (.insertAction record v), .ok ()⟩ : Entry (sig X)) ∈
            (System.next _ (System.run _ c acts) move).hist.trace ∧ record.command = a.command := by
      intro a' ha' hcommand
      obtain ⟨τ, record, v, hmem, hrecord⟩ := ih ha'
      exact ⟨τ, record, v, (System.trace_next _ move).subset hmem, hrecord.trans hcommand.symm⟩
    rcases System.next_cases (System.run _ c acts) move with hn | ⟨call, -, -, hn⟩ |
        ⟨τ, e, o, k, -, hr, hn⟩ | ⟨τ, -, hn⟩ | ⟨e, -, hn⟩
    · rw [hn] at hsome
      exact hkept hsome rfl
    · rw [hn] at hsome
      exact hkept hsome rfl
    · rw [hn] at hsome
      cases o with
      | tx o =>
        rcases (Tx.effect _ e.ids _ o).action_cases hsome with ⟨record, v, rfl, rfl⟩ |
            ⟨a', ha', -, hcommand, -⟩
        · rcases Txn.commit_cases (Txn.insertAction (System.run _ c acts).hist.state.clock e.ids
            record v) (System.run _ c acts).hist.state.db with ⟨err, he⟩ | ⟨u, db', he⟩
          · refine hkept ((congrArg (fun db : Db => db.action? id) ?_).trans hsome) rfl
            exact (congrArg Prod.snd he).symm
          · have hres : (Engine.exec W e (System.run _ c acts).hist.state
                (.tx (.insertAction record v))).1 = .ok () := congrArg Prod.fst he
            refine ⟨τ, record, v, ?_, rfl⟩
            rw [hn, ← hres]
            exact List.mem_append_right _ List.mem_cons_self
        · exact hkept ha' hcommand
      | _ => exact hkept hsome rfl
    · rw [hn] at hsome
      exact hkept hsome rfl
    · rw [hn] at hsome
      exact hkept hsome rfl

/-- What one call inserts when nothing runs beside it, it inserts in a run. -/
theorem exists_run_inserts {choices : ℕ → EngineChoice W} (htime : ∀ n, (choices n).elapsed = 0)
    {s : EngineState W} {call : Call X} (ha : admits ⟨s, [], [], []⟩ call = true) {id : String}
    {a : ActionRecord} (hnone : s.db.action? id = none)
    (hsome : ((engine.body call).alone (execAlone W choices) (0, s)).2.2.db.action? id = some a) :
    ∃ acts τ record v, (engine.history W admits s acts).calls[τ]? = some call ∧
      (⟨τ, .tx (.insertAction record v), .ok ()⟩ : Entry (sig X)) ∈
        (engine.history W admits s acts).trace ∧ record.command = a.command := by
  have hn : System.next (engine.system W admits) (System.init _ s) (.spawn call) =
      ⟨⟨s, [], [call], []⟩, [engine.body call]⟩ := if_pos ha
  obtain ⟨acts, hstate, hcalls⟩ := @exists_run_alone _ _ _ admits _ htime 0
    (engine.body call) 0 ⟨⟨s, [], [call], []⟩, [engine.body call]⟩ rfl List.not_mem_nil
  have hrun : System.run (engine.system W admits) (System.init _ s) (.spawn call :: acts) =
      System.run _ ⟨⟨s, [], [call], []⟩, [engine.body call]⟩ acts :=
    congrArg (fun c => System.run _ c acts) hn
  obtain ⟨τ, record, v, hmem, hcommand⟩ := inserted_of_appeared acts hnone
    ((congrArg (fun s : EngineState W => s.db.action? id) hstate).trans hsome)
  rw [← hrun] at hmem hcalls
  obtain ⟨q, hq⟩ := System.task_of_mem s (.spawn call :: acts) hmem
  obtain ⟨call', hcall, -⟩ := System.follows_run s (.spawn call :: acts) hq
  have hin := List.mem_of_getElem? hcall
  rw [hcalls] at hin
  obtain rfl := List.mem_singleton.1 hin
  exact ⟨.spawn call' :: acts, τ, record, v, hcall, hmem, hcommand⟩

end

end WorkflowEngine
