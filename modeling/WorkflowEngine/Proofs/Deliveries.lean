import WorkflowEngine.Proofs.OutboxClaims
import WorkflowEngine.Sanity.Alone
import WorkflowEngine.Sanity.Footprint

/-! What a run of the delivery worker leaves of the records that it has claimed. A record whose
`action_id` cannot be looked up stops the loop, and everything behind it stays leased. -/

namespace WorkflowEngine

open Interleave Engine Relational SQLiteCoreStore

/-- The driver binds the value. -/
def TextBinding.binds (binding : TextBinding) : Json → Bool
  | .list _ => false
  | .dict _ => false
  | .int n => decide (-(2 ^ 63) ≤ n ∧ n < 2 ^ 63)
  | .str s => binding.encodes s
  | .null => true
  | .bool _ => true
  | .float .. => true

theorem sqlText_ok_iff {binding : TextBinding} {v : Json} :
    (∃ key, sqlText binding v = .ok key) ↔ binding.binds v = true := by
  cases v with
  | int n =>
    rw [TextBinding.binds, decide_eq_true_eq, sqlText]
    by_cases h : -(2 ^ 63) ≤ n ∧ n < 2 ^ 63
    · rw [sqlInteger_of_fits h]
      exact iff_of_true ⟨_, rfl⟩ h
    · rw [sqlInteger_overflow h]
      exact iff_of_false (by simp [Except.map]) h
  | str s => cases hs : binding.encodes s <;> simp [sqlText, TextBinding.binds, hs]
  | _ => simp [sqlText, TextBinding.binds]

/-- The worker can look for the action of the record. -/
def OutboxRecord.deliverable (binding : TextBinding) (r : OutboxRecord) : Bool :=
  r.topic != "action.dispatch" || (r.payload.get? "action_id").any binding.binds

namespace ActionDeliveryWorker

variable {X : Sig} (worker : ActionDeliveryWorker X)

/-- The action that a record names. -/
def named? (db : Db) (r : OutboxRecord) : Option ActionRecord :=
  ((r.payload.get? "action_id").bind fun v =>
    (sqlText worker.binding v).toOption.join).bind db.action?

/-- The reasons to give a record up. -/
def givesUp (db : Db) (r : OutboxRecord) : Prop :=
  r.topic ≠ "action.dispatch" ∨ worker.named? db r = none ∨ worker.maxAttempts ≤ r.attempts

end ActionDeliveryWorker

/-- The row of a record that the worker has dealt with since `start`. -/
inductive Settled (givenUp : Prop) (start : Time) (r : OutboxRecord) : Prop
  | delivered (h : r.status = .delivered)
  | quarantined (h : r.status = .quarantined) (hup : givenUp)
  | failed (h : r.status = .failed) (hup : ¬ givenUp) (hlater : start < r.availableAt)

theorem Settled.congr {givenUp givenUp' : Prop} {start start' : Time} {r : OutboxRecord}
    (hup : givenUp ↔ givenUp') (hle : start' ≤ start) (h : Settled givenUp start r) :
    Settled givenUp' start' r := by
  cases h with
  | delivered h => exact .delivered h
  | quarantined h hup' => exact .quarantined h (hup.1 hup')
  | failed h hup' hlater => exact .failed h (fun hnot => hup' (hup.2 hnot)) (hle.trans_lt hlater)

variable {X : Sig} {W : World X} {choices : ℕ → EngineChoice W}

/-- Only these records were touched, no action has come or gone, and time has not run back. -/
structure Spared (oids : List String) (s s' : EngineState W) : Prop where
  clock : s.clock ≤ s'.clock
  actions : ∀ id, (s'.db.action? id).isSome = (s.db.action? id).isSome
  outbox : ∀ oid ∉ oids, s'.db.outbox? oid = s.db.outbox? oid

theorem Spared.refl (oids : List String) (s : EngineState W) : Spared oids s s :=
  ⟨le_rfl, fun _ => rfl, fun _ _ => rfl⟩

theorem Spared.trans {oids : List String} {s s' s'' : EngineState W} (h : Spared oids s s')
    (h' : Spared oids s' s'') : Spared oids s s'' :=
  ⟨h.clock.trans h'.clock, fun id => (h'.actions id).trans (h.actions id),
    fun oid hoid => (h'.outbox oid hoid).trans (h.outbox oid hoid)⟩

theorem Spared.mono {oids oids' : List String} (hsub : oids ⊆ oids') {s s' : EngineState W}
    (h : Spared oids s s') : Spared oids' s s' :=
  ⟨h.clock, h.actions, fun oid hoid => h.outbox oid fun hmem => hoid (hsub hmem)⟩

theorem spared_elapsed (oids : List String) (s : EngineState W) (n : ℕ) :
    Spared oids s { s with clock := s.clock + n } :=
  ⟨Int.le_add_of_nonneg_right (Int.natCast_nonneg _), fun _ => rfl, fun _ _ => rfl⟩

/-- A dispatch does not touch the outbox. -/
theorem spared_dispatches {α : Type} {p : Task X α} (hp : p.Issues Op.dispatches)
    (s : ℕ × EngineState W) : Spared [] s.2 (p.alone (execAlone W choices) s).2.2 := by
  obtain ⟨hmoved, hclock⟩ := @alone_dispatches _ _ choices _ _ hp s
  refine ⟨hclock, fun id => hmoved.actions .id id, fun oid _ => ?_⟩
  rw [hmoved.frame]
  rfl

theorem spared_passed (oids : List String) (s : ℕ × EngineState W) :
    Spared oids s.2 (passed choices s).2 :=
  spared_elapsed ..

theorem spared_settle (s : EngineState W) (oid : String) (status : OutboxStatus)
    (retryAt : Option Time) (error : Option String) (at' : Time) :
    Spared [oid] s { s with db := s.db.settle oid status retryAt error at' } := by
  refine ⟨le_rfl, fun _ => rfl, fun oid' hoid' => ?_⟩
  refine (Db.outbox?_settle s.db oid status retryAt error at' oid').trans ?_
  rw [List.mem_singleton] at hoid'
  simp [hoid']

/-- A stored record is settled, by a method that then finds it. -/
theorem alone_updateOutbox {oid : String} {r : OutboxRecord} (status : OutboxStatus)
    (retryAt : Option Time) (error : Option String) {s : ℕ × EngineState W}
    (hr : s.2.db.outbox? oid = some r) :
    ∃ row s', (updateOutbox oid status retryAt error).alone (execAlone W choices) s =
        (.ok row, s') ∧
      Spared [oid] s.2 s'.2 ∧
      s'.2.db.outbox? oid = some (Db.settleRow status retryAt error s.2.clock r) := by
  have hsettled : (s.2.db.settle oid status retryAt error s.2.clock).outbox? oid =
      some (Db.settleRow status retryAt error s.2.clock r) := by
    rw [Db.outbox?_settle, hr, Option.map_some, if_pos rfl]
  obtain ⟨hstored, hid⟩ := Table.get?_eq_some.1 hsettled
  obtain ⟨row, hrow⟩ : ∃ row,
      ((s.2.db.settle oid status retryAt error s.2.clock).selectIn [oid]).head? = some row := by
    refine Option.isSome_iff_exists.1 (List.isSome_head?.2 (List.ne_nil_of_mem
      (Db.mem_selectIn.2 ⟨hstored, ?_⟩)))
    exact List.mem_singleton.2 hid
  let s1 := passed choices s
  let s2 : ℕ × EngineState W :=
    (s1.1, { s1.2 with db := s.2.db.settle oid status retryAt error s.2.clock })
  refine ⟨row, passed choices (passed choices s2), ?_, ?_, hsettled⟩
  · have hselect : (Task.tx (.selectOutbox [oid]) : Task X (List OutboxRecord)).alone
        (execAlone W choices) (passed choices s2) =
        (.ok ((s.2.db.settle oid status retryAt error s.2.clock).selectIn [oid]),
          passed choices (passed choices s2)) := rfl
    refine (Prog.alone_seq rfl).trans
      ((Prog.alone_seq rfl).trans ((Prog.alone_seq hselect).trans ?_))
    rw [hrow]
    rfl
  · have hsettle : Spared [oid] s1.2 s2.2 := spared_settle s1.2 oid status retryAt error s.2.clock
    exact (spared_passed _ s).trans (hsettle.trans ((spared_passed _ s2).trans (spared_passed _ _)))

namespace ActionDeliveryWorker

variable {worker : ActionDeliveryWorker X}

theorem namedAction_alone {record : OutboxRecord} (hd : record.deliverable worker.binding = true)
    (htopic : record.topic = "action.dispatch") (s : ℕ × EngineState W) :
    ∃ s', (worker.namedAction record).alone (execAlone W choices) s =
        (.ok (worker.named? s.2.db record), s') ∧ s'.2.db = s.2.db ∧ Spared [] s.2 s'.2 := by
  have hbindable : (record.payload.get? "action_id").any worker.binding.binds = true := by
    simpa [OutboxRecord.deliverable, htopic] using hd
  unfold namedAction named?
  cases hv : record.payload.get? "action_id" with
  | none => simp [hv] at hbindable
  | some v =>
    rw [hv, Option.any_some] at hbindable
    obtain ⟨key, hkey⟩ : ∃ key, sqlText worker.binding v = .ok key := sqlText_ok_iff.2 hbindable
    simp only [Option.bind_some, hkey, Prog.bind_eq, Prog.ofExcept_ok, Prog.bind_ret]
    cases key with
    | none => exact ⟨s, rfl, rfl, .refl _ _⟩
    | some key => exact ⟨passed choices s, rfl, rfl, spared_passed _ s⟩

theorem namedAction_error {record : OutboxRecord} (hd : record.deliverable worker.binding = false)
    (s : ℕ × EngineState W) :
    ∃ err, ((worker.namedAction record).alone (execAlone W choices) s).1 = .error err := by
  have hbindable : (record.payload.get? "action_id").any worker.binding.binds = false := by
    simpa [OutboxRecord.deliverable] using (Bool.or_eq_false_iff.1 hd).2
  unfold namedAction
  cases hv : record.payload.get? "action_id" with
  | none => exact ⟨_, rfl⟩
  | some v =>
    cases hkey : sqlText worker.binding v with
    | error err => simp [hkey]
    | ok key =>
      have hok := sqlText_ok_iff.1 ⟨key, hkey⟩
      rw [hv, Option.any_some, hok] at hbindable
      cases hbindable

theorem alone_retryLater {record r : OutboxRecord} (exc : PyErr) {s : ℕ × EngineState W}
    (hr : s.2.db.outbox? record.outboxId = some r) :
    ∃ s' r', (worker.retryLater record exc).alone (execAlone W choices) s = (.ok (), s') ∧
      Spared [record.outboxId] s.2 s'.2 ∧ s'.2.db.outbox? record.outboxId = some r' ∧
      Settled (worker.maxAttempts ≤ record.attempts) s.2.clock r' ∧ r'.status ≠ .delivered := by
  unfold retryLater
  split_ifs with hmax
  · obtain ⟨row, s', hrun, hspared, hrow⟩ := @alone_updateOutbox _ _ choices _ _ .quarantined none
      (some exc.typeName) s hr
    exact ⟨s', _, Prog.alone_seq hrun, hspared, hrow, .quarantined rfl hmax, by simp [Db.settleRow]⟩
  · obtain ⟨row, s', hrun, hspared, hrow⟩ := @alone_updateOutbox _ _ choices _ _ .failed
      (some (s.2.clock + seconds (min 300 (2 ^ (record.attempts - 1))))) (some exc.typeName)
      (passed choices s) hr
    refine ⟨s', _, Prog.alone_seq hrun, (spared_passed _ s).trans hspared, hrow,
      .failed rfl hmax ?_, by simp [Db.settleRow]⟩
    have hpos : (0 : ℤ) < 2 ^ (record.attempts - 1) := Int.pow_pos (by decide)
    have hdelay : (0 : ℤ) < min 300 (2 ^ (record.attempts - 1)) * 1000000 := by omega
    exact Int.lt_add_of_pos_right _ hdelay

/-- The worker is done with a record: it is settled, as the answer says, and no other record is
touched. -/
structure Finished (worker : ActionDeliveryWorker X) (record : OutboxRecord)
    (s s' : EngineState W) (completed : Bool) : Prop where
  spared : Spared [record.outboxId] s s'
  settled : ∃ r, s'.db.outbox? record.outboxId = some r ∧
    Settled (worker.givesUp s.db record) s.clock r ∧ (completed = true ↔ r.status = .delivered)

theorem alone_deliver {record r : OutboxRecord} (hd : record.deliverable worker.binding = true)
    {s : ℕ × EngineState W} (hr : s.2.db.outbox? record.outboxId = some r) :
    ∃ completed s', (worker.deliver record).alone (execAlone W choices) s = (.ok completed, s') ∧
      worker.Finished record s.2 s'.2 completed := by
  unfold deliver
  split_ifs with htopic
  · obtain ⟨row, s', hrun, hspared, hrow⟩ := @alone_updateOutbox _ _ choices _ _ .quarantined none
      (some ("unsupported_topic:" ++ record.topic)) s hr
    exact ⟨false, s', Prog.alone_seq hrun, hspared, _, hrow, .quarantined rfl (Or.inl htopic),
      by simp [Db.settleRow]⟩
  · obtain ⟨s1, hnamed, hdb, hspared1⟩ := @namedAction_alone _ _ choices worker _ hd
      (not_not.1 htopic) s
    have hr1 : s1.2.db.outbox? record.outboxId = some r := by rw [hdb, hr]
    rw [Prog.bind_eq, Prog.alone_seq hnamed]
    cases hfound : worker.named? s.2.db record with
    | none =>
      obtain ⟨row, s', hrun, hspared, hrow⟩ := @alone_updateOutbox _ _ choices _ _ .quarantined
        none (some "action_not_found") s1 hr1
      exact ⟨false, s', Prog.alone_seq hrun, (hspared1.mono (List.nil_subset _)).trans hspared, _,
        hrow, .quarantined rfl (Or.inr (Or.inl hfound)), by simp [Db.settleRow]⟩
    | some action =>
      have hup : worker.maxAttempts ≤ record.attempts ↔ worker.givesUp s.2.db record := by
        simp [givesUp, htopic, hfound]
      have hspared2 := @spared_dispatches _ _ choices _ _ (worker.gateway.issues_dispatch action) s1
      have hspared : Spared [record.outboxId] s.2
          ((worker.gateway.dispatch action).alone (execAlone W choices) s1).2.2 :=
        (hspared1.trans hspared2).mono (List.nil_subset _)
      have hr2 : ((worker.gateway.dispatch action).alone (execAlone W choices)
          s1).2.2.db.outbox? record.outboxId = some r :=
        (hspared2.outbox _ List.not_mem_nil).trans hr1
      cases hdispatch : (worker.gateway.dispatch action).alone (execAlone W choices) s1 with
      | mk answer s2 =>
        rw [hdispatch] at hspared hr2
        cases answer with
        | ok result =>
          obtain ⟨row, s', hrun, hspared', hrow⟩ := @alone_updateOutbox _ _ choices _ _ .delivered
            none none s2 hr2
          refine ⟨true, s', ?_, hspared.trans hspared', _, hrow, .delivered rfl,
            by simp [Db.settleRow]⟩
          refine (Prog.alone_tryCatch ..).trans ?_
          rw [Prog.bind_eq, Prog.alone_seq hdispatch, Prog.bind_eq,
            Prog.alone_seq (p := completeOutbox record.outboxId) hrun]
          rfl
        | error exc =>
          obtain ⟨s', r', hrun, hspared', hrow, hsettled, hnot⟩ :=
            @alone_retryLater _ _ choices worker _ _ exc s2 hr2
          refine ⟨false, s', ?_, hspared.trans hspared', _, hrow, hsettled.congr hup hspared.clock,
            by simp [hnot]⟩
          refine (Prog.alone_tryCatch ..).trans ?_
          rw [Prog.bind_eq, Prog.alone_bind, hdispatch]
          exact Prog.alone_seq hrun

theorem alone_deliver_error {record : OutboxRecord} (hd : record.deliverable worker.binding = false)
    (s : ℕ × EngineState W) :
    ∃ err, ((worker.deliver record).alone (execAlone W choices) s).1 = .error err := by
  obtain ⟨err, hnamed⟩ := @namedAction_error _ _ choices worker _ hd s
  have htopic : ¬ record.topic ≠ "action.dispatch" := by
    simpa [OutboxRecord.deliverable] using (Bool.or_eq_false_iff.1 hd).1
  unfold deliver
  rw [if_neg htopic, Prog.bind_eq, Prog.alone_bind]
  cases hrun : (worker.namedAction record).alone (execAlone W choices) s with
  | mk answer s' =>
    rw [hrun] at hnamed
    obtain rfl : answer = .error err := hnamed
    exact ⟨err, rfl⟩

theorem givesUp_congr {db db' : Db}
    (hactions : ∀ id, (db'.action? id).isSome = (db.action? id).isSome) (record : OutboxRecord) :
    worker.givesUp db' record ↔ worker.givesUp db record := by
  have hnone : ∀ id, db'.action? id = none ↔ db.action? id = none := by
    intro id
    rw [← Option.not_isSome_iff_eq_none, ← Option.not_isSome_iff_eq_none, hactions]
  have hnamed : worker.named? db' record = none ↔ worker.named? db record = none := by
    unfold named?
    simp only [Option.bind_eq_none_iff, hnone]
  unfold givesUp
  rw [hnamed]

/-- The record has come to its end. -/
def isDelivered (db : Db) (record : OutboxRecord) : Bool :=
  (db.outbox? record.outboxId).any fun r => decide (r.status = .delivered)

/-- What the loop leaves of its records. -/
structure AllFinished (worker : ActionDeliveryWorker X) (records : List OutboxRecord)
    (s s' : EngineState W) (run run' : WorkerRun) : Prop where
  spared : Spared (records.map OutboxRecord.outboxId) s s'
  claimed : run'.claimed = run.claimed
  completed : run'.completed = run.completed + records.countP (isDelivered s'.db)
  failed : run'.failed = run.failed + records.countP fun r => !isDelivered s'.db r
  settled : ∀ record ∈ records, ∃ r, s'.db.outbox? record.outboxId = some r ∧
    Settled (worker.givesUp s.db record) s.clock r

theorem AllFinished.cons {record : OutboxRecord} {records : List OutboxRecord}
    {s s1 s' : EngineState W} {completed : Bool} {run run' : WorkerRun}
    (hnew : record.outboxId ∉ records.map OutboxRecord.outboxId)
    (h : worker.Finished record s s1 completed)
    (h' : worker.AllFinished records s1 s' (if completed = true
      then { run with completed := run.completed + 1 } else { run with failed := run.failed + 1 })
      run') : worker.AllFinished (record :: records) s s' run run' := by
  obtain ⟨r, hr, hsettled, hcompleted⟩ := h.settled
  have hkept : s'.db.outbox? record.outboxId = some r := by rw [h'.spared.outbox _ hnew, hr]
  have hdelivered : isDelivered s'.db record = completed := by
    unfold isDelivered
    rw [hkept, Option.any_some, Bool.eq_iff_iff, hcompleted, decide_eq_true_eq]
  refine ⟨(h.spared.mono (by simp)).trans (h'.spared.mono (List.subset_cons_self ..)), ?_, ?_, ?_,
    fun record' hmem => ?_⟩
  · rw [h'.claimed]
    split_ifs <;> rfl
  · rw [h'.completed, List.countP_cons, hdelivered]
    cases completed
    · rfl
    · exact Nat.add_right_comm ..
  · rw [h'.failed, List.countP_cons, hdelivered]
    cases completed
    · exact Nat.add_right_comm ..
    · rfl
  · rcases List.mem_cons.1 hmem with rfl | hmem
    · exact ⟨r, hkept, hsettled⟩
    · obtain ⟨r', hr', hsettled'⟩ := h'.settled record' hmem
      exact ⟨r', hr', hsettled'.congr (givesUp_congr h.spared.actions record') h.spared.clock⟩

theorem alone_deliverAll {records : List OutboxRecord}
    (hd : ∀ record ∈ records, record.deliverable worker.binding = true)
    (hnodup : (records.map OutboxRecord.outboxId).Nodup) {s : ℕ × EngineState W}
    (hrows : ∀ record ∈ records, ∃ r, s.2.db.outbox? record.outboxId = some r) (run : WorkerRun) :
    ∃ run' s', (worker.deliverAll records run).alone (execAlone W choices) s = (.ok run', s') ∧
      worker.AllFinished records s.2 s'.2 run run' := by
  induction records generalizing s run with
  | nil => exact ⟨run, s, rfl, .refl _ _, rfl, rfl, rfl, fun _ h => absurd h List.not_mem_nil⟩
  | cons record records ih =>
    obtain ⟨hnew, hrest⟩ := List.nodup_cons.1 hnodup
    obtain ⟨r, hr⟩ := hrows record List.mem_cons_self
    obtain ⟨completed, s1, hrun, hfinished⟩ := @alone_deliver _ _ choices worker _ _
      (hd record List.mem_cons_self) s hr
    have hrows1 : ∀ record' ∈ records, ∃ r, s1.2.db.outbox? record'.outboxId = some r := by
      intro record' hmem
      obtain ⟨r', hr'⟩ := hrows record' (List.mem_cons_of_mem _ hmem)
      refine ⟨r', (hfinished.spared.outbox _ fun heq => hnew ?_).trans hr'⟩
      rw [← List.mem_singleton.1 heq]
      exact List.mem_map_of_mem hmem
    obtain ⟨run', s', hrun', hall⟩ := ih
      (fun record' hmem => hd record' (List.mem_cons_of_mem _ hmem)) hrest hrows1
      (if completed = true then { run with completed := run.completed + 1 }
        else { run with failed := run.failed + 1 })
    refine ⟨run', s', ?_, .cons hnew hfinished hall⟩
    rw [deliverAll, Prog.bind_eq, Prog.alone_seq hrun, ← hrun']
    split_ifs <;> rfl

/-- One bad record stops the loop. -/
theorem alone_deliverAll_error {records : List OutboxRecord}
    (hd : ∃ record ∈ records, record.deliverable worker.binding = false) (s : ℕ × EngineState W)
    (run : WorkerRun) :
    ∃ err, ((worker.deliverAll records run).alone (execAlone W choices) s).1 = .error err := by
  induction records generalizing s run with
  | nil => exact absurd hd (by simp)
  | cons record records ih =>
    rw [deliverAll, Prog.bind_eq, Prog.alone_bind]
    cases hrun : (worker.deliver record).alone (execAlone W choices) s with
    | mk answer s1 =>
      cases answer with
      | error err => exact ⟨err, rfl⟩
      | ok completed =>
        obtain ⟨record', hmem, hbad⟩ := hd
        rcases List.mem_cons.1 hmem with rfl | hmem
        · obtain ⟨err, herr⟩ := @alone_deliver_error _ _ choices worker _ hbad s
          rw [hrun] at herr
          cases herr
        · cases completed
          · exact ih ⟨record', hmem, hbad⟩ _ _
          · exact ih ⟨record', hmem, hbad⟩ _ _

variable (worker) in
/-- The driver and `datetime` let a run that is alone make its claim. -/
structure CanClaim (choices : ℕ → EngineChoice W) (limit : ℤ) (s : EngineState W) : Prop where
  bound : -(2 ^ 63) ≤ limit ∧ limit < 2 ^ 63
  lease : Time.IsDatetime ((passed choices (0, s)).2.clock + seconds worker.leaseSeconds)
  records : (s.db.dueIds s.clock limit).length ≤ maxVariableNumber

/-- What a claim does with the identifiers that it has leased. -/
def readBack (ids : List String) : Task X (List OutboxRecord) :=
  if ids.isEmpty then .ret []
  else if maxVariableNumber < ids.length then .raise (.other "OperationalError")
  else Task.tx (.selectOutbox ids)

theorem readBack_long {ids : List String} (h : maxVariableNumber < ids.length) :
    readBack (X := X) ids = .raise (.other "OperationalError") := by
  have hsome : ¬ ids.isEmpty = true := by
    rw [List.isEmpty_iff_length_eq_zero]
    omega
  exact (if_neg hsome).trans (if_pos h)

theorem alone_readBack {ids : List String} (h : ids.length ≤ maxVariableNumber)
    (s : ℕ × EngineState W) :
    ∃ s', (readBack ids).alone (execAlone W choices) s = (.ok (s.2.db.selectIn ids), s') ∧
      s'.2.db = s.2.db ∧ s.2.clock ≤ s'.2.clock := by
  by_cases hempty : ids.isEmpty = true
  · obtain rfl := List.isEmpty_iff.1 hempty
    have hnone : s.2.db.selectIn [] = [] :=
      List.eq_nil_iff_forall_not_mem.2 fun r hr => List.not_mem_nil (Db.mem_selectIn.1 hr).2
    exact ⟨s, by rw [hnone]; rfl, rfl, le_rfl⟩
  · have hread : readBack (X := X) ids = Task.tx (.selectOutbox ids) :=
      (if_neg hempty).trans (if_neg (not_lt.2 h))
    rw [hread]
    exact ⟨passed choices s, rfl, rfl, (spared_passed [] s).clock⟩

/-- A claim that has read the clock twice. -/
theorem alone_claimOutbox_eq (owner : String) (leaseSeconds limit : ℤ) (s : ℕ × EngineState W) :
    (claimOutbox owner leaseSeconds limit).alone (execAlone W choices) s =
      ((Prog.ofExcept (plusSeconds (passed choices s).2.clock leaseSeconds)).bind fun leaseUntil =>
        (Prog.ofExcept (sqlInteger limit)).bind fun limit =>
          (Task.tx (.claimOutbox owner s.2.clock leaseUntil limit.1)).bind readBack).alone
            (execAlone W choices) (passed choices (passed choices s)) := rfl

/-- The state behind the claim's transaction. -/
def leased (worker : ActionDeliveryWorker X) (choices : ℕ → EngineChoice W) (limit : ℤ)
    (s : EngineState W) : ℕ × EngineState W :=
  let s1 := passed choices (0, s)
  let s2 := passed choices s1
  let leaseUntil := s1.2.clock + seconds worker.leaseSeconds
  let oids := s.db.dueIds s.clock limit
  passed choices (s2.1, { s2.2 with db := s.db.lease worker.owner s.clock leaseUntil oids })

theorem clock_leased (limit : ℤ) (s : EngineState W) :
    s.clock ≤ (worker.leased choices limit s).2.clock :=
  (spared_passed [] (0, s)).clock.trans ((spared_passed [] (passed choices (0, s))).clock.trans
    (spared_elapsed [] (passed choices (passed choices (0, s))).2 _).clock)

theorem alone_claimOutbox_leased {limit : ℤ} {s : EngineState W}
    (hbound : -(2 ^ 63) ≤ limit ∧ limit < 2 ^ 63)
    (hlease : Time.IsDatetime ((passed choices (0, s)).2.clock + seconds worker.leaseSeconds)) :
    (claimOutbox worker.owner worker.leaseSeconds limit).alone (execAlone W choices) (0, s) =
      (readBack (s.db.dueIds s.clock limit)).alone (execAlone W choices)
        (worker.leased choices limit s) := by
  rw [alone_claimOutbox_eq, plusSeconds_of_datetime hlease, sqlInteger_of_fits hbound]
  rfl

theorem alone_claimOutbox {limit : ℤ} {s : EngineState W} (h : worker.CanClaim choices limit s) :
    ∃ leaseUntil s', (claimOutbox worker.owner worker.leaseSeconds limit).alone
        (execAlone W choices) (0, s) =
        (.ok (s'.2.db.selectIn (s.db.dueIds s.clock limit)), s') ∧
      s'.2.db = s.db.lease worker.owner s.clock leaseUntil (s.db.dueIds s.clock limit) ∧
      s.clock ≤ s'.2.clock := by
  obtain ⟨s', hread, hdb, hclock⟩ :=
    @alone_readBack _ _ choices _ h.records (worker.leased choices limit s)
  refine ⟨(passed choices (0, s)).2.clock + seconds worker.leaseSeconds, s', ?_, hdb,
    (clock_leased limit s).trans hclock⟩
  rw [alone_claimOutbox_leased h.bound h.lease, hread, hdb]

theorem alone_claimOutbox_error {limit : ℤ} {s : EngineState W}
    (h : ¬ worker.CanClaim choices limit s) :
    ∃ err, ((claimOutbox worker.owner worker.leaseSeconds limit).alone (execAlone W choices)
      (0, s)).1 = .error err := by
  by_cases hlease : Time.IsDatetime ((passed choices (0, s)).2.clock + seconds worker.leaseSeconds)
  swap
  · rw [alone_claimOutbox_eq, plusSeconds_overflow hlease]
    exact ⟨_, rfl⟩
  by_cases hbound : -(2 ^ 63) ≤ limit ∧ limit < 2 ^ 63
  swap
  · rw [alone_claimOutbox_eq, plusSeconds_of_datetime hlease, sqlInteger_overflow hbound]
    exact ⟨_, rfl⟩
  have hlong : maxVariableNumber < (s.db.dueIds s.clock limit).length :=
    not_le.1 fun hrecords => h ⟨hbound, hlease, hrecords⟩
  rw [alone_claimOutbox_leased hbound hlease, readBack_long hlong]
  exact ⟨_, rfl⟩

variable (worker)

/-- A run of the worker settles what it claims: the records that are the oldest due ones when it
begins. The attempts of a record include the one of this run. -/
structure SettlesClaimed (choices : ℕ → EngineChoice W) (limit : ℤ) (s : EngineState W) : Prop where
  returns : ∃ run, (alone W choices (worker.runOnce limit) s).1 = .ok run ∧
    run.claimed = (s.db.dueIds s.clock limit).length ∧ run.completed + run.failed = run.claimed ∧
    run.completed = (s.db.dueIds s.clock limit).countP fun oid =>
      ((alone W choices (worker.runOnce limit) s).2.db.outbox? oid).any fun r =>
        decide (r.status = .delivered)
  settled : ∀ oid ∈ s.db.dueIds s.clock limit, ∀ r, s.db.outbox? oid = some r →
    ∃ r', (alone W choices (worker.runOnce limit) s).2.db.outbox? oid = some r' ∧
      Settled (worker.givesUp s.db { r with attempts := r.attempts + 1 }) s.clock r'

/-- The records that a claim returns are the rows that it has leased. -/
theorem claimed_records {s s1 : EngineState W} {owner : String} {leaseUntil : Time} {limit : ℤ}
    (hdb : s1.db = s.db.lease owner s.clock leaseUntil (s.db.dueIds s.clock limit)) :
    ((s1.db.selectIn (s.db.dueIds s.clock limit)).map OutboxRecord.outboxId).Perm
      (s.db.dueIds s.clock limit) ∧
    ∀ record ∈ s1.db.selectIn (s.db.dueIds s.clock limit),
      s1.db.outbox? record.outboxId = some record ∧
      ∃ r, s.db.outbox? record.outboxId = some r ∧
        record = Db.leaseRow owner s.clock leaseUntil r := by
  have hleased := (claimsOldest_exec owner s.clock leaseUntil limit s.db).leased
  rw [← hdb] at hleased
  refine ⟨Db.select_perm (claimsOldest_exec owner s.clock leaseUntil limit s.db).nodup
    fun oid hoid => ?_, fun record hmem => ?_⟩
  · obtain ⟨r, hr, -⟩ := Db.due_of_mem hoid
    rw [hleased, hr]
    exact ⟨_, rfl⟩
  · obtain ⟨hrow, hid⟩ := Db.mem_selectIn.1 hmem
    have hstored : s1.db.outbox? record.outboxId = some record := Table.get?_eq_some.2 ⟨hrow, rfl⟩
    refine ⟨hstored, ?_⟩
    rw [hleased] at hstored
    obtain ⟨r, hr, hrecord⟩ := Option.map_eq_some_iff.1 hstored
    rw [if_pos hid] at hrecord
    exact ⟨r, hr, hrecord.symm⟩

end ActionDeliveryWorker

/-- A message without an action, and behind it one of an unknown topic. -/
def poisonedOutbox : EngineState World.isolated :=
  let choices (ids : String) (n : ℕ) : EngineChoice World.isolated := ⟨fun _ => ids, n, ()⟩
  (alone World.isolated (fun _ => choices "2" 0) (enqueueOutbox "audit.export" "A-1" [])
    (alone World.isolated (fun _ => choices "1" 1)
      (enqueueOutbox "action.dispatch" "A-1" []) ⟨.empty, 0, ()⟩).2).2

def isolatedWorker : ActionDeliveryWorker ⟨Empty, Empty.elim⟩ :=
  { gateway := Engine.isolated.gateway, owner := "A" }

/-- And the second record stays leased. -/
example : ((alone World.isolated (fun _ => ⟨fun _ => "3", 0, ()⟩)
    (isolatedWorker.runOnce 10) poisonedOutbox).2.db.outbox? "OUT-2").map OutboxRecord.status =
      some .leased := by decide +kernel

end WorkflowEngine
