import WorkflowEngine.Relational.Ranked
import WorkflowEngine.Sanity.Alone

/-! Which actions a sweep of the reconciliation worker comes to. The store limits its two answers
before the worker looks at the age of an action, so recent actions can keep due ones out. -/

namespace WorkflowEngine

open Interleave Engine Relational SQLiteCoreStore

/-- The action for which `reconcile` is called. -/
def Op.reconciled? {X : Sig} : Op X → Option ActionRecord
  | .reconcileCalled action => some action
  | _ => none

theorem nodup_rows (db : Db) : db.actions.rows.Nodup := (db.actions.unique .id).of_map

/-- Created before, the first stored first. -/
def Db.Earlier (db : Db) : ActionRecord → ActionRecord → Prop :=
  Before ActionRecord.createdAt fun a b => db.actions.rows.idxOf a < db.actions.rows.idxOf b

instance (db : Db) : DecidableRel db.Earlier := fun _ _ =>
  inferInstanceAs (Decidable (_ ∨ _ ∧ _))

/-- How many actions of its status were created before it. -/
def Db.ahead (db : Db) (a : ActionRecord) : ℕ :=
  (db.actions.rows.filter fun b => b.status = a.status).countP (db.Earlier · a)

theorem Db.listActions_eq (db : Db) (status : ActionStatus) (limit : ℤ) :
    db.listActions (some status) limit = oldest ActionRecord.createdAt limit
      (db.actions.rows.filter fun a => a.status = status) := by
  unfold listActions
  congr 2
  funext a
  simp [eq_comm]

/-- The answer of the store has the actions whose rank is below the limit. -/
theorem Db.mem_listActions {db : Db} {status : ActionStatus} {limit : ℤ} (h : 0 ≤ limit)
    {a : ActionRecord} : a ∈ db.listActions (some status) limit ↔
      (a ∈ db.actions.rows ∧ a.status = status) ∧ (db.ahead a : ℤ) < limit := by
  have hstored : a ∈ db.actions.rows.filter (fun a => a.status = status) ↔
      a ∈ db.actions.rows ∧ a.status = status := by simp
  have hperm := List.perm_insertionSort (fun a b : ActionRecord => a.createdAt ≤ b.createdAt)
    (db.actions.rows.filter fun a => a.status = status)
  rw [listActions_eq, oldest, if_neg (not_lt.2 h)]
  by_cases ha : a ∈ db.actions.rows ∧ a.status = status
  · have hordered : (db.actions.rows.filter fun a => a.status = status).Pairwise
        fun a b => db.actions.rows.idxOf a < db.actions.rows.idxOf b :=
      (pairwise_idxOf (nodup_rows db)).sublist List.filter_sublist
    have hrank := @mem_take_iff_countP _ db.Earlier _ (before_irrefl fun _ => lt_irrefl _)
      (before_asymm fun _ _ => lt_asymm) _ (pairwise_insertionSort hordered) _
      (hperm.mem_iff.2 (hstored.2 ha)) limit.toNat
    rw [hrank, hperm.countP_eq, and_iff_right ha, ahead, ha.2]
    omega
  · refine iff_of_false (fun hmem => ha ?_) fun hmem => ha hmem.1
    exact hstored.1 (hperm.mem_iff.1 (List.mem_of_mem_take hmem))

namespace ReconciliationWorker

variable {X : Sig} (worker : ReconciliationWorker X)

/-- The action waits for a reconciliation, and has done so for the delay. -/
def due (t : Time) (a : ActionRecord) : Bool :=
  decide (a.status = .unknown ∨ a.status = .dispatched) &&
    decide (a.updatedAt ≤ t + seconds (-worker.dispatchStaleSeconds))

/-- The time at which a sweep that is alone looks at the age of the actions. -/
def sweepTime {W : World X} (choices : ℕ → EngineChoice W) (s : EngineState W) : Time :=
  ((passed choices)^[2] (0, s)).2.clock

/-- The actions for which a sweep that is alone calls `reconcile`. -/
def reconciled {W : World X} (choices : ℕ → EngineChoice W) (limit : ℤ) (s : EngineState W) :
    List ActionRecord :=
  (issuedAlone W choices (worker.runOnce limit) s).filterMap Op.reconciled?

/-- The actions that the worker goes through. -/
def selected (db : Db) (t : Time) (limit : ℤ) : List ActionRecord :=
  let stale (a : ActionRecord) :=
    decide (a.updatedAt ≤ t + seconds (-worker.dispatchStaleSeconds))
  upTo limit ((db.listActions (some .unknown) limit).filter stale ++
    (db.listActions (some .dispatched) limit).filter stale)

section
variable {worker}

theorem nodup_listActions (db : Db) (status : Option ActionStatus) (limit : ℤ) :
    (db.listActions status limit).Nodup := by
  have hsorted : ((db.actions.rows.filter fun a =>
      status = none ∨ status = some a.status).insertionSort
        fun a b => a.createdAt ≤ b.createdAt).Nodup :=
    (List.perm_insertionSort _ _).nodup_iff.2 ((nodup_rows db).filter _)
  unfold Db.listActions Db.oldest
  split_ifs
  · exact hsorted
  · exact hsorted.sublist (List.take_sublist ..)

/-- Before the last slice: the due actions that the store has listed. -/
theorem found_perm (db : Db) (t : Time) {limit : ℤ} (h : 0 ≤ limit) :
    ((db.listActions (some .unknown) limit).filter
        (fun a => decide (a.updatedAt ≤ t + seconds (-worker.dispatchStaleSeconds))) ++
      (db.listActions (some .dispatched) limit).filter
        (fun a => decide (a.updatedAt ≤ t + seconds (-worker.dispatchStaleSeconds)))).Perm
      ((db.actions.rows.filter (worker.due t)).filter fun a => (db.ahead a : ℤ) < limit) := by
  have hnodup := nodup_listActions db
  refine (List.perm_ext_iff_of_nodup ?_ (((nodup_rows db).filter _).filter _)).2 fun a => ?_
  · refine List.nodup_append.2 ⟨(hnodup _ _).filter _, (hnodup _ _).filter _, ?_⟩
    rintro a ha _ hb rfl
    obtain ⟨⟨-, hunknown⟩, -⟩ := (Db.mem_listActions h).1 (List.mem_of_mem_filter ha)
    obtain ⟨⟨-, hdispatched⟩, -⟩ := (Db.mem_listActions h).1 (List.mem_of_mem_filter hb)
    cases hunknown.symm.trans hdispatched
  · simp only [List.mem_append, List.mem_filter, Db.mem_listActions h, due, Bool.and_eq_true,
      decide_eq_true_eq]
    constructor
    · rintro (⟨⟨⟨hrow, hstatus⟩, hahead⟩, hstale⟩ | ⟨⟨⟨hrow, hstatus⟩, hahead⟩, hstale⟩)
      · exact ⟨⟨hrow, Or.inl hstatus, hstale⟩, hahead⟩
      · exact ⟨⟨hrow, Or.inr hstatus, hstale⟩, hahead⟩
    · rintro ⟨⟨hrow, hstatus | hstatus, hstale⟩, hahead⟩
      · exact Or.inl ⟨⟨⟨hrow, hstatus⟩, hahead⟩, hstale⟩
      · exact Or.inr ⟨⟨⟨hrow, hstatus⟩, hahead⟩, hstale⟩

theorem length_upTo {limit : ℤ} (h : 0 ≤ limit) (actions : List ActionRecord) :
    ((upTo limit actions).length : ℤ) = min limit actions.length := by
  rw [upTo, if_neg (not_lt.2 h), List.length_take]
  omega

theorem mem_selected {db : Db} {t : Time} {limit : ℤ} (h : 0 ≤ limit) {a : ActionRecord}
    (ha : a ∈ worker.selected db t limit) : a ∈ db.actions.rows ∧ worker.due t a = true := by
  have hfound := (@found_perm _ worker db t limit h).subset (upTo_subset _ _ ha)
  exact List.mem_filter.1 (List.mem_of_mem_filter hfound)

theorem nodup_selected (db : Db) (t : Time) {limit : ℤ} (h : 0 ≤ limit) :
    (worker.selected db t limit).Nodup := by
  have hfound := (@found_perm _ worker db t limit h).nodup_iff.2
    (((nodup_rows db).filter _).filter _)
  unfold selected upTo
  split_ifs <;> exact hfound.sublist (List.take_sublist ..)

theorem length_selected {limit : ℤ} (h : 0 ≤ limit) (db : Db) (t : Time) :
    ((worker.selected db t limit).length : ℤ) =
      min limit ((db.actions.rows.filter (worker.due t)).countP
        fun a => (db.ahead a : ℤ) < limit) := by
  rw [selected, length_upTo h, (found_perm db t h).length_eq, List.countP_eq_length_filter]

variable {W : World X} {choices : ℕ → EngineChoice W}

theorem unmarked_of_issues {α : Type} {p : Task X α}
    (hp : p.Issues fun o : Op X => o.reconciled? = none)
    (s : ℕ × EngineState W) :
    (p.issued (execAlone W choices) s).filterMap Op.reconciled? = [] :=
  List.filterMap_eq_nil_iff.2 (Prog.forall_mem_issued hp s)

theorem unmarked_recordOutcome (id : String) (status : ActionStatus) (outcome : Option Fields) :
    (CaseKernel.recordOutcome id status outcome : Task X ActionRecord).Issues
      fun o : Op X => o.reconciled? = none :=
  issues_recordOutcome_of (fun _ => rfl) (fun _ _ _ => rfl) status outcome

/-- A call of `reconcile` marks its action, and no other. -/
theorem marked_reconcile (a : ActionRecord) (s : ℕ × EngineState W) :
    ((worker.gateway.reconcile a).issued (execAlone W choices) s).filterMap Op.reconciled? =
      [a] := by
  have hrest : ((ActionGateway.markStale a).bind fun row => if row.status ≠ .unknown then .ret row
      else worker.gateway.query row : Task X ActionRecord).Issues
        fun o : Op X => o.reconciled? = none := by
    refine Prog.issues_bind ?_ fun row => ?_
    · unfold ActionGateway.markStale
      split_ifs
      · exact unmarked_recordOutcome ..
      · trivial
    · split_ifs
      · trivial
      · refine Prog.issues_bind (Prog.issues_ofExcept _) fun resolved => ?_
        refine Prog.issues_bind (issues_ext (fun _ => rfl) _) fun outcome => ?_
        split_ifs <;> exact unmarked_recordOutcome ..
  exact congrArg (a :: ·) (unmarked_of_issues hrest _)

/-- The loop calls `reconcile` for each of its actions, whatever comes of the calls. -/
theorem marked_reconcileAll (actions : List ActionRecord) (run : WorkerRun)
    (s : ℕ × EngineState W) :
    ((worker.reconcileAll actions run).issued (execAlone W choices) s).filterMap Op.reconciled? =
      actions := by
  induction actions generalizing run s with
  | nil => rfl
  | cons a actions ih =>
    have hcall : ∃ settled s', (((worker.gateway.reconcile a).bind fun result => .ret
          (decide (result.status = .reconciled ∨ result.status = .failed))).tryCatch
        fun _ => .ret false).alone (execAlone W choices) s = (.ok settled, s') := by
      rw [Prog.alone_tryCatch, Prog.alone_bind]
      cases (worker.gateway.reconcile a).alone (execAlone W choices) s with
      | mk answer s' => cases answer <;> exact ⟨_, _, rfl⟩
    have hmarked : ((((worker.gateway.reconcile a).bind fun result => .ret
          (decide (result.status = .reconciled ∨ result.status = .failed))).tryCatch
        fun _ => .ret false).issued (execAlone W choices) s).filterMap Op.reconciled? = [a] := by
      rw [Prog.issued_tryCatch, Prog.issued_bind, Prog.alone_bind]
      cases (worker.gateway.reconcile a).alone (execAlone W choices) s with
      | mk answer s' => cases answer <;> simp [Prog.issued, marked_reconcile]
    obtain ⟨settled, s', hcall⟩ := hcall
    unfold reconcileAll
    refine (congrArg _ (Prog.issued_seq hcall)).trans (List.filterMap_append.trans ?_)
    cases settled with
    | true => exact congrArg₂ (· ++ ·) hmarked (ih _ s')
    | false => exact congrArg₂ (· ++ ·) hmarked (ih _ s')

/-- The sweep gets its two answers and the time, or raises before. -/
theorem reconciled_eq (limit : ℤ) (s : EngineState W) :
    worker.reconciled choices limit s =
      if (-(2 ^ 63) ≤ limit ∧ limit < 2 ^ 63) ∧ Time.IsDatetime
          (sweepTime choices s + seconds (-worker.dispatchStaleSeconds)) then
        worker.selected s.db (sweepTime choices s) limit
      else [] := by
  unfold reconciled issuedAlone runOnce listActions sqlInteger
  by_cases hlimit : -(2 ^ 63) ≤ limit ∧ limit < 2 ^ 63
  · rw [dif_pos hlimit]
    by_cases htime : Time.IsDatetime
        (sweepTime choices s + seconds (-worker.dispatchStaleSeconds))
    · rw [if_pos ⟨hlimit, htime⟩]
      have hplus : plusSeconds (sweepTime choices s) (-worker.dispatchStaleSeconds) = .ok _ :=
        if_pos htime
      change List.filterMap Op.reconciled? (Prog.issued (execAlone W choices)
        ((Prog.ofExcept (plusSeconds (sweepTime choices s) (-worker.dispatchStaleSeconds))).bind _)
          ((passed choices)^[3] (0, s))) = _
      rw [hplus]
      exact marked_reconcileAll ..
    · rw [if_neg fun h => htime h.2]
      have hplus : plusSeconds (sweepTime choices s) (-worker.dispatchStaleSeconds) = .error _ :=
        if_neg htime
      change List.filterMap Op.reconciled? (Prog.issued (execAlone W choices)
        ((Prog.ofExcept (plusSeconds (sweepTime choices s) (-worker.dispatchStaleSeconds))).bind _)
          ((passed choices)^[3] (0, s))) = _
      rw [hplus]
      rfl
  · rw [dif_neg hlimit, if_neg fun h => hlimit h.1]
    rfl

end

/-- A sweep that is alone: it calls `reconcile` for due actions, for as many as there are and the
limit allows. -/
structure SweepsDue {W : World X} (choices : ℕ → EngineChoice W) (limit : ℤ) (s : EngineState W) :
    Prop where
  nodup : (worker.reconciled choices limit s).Nodup
  due : ∀ a ∈ worker.reconciled choices limit s,
    a ∈ s.db.actions.rows ∧ worker.due (sweepTime choices s) a = true
  size : ((worker.reconciled choices limit s).length : ℤ) =
    min limit (s.db.actions.rows.countP (worker.due (sweepTime choices s)))

/-- It does so when nothing is asked of it, or when the queries can be made and every due action,
or enough of them, are among the first created of their status. -/
theorem sweeps_due_iff {W : World X} (choices : ℕ → EngineChoice W) (limit : ℤ)
    (s : EngineState W) : worker.SweepsDue choices limit s ↔ 0 ≤ limit ∧
      (limit = 0 ∨ (∀ a ∈ s.db.actions.rows, worker.due (sweepTime choices s) a = false) ∨
        limit < 2 ^ 63 ∧
          Time.IsDatetime (sweepTime choices s + seconds (-worker.dispatchStaleSeconds)) ∧
          ((∀ a ∈ s.db.actions.rows, worker.due (sweepTime choices s) a = true →
              (s.db.ahead a : ℤ) < limit) ∨
            limit ≤ (s.db.actions.rows.filter (worker.due (sweepTime choices s))).countP
              fun a => (s.db.ahead a : ℤ) < limit)) := by
  generalize ht : sweepTime choices s = t
  have hnone : s.db.actions.rows.countP (worker.due t) = 0 ↔
      ∀ a ∈ s.db.actions.rows, worker.due t a = false := by
    simp [List.countP_eq_zero]
  have hlisted : (s.db.actions.rows.filter (worker.due t)).countP
      (fun a => (s.db.ahead a : ℤ) < limit) = s.db.actions.rows.countP (worker.due t) ↔
        ∀ a ∈ s.db.actions.rows, worker.due t a = true → (s.db.ahead a : ℤ) < limit := by
    rw [List.countP_eq_length_filter (l := s.db.actions.rows), List.countP_eq_length]
    simp only [List.mem_filter, and_imp, decide_eq_true_eq]
  have hle : (s.db.actions.rows.filter (worker.due t)).countP
      (fun a => (s.db.ahead a : ℤ) < limit) ≤ s.db.actions.rows.countP (worker.due t) := by
    rw [List.countP_eq_length_filter (l := s.db.actions.rows)]
    exact List.countP_le_length
  rw [← hnone, ← hlisted]
  by_cases hmade : (-(2 ^ 63) ≤ limit ∧ limit < 2 ^ 63) ∧
      Time.IsDatetime (t + seconds (-worker.dispatchStaleSeconds))
  · have hcalls : worker.reconciled choices limit s = worker.selected s.db t limit := by
      rw [reconciled_eq, ht, if_pos hmade]
    constructor
    · rintro ⟨-, -, hsize⟩
      have hlimit : 0 ≤ limit := by omega
      rw [hcalls, ht, length_selected hlimit] at hsize
      refine ⟨hlimit, Or.inr (Or.inr ⟨hmade.1.2, hmade.2, ?_⟩)⟩
      omega
    · rintro ⟨hlimit, hcases⟩
      refine ⟨hcalls ▸ nodup_selected s.db t hlimit, fun a ha => ?_, ?_⟩
      · rw [ht]
        exact mem_selected hlimit (hcalls ▸ ha)
      · rw [hcalls, ht, length_selected hlimit]
        rcases hcases with hzero | hnothing | ⟨-, -, hrank⟩ <;> omega
  · -- the sweep raises before its loop
    have hcalls : worker.reconciled choices limit s = [] := by
      rw [reconciled_eq, ht, if_neg hmade]
    constructor
    · rintro ⟨-, -, hsize⟩
      rw [hcalls, ht, List.length_nil] at hsize
      omega
    · rintro ⟨hlimit, hcases⟩
      refine ⟨hcalls ▸ List.nodup_nil, fun a ha => absurd (hcalls ▸ ha) List.not_mem_nil, ?_⟩
      rw [hcalls, ht, List.length_nil]
      rcases hcases with hzero | hnothing | ⟨hbound, htime, -⟩
      · omega
      · omega
      · exact absurd ⟨⟨by omega, hbound⟩, htime⟩ hmade

end ReconciliationWorker

def sweptAction (actionId idempotencyKey : String) (createdAt : Time)
    (keyMin : 4 ≤ idempotencyKey.length) : ActionRecord where
  actionId := actionId
  command := {
    action := "add_case_note", caseId := "C-1", policyPackageId := "P-1", actorId := "agent"
    idempotencyKey := idempotencyKey, parameters := [("note", .str "n")], parameterFactRefs := []
    requiredFactAuthority := [], keyMin := keyMin }
  status := .authorized
  createdAt := createdAt
  updatedAt := createdAt

/-- Two dispatches with an unknown outcome; the older action was queried again at 100 seconds. -/
def overtakenTx : List (Time × Tx) := [
  (0, .createCase ⟨"C-1", "U-1", "proc", "1", "active", 0⟩),
  (0, .insertAction (sweptAction "ACT-1" "key-1" 0 keyMin_one) 0),
  (1, .insertAction (sweptAction "ACT-2" "key-2" 1 keyMin_two) 1),
  (2, .claimAction "ACT-1"), (2, .claimAction "ACT-2"),
  (3, .transitionAction "ACT-1" .dispatched .unknown none),
  (3, .transitionAction "ACT-2" .dispatched .unknown none),
  (seconds 100, .transitionAction "ACT-1" .unknown .unknown none)]

def overtakenStore : EngineState World.isolated where
  db := overtakenTx.zipIdx.foldl (fun db x =>
    (x.1.2.exec x.1.1 (fun n => toString (10 * x.2 + n)) db).2) .empty
  clock := seconds 110
  ext := ()

def isolatedSweeper : ReconciliationWorker ⟨Empty, Empty.elim⟩ :=
  { gateway := Engine.isolated.gateway }

/-- The older action takes the only place, and the due one is passed over. -/
theorem due_action_starved :
    ¬ isolatedSweeper.SweepsDue (fun _ => ⟨toString, 0, ()⟩) 1 overtakenStore := by
  intro h
  have hdue : overtakenStore.db.actions.rows.countP (isolatedSweeper.due
      (ReconciliationWorker.sweepTime (fun _ => ⟨toString, 0, ()⟩) overtakenStore)) = 1 := by
    decide +kernel
  have hnone : (isolatedSweeper.reconciled (fun _ => ⟨toString, 0, ()⟩) 1
      overtakenStore).length = 0 := by decide +kernel
  have hsize := h.size
  rw [hdue, hnone] at hsize
  omega

end WorkflowEngine
