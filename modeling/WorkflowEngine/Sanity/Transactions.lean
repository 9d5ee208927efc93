import WorkflowEngine.Spec.Store

/-! What a transaction that commits has done. Later proofs read these facts and do not
unfold the transactions. -/

namespace WorkflowEngine

open Relational

namespace Txn

variable {α β : Type} {db db' db'' : Db}

theorem commit_eq_ok {t : Txn α} {a : α} : t.commit db = (.ok a, db') ↔ t db = .ok (a, db') := by
  unfold commit
  cases h : t db with
  | error e => simp
  | ok r => simp [Prod.ext_iff]

/-- A transaction that raises leaves the database as it was. -/
theorem commit_error {t : Txn α} {e : PyErr} (h : (t.commit db).1 = .error e) :
    (t.commit db).2 = db := by
  unfold commit at h ⊢
  cases ht : t db with
  | error e => rfl
  | ok r => simp [ht] at h

theorem commit_cases (t : Txn α) (db : Db) :
    (∃ e, t.commit db = (.error e, db)) ∨ ∃ a db', t.commit db = (.ok a, db') := by
  unfold commit
  cases t db with
  | error e => exact Or.inl ⟨e, rfl⟩
  | ok r => exact Or.inr ⟨r.1, r.2, rfl⟩

theorem bind_eq_ok {t : Txn α} {f : α → Txn β} {b : β} :
    (t >>= f) db = .ok (b, db'') ↔ ∃ a db', t db = .ok (a, db') ∧ f a db' = .ok (b, db'') := by
  change (t db >>= fun p => f p.1 p.2) = _ ↔ _
  cases h : t db with
  | error e =>
    simp only [false_and, exists_false, iff_false, reduceCtorEq]
    exact fun h => by cases h
  | ok r =>
    constructor
    · exact fun h => ⟨r.1, r.2, rfl, h⟩
    · rintro ⟨a, db', h1, h2⟩
      cases h1
      exact h2

theorem pure_eq_ok {a b : α} : (pure a : Txn α) db = .ok (b, db') ↔ b = a ∧ db' = db := by
  constructor
  · intro h
    cases h
    exact ⟨rfl, rfl⟩
  · rintro ⟨rfl, rfl⟩
    rfl

theorem throw_ne_ok {e : PyErr} {a : α} : (throw e : Txn α) db ≠ .ok (a, db') := nofun

/-- A test that raises was passed. -/
theorem check_eq_ok {c : Prop} [Decidable c] {e : PyErr} {f : Unit → Txn α} {a : α} :
    (if c then (throw e >>= f) else f ()) db = .ok (a, db') ↔ ¬ c ∧ f () db = .ok (a, db') := by
  split_ifs with h
  · simp only [h, not_true, false_and, iff_false, bind_eq_ok]
    rintro ⟨_, _, h1, -⟩
    cases h1
  · simp [h]

theorem guard_eq_ok {c : Prop} [Decidable c] {e : PyErr} {u : Unit} :
    (if c then throw e else pure () : Txn Unit) db = .ok (u, db') ↔ ¬ c ∧ db' = db := by
  split_ifs with h
  · simp only [h, not_true, false_and, iff_false]
    exact throw_ne_ok
  · simp [h, pure_eq_ok]

theorem insertCase_eq_ok {r : CaseRecord} {u : Unit} :
    insertCase r db = .ok (u, db') ↔
      ∃ t, db.cases.insert? r = some t ∧ db' = { db with cases := t } := by
  unfold insertCase
  cases db.cases.insert? r <;> simp [eq_comm]

theorem insertActionRow_eq_ok {r : ActionRecord} {u : Unit} :
    insertActionRow r db = .ok (u, db') ↔
      ∃ t, db.actions.insert? r = some t ∧ db' = { db with actions := t } := by
  unfold insertActionRow
  cases db.actions.insert? r <;> simp [eq_comm]

theorem insertEvent_eq_ok {r : ActionEvent} {u : Unit} :
    insertEvent r db = .ok (u, db') ↔
      ∃ t, db.events.insert? r = some t ∧ db' = { db with events := t } := by
  unfold insertEvent
  cases db.events.insert? r <;> simp [eq_comm]

theorem insertProposal_eq_ok {r : ActionProposal} {u : Unit} :
    insertProposal r db = .ok (u, db') ↔
      ∃ t, db.proposals.insert? r = some t ∧ db' = { db with proposals := t } := by
  unfold insertProposal
  cases db.proposals.insert? r <;> simp [eq_comm]

theorem insertOutbox_eq_ok {r : OutboxRecord} {u : Unit} :
    insertOutbox r db = .ok (u, db') ↔
      ∃ t, db.outbox.insert? r = some t ∧ db' = { db with outbox := t } := by
  unfold insertOutbox
  cases db.outbox.insert? r <;> simp [eq_comm]

/-- The case after its version was bumped. -/
def bumped (c : CaseRecord) : CaseRecord := { c with version := c.version + 1 }

/-- `bumpVersion` reports one row exactly when the case is there at the expected version, and
then changes that case alone. -/
theorem bumpVersion_one {caseId : String} {v : ℤ} {n : ℕ}
    (h : bumpVersion caseId v db = .ok (n, db')) (hn : n = 1) :
    (∃ c, db.case? caseId = some c ∧ c.version = v) ∧
    ∃ t, db' = { db with cases := t } ∧
      ∀ id, t.get? () id = if id = caseId then (db.case? id).map bumped else db.case? id := by
  subst hn
  unfold bumpVersion at h
  simp only [Except.ok.injEq, Prod.mk.injEq] at h
  obtain ⟨hc, rfl⟩ := h
  obtain ⟨c, hg, hv⟩ := (Table.count_eq_one (t := db.cases) (i := ())
    (q := fun c => decide (c.version = v))).1 hc
  have hv : c.version = v := by simpa using hv
  refine ⟨⟨c, hg, hv⟩, _, rfl, fun id => ?_⟩
  simp only [Db.case?, Table.get?_updateWhere]
  cases hid : db.cases.get? () id with
  | none => simp
  | some d =>
    obtain ⟨-, rfl⟩ := Table.get?_eq_some.1 hid
    by_cases hd : d.caseId = caseId
    · have : d = c := by
        rw [hd, hg] at hid
        cases hid
        rfl
      subst this
      simp [hd, hv, bumped]
    · simp [hd]

end Txn

theorem Db.mem_of_oldest {α : Type} {createdAt : α → Time} {limit : ℤ} {rows : List α} {a : α}
    (h : a ∈ oldest createdAt limit rows) : a ∈ rows := by
  unfold oldest at h
  split_ifs at h
  · exact (List.mem_insertionSort _).1 h
  · exact (List.mem_insertionSort _).1 (List.mem_of_mem_take h)

theorem created_of_ok {record : CaseRecord} {db db' : Db}
    (h : (Txn.createCase record).commit db = (.ok (), db')) :
    db'.case? record.caseId = some record := by
  obtain ⟨t, ht, rfl⟩ := Txn.insertCase_eq_ok.1 (Txn.commit_eq_ok.1 h)
  exact (Table.get?_insert? ht () record.caseId).trans (if_pos rfl)

theorem proposed_of_ok {record : ActionProposal} {db db' : Db}
    (h : (Txn.insertProposal record).commit db = (.ok (), db')) :
    db'.proposal? record.proposalId = some record := by
  obtain ⟨t, ht, rfl⟩ := Txn.insertProposal_eq_ok.1 (Txn.commit_eq_ok.1 h)
  exact (Table.get?_insert? ht () record.proposalId).trans (if_pos rfl)

/-- A committed `append_fact`. -/
structure Appended (now : Time) (caseId : String) (proposal : FactProposal) (v : ℤ)
    (db db' : Db) : Prop where
  found : ∃ c, db.case? caseId = some c ∧ c.version = v
  cases : ∀ id, db'.case? id =
    if id = caseId then (db.case? id).map Txn.bumped else db.case? id
  fact : db'.fact? caseId proposal.name =
    some { proposal with caseId, committedAt := now }
  facts : ∀ c n, (c, n) ≠ (caseId, proposal.name) → db'.fact? c n = db.fact? c n
  frame : db' = { db with cases := db'.cases, facts := db'.facts }

theorem appended_of_ok {now : Time} {caseId : String} {proposal : FactProposal} {v : ℤ}
    {db db' : Db} (h : (Txn.appendFact now caseId proposal v).commit db = (.ok (), db')) :
    Appended now caseId proposal v db db' := by
  unfold Txn.appendFact at h
  obtain ⟨n, db1, hb, h⟩ := Txn.bind_eq_ok.1 (Txn.commit_eq_ok.1 h)
  obtain ⟨hn, h⟩ := Txn.check_eq_ok.1 h
  obtain ⟨hf, t, rfl, hc⟩ := Txn.bumpVersion_one hb (not_not.1 hn)
  simp only [Txn.upsertFact] at h
  cases hi : db.facts.insert? { proposal with caseId, committedAt := now } with
  | some t =>
    rw [hi] at h
    simp only [Except.ok.injEq, Prod.mk.injEq, true_and] at h
    subst h
    have hg := fun k => Table.get?_insert? hi () k
    refine ⟨hf, hc, ?_, fun c n hne => ?_, rfl⟩
    · simpa [Db.fact?] using hg (caseId, proposal.name)
    · simpa [Db.fact?, hne] using hg (c, n)
  | none =>
    rw [hi] at h
    simp only [Except.ok.injEq, Prod.mk.injEq, true_and] at h
    subst h
    obtain ⟨_, old, hold⟩ := Table.insert?_eq_none.1 hi
    refine ⟨hf, hc, ?_, fun c n hne => ?_, rfl⟩
    · have hk := (Table.get?_eq_some.1 hold).2
      simp only [Prod.mk.injEq] at hk
      simp [Db.fact?, Table.get?_updateWhere, hold, hk.1, hk.2]
    · simp only [Db.fact?, Table.get?_updateWhere]
      cases hcn : db.facts.get? () (c, n) with
      | none => rfl
      | some g =>
        have hk := (Table.get?_eq_some.1 hcn).2
        rw [← hk, ne_eq, Prod.mk.injEq] at hne
        simp [hne]

/-- The outbox row that `insert_action` writes. -/
def dispatchRow (now : Time) (outboxId actionId : String) : OutboxRecord where
  outboxId := outboxId
  topic := "action.dispatch"
  aggregateId := actionId
  payload := [("action_id", .str actionId)]
  status := .pending
  availableAt := now
  createdAt := now
  updatedAt := now

/-- A committed `insert_action`. -/
structure Inserted (now : Time) (ids : ℕ → String) (record : ActionRecord) (v : ℤ)
    (db db' : Db) : Prop where
  found : ∃ c, db.case? record.command.caseId = some c ∧ c.version = v
  cases : ∀ id, db'.case? id =
    if id = record.command.caseId then (db.case? id).map Txn.bumped else db.case? id
  action : db.actions.insert? { record with outcome := none } = some db'.actions
  events : db'.events.rows = db.events.rows ++
    [⟨"AEV-" ++ ids 0, record.actionId, .requested, none, now⟩,
      ⟨"AEV-" ++ ids 1, record.actionId, .authorized, none, now⟩]
  outbox : db.outbox.insert? (dispatchRow now ("OUT-" ++ ids 2) record.actionId) = some db'.outbox
  frame : db' = { db with
    cases := db'.cases, actions := db'.actions, events := db'.events, outbox := db'.outbox }

theorem inserted_of_ok {now : Time} {ids : ℕ → String} {record : ActionRecord} {v : ℤ}
    {db db' : Db} (h : (Txn.insertAction now ids record v).commit db = (.ok (), db')) :
    Inserted now ids record v db db' := by
  unfold Txn.insertAction at h
  obtain ⟨n, db1, hb, h⟩ := Txn.bind_eq_ok.1 (Txn.commit_eq_ok.1 h)
  obtain ⟨hn, h⟩ := Txn.check_eq_ok.1 h
  obtain ⟨hf, t, rfl, hc⟩ := Txn.bumpVersion_one hb (not_not.1 hn)
  obtain ⟨_, db2, ha, h⟩ := Txn.bind_eq_ok.1 h
  obtain ⟨ta, hta, rfl⟩ := Txn.insertActionRow_eq_ok.1 ha
  obtain ⟨_, db3, he, h⟩ := Txn.bind_eq_ok.1 h
  obtain ⟨t1, ht1, rfl⟩ := Txn.insertEvent_eq_ok.1 he
  obtain ⟨_, db4, he, h⟩ := Txn.bind_eq_ok.1 h
  obtain ⟨t2, ht2, rfl⟩ := Txn.insertEvent_eq_ok.1 he
  obtain ⟨tb, hto, rfl⟩ := Txn.insertOutbox_eq_ok.1 h
  refine ⟨hf, hc, hta, ?_, hto, rfl⟩
  have e1 := (Table.rows_of_insert? ht1).1
  have e2 := (Table.rows_of_insert? ht2).1
  simp only at e1 e2 ⊢
  rw [e2, e1, List.append_assoc]
  rfl

/-- A committed change of one action from `expected` by `f`, with its event. -/
structure Moved (actionId : String) (expected : ActionStatus) (f : ActionRecord → ActionRecord)
    (event : ActionEvent) (db db' : Db) : Prop where
  found : ∃ a, db.action? actionId = some a ∧ a.status = expected
  actions : ∀ i k, db'.actions.get? i k = (db.actions.get? i k).map fun a =>
    if a.actionId = actionId then f a else a
  rows : ∀ b, b ∈ db'.actions.rows ↔ ∃ a ∈ db.actions.rows,
    b = if a.actionId = actionId then f a else a
  events : db'.events.rows = db.events.rows ++ [event]
  frame : db' = { db with actions := db'.actions, events := db'.events }

private theorem moved_of_ok {actionId : String} {expected : ActionStatus}
    {f : ActionRecord → ActionRecord} {hf : ∀ i a, ActionColumn.of i (f a) = ActionColumn.of i a}
    {event : ActionEvent} {n : ℕ} {u : Unit} {db db1 db' : Db}
    (hu : Txn.updateActionWhere actionId expected f hf db = .ok (n, db1)) (hn : n = 1)
    (he : Txn.insertEvent event db1 = .ok (u, db')) :
    Moved actionId expected f event db db' := by
  obtain ⟨t, ht, rfl⟩ := Txn.insertEvent_eq_ok.1 he
  unfold Txn.updateActionWhere at hu
  simp only [Except.ok.injEq, Prod.mk.injEq] at hu
  obtain ⟨hc, rfl⟩ := hu
  obtain ⟨a, ha, hs⟩ := (Table.count_eq_one (t := db.actions) (i := .id)
    (q := fun a => decide (a.status = expected))).1 (hc.trans hn)
  have hs : a.status = expected := by simpa using hs
  -- the status test of the update is settled by the only row with this id
  have hsame : ∀ b ∈ db.actions.rows, b.actionId = actionId → b.status = expected := by
    intro b hb hid
    have hb' : db.actions.get? .id actionId = some b := Table.get?_eq_some.2 ⟨hb, hid⟩
    rw [ha] at hb'
    cases hb'
    exact hs
  have hif : ∀ b ∈ db.actions.rows,
      (if (decide (b.actionId = actionId) && decide (b.status = expected)) = true then f b else b) =
        if b.actionId = actionId then f b else b := by
    intro b hb
    by_cases hid : b.actionId = actionId
    · simp [hid, hsame b hb hid]
    · simp [hid]
  refine ⟨⟨a, ha, hs⟩, fun i k => ?_, fun b => ?_, (Table.rows_of_insert? ht).1, rfl⟩
  · rw [Table.get?_updateWhere]
    cases hk : db.actions.get? i k with
    | none => rfl
    | some b => simp only [Option.map_some, hif b (Table.get?_eq_some.1 hk).1]
  · rw [Table.mem_updateWhere]
    constructor
    · rintro ⟨c, hc, rfl⟩
      exact ⟨c, hc, hif c hc⟩
    · rintro ⟨c, hc, rfl⟩
      exact ⟨c, hc, (hif c hc).symm⟩

theorem transitioned_of_ok {now : Time} {ids : ℕ → String} {actionId : String}
    {expected status : ActionStatus} {outcome : Option Fields} {db db' : Db}
    (h : (Txn.transitionAction now ids actionId expected status outcome).commit db =
      (.ok (), db')) :
    Moved actionId expected (fun a => { a with status, outcome, updatedAt := now })
      ⟨"AEV-" ++ ids 0, actionId, status, outcome, now⟩ db db' := by
  unfold Txn.transitionAction at h
  obtain ⟨n, db1, hu, h⟩ := Txn.bind_eq_ok.1 (Txn.commit_eq_ok.1 h)
  obtain ⟨hn, h⟩ := Txn.check_eq_ok.1 h
  exact moved_of_ok hu (not_not.1 hn) h

theorem claimed_of_ok {now : Time} {ids : ℕ → String} {actionId : String} {db db' : Db}
    (h : (Txn.claimAction now ids actionId).commit db = (.ok true, db')) :
    Moved actionId .authorized (fun a => { a with status := .dispatched, updatedAt := now })
      ⟨"AEV-" ++ ids 0, actionId, .dispatched, none, now⟩ db db' := by
  unfold Txn.claimAction at h
  obtain ⟨n, db1, hu, h⟩ := Txn.bind_eq_ok.1 (Txn.commit_eq_ok.1 h)
  dsimp only at h
  split_ifs at h with hn
  · obtain ⟨_, db2, he, h⟩ := Txn.bind_eq_ok.1 h
    obtain ⟨-, rfl⟩ := Txn.pure_eq_ok.1 h
    exact moved_of_ok hu hn he
  · obtain ⟨ht, -⟩ := Txn.pure_eq_ok.1 h
    simp [hn] at ht

/-- A claim that loses changes nothing: no row has this id and is `AUTHORIZED`. -/
theorem unclaimed_of_ok {now : Time} {ids : ℕ → String} {actionId : String} {db db' : Db}
    (h : (Txn.claimAction now ids actionId).commit db = (.ok false, db')) :
    db' = db ∧ ∀ a, db.action? actionId = some a → a.status ≠ .authorized := by
  unfold Txn.claimAction at h
  obtain ⟨n, db1, hu, h⟩ := Txn.bind_eq_ok.1 (Txn.commit_eq_ok.1 h)
  dsimp only at h
  split_ifs at h with hn
  · obtain ⟨_, db2, he, h⟩ := Txn.bind_eq_ok.1 h
    obtain ⟨ht, -⟩ := Txn.pure_eq_ok.1 h
    simp [hn] at ht
  · obtain ⟨-, rfl⟩ := Txn.pure_eq_ok.1 h
    unfold Txn.updateActionWhere at hu
    simp only [Except.ok.injEq, Prod.mk.injEq] at hu
    obtain ⟨hc, rfl⟩ := hu
    have hle : n ≤ 1 :=
      hc ▸ db.actions.count_le_one .id actionId fun a => decide (a.status = .authorized)
    have hz : n = 0 := by omega
    refine ⟨by rw [Table.updateWhere_of_count (hc.trans hz)], fun a ha hs => hn ?_⟩
    rw [← hc]
    exact (Table.count_eq_one (t := db.actions) (i := .id)
      (q := fun a => decide (a.status = .authorized))).2 ⟨a, ha, by simpa using hs⟩

/-- A committed change of the status of a proposal. -/
structure Decided (now : Time) (proposalId : String) (expected status : ActionProposalStatus)
    (db db' : Db) : Prop where
  found : ∃ p, db.proposal? proposalId = some p ∧ p.status = expected
  proposal : ∀ p, db.proposal? proposalId = some p → ∃ p', db'.proposal? proposalId = some p' ∧
    p'.status = status ∧ p'.idempotencyKey = p.idempotencyKey ∧ p'.expiresAt = p.expiresAt
  others : ∀ id, id ≠ proposalId → db'.proposal? id = db.proposal? id
  frame : db' = { db with proposals := db'.proposals }

theorem decided_of_ok {now : Time} {proposalId : String} {expected status : ActionProposalStatus}
    {evidence actionId : Option String} {db db' : Db}
    (h : (Txn.transitionProposal now proposalId expected status evidence actionId).commit db =
      (.ok (), db')) : Decided now proposalId expected status db db' := by
  unfold Txn.transitionProposal at h
  obtain ⟨d, db1, hg, h⟩ := Txn.bind_eq_ok.1 (Txn.commit_eq_ok.1 h)
  cases hg
  obtain ⟨_, db2, hs, h⟩ := Txn.bind_eq_ok.1 h
  cases hs
  obtain ⟨hc, rfl⟩ := Txn.guard_eq_ok.1 h
  obtain ⟨p, hp, hs⟩ := (Table.count_eq_one (t := db.proposals) (i := ())
    (q := fun r => decide (r.status = expected))).1 (not_not.1 hc)
  have hst : p.status = expected := by simpa using hs
  have hid : p.proposalId = proposalId := (Table.get?_eq_some.1 hp).2
  refine ⟨⟨p, hp, hst⟩, fun q hq => ?_, fun id hne => ?_, rfl⟩
  · obtain rfl : p = q := Option.some.inj (hp.symm.trans hq)
    simp only [Db.proposal?, Table.get?_updateWhere, hp]
    simp [hid, hst]
  · simp only [Db.proposal?, Table.get?_updateWhere]
    cases hq : db.proposals.get? () id with
    | none => rfl
    | some q =>
      obtain ⟨-, rfl⟩ := Table.get?_eq_some.1 hq
      simp [hne]

theorem insertEvents_eq_ok {es : List ActionEvent} {u : Unit} {db db' : Db}
    (h : Txn.insertEvents es db = .ok (u, db')) :
    db'.events.rows = db.events.rows ++ es ∧ db' = { db with events := db'.events } := by
  induction es generalizing db with
  | nil =>
    obtain ⟨-, rfl⟩ := Txn.pure_eq_ok.1 h
    exact ⟨by simp, rfl⟩
  | cons e es ih =>
    obtain ⟨_, db1, he, h⟩ := Txn.bind_eq_ok.1 h
    obtain ⟨t, ht, rfl⟩ := Txn.insertEvent_eq_ok.1 he
    obtain ⟨hr, hf⟩ := ih h
    refine ⟨?_, hf⟩
    rw [hr, (Table.rows_of_insert? ht).1, List.append_assoc, List.singleton_append]

def backfillMarker : String := "action_events_v3_backfill"

/-- The events that the first `initialize` of a database writes. -/
def backfill (ids : ℕ → String) (db : Db) : List ActionEvent :=
  let legacy := db.actions.rows.filter fun a => (db.eventsOf a.actionId).isEmpty
  let events := legacy.flatMap fun a => (Txn.backfillSequence a.status).map fun s => (a, s)
  events.zipIdx.map fun ((a, s), n) =>
    ⟨"AEV-" ++ ids n, a.actionId, s, some [("migrated", .bool true)],
      if s = a.status then a.updatedAt else a.createdAt⟩

theorem initialized_of_ok {ids : ℕ → String} {db db' : Db}
    (h : (Txn.initializeStore ids).commit db = (.ok (), db')) :
    (backfillMarker ∈ db.migrations ∧ db' = db) ∨
    (backfillMarker ∉ db.migrations ∧ db'.events.rows = db.events.rows ++ backfill ids db ∧
      db' = { db with events := db'.events, migrations := db.migrations ++ [backfillMarker] }) := by
  unfold Txn.initializeStore at h
  obtain ⟨d, db1, hg, h⟩ := Txn.bind_eq_ok.1 (Txn.commit_eq_ok.1 h)
  cases hg
  dsimp only at h
  by_cases hm : "action_events_v3_backfill" ∈ db.migrations
  · rw [if_pos hm] at h
    exact Or.inl ⟨hm, (Txn.pure_eq_ok.1 h).2⟩
  · rw [if_neg hm] at h
    obtain ⟨_, db2, he, h⟩ := Txn.bind_eq_ok.1 h
    obtain ⟨hr, hf⟩ := insertEvents_eq_ok he
    cases h
    exact Or.inr ⟨hm, hr, by rw [hf]; rfl⟩

namespace Db

theorem outbox?_lease (db : Db) (owner : String) (now leaseUntil : Time) (ids : List String)
    (oid : String) : (db.lease owner now leaseUntil ids).outbox? oid =
      (db.outbox? oid).map fun r => if oid ∈ ids then leaseRow owner now leaseUntil r else r := by
  refine (db.outbox.get?_updateWhere _ (leaseRow owner now leaseUntil) (fun _ _ => rfl)
    () oid).trans (Option.map_congr fun r hr => ?_)
  obtain ⟨-, rfl⟩ := Table.get?_eq_some.1 hr
  simp

theorem outbox?_settle (db : Db) (outboxId : String) (status : OutboxStatus)
    (retryAt : Option Time) (error : Option String) (now : Time) (oid : String) :
    (db.settle outboxId status retryAt error now).outbox? oid = (db.outbox? oid).map fun r =>
      if oid = outboxId then settleRow status retryAt error now r else r := by
  refine (db.outbox.get?_updateWhere _ (settleRow status retryAt error now) (fun _ _ => rfl)
    () oid).trans (Option.map_congr fun r hr => ?_)
  obtain ⟨-, rfl⟩ := Table.get?_eq_some.1 hr
  simp

end Db

namespace Tx

/-- The answer tells that the transaction took effect. Reads take none, and neither does a
claim that loses. -/
def committed : (o : Tx) → o.Res → Bool
  | .createCase _, .ok _ => true
  | .appendFact .., .ok _ => true
  | .insertAction .., .ok _ => true
  | .transitionAction .., .ok _ => true
  | .claimAction _, .ok claimed => claimed
  | .createProposal _, .ok _ => true
  | .transitionProposal .., .ok _ => true
  | .insertOutbox _, .ok _ => true
  | _, _ => false

/-- Everything that a transaction can do to the database. -/
inductive Effect (now : Time) (ids : ℕ → String) (db : Db) : (o : Tx) → o.Res → Db → Prop
  | nothing {o : Tx} {r : o.Res} (h : committed o r = false) : Effect now ids db o r db
  | initialized {db' : Db} (hm : backfillMarker ∉ db.migrations)
      (he : db'.events.rows = db.events.rows ++ backfill ids db)
      (hf : db' = { db with
        events := db'.events, migrations := db.migrations ++ [backfillMarker] }) :
      Effect now ids db .initializeStore (.ok ()) db'
  | created {record : CaseRecord} {t} (h : db.cases.insert? record = some t) :
      Effect now ids db (.createCase record) (.ok ()) { db with cases := t }
  | appended {caseId : String} {proposal : FactProposal} {v : ℤ} {db' : Db}
      (h : Appended now caseId proposal v db db') :
      Effect now ids db (.appendFact caseId proposal v) (.ok ()) db'
  | inserted {record : ActionRecord} {v : ℤ} {db' : Db} (h : Inserted now ids record v db db') :
      Effect now ids db (.insertAction record v) (.ok ()) db'
  | moved {id : String} {expected status : ActionStatus} {outcome : Option Fields} {db' : Db}
      (h : Moved id expected (fun a => { a with status, outcome, updatedAt := now })
        ⟨"AEV-" ++ ids 0, id, status, outcome, now⟩ db db') :
      Effect now ids db (.transitionAction id expected status outcome) (.ok ()) db'
  | claimed {id : String} {db' : Db}
      (h : Moved id .authorized (fun a => { a with status := .dispatched, updatedAt := now })
        ⟨"AEV-" ++ ids 0, id, .dispatched, none, now⟩ db db') :
      Effect now ids db (.claimAction id) (.ok true) db'
  | proposed {record : ActionProposal} {t} (h : db.proposals.insert? record = some t) :
      Effect now ids db (.createProposal record) (.ok ()) { db with proposals := t }
  | decided {id : String} {expected status : ActionProposalStatus}
      {evidence actionId : Option String} {db' : Db} (h : Decided now id expected status db db') :
      Effect now ids db (.transitionProposal id expected status evidence actionId) (.ok ()) db'
  | enqueued {record : OutboxRecord} {t} (h : db.outbox.insert? record = some t) :
      Effect now ids db (.insertOutbox record) (.ok ()) { db with outbox := t }
  | leased {owner : String} {start leaseUntil : Time} {limit : ℤ} :
      Effect now ids db (.claimOutbox owner start leaseUntil limit) (db.dueIds start limit)
        (db.lease owner start leaseUntil (db.dueIds start limit))
  | settled {id : String} {status : OutboxStatus} {retryAt : Option Time} {error : Option String}
      {at' : Time} :
      Effect now ids db (.updateOutbox id status retryAt error at') ()
        (db.settle id status retryAt error at')

theorem effect_of_exec {now : Time} {ids : ℕ → String} {db db' : Db} {o : Tx} {r : o.Res}
    (h : o.exec now ids db = (r, db')) : Effect now ids db o r db' := by
  cases o with
  | getCase | getFact | getActionByKey | getAction | listActions | listActionEvents | getProposal
  | selectOutbox =>
    cases h
    exact .nothing rfl
  | claimOutbox =>
    cases h
    exact .leased
  | updateOutbox =>
    cases h
    exact .settled
  | initializeStore =>
    rcases Txn.commit_cases (Txn.initializeStore ids) db with ⟨e, hc⟩ | ⟨a, d, hc⟩
    · cases hc.symm.trans h
      exact .nothing rfl
    · cases hc.symm.trans h
      rcases initialized_of_ok hc with ⟨-, rfl⟩ | ⟨hm, he, hf⟩
      · exact .nothing rfl
      · exact .initialized hm he hf
  | createCase record =>
    rcases Txn.commit_cases (Txn.createCase record) db with ⟨e, hc⟩ | ⟨a, d, hc⟩
    · cases hc.symm.trans h
      exact .nothing rfl
    · cases hc.symm.trans h
      obtain ⟨t, ht, rfl⟩ := Txn.insertCase_eq_ok.1 (Txn.commit_eq_ok.1 hc)
      exact .created ht
  | appendFact caseId proposal v =>
    rcases Txn.commit_cases (Txn.appendFact now caseId proposal v) db with ⟨e, hc⟩ | ⟨a, d, hc⟩
    · cases hc.symm.trans h
      exact .nothing rfl
    · cases hc.symm.trans h
      exact .appended (appended_of_ok hc)
  | insertAction record v =>
    rcases Txn.commit_cases (Txn.insertAction now ids record v) db with ⟨e, hc⟩ | ⟨a, d, hc⟩
    · cases hc.symm.trans h
      exact .nothing rfl
    · cases hc.symm.trans h
      exact .inserted (inserted_of_ok hc)
  | transitionAction id expected status outcome =>
    rcases Txn.commit_cases (Txn.transitionAction now ids id expected status outcome) db with
      ⟨e, hc⟩ | ⟨a, d, hc⟩
    · cases hc.symm.trans h
      exact .nothing rfl
    · cases hc.symm.trans h
      exact .moved (transitioned_of_ok hc)
  | claimAction id =>
    rcases Txn.commit_cases (Txn.claimAction now ids id) db with ⟨e, hc⟩ | ⟨a, d, hc⟩
    · cases hc.symm.trans h
      exact .nothing rfl
    · cases hc.symm.trans h
      cases a
      · obtain ⟨rfl, -⟩ := unclaimed_of_ok hc
        exact .nothing rfl
      · exact .claimed (claimed_of_ok hc)
  | createProposal record =>
    rcases Txn.commit_cases (Txn.insertProposal record) db with ⟨e, hc⟩ | ⟨a, d, hc⟩
    · cases hc.symm.trans h
      exact .nothing rfl
    · cases hc.symm.trans h
      obtain ⟨t, ht, rfl⟩ := Txn.insertProposal_eq_ok.1 (Txn.commit_eq_ok.1 hc)
      exact .proposed ht
  | transitionProposal id expected status evidence actionId =>
    rcases Txn.commit_cases
      (Txn.transitionProposal now id expected status evidence actionId) db with
      ⟨e, hc⟩ | ⟨a, d, hc⟩
    · cases hc.symm.trans h
      exact .nothing rfl
    · cases hc.symm.trans h
      exact .decided (decided_of_ok hc)
  | insertOutbox record =>
    rcases Txn.commit_cases (Txn.insertOutbox record) db with ⟨e, hc⟩ | ⟨a, d, hc⟩
    · cases hc.symm.trans h
      exact .nothing rfl
    · cases hc.symm.trans h
      obtain ⟨t, ht, rfl⟩ := Txn.insertOutbox_eq_ok.1 (Txn.commit_eq_ok.1 hc)
      exact .enqueued ht

theorem effect (now : Time) (ids : ℕ → String) (db : Db) (o : Tx) :
    Effect now ids db o (o.exec now ids db).1 (o.exec now ids db).2 := effect_of_exec rfl

/-- What a transaction can do to a row of the outbox. -/
theorem Effect.outbox_cases {now : Time} {ids : ℕ → String} {db db' : Db} {o : Tx} {res : o.Res}
    (h : Effect now ids db o res db') {oid : String} {r : OutboxRecord}
    (hr : db.outbox? oid = some r) :
    db'.outbox? oid = some r ∨
    (∃ owner start leaseUntil limit, o = .claimOutbox owner start leaseUntil limit ∧
      oid ∈ db.dueIds start limit ∧ db'.outbox? oid = some (Db.leaseRow owner start leaseUntil r)) ∨
    ∃ status retryAt error at', o = .updateOutbox oid status retryAt error at' ∧
      db'.outbox? oid = some (Db.settleRow status retryAt error at' r) := by
  have hsame : db'.outbox = db.outbox → db'.outbox? oid = some r := by
    intro he
    rw [Db.outbox?, he]
    exact hr
  cases h with
  | @leased owner start leaseUntil limit =>
    rw [Db.outbox?_lease, hr, Option.map_some]
    split_ifs with hid
    · exact Or.inr (Or.inl ⟨owner, start, leaseUntil, limit, rfl, hid, rfl⟩)
    · exact Or.inl rfl
  | @settled id status retryAt error at' =>
    rw [Db.outbox?_settle, hr, Option.map_some]
    split_ifs with hid
    · subst hid
      exact Or.inr (Or.inr ⟨status, retryAt, error, at', rfl, rfl⟩)
    · exact Or.inl rfl
  | inserted h => exact Or.inl (Table.get?_of_insert? h.outbox hr)
  | enqueued h => exact Or.inl (Table.get?_of_insert? h hr)
  | initialized _ _ hf => exact Or.inl (hsame (by rw [hf]))
  | appended h => exact Or.inl (hsame (by rw [h.frame]))
  | moved h => exact Or.inl (hsame (by rw [h.frame]))
  | claimed h => exact Or.inl (hsame (by rw [h.frame]))
  | decided h => exact Or.inl (hsame (by rw [h.frame]))
  | _ => exact Or.inl (hsame rfl)

/-- A row that is new in the outbox was enqueued, or belongs to a new action. -/
theorem Effect.outbox_appeared {now : Time} {ids : ℕ → String} {db db' : Db} {o : Tx} {res : o.Res}
    (h : Effect now ids db o res db') {oid : String} {r : OutboxRecord}
    (hnone : db.outbox? oid = none) (hr : db'.outbox? oid = some r) :
    o = .insertOutbox r ∨
    ∃ record v, o = .insertAction record v ∧
      r = dispatchRow now ("OUT-" ++ ids 2) record.actionId := by
  have hsame : db'.outbox = db.outbox → False := by
    intro he
    rw [Db.outbox?, he] at hr
    exact absurd (hnone.symm.trans hr) nofun
  cases h with
  | @leased owner start leaseUntil limit =>
    rw [Db.outbox?_lease, hnone] at hr
    cases hr
  | @settled id status retryAt error at' =>
    rw [Db.outbox?_settle, hnone] at hr
    cases hr
  | @inserted record v _ h =>
    have hg := (Table.get?_insert? h.outbox () oid).symm.trans hr
    split_ifs at hg
    · cases hg
      exact Or.inr ⟨record, v, rfl, rfl⟩
    · exact absurd (hnone.symm.trans hg) nofun
  | enqueued h =>
    have hg := (Table.get?_insert? h () oid).symm.trans hr
    split_ifs at hg
    · cases hg
      exact Or.inl rfl
    · exact absurd (hnone.symm.trans hg) nofun
  | initialized _ _ hf => exact (hsame (by rw [hf])).elim
  | appended h => exact (hsame (by rw [h.frame])).elim
  | moved h => exact (hsame (by rw [h.frame])).elim
  | claimed h => exact (hsame (by rw [h.frame])).elim
  | decided h => exact (hsame (by rw [h.frame])).elim
  | _ => exact (hsame rfl).elim

/-- Where a stored proposal comes from. -/
theorem Effect.proposal_cases {now : Time} {ids : ℕ → String} {db db' : Db} {o : Tx} {res : o.Res}
    (h : Effect now ids db o res db') {id : String} {p' : ActionProposal}
    (hp' : db'.proposal? id = some p') :
    (o = .createProposal p' ∧ db.proposal? id = none) ∨
    ∃ p, db.proposal? id = some p ∧ p'.idempotencyKey = p.idempotencyKey ∧
      (p'.status = p.status ∨ ∃ status evidence actionId,
        o = .transitionProposal id p.status status evidence actionId ∧ p'.status = status) := by
  have hsame : db'.proposals = db.proposals →
      ∃ p, db.proposal? id = some p ∧ p'.idempotencyKey = p.idempotencyKey ∧
        (p'.status = p.status ∨ ∃ status evidence actionId,
          o = .transitionProposal id p.status status evidence actionId ∧ p'.status = status) := by
    intro he
    refine ⟨p', ?_, rfl, Or.inl rfl⟩
    rw [Db.proposal?, ← he]
    exact hp'
  cases h with
  | @proposed record t h =>
    have hg := (Table.get?_insert? h () id).symm.trans hp'
    split_ifs at hg with hid
    · cases hg
      subst hid
      exact Or.inl ⟨rfl, (Table.rows_of_insert? h).2 ()⟩
    · exact Or.inr ⟨p', hg, rfl, Or.inl rfl⟩
  | @decided id' expected status evidence actionId _ h =>
    by_cases hid : id = id'
    · subst hid
      obtain ⟨p, hp, rfl⟩ := h.found
      obtain ⟨q, hq, hs, hk, -⟩ := h.proposal p hp
      obtain rfl : q = p' := Option.some.inj (hq.symm.trans hp')
      exact Or.inr ⟨p, hp, hk, Or.inr ⟨status, evidence, actionId, rfl, hs⟩⟩
    · rw [h.others id hid] at hp'
      exact Or.inr ⟨p', hp', rfl, Or.inl rfl⟩
  | initialized _ _ hf => exact Or.inr (hsame (by rw [hf]))
  | appended h => exact Or.inr (hsame (by rw [h.frame]))
  | inserted h => exact Or.inr (hsame (by rw [h.frame]))
  | moved h => exact Or.inr (hsame (by rw [h.frame]))
  | claimed h => exact Or.inr (hsame (by rw [h.frame]))
  | _ => exact Or.inr (hsame rfl)

theorem Effect.decided_ok {now : Time} {ids : ℕ → String} {db db' : Db} {id : String}
    {expected status : ActionProposalStatus} {evidence actionId : Option String}
    {r : Except PyErr Unit}
    (h : Effect now ids db (.transitionProposal id expected status evidence actionId) r db')
    (hne : db' ≠ db) : r = .ok () := by
  cases h with
  | nothing => exact absurd rfl hne
  | decided => rfl

/-- An action comes into the store by `insert_action` alone. -/
theorem Effect.appeared {now : Time} {ids : ℕ → String} {db db' : Db} {o : Tx} {r : o.Res}
    (h : Effect now ids db o r db') {i : ActionColumn} {k : String} {a : ActionRecord}
    (hnone : db.actions.get? i k = none) (hsome : db'.actions.get? i k = some a) :
    ∃ record v, o = .insertAction record v ∧ Inserted now ids record v db db' ∧
      a = { record with outcome := none } := by
  have hsame : db'.actions ≠ db.actions := by
    intro he
    rw [he, hnone] at hsome
    cases hsome
  cases h with
  | inserted h =>
    refine ⟨_, _, rfl, h, ?_⟩
    rw [Table.get?_insert? h.action, hnone] at hsome
    split_ifs at hsome
    exact (Option.some.inj hsome).symm
  | moved h =>
    rw [h.actions, hnone] at hsome
    cases hsome
  | claimed h =>
    rw [h.actions, hnone] at hsome
    cases hsome
  | initialized _ _ hf => exact absurd (by rw [hf]) hsame
  | appended h => exact absurd (by rw [h.frame]) hsame
  | decided h => exact absurd (by rw [h.frame]) hsame
  | _ => exact absurd rfl hsame

/-- Where a stored action comes from. -/
theorem Effect.action_cases {now : Time} {ids : ℕ → String} {db db' : Db} {o : Tx} {r : o.Res}
    (h : Effect now ids db o r db') {i : ActionColumn} {k : String} {a' : ActionRecord}
    (ha' : db'.actions.get? i k = some a') :
    (∃ record v, o = .insertAction record v ∧ a' = { record with outcome := none }) ∨
    ∃ a, db.actions.get? i k = some a ∧ a'.actionId = a.actionId ∧ a'.command = a.command ∧
      (a'.status = a.status ∨
      (∃ outcome, o = .transitionAction a.actionId a.status a'.status outcome) ∨
      o = .claimAction a.actionId ∧ a.status = .authorized ∧ a'.status = .dispatched) := by
  have hsame : db'.actions = db.actions → ∃ a, db.actions.get? i k = some a ∧
      a'.actionId = a.actionId ∧ a'.command = a.command ∧ (a'.status = a.status ∨
      (∃ outcome, o = .transitionAction a.actionId a.status a'.status outcome) ∨
      o = .claimAction a.actionId ∧ a.status = .authorized ∧ a'.status = .dispatched) :=
    fun he => ⟨a', he ▸ ha', rfl, rfl, Or.inl rfl⟩
  have hfound : ∀ {id : String} {expected : ActionStatus} {a : ActionRecord},
      (∃ b, db.action? id = some b ∧ b.status = expected) → db.actions.get? i k = some a →
      a.actionId = id → a.status = expected := by
    rintro id expected a ⟨b, hb, hs⟩ ha hid
    have hab : a = b := Table.eq_of_mem (i := ActionColumn.id) (Table.get?_eq_some.1 ha).1
      (Table.get?_eq_some.1 hb).1 (hid.trans (Table.get?_eq_some.1 hb).2.symm)
    rw [hab, hs]
  cases h with
  | inserted h =>
    have hg := (Table.get?_insert? h.action i k).symm.trans ha'
    split_ifs at hg
    · exact Or.inl ⟨_, _, rfl, (Option.some.inj hg).symm⟩
    · exact Or.inr ⟨a', hg, rfl, rfl, Or.inl rfl⟩
  | @moved id expected status outcome _ h =>
    obtain ⟨a, ha, he⟩ := Option.map_eq_some_iff.1 ((h.actions i k).symm.trans ha')
    split_ifs at he with hid
    · subst he
      obtain rfl := hfound h.found ha hid
      subst hid
      exact Or.inr ⟨a, ha, rfl, rfl, Or.inr (Or.inl ⟨outcome, rfl⟩)⟩
    · exact Or.inr ⟨a, ha, he ▸ rfl, he ▸ rfl, Or.inl (he ▸ rfl)⟩
  | @claimed id _ h =>
    obtain ⟨a, ha, he⟩ := Option.map_eq_some_iff.1 ((h.actions i k).symm.trans ha')
    split_ifs at he with hid
    · subst he
      have hs := hfound h.found ha hid
      subst hid
      exact Or.inr ⟨a, ha, rfl, rfl, Or.inr (Or.inr ⟨rfl, hs, rfl⟩)⟩
    · exact Or.inr ⟨a, ha, he ▸ rfl, he ▸ rfl, Or.inl (he ▸ rfl)⟩
  | initialized _ _ hf => exact Or.inr (hsame (by rw [hf]))
  | appended h => exact Or.inr (hsame (by rw [h.frame]))
  | decided h => exact Or.inr (hsame (by rw [h.frame]))
  | _ => exact Or.inr (hsame rfl)

end Tx
end WorkflowEngine
