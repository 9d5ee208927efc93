import Mathlib.Data.List.Perm.Lattice
import WorkflowEngine.Interleave.Trail
import WorkflowEngine.Proofs.Lease

/-! Claims of the outbox. A claim leases the oldest due records of the state that its transaction
sees, and each lease of a record counts as an attempt. -/

namespace WorkflowEngine

open Interleave Engine Relational SQLiteCoreStore

/-- `available_at` is reached, and the record waits, has failed, or is under a lease that ended
before `start`. -/
def OutboxRecord.Due (r : OutboxRecord) (start : Time) : Prop :=
  r.availableAt ≤ start ∧ (r.status = .pending ∨ r.status = .failed ∨
    r.status = .leased ∧ ∃ t, r.leaseUntil = some t ∧ t < start)

theorem Db.due_iff {start : Time} {r : OutboxRecord} : Db.due start r = true ↔ r.Due start := by
  unfold Db.due OutboxRecord.Due
  cases r.leaseUntil <;> simp [or_assoc]

/-- The claim has taken the `limit` oldest due records, all of them where the limit is negative or
larger than their number, and has put them under its lease. -/
structure ClaimsOldest (owner : String) (start leaseUntil : Time) (limit : ℤ) (ids : List String)
    (db db' : Db) : Prop where
  nodup : ids.Nodup
  due : ∀ oid ∈ ids, ∃ r, db.outbox? oid = some r ∧ r.Due start
  size : ids.length = if limit < 0 then db.outbox.rows.countP (Db.due start)
    else min limit.toNat (db.outbox.rows.countP (Db.due start))
  oldest : ∀ oid ∈ ids, ∀ r, db.outbox? oid = some r → ∀ oid' ∉ ids, ∀ r',
    db.outbox? oid' = some r' → r'.Due start → r.createdAt ≤ r'.createdAt
  leased : ∀ oid, db'.outbox? oid = (db.outbox? oid).map fun r =>
    if oid ∈ ids then Db.leaseRow owner start leaseUntil r else r

/-- The first part of the sorted list, as long as the limit says. -/
theorem Db.oldest_prefix {α : Type} (createdAt : α → Time) (limit : ℤ) (rows : List α) :
    ∃ rest, (rows.insertionSort fun a b => createdAt a ≤ createdAt b) =
      oldest createdAt limit rows ++ rest ∧
      (oldest createdAt limit rows).length =
        if limit < 0 then rows.length else min limit.toNat rows.length := by
  unfold oldest
  split_ifs
  · exact ⟨[], by simp, by simp⟩
  · exact ⟨_, (List.take_append_drop ..).symm, by simp⟩

theorem claimsOldest_exec (owner : String) (start leaseUntil : Time) (limit : ℤ) (db : Db) :
    ClaimsOldest owner start leaseUntil limit (db.dueIds start limit) db
      (db.lease owner start leaseUntil (db.dueIds start limit)) := by
  obtain ⟨rest, hsorted, hlength⟩ := Db.oldest_prefix OutboxRecord.createdAt limit
    (db.outbox.rows.filter (Db.due start))
  have hperm := List.perm_insertionSort (fun a b : OutboxRecord => a.createdAt ≤ b.createdAt)
    (db.outbox.rows.filter (Db.due start))
  have hpair := List.pairwise_insertionSort (fun a b : OutboxRecord => a.createdAt ≤ b.createdAt)
    (db.outbox.rows.filter (Db.due start))
  rw [hsorted] at hperm hpair
  refine ⟨?_, fun oid hoid => ?_, ?_, fun oid hoid r hr oid' hoid' r' hr' hdue => ?_,
    fun oid => Db.outbox?_lease db owner start leaseUntil _ oid⟩
  · have hrows : (db.outbox.rows.filter (Db.due start)).map OutboxRecord.outboxId |>.Nodup :=
      (db.outbox.unique ()).sublist (List.filter_sublist.map _)
    have hall := (hperm.map OutboxRecord.outboxId).nodup_iff.2 hrows
    rw [List.map_append] at hall
    exact hall.of_append_left
  · obtain ⟨r, hr, hdue⟩ := Db.due_of_mem hoid
    exact ⟨r, hr, Db.due_iff.1 hdue⟩
  · rw [Db.dueIds, List.length_map, hlength, List.countP_eq_length_filter]
  · obtain ⟨r0, hr0, hid⟩ := List.mem_map.1 hoid
    have hstored := List.mem_of_mem_filter (Db.mem_of_oldest hr0)
    obtain rfl : r0 = r :=
      Option.some.inj ((Table.get?_eq_some (i := ()).2 ⟨hstored, hid⟩).symm.trans hr)
    obtain ⟨hrow', hid'⟩ := Table.get?_eq_some.1 hr'
    have hmem : r' ∈ Db.oldest OutboxRecord.createdAt limit
        (db.outbox.rows.filter (Db.due start)) ++ rest :=
      hperm.mem_iff.2 (List.mem_filter.2 ⟨hrow', Db.due_iff.2 hdue⟩)
    rcases List.mem_append.1 hmem with hin | hin
    · exact absurd (List.mem_map.2 ⟨r', hin, hid'⟩) hoid'
    · exact (List.pairwise_append.1 hpair).2.2 r0 hr0 r' hin

variable {X : Sig} {W : World X}

/-- The operations of the store's methods: a new row has no attempts, and a settled one is not
left waiting or leased. -/
def Op.ofStore : Op X → Prop
  | .tx (.insertOutbox record) => record.attempts = 0
  | .tx (.updateOutbox _ status ..) => status ∈ [OutboxStatus.delivered, .failed, .quarantined]
  | _ => True

/-- Claims and settlements by anyone, and any other program on the store. -/
inductive OutboxCall (X : Sig) where
  | enqueue (topic aggregateId : String) (payload : Fields)
  | claim (owner : String) (leaseSeconds limit : ℤ)
  | complete (outboxId : String)
  | fail (outboxId error : String) (retryAt : Option Time) (quarantine : Bool)
  | other (p : Task X Unit) (hp : p.Issues Op.ofStore)

inductive OutboxReply where
  | claimed (records : List OutboxRecord)
  | row (record : OutboxRecord)
  | done

/-- The store, open to all of them. -/
abbrev World.claims (W : World X) : System (sig X) PyErr OutboxReply where
  State := EngineState W
  Choice := EngineChoice W
  Call := OutboxCall X
  exec := Engine.exec W
  drift e s := { s with clock := s.clock + e.elapsed, ext := W.drift e.ext s.ext }
  admits _ _ := true
  body
    | .enqueue topic aggregateId payload =>
      return .row (← enqueueOutbox topic aggregateId payload)
    | .claim owner leaseSeconds limit =>
      return .claimed (← claimOutbox owner leaseSeconds limit)
    | .complete outboxId => return .row (← completeOutbox outboxId)
    | .fail outboxId error retryAt quarantine =>
      return .row (← failOutbox outboxId error retryAt quarantine)
    | .other p _ => do
      p
      return .done

/-- The transaction has leased the record. -/
def leasesRow (oid : String) (x : Entry (sig X)) : Bool := (claimOf oid x).isSome

theorem leasesRow_claim {τ : ℕ} {oid owner : String} {start leaseUntil : Time} {limit : ℤ}
    {ids : List String} :
    leasesRow oid (⟨τ, .tx (.claimOutbox owner start leaseUntil limit), ids⟩ : Entry (sig X)) =
      decide (oid ∈ ids) := by
  unfold leasesRow claimOf
  by_cases hid : oid ∈ ids <;> simp [hid]

/-- The row of a record after a transaction: a lease counts, and only a lease or a settlement
changes it. -/
structure RowAfter (oid : String) (r : OutboxRecord) (db' : Db) (xs : List (Entry (sig X))) :
    Prop where
  counted : ∃ r', db'.outbox? oid = some r' ∧ r'.attempts = r.attempts + xs.countP (leasesRow oid)
  kept : (∀ x ∈ xs, leasesRow oid x = false ∧ settles oid x = false) → db'.outbox? oid = some r

theorem RowAfter.unchanged {oid : String} {r : OutboxRecord} {db' : Db} {xs : List (Entry (sig X))}
    (hr : db'.outbox? oid = some r) (hxs : ∀ x ∈ xs, leasesRow oid x = false) :
    RowAfter oid r db' xs := by
  refine ⟨⟨r, hr, ?_⟩, fun _ => hr⟩
  rw [List.countP_eq_zero.2 fun x hx => by simp [hxs x hx], Nat.add_zero]

theorem row_exec (τ : ℕ) (e : EngineChoice W) {s : EngineState W} (o : Op X) {oid : String}
    {r : OutboxRecord} (hr : s.db.outbox? oid = some r) :
    RowAfter oid r (exec W e s o).2.db [(⟨τ, o, (exec W e s o).1⟩ : Entry (sig X))] := by
  cases o with
  | tx o =>
    cases o with
    | claimOutbox owner start leaseUntil limit =>
      have hlease := (Db.outbox?_lease s.db owner start leaseUntil (s.db.dueIds start limit)
        oid).trans (congrArg _ hr)
      have hclaim := @leasesRow_claim X τ oid owner start leaseUntil limit (s.db.dueIds start limit)
      by_cases hid : oid ∈ s.db.dueIds start limit
      · rw [decide_eq_true hid] at hclaim
        rw [Option.map_some, if_pos hid] at hlease
        refine ⟨⟨_, hlease, ?_⟩, fun hno => ?_⟩
        · rw [List.countP_singleton]
          exact congrArg (r.attempts + ·) (if_pos hclaim).symm
        · exact absurd (hclaim.symm.trans (hno _ List.mem_cons_self).1) nofun
      · rw [decide_eq_false hid] at hclaim
        rw [Option.map_some, if_neg hid] at hlease
        refine .unchanged hlease fun x hx => ?_
        rw [List.mem_singleton.1 hx]
        exact hclaim
    | updateOutbox id status retryAt error at' =>
      have hsettle := (Db.outbox?_settle s.db id status retryAt error at' oid).trans (congrArg _ hr)
      by_cases hid : oid = id
      · rw [Option.map_some, if_pos hid] at hsettle
        refine ⟨⟨_, hsettle, rfl⟩, fun hno => ?_⟩
        · have hkept := (hno _ List.mem_cons_self).2
          simp [settles, hid] at hkept
      · rw [Option.map_some, if_neg hid] at hsettle
        refine .unchanged hsettle fun x hx => ?_
        rw [List.mem_singleton.1 hx]
        rfl
    | _ =>
      rcases (Tx.effect s.clock e.ids s.db _).outbox_cases hr with hrow |
        ⟨_, _, _, _, ho, -⟩ | ⟨_, _, _, _, ho, -⟩
      · refine .unchanged hrow fun x hx => ?_
        rw [List.mem_singleton.1 hx]
        rfl
      · cases ho
      · cases ho
  | _ =>
    refine .unchanged hr fun x hx => ?_
    rw [List.mem_singleton.1 hx]
    rfl

theorem RowAfter.trans {oid : String} {r : OutboxRecord} {db' db'' : Db}
    {xs ys : List (Entry (sig X))} (h : RowAfter oid r db' xs)
    (h' : ∀ r', db'.outbox? oid = some r' → RowAfter oid r' db'' ys) :
    RowAfter oid r db'' (xs ++ ys) := by
  obtain ⟨r', hr', hattempts'⟩ := h.counted
  obtain ⟨r'', hr'', hattempts''⟩ := (h' r' hr').counted
  refine ⟨⟨r'', hr'', ?_⟩, fun hno => ?_⟩
  · rw [hattempts'', hattempts', List.countP_append, Nat.add_assoc]
  · exact (h' r (h.kept fun x hx => hno x (List.mem_append_left _ hx))).kept fun x hx =>
      hno x (List.mem_append_right _ hx)

theorem row_next {oid : String} {r : OutboxRecord} (c : W.claims.Config) (a : W.claims.Move)
    (hr : c.hist.state.db.outbox? oid = some r) :
    ∃ xs, (System.next _ c a).hist.trace = c.hist.trace ++ xs ∧
      RowAfter oid r (System.next _ c a).hist.state.db xs := by
  have hquiet : RowAfter oid r c.hist.state.db ([] : List (Entry (sig X))) :=
    .unchanged hr fun _ hx => absurd hx List.not_mem_nil
  rcases System.next_cases c a with hn | ⟨call, -, -, hn⟩ | ⟨τ, e, o, k, -, hready, hn⟩ |
      ⟨τ, -, hn⟩ | ⟨e, -, hn⟩ <;> rw [hn]
  · exact ⟨[], by simp, hquiet⟩
  · exact ⟨[], by simp [System.spawned], hquiet⟩
  · exact ⟨_, rfl, row_exec τ e o hr⟩
  · exact ⟨[], by simp [System.lost], hquiet⟩
  · exact ⟨[], by simp [System.drifted], hquiet⟩

theorem row_run {oid : String} {r : OutboxRecord} (c : W.claims.Config)
    (acts : List W.claims.Move) (hr : c.hist.state.db.outbox? oid = some r) :
    ∃ xs, (System.run _ c acts).hist.trace = c.hist.trace ++ xs ∧
      RowAfter oid r (System.run _ c acts).hist.state.db xs := by
  induction acts generalizing c r with
  | nil => exact ⟨[], by simp, .unchanged hr fun _ hx => absurd hx List.not_mem_nil⟩
  | cons a acts ih =>
    obtain ⟨xs, htrace, hrow⟩ := row_next c a hr
    obtain ⟨r', hr', -⟩ := hrow.counted
    obtain ⟨ys, htrace', -⟩ := ih (System.next _ c a) hr'
    refine ⟨xs ++ ys, ?_, hrow.trans fun r'' hr'' => ?_⟩
    · rw [← List.append_assoc, ← htrace]
      exact htrace'
    · obtain ⟨zs, htrace'', hrow''⟩ := ih (System.next _ c a) hr''
      obtain rfl := List.append_cancel_left (htrace''.symm.trans htrace')
      exact hrow''

variable (s : EngineState W) (acts : List W.claims.Move)

/-- Two claims that lease a record, with none in between: the record was settled meanwhile, or the
first lease had ended when the second claim started. -/
theorem claims_apart {pre mid post : List (Entry (sig X))} {τ τ' : ℕ} {oid owner owner' : String}
    {start start' leaseUntil leaseUntil' : Time} {limit limit' : ℤ} {ids ids' : List String}
    (h : (System.run _ (System.init W.claims s) acts).hist.trace = pre ++
      ⟨τ, .tx (.claimOutbox owner start leaseUntil limit), ids⟩ :: (mid ++
        ⟨τ', .tx (.claimOutbox owner' start' leaseUntil' limit'), ids'⟩ :: post))
    (hoid : oid ∈ ids) (hoid' : oid ∈ ids') (hmid : ∀ z ∈ mid, leasesRow oid z = false) :
    (∃ z ∈ mid, settles oid z = true) ∨ leaseUntil < start' := by
  obtain ⟨c0, a, between, b, -, hc0, ha, hbetween, hb⟩ := System.run_between acts h (Nat.zero_le _)
  obtain ⟨e, k, -, hres, hstate⟩ := System.exec_of_next (ha.trans (by rw [hc0]))
  obtain rfl : ids = c0.hist.state.db.dueIds start limit := hres
  obtain ⟨r, hr, -⟩ := Db.due_of_mem hoid
  have hleased : (System.next _ c0 a).hist.state.db.outbox? oid =
      some (Db.leaseRow owner start leaseUntil r) := by
    rw [hstate]
    refine (Db.outbox?_lease _ owner start leaseUntil _ oid).trans ?_
    rw [hr, Option.map_some, if_pos hoid]
  by_contra hnot
  obtain ⟨hunsettled, hlater⟩ := not_or.1 hnot
  -- the lease is still there
  obtain ⟨xs, htrace, hrow⟩ := row_run _ between hleased
  obtain rfl : xs = mid := by
    rw [hbetween, ha] at htrace
    exact (List.append_cancel_left htrace).symm
  have hkept := hrow.kept fun z hz => ⟨hmid z hz, by
    by_contra hsettles
    exact hunsettled ⟨z, hz, by simpa using hsettles⟩⟩
  obtain ⟨e', k', -, hres', -⟩ := System.exec_of_next (hb.trans (by rw [hbetween]))
  obtain rfl : ids' =
      (System.run _ (System.next _ c0 a) between).hist.state.db.dueIds start' limit' := hres'
  obtain ⟨r', hr', hdue⟩ := Db.due_of_mem hoid'
  obtain rfl := Option.some.inj (hr'.symm.trans hkept)
  obtain ⟨-, hpending | hfailed | ⟨-, t, ht, hlt⟩⟩ := Db.due_iff.1 hdue
  · cases hpending
  · cases hfailed
  · cases ht
    exact hlater hlt

/-- The attempts of a record that came into the store during the run. -/
structure Counted (c : W.claims.Config) : Prop where
  stored : ∀ oid r, c.hist.state.db.outbox? oid = some r → r.attempts =
    ((s.db.outbox? oid).elim 0 OutboxRecord.attempts) + c.hist.trace.countP (leasesRow oid)
  absent : ∀ oid, c.hist.state.db.outbox? oid = none →
    s.db.outbox? oid = none ∧ c.hist.trace.countP (leasesRow oid) = 0

theorem ofStore_updateOutbox {outboxId : String} {status : OutboxStatus} {retryAt : Option Time}
    {error : Option String} (h : status ∈ [OutboxStatus.delivered, .failed, .quarantined]) :
    (updateOutbox outboxId status retryAt error : Task X OutboxRecord).Issues Op.ofStore := by
  refine Prog.issues_bind ((Prog.issues_perform _).2 trivial) fun _ => ?_
  refine Prog.issues_bind (issues_tx h) fun _ => ?_
  refine Prog.issues_bind (issues_tx trivial) fun (rows : List OutboxRecord) => ?_
  cases rows.head? <;> trivial

theorem ofStore_body (call : OutboxCall X) : (W.claims.body call).Issues Op.ofStore := by
  cases call with
  | enqueue topic aggregateId payload =>
    refine Prog.issues_bind ?_ fun _ => trivial
    refine Prog.issues_bind ((Prog.issues_perform _).2 trivial) fun _ => ?_
    refine Prog.issues_bind ((Prog.issues_perform _).2 trivial) fun _ => ?_
    exact Prog.issues_bind (issues_attempt rfl) fun _ => trivial
  | claim owner leaseSeconds limit =>
    refine Prog.issues_bind ?_ fun _ => trivial
    exact issues_claimOutbox trivial (fun _ _ _ _ => trivial) (fun _ => trivial) ..
  | complete outboxId =>
    exact Prog.issues_bind (ofStore_updateOutbox (by decide)) fun _ => trivial
  | fail outboxId error retryAt quarantine =>
    exact Prog.issues_bind (ofStore_updateOutbox (by cases quarantine <;> decide)) fun _ => trivial
  | other p hp => exact Prog.issues_bind hp fun _ => trivial

/-- A record that is not stored is not leased. -/
theorem leasesRow_absent (τ : ℕ) (e : EngineChoice W) {s : EngineState W} (o : Op X) {oid : String}
    (hnone : s.db.outbox? oid = none) :
    leasesRow oid (⟨τ, o, (exec W e s o).1⟩ : Entry (sig X)) = false := by
  cases o with
  | tx o =>
    cases o with
    | claimOutbox owner start leaseUntil limit =>
      refine (@leasesRow_claim X τ oid owner start leaseUntil limit
        (s.db.dueIds start limit)).trans (decide_eq_false fun hid => ?_)
      obtain ⟨r, hr, -⟩ := Db.due_of_mem hid
      exact absurd (hnone.symm.trans hr) nofun
    | _ => rfl
  | _ => rfl

theorem attempts_of_new (e : EngineChoice W) {s : EngineState W} {o : Op X} (ho : o.ofStore)
    {oid : String} {r : OutboxRecord} (hnone : s.db.outbox? oid = none)
    (hr : (exec W e s o).2.db.outbox? oid = some r) : r.attempts = 0 := by
  cases o with
  | tx o =>
    rcases (Tx.effect s.clock e.ids s.db o).outbox_appeared hnone hr with rfl | ⟨_, _, -, rfl⟩
    · exact ho
    · rfl
  | _ => exact absurd (hnone.symm.trans hr) nofun

theorem Counted.after {c : W.claims.Config} (hi : Counted s c) {τ : ℕ} {e : EngineChoice W}
    {o : Op X} (ho : o.ofStore) (tasks : List (Task X OutboxReply)) :
    @Counted X W s ⟨W.claims.after c.hist τ o e, tasks⟩ := by
  have hold : ∀ oid r, c.hist.state.db.outbox? oid = some r → ∀ r',
      (exec W e c.hist.state o).2.db.outbox? oid = some r' → r'.attempts =
        ((s.db.outbox? oid).elim 0 OutboxRecord.attempts) +
          (W.claims.after c.hist τ o e).trace.countP (leasesRow oid) := by
    intro oid r hr r' hr'
    obtain ⟨r'', hr'', hattempts⟩ := (row_exec τ e o hr).counted
    obtain rfl := Option.some.inj (hr''.symm.trans hr')
    rw [hattempts, hi.stored oid r hr, Nat.add_assoc]
    exact congrArg _ (List.countP_append ..).symm
  have hnew : ∀ oid, c.hist.state.db.outbox? oid = none →
      (W.claims.after c.hist τ o e).trace.countP (leasesRow oid) = 0 := by
    intro oid hnone
    have hno := leasesRow_absent τ e o hnone
    refine (List.countP_append ..).trans ?_
    rw [(hi.absent oid hnone).2, List.countP_singleton, hno]
    rfl
  refine ⟨fun oid r' hr' => ?_, fun oid hnone => ?_⟩
  · cases hr : c.hist.state.db.outbox? oid with
    | some r => exact hold oid r hr r' hr'
    | none =>
      rw [hnew oid hr, (hi.absent oid hr).1]
      exact attempts_of_new e ho hr hr'
  · cases hr : c.hist.state.db.outbox? oid with
    | some r =>
      obtain ⟨r', hr', -⟩ := (row_exec τ e o hr).counted
      exact absurd (hnone.symm.trans hr') nofun
    | none => exact ⟨(hi.absent oid hr).1, hnew oid hr⟩

theorem counted_run : Counted s (System.run _ (System.init W.claims s) acts) := by
  refine System.run_induction (G := fun _ _ => True) (J := Counted s) ?_
    (fun acts a hi _ => ?_) acts (System.guarded_true _ _)
  · refine ⟨fun oid r hr => ?_, fun oid hr => ⟨hr, rfl⟩⟩
    change s.db.outbox? oid = some r at hr
    rw [hr]
    rfl
  · rcases System.next_cases (System.run _ (System.init W.claims s) acts) a with hn |
        ⟨call, -, -, hn⟩ | ⟨τ, e, o, k, -, hready, hn⟩ | ⟨τ, -, hn⟩ | ⟨e, -, hn⟩ <;> rw [hn]
    · exact hi
    · exact ⟨hi.stored, hi.absent⟩
    · exact hi.after s (System.op_of_ready s acts hready fun call _ => ofStore_body call) _
    · exact ⟨hi.stored, hi.absent⟩
    · exact ⟨hi.stored, hi.absent⟩

/-- A claim that has come to its end: what it did, and what its caller got. -/
inductive ClaimEnds (owner : String) (leaseSeconds limit : ℤ) :
    List (Event (sig X)) → Except PyErr (List OutboxRecord) → Prop
  | overflow (start t : Time) (h : ¬ (Time.IsDatetime (t + seconds leaseSeconds) ∧
      -(2 ^ 63) ≤ limit ∧ limit < 2 ^ 63)) :
      ClaimEnds owner leaseSeconds limit [⟨.now, start⟩, ⟨.now, t⟩]
        (.error (.other "OverflowError"))
  | nothing (start t : Time) :
      ClaimEnds owner leaseSeconds limit [⟨.now, start⟩, ⟨.now, t⟩,
        ⟨.tx (.claimOutbox owner start (t + seconds leaseSeconds) limit), []⟩] (.ok [])
  | unread (start t : Time) (ids : List String) (hlong : maxVariableNumber < ids.length) :
      ClaimEnds owner leaseSeconds limit [⟨.now, start⟩, ⟨.now, t⟩,
        ⟨.tx (.claimOutbox owner start (t + seconds leaseSeconds) limit), ids⟩]
        (.error (.other "OperationalError"))
  | leased (start t : Time) (ids : List String) (records : List OutboxRecord) :
      ClaimEnds owner leaseSeconds limit ([⟨.now, start⟩, ⟨.now, t⟩] ++
        ⟨.tx (.claimOutbox owner start (t + seconds leaseSeconds) limit), ids⟩ ::
          ⟨.tx (.selectOutbox ids), records⟩ :: []) (.ok records)

/-- A claim has come to its end, or has not made all of its steps. -/
theorem claim_path {owner : String} {leaseSeconds limit : ℤ} {xs : List (Event (sig X))}
    {q : Task X (List OutboxRecord)} (h : Follows (claimOutbox owner leaseSeconds limit) xs q) :
    q.answer? = none ∧ xs.length < 4 ∨
      ∃ result, q.answer? = some result ∧ ClaimEnds owner leaseSeconds limit xs result := by
  rcases h.perform_cases with ⟨rfl, rfl⟩ | ⟨(start : Time), _, rfl, hnow⟩
  · exact Or.inl ⟨rfl, Nat.zero_lt_succ _⟩
  rcases hnow.perform_cases with ⟨rfl, rfl⟩ | ⟨(t : Time), rest, rfl, hbind⟩
  · exact Or.inl ⟨rfl, Nat.succ_lt_succ (Nat.zero_lt_succ _)⟩
  by_cases hbounds : Time.IsDatetime (t + seconds leaseSeconds) ∧
      -(2 ^ 63) ≤ limit ∧ limit < 2 ^ 63
  · rw [plusSeconds_of_datetime hbounds.1, sqlInteger_of_fits hbounds.2] at hbind
    rcases Follows.perform_cases hbind with ⟨rfl, rfl⟩ | ⟨(ids : List String), _, rfl, hselect⟩
    · exact Or.inl ⟨rfl, Nat.lt_succ_of_lt (Nat.lt_succ_self _)⟩
    rcases Follows.of_ite hselect with ⟨hempty, hret⟩ | ⟨-, hsome⟩
    · obtain ⟨rfl, rfl⟩ := Follows.of_ret hret
      obtain rfl := List.isEmpty_iff.1 hempty
      exact Or.inr ⟨_, rfl, .nothing start t⟩
    rcases Follows.of_ite hsome with ⟨hlong, hraise⟩ | ⟨-, hread⟩
    · obtain ⟨rfl, rfl⟩ := Follows.of_raise hraise
      exact Or.inr ⟨_, rfl, .unread start t ids hlong⟩
    cases hread with
    | nil => exact Or.inl ⟨rfl, Nat.lt_succ_self _⟩
    | cons hret =>
      obtain ⟨rfl, rfl⟩ := Follows.of_ret hret
      exact Or.inr ⟨_, rfl, .leased start t ids _⟩
  · have hraise :
        Follows (.raise (.other "OverflowError") : Task X (List OutboxRecord)) rest q := by
      by_cases htime : Time.IsDatetime (t + seconds leaseSeconds)
      · rw [plusSeconds_of_datetime htime, sqlInteger_overflow fun h => hbounds ⟨htime, h⟩] at hbind
        exact hbind
      · rw [plusSeconds_overflow htime] at hbind
        exact hbind
    obtain ⟨rfl, rfl⟩ := hraise.of_raise
    exact Or.inr ⟨_, rfl, .overflow start t hbounds⟩

/-- The rows of records that are stored, each once. -/
theorem Db.select_perm {db : Db} {ids : List String} (hnodup : ids.Nodup)
    (hstored : ∀ oid ∈ ids, ∃ r, db.outbox? oid = some r) :
    ((db.selectIn ids).map OutboxRecord.outboxId).Perm ids := by
  refine (List.perm_ext_iff_of_nodup (db.nodup_selectIn ids) hnodup).2 fun oid =>
    ⟨fun h => ?_, fun h => ?_⟩
  · obtain ⟨r, hr, rfl⟩ := List.mem_map.1 h
    exact (mem_selectIn.1 hr).2
  · obtain ⟨r, hr⟩ := hstored oid h
    obtain ⟨hrow, rfl⟩ := Table.get?_eq_some.1 hr
    exact List.mem_map.2 ⟨r, mem_selectIn.2 ⟨hrow, h⟩, rfl⟩

/-- The records that come back are the leased ones. -/
theorem select_after_claim {τ : ℕ} {owner : String} {start leaseUntil : Time} {limit : ℤ}
    {ids : List String} {records : List OutboxRecord} {xs ys : List (Event (sig X))}
    (h : ((System.run _ (System.init W.claims s) acts).hist.own τ).map Entry.event = xs ++
      ⟨.tx (.claimOutbox owner start leaseUntil limit), ids⟩ ::
        ⟨.tx (.selectOutbox ids), records⟩ :: ys) :
    (records.map OutboxRecord.outboxId).Perm ids := by
  obtain ⟨pre, mid, post, x, y, htrace, hx, hxe, hy, hye, -⟩ := split_own h
  obtain rfl := Entry.eq_of_event hx hxe
  obtain rfl := Entry.eq_of_event hy hye
  obtain ⟨c0, a, between, b, -, hc0, ha, hbetween, hb⟩ :=
    System.run_between acts htrace (Nat.zero_le _)
  obtain ⟨e, k, -, hres, -⟩ := System.exec_of_next (ha.trans (by rw [hc0]))
  obtain rfl : ids = c0.hist.state.db.dueIds start limit := hres
  obtain ⟨e', k', -, hres', -⟩ := System.exec_of_next (hb.trans (by rw [hbetween]))
  have hrecords : records = (System.run _ (System.next _ c0 a) between).hist.state.db.selectIn
      (c0.hist.state.db.dueIds start limit) := hres'
  rw [hrecords]
  refine Db.select_perm (claimsOldest_exec owner start 0 limit c0.hist.state.db).nodup
    fun oid hoid => ?_
  -- the rows have stayed since the claim
  obtain ⟨r, hr, -⟩ := Db.due_of_mem hoid
  obtain ⟨xs, -, hrow⟩ := row_next c0 a hr
  obtain ⟨r', hr', -⟩ := hrow.counted
  obtain ⟨ys, -, hrow'⟩ := row_run _ between hr'
  obtain ⟨r'', hr'', -⟩ := hrow'.counted
  exact ⟨r'', hr''⟩

theorem claim_ends {τ : ℕ} {owner : String} {leaseSeconds limit : ℤ} {p : Task X OutboxReply}
    (hcall : (System.run _ (System.init W.claims s) acts).hist.calls[τ]? =
      some (.claim owner leaseSeconds limit))
    (htask : (System.run _ (System.init W.claims s) acts).tasks[τ]? = some p) :
    p.answer? = none ∧ ((System.run _ (System.init W.claims s) acts).hist.own τ).length < 4 ∨
      ∃ result, p.answer? = some (result.map .claimed) ∧ ClaimEnds owner leaseSeconds limit
        (((System.run _ (System.init W.claims s) acts).hist.own τ).map Entry.event) result := by
  obtain ⟨call, hc, hfollows⟩ := System.follows_run s acts htask
  obtain rfl := Option.some.inj (hc.symm.trans hcall)
  rcases Follows.of_bind hfollows with ⟨q, hq, rfl⟩ | ⟨ys, zs, records, hxs, hclaim, hrest⟩
  · rcases claim_path hq with ⟨hnone, hlength⟩ | ⟨result, hresult, hends⟩
    · rw [List.length_map] at hlength
      refine Or.inl ⟨?_, hlength⟩
      cases q with
      | call o k => rfl
      | _ => cases hnone
    · refine Or.inr ⟨result, ?_, hends⟩
      cases q with
      | call o k => cases hresult
      | _ =>
        cases hresult
        rfl
  · obtain ⟨rfl, rfl⟩ := hrest.of_ret
    rw [List.append_nil] at hxs
    rcases claim_path hclaim with ⟨hnone, -⟩ | ⟨result, hresult, hends⟩
    · cases hnone
    · cases hresult
      exact Or.inr ⟨_, rfl, hxs ▸ hends⟩

/-- What the driver and `datetime` ask of a claim: the limit fits its column, the end of the lease
is a time, and the leased records can be named in one statement. -/
structure ClaimFits (leaseSeconds limit : ℤ) (xs : List (Event (sig X))) : Prop where
  bound : -(2 ^ 63) ≤ limit ∧ limit < 2 ^ 63
  lease : ∀ t : Time, ⟨.now, t⟩ ∈ xs → Time.IsDatetime (t + seconds leaseSeconds)
  records : ∀ owner start leaseUntil (ids : List String),
    ⟨.tx (.claimOutbox owner start leaseUntil limit), ids⟩ ∈ xs → ids.length ≤ maxVariableNumber

/-- A claim that has leased these records, and has given them to its caller. -/
inductive ClaimReturns (owner : String) (leaseSeconds limit : ℤ) (ids : List String)
    (records : List OutboxRecord) : List (Event (sig X)) → Prop
  | nothing (start t : Time) (hids : ids = []) (hrecords : records = []) :
      ClaimReturns owner leaseSeconds limit ids records [⟨.now, start⟩, ⟨.now, t⟩,
        ⟨.tx (.claimOutbox owner start (t + seconds leaseSeconds) limit), ids⟩]
  | leased (start t : Time) (hrecords : (records.map OutboxRecord.outboxId).Perm ids) :
      ClaimReturns owner leaseSeconds limit ids records [⟨.now, start⟩, ⟨.now, t⟩,
        ⟨.tx (.claimOutbox owner start (t + seconds leaseSeconds) limit), ids⟩,
        ⟨.tx (.selectOutbox ids), records⟩]

theorem ClaimReturns.mem_of_leases {owner oid : String} {leaseSeconds limit : ℤ}
    {ids : List String} {records : List OutboxRecord} {xs : List (Entry (sig X))}
    (h : ClaimReturns owner leaseSeconds limit ids records (xs.map Entry.event))
    (hleases : xs.any (leasesRow oid) = true) : oid ∈ ids := by
  obtain ⟨x, hx, hlease⟩ := List.any_eq_true.1 hleases
  have hclaim : ∀ start leaseUntil,
      x.event = ⟨.tx (.claimOutbox owner start leaseUntil limit), ids⟩ → oid ∈ ids := by
    intro start leaseUntil heq
    rw [Entry.eq_of_event rfl heq] at hlease
    exact of_decide_eq_true (leasesRow_claim.symm.trans hlease)
  have hother : ∀ o r, leasesRow oid (⟨x.tid, o, r⟩ : Entry (sig X)) = false →
      x.event ≠ ⟨o, r⟩ := by
    intro o r hno heq
    rw [Entry.eq_of_event rfl heq, hno] at hlease
    cases hlease
  have hmem : x.event ∈ xs.map Entry.event := List.mem_map_of_mem hx
  generalize xs.map Entry.event = events at h hmem
  cases h with
  | nothing start t =>
    simp only [List.mem_cons, List.not_mem_nil, or_false] at hmem
    rcases hmem with heq | heq | heq
    · exact absurd heq (hother _ _ rfl)
    · exact absurd heq (hother _ _ rfl)
    · exact hclaim _ _ heq
  | leased start t =>
    simp only [List.mem_cons, List.not_mem_nil, or_false] at hmem
    rcases hmem with heq | heq | heq | heq
    · exact absurd heq (hother _ _ rfl)
    · exact absurd heq (hother _ _ rfl)
    · exact hclaim _ _ heq
    · exact absurd heq (hother _ _ rfl)

theorem claim_returns {τ : ℕ} {owner : String} {leaseSeconds limit : ℤ} {p : Task X OutboxReply}
    (hcall : (System.run _ (System.init W.claims s) acts).hist.calls[τ]? =
      some (.claim owner leaseSeconds limit))
    (htask : (System.run _ (System.init W.claims s) acts).tasks[τ]? = some p)
    (hend : p.answer? ≠ none)
    (hfits : ClaimFits leaseSeconds limit
      (((System.run _ (System.init W.claims s) acts).hist.own τ).map Entry.event)) :
    ∃ ids records, p = .ret (.claimed records) ∧ ClaimReturns owner leaseSeconds limit ids records
      (((System.run _ (System.init W.claims s) acts).hist.own τ).map Entry.event) := by
  have hreturned : ∀ records, p.answer? = some (.ok (.claimed records)) →
      p = .ret (.claimed records) := by
    intro records h
    cases p with
    | ret reply =>
      cases h
      rfl
    | raise e => cases h
    | call o k => cases h
  rcases claim_ends s acts hcall htask with ⟨hnone, -⟩ | ⟨result, hresult, hends⟩
  · exact absurd hnone hend
  · generalize hxs : ((System.run _ (System.init W.claims s) acts).hist.own τ).map Entry.event = xs
      at hfits hends
    cases hends with
    | overflow start t hover =>
      exact absurd ⟨hfits.lease t (by simp), hfits.bound⟩ hover
    | nothing start t => exact ⟨[], [], hreturned _ hresult, .nothing start t rfl rfl⟩
    | unread start t ids hlong =>
      have hmem := hfits.records owner start (t + seconds leaseSeconds) ids (by simp)
      exact absurd hmem (not_le.2 hlong)
    | leased start t ids records =>
      exact ⟨ids, records, hreturned _ hresult, .leased start t (select_after_claim s acts hxs)⟩

/-- The outbox after a run: what each claim has leased, that a claim which fits has come back with
it when it has made its steps, that two leases of a record do not overlap, and what its attempts
count. -/
structure OutboxSound : Prop where
  claims : ∀ pre post τ owner start leaseUntil limit ids,
    (System.run _ (System.init W.claims s) acts).hist.trace =
      pre ++ ⟨τ, .tx (.claimOutbox owner start leaseUntil limit), ids⟩ :: post →
    ∃ before a after, acts = before ++ a :: after ∧
      (System.run _ (System.init W.claims s) before).hist.trace = pre ∧
      ClaimsOldest owner start leaseUntil limit ids
        (System.run _ (System.init W.claims s) before).hist.state.db
        (System.next _ (System.run _ (System.init W.claims s) before) a).hist.state.db
  ends : ∀ τ owner leaseSeconds limit p,
    (System.run _ (System.init W.claims s) acts).hist.calls[τ]? =
      some (.claim owner leaseSeconds limit) →
    (System.run _ (System.init W.claims s) acts).tasks[τ]? = some p →
    4 ≤ ((System.run _ (System.init W.claims s) acts).hist.own τ).length → p.answer? ≠ none
  returns : ∀ τ owner leaseSeconds limit p,
    (System.run _ (System.init W.claims s) acts).hist.calls[τ]? =
      some (.claim owner leaseSeconds limit) →
    (System.run _ (System.init W.claims s) acts).tasks[τ]? = some p → p.answer? ≠ none →
    ClaimFits leaseSeconds limit
      (((System.run _ (System.init W.claims s) acts).hist.own τ).map Entry.event) →
    ∃ ids records, p = .ret (.claimed records) ∧ ClaimReturns owner leaseSeconds limit ids records
      (((System.run _ (System.init W.claims s) acts).hist.own τ).map Entry.event)
  apart : ∀ pre mid post τ τ' oid owner owner' start start' leaseUntil leaseUntil' limit limit'
      (ids ids' : List String), (System.run _ (System.init W.claims s) acts).hist.trace =
      pre ++ ⟨τ, .tx (.claimOutbox owner start leaseUntil limit), ids⟩ ::
        (mid ++ ⟨τ', .tx (.claimOutbox owner' start' leaseUntil' limit'), ids'⟩ :: post) →
    oid ∈ ids → oid ∈ ids' → (∀ z ∈ mid, leasesRow oid z = false) →
    (∃ z ∈ mid, ∃ status retryAt error at',
      z.op = .tx (.updateOutbox oid status retryAt error at') ∧
      status ∈ [OutboxStatus.delivered, .failed, .quarantined]) ∨ leaseUntil < start'
  counted : ∀ oid r,
    (System.run _ (System.init W.claims s) acts).hist.state.db.outbox? oid = some r →
    r.attempts = ((s.db.outbox? oid).elim 0 OutboxRecord.attempts) +
      (System.run _ (System.init W.claims s) acts).hist.trace.countP (leasesRow oid)

theorem outbox_sound : OutboxSound s acts := by
  refine ⟨fun pre post τ owner start leaseUntil limit ids h => ?_,
    fun τ owner leaseSeconds limit p hcall htask hsteps hnone => ?_,
    fun τ owner leaseSeconds limit p hcall htask => claim_returns s acts hcall htask,
    fun pre mid post τ τ' oid owner owner' start start' leaseUntil leaseUntil' limit limit' ids ids'
      h hoid hoid' hmid => ?_, (counted_run s acts).stored⟩
  · obtain ⟨before, a, after, hacts, hbefore, ha⟩ := System.run_split acts h (Nat.zero_le _)
    refine ⟨before, a, after, hacts, hbefore, ?_⟩
    obtain ⟨e, k, -, hres, hstate⟩ := System.exec_of_next (ha.trans (by rw [hbefore]))
    rw [hstate]
    obtain rfl : ids = (System.run _ (System.init W.claims s) before).hist.state.db.dueIds start
        limit := hres
    exact claimsOldest_exec ..
  · rcases claim_ends s acts hcall htask with ⟨-, hlength⟩ | ⟨result, hresult, -⟩
    · exact absurd hlength (not_lt.2 hsteps)
    · exact absurd (hnone.symm.trans hresult) nofun
  · refine (claims_apart s acts h hoid hoid' hmid).imp_left ?_
    rintro ⟨z, hz, hsettles⟩
    have hmem : z ∈ (System.run _ (System.init W.claims s) acts).hist.trace := by
      rw [h]
      exact List.mem_append_right _ (List.mem_cons_of_mem _ (List.mem_append_left _ hz))
    obtain ⟨call, hcall⟩ := System.call_of_mem s acts hmem
    have hstore := System.op_of_issues s acts hmem hcall (ofStore_body call)
    refine ⟨z, hz, ?_⟩
    obtain ⟨τ'', o, res⟩ := z
    cases o with
    | tx o =>
      cases o with
      | updateOutbox id status retryAt error at' =>
        obtain rfl : id = oid := of_decide_eq_true hsettles
        exact ⟨status, retryAt, error, at', rfl, hstore⟩
      | _ => cases hsettles
    | _ => cases hsettles

/-- Every claim that has come to its end has come back with what it has leased. -/
def ClaimsReturn (W : World X) : Prop :=
  ∀ (s : EngineState W) (acts : List W.claims.Move) τ owner leaseSeconds limit p,
    (System.run _ (System.init W.claims s) acts).hist.calls[τ]? =
      some (.claim owner leaseSeconds limit) →
    (System.run _ (System.init W.claims s) acts).tasks[τ]? = some p → p.answer? ≠ none →
    ∃ ids records, p = .ret (.claimed records) ∧ ClaimReturns owner leaseSeconds limit ids records
      (((System.run _ (System.init W.claims s) acts).hist.own τ).map Entry.event)

/-- One message, and a worker that claims `limit` records. -/
def claimMessage (limit : ℤ) : List World.isolated.claims.Move :=
  let steps τ n := List.replicate n (.run τ ⟨toString, 0, ()⟩)
  .spawn (.enqueue "audit.export" "A-1" []) ::
    (steps 0 3 ++ .spawn (.claim "A" 30 limit) :: steps 1 4)

def claimRun (limit : ℤ) : World.isolated.claims.Config :=
  System.run _ (System.init World.isolated.claims ⟨.empty, 0, ()⟩) (claimMessage limit)

theorem claimRun_call (limit : ℤ) :
    (claimRun limit).hist.calls[1]? = some (.claim "A" 30 limit) := by
  unfold claimRun claimMessage
  rw [← List.cons_append, System.run_append]
  exact System.call_of_spawn rfl _

theorem claimRun_task {limit : ℤ} (h : (claimRun limit).tasks.length = 2) :
    ∃ p, (claimRun limit).tasks[1]? = some p :=
  ⟨_, List.getElem?_eq_getElem (h ▸ Nat.one_lt_two)⟩

def Time.isStart (t : Time) : Bool := t == 0

/-- The clock stands at the start, and one record at most is leased. -/
def fitsEntry : Entry (sig ⟨Empty, Empty.elim⟩) → Bool
  | ⟨_, .now, t⟩ => Time.isStart t
  | ⟨_, .tx (.claimOutbox ..), ids⟩ => decide (List.length ids ≤ 1)
  | _ => true

theorem claimFits_of_all {xs : List (Entry (sig ⟨Empty, Empty.elim⟩))}
    (h : xs.all fitsEntry = true) : ClaimFits 30 10 (xs.map Entry.event) := by
  have hfits : ∀ x : Event (sig ⟨Empty, Empty.elim⟩), x ∈ xs.map Entry.event →
      ∃ τ, fitsEntry ⟨τ, x.1, x.2⟩ = true := by
    intro x hx
    obtain ⟨y, hy, rfl⟩ := List.mem_map.1 hx
    exact ⟨y.tid, List.all_eq_true.1 h y hy⟩
  refine ⟨by decide, fun t ht => ?_, fun owner start leaseUntil ids hids => ?_⟩
  · obtain ⟨_, hstart⟩ := hfits _ ht
    obtain rfl : t = 0 := of_decide_eq_true hstart
    decide
  · obtain ⟨_, hfew⟩ := hfits _ hids
    exact (of_decide_eq_true hfew).trans (by decide)

/-- The message is leased, and the claim returns it. -/
theorem outbox_sound_claimed : ∃ ids records, (claimRun 10).tasks[1]? =
      some (.ret (.claimed records)) ∧ "OUT-0" ∈ ids ∧ ClaimReturns "A" 30 10 ids records
        (((claimRun 10).hist.own 1).map Entry.event) := by
  obtain ⟨p, hp⟩ := @claimRun_task 10 (by decide +kernel)
  have hsound := outbox_sound ⟨.empty, 0, ()⟩ (claimMessage 10)
  have hend := hsound.ends 1 "A" 30 10 p (claimRun_call 10) hp (by decide +kernel)
  obtain ⟨ids, records, rfl, hreturns⟩ := hsound.returns 1 "A" 30 10 p (claimRun_call 10) hp hend
    (claimFits_of_all (by decide +kernel))
  exact ⟨ids, records, hp, hreturns.mem_of_leases (by decide +kernel), hreturns⟩

/-- The limit does not fit, and the driver raises. -/
theorem oversized_claim_raises : ¬ ClaimsReturn World.isolated := by
  intro h
  obtain ⟨p, hp⟩ := @claimRun_task (2 ^ 63) (by decide +kernel)
  have hraised : ((claimRun (2 ^ 63)).tasks[1]?.bind Prog.answer?).any (fun r => !r.isOk) =
      true := by
    decide +kernel
  rw [hp, Option.bind_some] at hraised
  obtain ⟨ids, records, rfl, -⟩ := h ⟨.empty, 0, ()⟩ (claimMessage (2 ^ 63)) 1 "A" 30 (2 ^ 63) p
    (claimRun_call _) hp fun hnone => by simp [hnone] at hraised
  cases hraised

end WorkflowEngine
