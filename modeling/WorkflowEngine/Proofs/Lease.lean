import WorkflowEngine.Sanity.Footprint
import WorkflowEngine.Sanity.History

/-! Outbox leases. A worker settles a record by its id alone, so a worker whose lease
has run out can take a record from the worker that claimed it since. As long as
only the latest claimer of a record settles it, a lease is exclusive and a settled
record stays settled. -/

namespace WorkflowEngine

open Interleave Engine Relational SQLiteCoreStore

variable {X : Sig} {W : World X}

/-- The claim of the record in an entry: by which task, as which owner, until when. -/
def claimOf (oid : String) : Entry (sig X) → Option (ℕ × String × Time)
  | ⟨τ, .tx (.claimOutbox owner _ leaseUntil _), (ids : List String)⟩ =>
    if oid ∈ ids then some (τ, owner, leaseUntil) else none
  | _ => none

def lastClaim (h : Log W) (oid : String) : Option (ℕ × String × Time) :=
  (h.trace.filterMap (claimOf oid)).getLast?

/-- The entry is a completion or failure of the record. -/
def settles (oid : String) (x : Entry (sig X)) : Bool :=
  match x with
  | ⟨_, .tx (.updateOutbox id ..), _⟩ => id = oid
  | _ => false

/-- `τ` has not settled the record. -/
def Unsettled (h : Log W) (τ : ℕ) (oid : String) : Prop :=
  ∀ x ∈ h.trace, x.tid = τ → settles oid x = false

/-- The row is under this lease. -/
def OutboxRecord.under (r : OutboxRecord) (owner : String) (leaseUntil : Time) : Prop :=
  r.status = .leased ∧ r.leaseOwner = some owner ∧ r.leaseUntil = some leaseUntil

/-- What a worker must know before it claims or settles. -/
def leasePre (τ : ℕ) (o : Op X) (h : Log W) : Prop :=
  match o with
  | .tx (.claimOutbox owner now ..) => now ≤ h.state.clock ∧
      ∃ leaseSeconds maxAttempts limit,
        h.calls[τ]? = some (.deliver owner leaseSeconds maxAttempts limit)
  | .tx (.updateOutbox oid ..) => Unsettled h τ oid
  | _ => True

/-- Rows of the outbox stay. -/
def Db.keepsOutbox (db db' : Db) : Prop :=
  ∀ oid r, db.outbox? oid = some r → ∃ r', db'.outbox? oid = some r'

theorem Db.keepsOutbox.of_effect {now : Time} {ids : ℕ → String} {db db' : Db} {o : Tx}
    {res : o.Res} (h : Tx.Effect now ids db o res db') : db.keepsOutbox db' := by
  intro oid r hr
  rcases h.outbox_cases hr with hr' | ⟨_, _, _, _, _, _, hr'⟩ | ⟨_, _, _, _, _, hr'⟩
  · exact ⟨_, hr'⟩
  · exact ⟨_, hr'⟩
  · exact ⟨_, hr'⟩

def leaseLogic (engine : Engine X) (W : World X) (admits : Admission X W) :
    Logic (engine.system W admits) where
  Inv _ := True
  Rely h h' := h.state.db.keepsOutbox h'.state.db ∧ h.state.clock ≤ h'.state.clock ∧
    h.trace <+: h'.trace ∧ h.calls <+: h'.calls
  Pre := leasePre

section
variable {engine : Engine X} {admits : Admission X W} {τ : ℕ} {h h' : Log W} {oid : String}

theorem Unsettled.quiet (hq : @Quiet _ _ _ (engine.system W admits) τ h h')
    (hu : Unsettled h τ oid) : Unsettled h' τ oid :=
  fun x hx hτ => hu x (hq.mem_own hx hτ) hτ

theorem Unsettled.after (hu : Unsettled h τ oid) {o : Op X} {e : EngineChoice W}
    (ho : settles oid (⟨τ, o, (exec W e h.state o).1⟩ : Entry (sig X)) = false) :
    Unsettled ((engine.system W admits).after h τ o e) τ oid := by
  intro x hx hτ
  rcases List.mem_append.1 hx with hx | hx
  · exact hu x hx hτ
  · rw [List.mem_singleton.1 hx]
    exact ho

theorem leaseLogic_stepwise : (leaseLogic engine W admits).Stepwise where
  refl _ := ⟨fun _ r hr => ⟨r, hr⟩, le_rfl, List.prefix_refl _, List.prefix_refl _⟩
  trans _ _ _ h1 h2 := by
    refine ⟨fun oid r hr => ?_, h1.2.1.trans h2.2.1, h1.2.2.1.trans h2.2.2.1,
      h1.2.2.2.trans h2.2.2.2⟩
    obtain ⟨r', hr'⟩ := h1.1 oid r hr
    exact h2.1 oid r' hr'
  step τ o e h _ _ := by
    refine ⟨trivial, ?_, ?_, List.prefix_append _ _, List.prefix_refl _⟩
    · cases o with
      | tx o => exact .of_effect (Tx.effect h.state.clock e.ids h.state.db o)
      | _ => exact fun _ r hr => ⟨r, hr⟩
    · cases o <;> exact le_rfl

/-- The operations that touch a lease. -/
def Tx.leases : Tx → Bool
  | .claimOutbox .. => true
  | .updateOutbox .. => true
  | _ => false

def Op.leases : Op X → Prop
  | .tx o => o.leases = true
  | _ => False

theorem leasePre_of_not_leases {o : Op X} (ho : ¬ o.leases) : leasePre τ o h := by
  unfold leasePre
  split
  · exact absurd rfl ho
  · exact absurd rfl ho
  · trivial

theorem settles_of_not_leases {o : Op X} (ho : ¬ o.leases) (r : o.Res) :
    settles oid (⟨τ, o, r⟩ : Entry (sig X)) = false := by
  unfold settles
  split
  · rename_i he
    cases he
    exact absurd rfl ho
  · rfl

/-- A program that touches no lease keeps what the worker knows of its records. -/
theorem wp_aside {α : Type} {p : Task X α} (hp : p.Issues fun o : Op X => ¬ o.leases) :
    (leaseLogic engine W admits).wp τ p
      (fun _ h' => ∀ oid, Unsettled h τ oid → Unsettled h' τ oid) h :=
  Logic.wp_frame (L := leaseLogic engine W admits)
    (J := fun h' : Log W => ∀ oid, Unsettled h τ oid → Unsettled h' τ oid) hp
    (fun _ _ hJ _ hq oid hu => (hJ oid hu).quiet hq)
    (fun _ _ hJ _ ho => ⟨leasePre_of_not_leases ho, fun _ oid hu =>
      (hJ oid hu).after (settles_of_not_leases ho _)⟩)
    fun _ hu => hu

/-- A record that `τ` has yet to settle. -/
structure Holds (h : Log W) (τ : ℕ) (oid : String) : Prop where
  unsettled : Unsettled h τ oid
  stored : ∃ r, h.state.db.outbox? oid = some r

theorem Holds.later (ho : Holds h τ oid) (hr : (leaseLogic engine W admits).Rely h h')
    (hu : Unsettled h' τ oid) : Holds h' τ oid := by
  obtain ⟨r, hstored⟩ := ho.stored
  exact ⟨hu, hr.1 oid r hstored⟩

/-- Between `h` and `h'` the task settled no record but this one. -/
def Spares (h : Log W) (τ : ℕ) (oid : String) (h' : Log W) : Prop :=
  ∀ oid', oid' ≠ oid → Unsettled h τ oid' → Unsettled h' τ oid'

/-- Settling a record returns it, and settles no other. -/
theorem wp_updateOutbox {status : OutboxStatus} {retryAt : Option Time} {error : Option String}
    (ho : Holds h τ oid) :
    (leaseLogic engine W admits).wp τ (updateOutbox oid status retryAt error)
      (fun r h' => (∃ row, r = .ok row) ∧ Spares h τ oid h') h := by
  have hL : (leaseLogic engine W admits).Stepwise := leaseLogic_stepwise
  intro h1 hr1 hq1 _
  refine ⟨trivial, fun e1 => ?_⟩
  have hr1' := hL.trans _ _ _ hr1 (hL.step τ .now e1 h1 trivial trivial).2
  intro h2 hr2 hq2 _
  have hun2 : ∀ oid', Unsettled h τ oid' → Unsettled h2 τ oid' := fun oid' hu =>
    ((hu.quiet hq1).after rfl).quiet hq2
  have hpre2 : leasePre τ (.tx (.updateOutbox oid status retryAt error h1.state.clock)) h2 :=
    hun2 oid ho.unsettled
  refine ⟨hpre2, fun e2 => ?_⟩
  have hr2' := hL.trans _ _ _ hr1' (hL.trans _ _ _ hr2 (hL.step τ
    (.tx (.updateOutbox oid status retryAt error h1.state.clock)) e2 h2 trivial hpre2).2)
  intro h3 hr3 hq3 _
  refine ⟨trivial, fun e3 => ?_⟩
  -- the row is still there when it is read again
  obtain ⟨r, hr⟩ := ho.stored
  obtain ⟨r', hr'⟩ := (hL.trans _ _ _ hr2' hr3).1 oid r hr
  obtain ⟨hrow, hid⟩ := Table.get?_eq_some.1 hr'
  have hmem : r' ∈ h3.state.db.selectIn [oid] :=
    Db.mem_selectIn.2 ⟨hrow, List.mem_singleton.2 hid⟩
  have hans : (exec W e3 h3.state (.tx (.selectOutbox [oid]))).1 =
      h3.state.db.selectIn [oid] := rfl
  rw [hans]
  cases hrows : h3.state.db.selectIn [oid] with
  | nil =>
    rw [hrows] at hmem
    cases hmem
  | cons row rows =>
    refine ⟨⟨row, rfl⟩, fun oid' hne hu => ?_⟩
    refine Unsettled.after ((Unsettled.after (hun2 oid' hu) ?_).quiet hq3) rfl
    exact decide_eq_false fun he => hne he.symm

theorem not_leases_of_dispatches {o : Op X} (ho : o.dispatches) : ¬ o.leases := by
  intro hl
  cases o with
  | tx o =>
    cases o with
    | claimOutbox => exact ho
    | updateOutbox => exact ho
    | _ => cases hl
  | _ => exact hl

theorem wp_retryLater {worker : ActionDeliveryWorker X} {record : OutboxRecord} {exc : PyErr}
    (ho : Holds h τ record.outboxId) :
    (leaseLogic engine W admits).wp τ (worker.retryLater record exc)
      (fun _ h' => Spares h τ record.outboxId h') h := by
  have hL : (leaseLogic engine W admits).Stepwise := leaseLogic_stepwise
  unfold ActionDeliveryWorker.retryLater
  split_ifs
  · exact hL.wp_seq (wp_updateOutbox ho) (fun _ _ _ hs => hs.2) fun _ _ _ hs => hs.2
  · refine hL.wp_seq (wp_aside ((Prog.issues_perform _).2 id)) (fun now h1 hr1 hun => ?_)
      fun _ _ _ hun oid' _ hu => hun oid' hu
    refine hL.wp_seq (wp_updateOutbox (ho.later hr1 (hun _ ho.unsettled)))
      (fun _ _ _ hs oid' hne hu => hs.2 oid' hne (hun oid' hu))
      fun _ _ _ hs oid' hne hu => hs.2 oid' hne (hun oid' hu)

/-- One iteration settles its record once, and no other. -/
theorem wp_deliver_once {worker : ActionDeliveryWorker X} {record : OutboxRecord}
    (ho : Holds h τ record.outboxId) :
    (leaseLogic engine W admits).wp τ (worker.deliver record)
      (fun _ h' => Spares h τ record.outboxId h') h := by
  have hL : (leaseLogic engine W admits).Stepwise := leaseLogic_stepwise
  simp only [ActionDeliveryWorker.deliver, Prog.bind_eq, Prog.pure_eq]
  split_ifs
  · exact hL.wp_seq (wp_updateOutbox ho) (fun _ _ _ hs => hs.2) fun _ _ _ hs => hs.2
  · refine hL.wp_seq (wp_aside ((worker.issues_namedAction record).mono
        fun _ => not_leases_of_dispatches)) (fun found h1 hr1 hun => ?_)
      fun _ _ _ hun oid' _ hu => hun oid' hu
    have ho1 := ho.later hr1 (hun _ ho.unsettled)
    cases found with
    | none =>
      exact hL.wp_seq (wp_updateOutbox ho1)
        (fun _ _ _ hs oid' hne hu => hs.2 oid' hne (hun oid' hu))
        fun _ _ _ hs oid' hne hu => hs.2 oid' hne (hun oid' hu)
    | some action =>
      -- only the dispatch can raise, and then the record is still unsettled
      refine hL.wp_catch (R := fun r h' => Spares h τ record.outboxId h' ∧
        ∀ exc, r = .error exc → Unsettled h' τ record.outboxId) ?_ (fun _ _ _ hs => hs.1)
        fun exc h2 hr2 hs => ?_
      · have hd := (worker.gateway.issues_dispatch action).mono
          fun _ => not_leases_of_dispatches
        refine hL.wp_seq (wp_aside hd) (fun _ h2 hr2 hun2 => ?_) fun exc h2 hr2 hun2 => ?_
        · refine hL.wp_seq (wp_updateOutbox (ho1.later hr2 (hun2 _ ho1.unsettled)))
            (fun _ h3 _ hs => ⟨fun oid' hne hu => hs.2 oid' hne (hun2 _ (hun oid' hu)),
              fun _ he => by cases he⟩) fun exc h3 _ hs => ?_
          obtain ⟨⟨row, he⟩, -⟩ := hs
          cases he
        · exact ⟨fun oid' _ hu => hun2 _ (hun oid' hu), fun _ _ => hun2 _ ho1.unsettled⟩
      · refine hL.wp_seq (wp_retryLater (ho1.later hr2 (hs.2 exc rfl)))
          (fun _ _ _ hsp oid' hne hu => hsp oid' hne (hs.1 oid' hne hu))
          fun _ _ _ hsp oid' hne hu => hsp oid' hne (hs.1 oid' hne hu)

theorem wp_deliverAll_once {worker : ActionDeliveryWorker X} {records : List OutboxRecord}
    (hnodup : (records.map OutboxRecord.outboxId).Nodup)
    (ho : ∀ record ∈ records, Holds h τ record.outboxId) (run : WorkerRun) :
    (leaseLogic engine W admits).wp τ (worker.deliverAll records run) (fun _ _ => True) h := by
  have hL : (leaseLogic engine W admits).Stepwise := leaseLogic_stepwise
  induction records generalizing h run with
  | nil => trivial
  | cons record records ih =>
    rw [List.map_cons, List.nodup_cons] at hnodup
    refine hL.wp_seq (wp_deliver_once (ho record (List.mem_cons_self ..)))
      (fun done h1 hr1 hs => ?_) fun _ _ _ _ => trivial
    have hrest : ∀ r ∈ records, Holds h1 τ r.outboxId := by
      intro r hr
      have hhold := ho r (List.mem_cons_of_mem _ hr)
      refine hhold.later hr1 (hs _ (fun he => hnodup.1 ?_) hhold.unsettled)
      exact he ▸ List.mem_map_of_mem hr
    split_ifs
    · exact ih hnodup.2 hrest _
    · exact ih hnodup.2 hrest _

/-- The claim of a worker: the clock is read before the transaction, and the records it
returns are held. -/
theorem wp_claimOutbox_held {owner : String} {leaseSeconds limit : ℤ}
    (hc : ∃ leaseSeconds maxAttempts limit,
      h.calls[τ]? = some (.deliver owner leaseSeconds maxAttempts limit))
    (hu : ∀ oid, Unsettled h τ oid) :
    (leaseLogic engine W admits).wp τ (claimOutbox owner leaseSeconds limit)
      (fun r h' => ∀ records, r = .ok records → (records.map OutboxRecord.outboxId).Nodup ∧
        ∀ record ∈ records, Holds h' τ record.outboxId) h := by
  have hL : (leaseLogic engine W admits).Stepwise := leaseLogic_stepwise
  intro h1 hr1 hq1 _
  refine ⟨trivial, fun e1 => ?_⟩
  have hu1 : ∀ oid, Unsettled ((engine.system W admits).after h1 τ .now e1) τ oid :=
    fun oid => ((hu oid).quiet hq1).after rfl
  intro h2 hr2 hq2 _
  refine ⟨trivial, fun e2 => ?_⟩
  have hu2 : ∀ oid, Unsettled ((engine.system W admits).after h2 τ .now e2) τ oid :=
    fun oid => ((hu1 oid).quiet hq2).after rfl
  refine Logic.wp_bind_ofExcept (fun _ _ _ he => by cases he) fun leaseUntil _ => ?_
  refine Logic.wp_bind_ofExcept (fun _ _ _ he => by cases he) fun bound _ => ?_
  intro h3 hr3 hq3 _
  have hr13 := hL.trans _ _ _ hr2 (hL.trans _ _ _ (hL.step τ .now e2 h2 trivial trivial).2 hr3)
  have hr03 := hL.trans _ _ _ hr1
    (hL.trans _ _ _ (hL.step τ .now e1 h1 trivial trivial).2 hr13)
  obtain ⟨leaseSeconds', maxAttempts, limit', hc⟩ := hc
  have hpre : leasePre τ (.tx (.claimOutbox owner h1.state.clock leaseUntil bound.1)) h3 :=
    ⟨hr13.2.1, leaseSeconds', maxAttempts, limit', getElem?_of_extends hr03.2.2.2 hc⟩
  refine ⟨hpre, fun e3 => ?_⟩
  have hu3 : ∀ oid, Unsettled ((engine.system W admits).after h3 τ (.tx (.claimOutbox owner
      h1.state.clock leaseUntil bound.1)) e3) τ oid :=
    fun oid => ((hu2 oid).quiet hq3).after rfl
  refine Logic.wp_ite (fun _ => ?_) fun _ => Logic.wp_ite (fun _ => ?_) fun _ => ?_
  · rintro records he
    cases he
    exact ⟨List.nodup_nil, fun _ hr => by cases hr⟩
  · rintro records he
    cases he
  · intro h4 hr4 hq4 _
    refine ⟨trivial, fun e4 records he => ?_⟩
    cases he
    refine ⟨Db.nodup_selectIn .., fun record hrecord => ?_⟩
    exact ⟨((hu3 _).quiet hq4).after rfl, record,
      (Table.mem_rows ()).1 (Db.mem_selectIn.1 hrecord).1⟩

theorem wp_deliver_run {worker : ActionDeliveryWorker X} {limit : ℤ}
    (hc : ∃ leaseSeconds maxAttempts limit,
      h.calls[τ]? = some (.deliver worker.owner leaseSeconds maxAttempts limit))
    (hu : ∀ oid, Unsettled h τ oid) :
    (leaseLogic engine W admits).wp τ (worker.runOnce limit) (fun _ _ => True) h := by
  refine leaseLogic_stepwise.wp_seq (wp_claimOutbox_held hc hu) (fun records h1 _ hheld => ?_)
    fun _ _ _ _ => trivial
  obtain ⟨hnodup, hheld⟩ := hheld records rfl
  exact wp_deliverAll_once hnodup hheld _

end

/-- Enqueueing, delivery workers, and any other transaction that touches no lease. -/
def leaseCalls : Admission X W
  | _, .enqueue .. => true
  | _, .deliver .. => true
  | _, .transaction o => !o.leases
  | _, _ => false

theorem leaseLogic_sound (engine : Engine X) (W : World X) :
    (leaseLogic engine W leaseCalls).Sound where
  toStepwise := leaseLogic_stepwise
  spawn _ _ _ _ := ⟨trivial, fun _ r hr => ⟨r, hr⟩, le_rfl, List.prefix_refl _,
    List.prefix_append _ _⟩
  crash _ _ _ := ⟨trivial, fun _ r hr => ⟨r, hr⟩, le_rfl, List.prefix_refl _, List.prefix_refl _⟩
  drift _ _ _ := ⟨trivial, fun _ r hr => ⟨r, hr⟩,
    Int.le_add_of_nonneg_right (Int.natCast_nonneg _), List.prefix_refl _, List.prefix_refl _⟩
  body h call _ ha hfresh := by
    have haside : ∀ p : Task X Reply, (p.Issues fun o : Op X => ¬ o.leases) →
        (leaseLogic engine W leaseCalls).wp h.calls.length p (fun _ _ => True)
          ((engine.system W leaseCalls).spawned h call) :=
      fun p hp => Logic.wp_mono (fun _ _ _ => trivial) (wp_aside hp)
    cases call with
    | enqueue topic aggregateId payload =>
      refine haside _ (Prog.issues_bind ?_ fun _ => trivial)
      refine Prog.issues_bind ((Prog.issues_perform _).2 id) fun now => ?_
      refine Prog.issues_bind ((Prog.issues_perform _).2 id) fun hex => ?_
      exact Prog.issues_bind (issues_attempt Bool.false_ne_true) fun _ => trivial
    | deliver owner leaseSeconds maxAttempts limit =>
      refine leaseLogic_stepwise.wp_seq (wp_deliver_run ?_ fun oid x hx hτ => ?_)
        (fun _ _ _ _ => trivial) fun _ _ _ _ => trivial
      · exact ⟨leaseSeconds, maxAttempts, limit, by simp [System.spawned]⟩
      · exact absurd hτ (hfresh x hx)
    | transaction o =>
      refine haside _ (Prog.issues_bind (issues_tx fun hl => ?_) fun _ => trivial)
      have ho : o.leases = false := by simpa [leaseCalls] using ha
      exact Bool.false_ne_true (ho.symm.trans hl)
    | _ => cases ha

theorem Db.due_of_mem {db : Db} {start : Time} {limit : ℤ} {oid : String}
    (h : oid ∈ db.dueIds start limit) : ∃ r, db.outbox? oid = some r ∧ Db.due start r = true := by
  obtain ⟨r, hr, rfl⟩ := List.mem_map.1 h
  obtain ⟨hmem, hdue⟩ := List.mem_filter.1 (Db.mem_of_oldest hr)
  exact ⟨r, (Table.mem_rows ()).1 hmem, hdue⟩

/-- A lease that is due for another claim has run out. -/
theorem OutboxRecord.under.expired {r : OutboxRecord} {owner : String} {leaseUntil start : Time}
    (hu : r.under owner leaseUntil) (hd : Db.due start r = true) : leaseUntil < start := by
  obtain ⟨hs, -, hl⟩ := hu
  simp [Db.due, hs, hl] at hd
  exact hd.2

/-- What the latest claims say of the outbox. -/
structure Leases (h : Log W) : Prop where
  held : ∀ oid τ owner leaseUntil, lastClaim h oid = some (τ, owner, leaseUntil) →
    Unsettled h τ oid → ∃ r, h.state.db.outbox? oid = some r ∧ r.under owner leaseUntil
  worker : ∀ oid τ owner leaseUntil, lastClaim h oid = some (τ, owner, leaseUntil) →
    ∃ leaseSeconds maxAttempts limit,
      h.calls[τ]? = some (.deliver owner leaseSeconds maxAttempts limit)

/-- The operation, if it settles a record, is the latest claimer's. -/
def InTurn (h : Log W) (τ : ℕ) (o : Op X) : Prop :=
  ∀ oid status retryAt error at', o = .tx (.updateOutbox oid status retryAt error at') →
    ∃ owner leaseUntil, lastClaim h oid = some (τ, owner, leaseUntil)

section
variable {engine : Engine X} {admits : Admission X W} {τ : ℕ} {h : Log W} {o : Op X}
  {e : EngineChoice W}

variable (engine admits h τ o e) in
/-- The latest claim after an operation: that of the operation, if it claims the record. -/
theorem lastClaim_after (oid : String) :
    (∃ owner start leaseUntil limit, o = .tx (.claimOutbox owner start leaseUntil limit) ∧
      oid ∈ h.state.db.dueIds start limit ∧
      lastClaim ((engine.system W admits).after h τ o e) oid = some (τ, owner, leaseUntil)) ∨
    (∀ owner start leaseUntil limit, o = .tx (.claimOutbox owner start leaseUntil limit) →
      oid ∉ h.state.db.dueIds start limit) ∧
    lastClaim ((engine.system W admits).after h τ o e) oid = lastClaim h oid := by
  have hsplit : lastClaim ((engine.system W admits).after h τ o e) oid =
      ([(⟨τ, o, (exec W e h.state o).1⟩ : Entry (sig X))].filterMap (claimOf oid)).getLast?.or
        (lastClaim h oid) := by
    simp only [lastClaim, System.after, List.filterMap_append, List.getLast?_append]
  rw [hsplit]
  cases hc : claimOf oid (⟨τ, o, (exec W e h.state o).1⟩ : Entry (sig X)) with
  | none =>
    refine Or.inr ⟨?_, by simp [hc]⟩
    rintro owner start leaseUntil limit rfl hoid
    simp [claimOf, exec, Tx.exec, hoid] at hc
  | some claim =>
    left
    unfold claimOf at hc
    split at hc
    · rename_i τ' owner start leaseUntil limit ids hx
      injection hx with ht ho hr
      subst ht ho
      have hids : h.state.db.dueIds start limit = ids := eq_of_heq hr
      split_ifs at hc with hid
      refine ⟨owner, start, leaseUntil, limit, rfl, hids ▸ hid, ?_⟩
      have hdue : oid ∈ h.state.db.dueIds start limit := hids ▸ hid
      simp [claimOf, exec, Tx.exec, hdue]
    · cases hc

theorem Unsettled.before {τ' : ℕ} {oid : String}
    (hu : Unsettled ((engine.system W admits).after h τ o e) τ' oid) : Unsettled h τ' oid :=
  fun x hx hτ => hu x (List.mem_append_left _ hx) hτ

theorem Leases.after (hi : Leases h) (hp : leasePre τ o h) (ht : InTurn h τ o) :
    Leases ((engine.system W admits).after h τ o e) := by
  refine ⟨fun oid τ' owner leaseUntil hl hu => ?_, fun oid τ' owner leaseUntil hl => ?_⟩
  · rcases lastClaim_after engine admits τ h o e oid with ⟨owner', start, leaseUntil', limit, rfl,
      hoid, hnew⟩ | ⟨hno, hold⟩
    · rw [hnew] at hl
      cases hl
      obtain ⟨r, hr, -⟩ := Db.due_of_mem hoid
      refine ⟨Db.leaseRow owner start leaseUntil r, ?_, rfl, rfl, rfl⟩
      refine (Db.outbox?_lease h.state.db owner start leaseUntil _ oid).trans ?_
      rw [hr, Option.map_some, if_pos hoid]
    · rw [hold] at hl
      obtain ⟨r, hr, hunder⟩ := hi.held oid τ' owner leaseUntil hl hu.before
      cases o with
      | tx o =>
        rcases (Tx.effect h.state.clock e.ids h.state.db o).outbox_cases hr with
          hr' | ⟨owner', start, leaseUntil', limit, rfl, hoid, -⟩ |
          ⟨status, retryAt, error, at', rfl, -⟩
        · exact ⟨r, hr', hunder⟩
        · exact absurd hoid (hno owner' start leaseUntil' limit rfl)
        · -- only the latest claimer settles, and it has not
          obtain ⟨owner', L', hl'⟩ := ht oid status retryAt error at' rfl
          rw [hl] at hl'
          cases hl'
          have hset := hu _ (List.mem_append_right _ (List.mem_singleton_self _)) rfl
          simp [settles] at hset
      | _ => exact ⟨r, hr, hunder⟩
  · rcases lastClaim_after engine admits τ h o e oid with ⟨owner', start, leaseUntil', limit, rfl,
      hoid, hnew⟩ | ⟨-, hold⟩
    · rw [hnew] at hl
      cases hl
      exact hp.2
    · rw [hold] at hl
      exact hi.worker oid τ' owner leaseUntil hl

variable (engine admits e) in
/-- The row of a record after an operation in turn: a running lease ends only by its own
worker, and a settled record stays settled. -/
theorem Leases.row_after (hi : Leases h) (hp : leasePre τ o h) (ht : InTurn h τ o) {oid : String}
    {r : OutboxRecord} (hr : h.state.db.outbox? oid = some r) :
    ∃ r', ((engine.system W admits).after h τ o e).state.db.outbox? oid = some r' ∧
      (∀ owner leaseUntil, r.under owner leaseUntil → h.state.clock ≤ leaseUntil →
        r'.under owner leaseUntil ∨
        (∃ status retryAt error at', o = .tx (.updateOutbox oid status retryAt error at')) ∧
        ∃ leaseSeconds maxAttempts limit,
          h.calls[τ]? = some (.deliver owner leaseSeconds maxAttempts limit)) ∧
      (r.status = .delivered ∨ r.status = .quarantined → r'.status = r.status) := by
  cases o with
  | tx o =>
    rcases (Tx.effect h.state.clock e.ids h.state.db o).outbox_cases hr with
      hr' | ⟨owner', start, leaseUntil', limit, rfl, hoid, hr'⟩ |
      ⟨status, retryAt, error, at', rfl, hr'⟩
    · exact ⟨r, hr', fun _ _ hu _ => Or.inl hu, fun _ => rfl⟩
    · obtain ⟨r0, hr0, hd⟩ := Db.due_of_mem hoid
      have hrr : r0 = r := Option.some.inj (hr0.symm.trans hr)
      subst hrr
      refine ⟨_, hr', fun owner leaseUntil hu hle => ?_, fun hs => ?_⟩
      · exact absurd (lt_of_lt_of_le (hu.expired hd) hp.1) (not_lt.2 hle)
      · rcases hs with hs | hs <;> simp [Db.due, hs] at hd
    · obtain ⟨owner', L', hl⟩ := ht oid status retryAt error at' rfl
      obtain ⟨r0, hr0, hu0⟩ := hi.held oid τ owner' L' hl hp
      have hrr : r0 = r := Option.some.inj (hr0.symm.trans hr)
      subst hrr
      refine ⟨_, hr', fun owner leaseUntil hu _ => Or.inr ⟨⟨status, retryAt, error, at', rfl⟩, ?_⟩,
        fun hs => ?_⟩
      · have howner : owner' = owner := Option.some.inj (hu0.2.1.symm.trans hu.2.1)
        exact howner ▸ hi.worker oid τ owner' L' hl
      · rw [hu0.1] at hs
        simp at hs
  | _ => exact ⟨r, hr, fun _ _ hu _ => Or.inl hu, fun _ => rfl⟩

end

section
variable (engine : Engine X) (W : World X)

/-- The record that the task is about to settle. -/
def settling : Option (Task X Reply) → Option String
  | some (.call (.tx (.updateOutbox oid ..)) _) => some oid
  | _ => none

/-- The decision lets no worker settle a record that another has claimed since. -/
def inTurn (c : (engine.system W leaseCalls).Config) : (engine.system W leaseCalls).Move → Bool
  | .run τ _ => (settling c.tasks[τ]?).all fun oid =>
      (lastClaim c.hist oid).any fun claim => claim.1 = τ
  | _ => true

variable {engine} {W}

theorem inTurn_of_ready {c : (engine.system W leaseCalls).Config} {τ : ℕ} {e : EngineChoice W}
    {o : Op X} {k : o.Res → Task X Reply} (ht : inTurn engine W c (.run τ e) = true)
    (hr : (engine.system W leaseCalls).Ready c τ o k) : InTurn c.hist τ o := by
  rintro oid status retryAt error at' rfl
  have hs : settling c.tasks[τ]? = some oid := congrArg settling hr.1
  rw [inTurn, hs, Option.all_some] at ht
  obtain ⟨⟨τ', owner, leaseUntil⟩, hlast, hτ⟩ := (Option.any_eq_true _ _).1 ht
  have hτ : τ' = τ := of_decide_eq_true hτ
  exact ⟨owner, leaseUntil, hτ ▸ hlast⟩

theorem Leases.next {c : (engine.system W leaseCalls).Config}
    {a : (engine.system W leaseCalls).Move} (hg : (leaseLogic engine W leaseCalls).Good c)
    (hi : Leases c.hist) (ht : inTurn engine W c a = true) :
    Leases ((engine.system W leaseCalls).next c a).hist := by
  rcases System.next_cases c a with hn | ⟨call, -, -, hn⟩ | ⟨τ, e, o, k, ha, hr, hn⟩ |
      ⟨τ, -, hn⟩ | ⟨e, -, hn⟩ <;> rw [hn]
  · exact hi
  · refine ⟨hi.held, fun oid τ owner leaseUntil hl => ?_⟩
    obtain ⟨leaseSeconds, maxAttempts, limit, hc⟩ := hi.worker oid τ owner leaseUntil hl
    exact ⟨leaseSeconds, maxAttempts, limit, getElem?_of_extends (List.prefix_append _ _) hc⟩
  · exact hi.after (hg.pre (leaseLogic_sound engine W) hr) (inTurn_of_ready (ha ▸ ht) hr)
  · exact ⟨hi.held, hi.worker⟩
  · exact ⟨hi.held, hi.worker⟩

theorem Leases.row_next {c : (engine.system W leaseCalls).Config}
    {a : (engine.system W leaseCalls).Move} (hg : (leaseLogic engine W leaseCalls).Good c)
    (hi : Leases c.hist) (ht : inTurn engine W c a = true) {oid : String} {r : OutboxRecord}
    (hr : c.hist.state.db.outbox? oid = some r) :
    ∃ r', ((engine.system W leaseCalls).next c a).hist.state.db.outbox? oid = some r' ∧
      (∀ owner leaseUntil, r.under owner leaseUntil → c.hist.state.clock ≤ leaseUntil →
        r'.under owner leaseUntil ∨
        ∃ τ status retryAt error at' leaseSeconds maxAttempts limit,
          ((engine.system W leaseCalls).next c a).hist.trace = c.hist.trace ++
            [⟨τ, Op.tx (.updateOutbox oid status retryAt error at'), ()⟩] ∧
          c.hist.calls[τ]? = some (.deliver owner leaseSeconds maxAttempts limit)) ∧
      (r.status = .delivered ∨ r.status = .quarantined → r'.status = r.status) := by
  rcases System.next_cases c a with hn | ⟨call, -, -, hn⟩ | ⟨τ, e, o, k, ha, hready, hn⟩ |
      ⟨τ, -, hn⟩ | ⟨e, -, hn⟩ <;> rw [hn]
  · exact ⟨r, hr, fun _ _ hu _ => Or.inl hu, fun _ => rfl⟩
  · exact ⟨r, hr, fun _ _ hu _ => Or.inl hu, fun _ => rfl⟩
  · obtain ⟨r', hr', hlease, hfinal⟩ := hi.row_after engine leaseCalls e
      (hg.pre (leaseLogic_sound engine W) hready) (inTurn_of_ready (ha ▸ ht) hready) hr
    refine ⟨r', hr', fun owner leaseUntil hu hle => ?_, hfinal⟩
    refine (hlease owner leaseUntil hu hle).imp_right ?_
    rintro ⟨⟨status, retryAt, error, at', rfl⟩, leaseSeconds, maxAttempts, limit, hc⟩
    exact ⟨τ, status, retryAt, error, at', leaseSeconds, maxAttempts, limit, rfl, hc⟩
  · exact ⟨r, hr, fun _ _ hu _ => Or.inl hu, fun _ => rfl⟩
  · exact ⟨r, hr, fun _ _ hu _ => Or.inl hu, fun _ => rfl⟩

theorem leases_run (engine : Engine X) (W : World X) (s : EngineState W)
    (acts : List (engine.system W leaseCalls).Move)
    (hG : System.Guarded (inTurn engine W · ·) ((engine.system W leaseCalls).init s) acts) :
    (leaseLogic engine W leaseCalls).Good
      ((engine.system W leaseCalls).run ((engine.system W leaseCalls).init s) acts) ∧
    Leases (engine.history W leaseCalls s acts) := by
  refine ⟨(leaseLogic_sound engine W).good_run (s := s) trivial acts, ?_⟩
  refine System.run_induction (J := fun c => Leases c.hist) ?_ (fun acts a hi ha => ?_) acts hG
  · exact ⟨fun _ _ _ _ hl => (by cases hl), fun _ _ _ _ hl => (by cases hl)⟩
  · exact hi.next ((leaseLogic_sound engine W).good_run (s := s) trivial acts) ha

theorem settled_stays {c : (engine.system W leaseCalls).Config}
    {acts : List (engine.system W leaseCalls).Move}
    (hg : (leaseLogic engine W leaseCalls).Good c) (hi : Leases c.hist)
    (hG : System.Guarded (inTurn engine W · ·) c acts) {oid : String} {r : OutboxRecord}
    (hr : c.hist.state.db.outbox? oid = some r)
    (hs : r.status = .delivered ∨ r.status = .quarantined) :
    ∃ r', ((engine.system W leaseCalls).run c acts).hist.state.db.outbox? oid = some r' ∧
      r'.status = r.status := by
  induction acts generalizing c r with
  | nil => exact ⟨r, hr, rfl⟩
  | cons a acts ih =>
    obtain ⟨r', hr', -, hstay⟩ := hi.row_next hg hG.1 hr
    have hsame := hstay hs
    obtain ⟨r'', hr'', hs''⟩ := ih (Logic.good_next (leaseLogic_sound engine W) hg a)
      (hi.next hg hG.1) hG.2 hr' (hsame ▸ hs)
    exact ⟨r'', hr'', hs''.trans hsame⟩

end

/-- Lease safety of a run that went through `acts` and goes on with `acts'`: a record under a
running lease stays under it at the next decision, unless that is a completion or failure by
a worker of the lease's owner; and a record that is `DELIVERED` or `QUARANTINED` keeps its
status for the rest of the run. -/
def LeaseSafe (engine : Engine X) (W : World X) (s : EngineState W)
    (acts acts' : List (engine.system W leaseCalls).Move) : Prop :=
  ∀ oid r, (engine.history W leaseCalls s acts).state.db.outbox? oid = some r →
    (∀ owner leaseUntil move rest, r.under owner leaseUntil →
      (engine.history W leaseCalls s acts).state.clock ≤ leaseUntil → acts' = move :: rest →
      ∃ r', (engine.history W leaseCalls s (acts ++ [move])).state.db.outbox? oid = some r' ∧
        (r'.under owner leaseUntil ∨
        ∃ τ status retryAt error at' leaseSeconds maxAttempts limit,
          (engine.history W leaseCalls s (acts ++ [move])).trace =
            (engine.history W leaseCalls s acts).trace ++
              [⟨τ, Op.tx (.updateOutbox oid status retryAt error at'), ()⟩] ∧
          (engine.history W leaseCalls s acts).calls[τ]? =
            some (.deliver owner leaseSeconds maxAttempts limit))) ∧
    (r.status = .delivered ∨ r.status = .quarantined →
      ∃ r', (engine.history W leaseCalls s (acts ++ acts')).state.db.outbox? oid = some r' ∧
        r'.status = r.status)

/-- Every run from any store is safe if in it only the latest claimer of a record settles it. -/
theorem lease_safety (engine : Engine X) (W : World X) (s : EngineState W)
    (acts acts' : List (engine.system W leaseCalls).Move)
    (hG : System.Guarded (inTurn engine W · ·) ((engine.system W leaseCalls).init s)
      (acts ++ acts')) : LeaseSafe engine W s acts acts' := by
  intro oid r hr
  obtain ⟨hG, hG'⟩ := System.guarded_append.1 hG
  obtain ⟨hgood, hi⟩ := leases_run engine W s acts hG
  refine ⟨fun owner leaseUntil move rest hu hle hacts => ?_, fun hs => ?_⟩
  · subst hacts
    obtain ⟨r', hr', hlease, -⟩ := hi.row_next hgood hG'.1 hr
    simp only [history, System.run_snoc]
    exact ⟨r', hr', hlease owner leaseUntil hu hle⟩
  · simp only [history, System.run_append]
    exact settled_stays hgood hi hG' hr hs

/-- An authorized action, for which the isolated engine has no connector. -/
def waitingAction : ActionRecord where
  actionId := "ACT-1"
  command := {
    action := "add_case_note", caseId := "C-1", policyPackageId := "P-1", actorId := "agent"
    idempotencyKey := "key-1", parameters := [("note", .str "n")], parameterFactRefs := []
    requiredFactAuthority := [], keyMin := keyMin_one }
  status := .authorized
  createdAt := 0
  updatedAt := 0

abbrev LeaseMove := (Engine.isolated.system World.isolated leaseCalls).Move

/-- Let `τ` take its next `n` operations. -/
def steps (τ n : ℕ) : List LeaseMove := List.replicate n (.run τ ⟨toString, 0, ()⟩)

/-- Worker A, of at most one attempt, and the message of the action, which A claims. -/
def claimedByA : List LeaseMove :=
  .spawn (.deliver "A" 30 1 10) ::
    ([.spawn (.transaction (.createCase ⟨"C-1", "U-1", "proc", "1", "active", 0⟩))] ++ steps 1 1 ++
      [.spawn (.transaction (.insertAction waitingAction 0))] ++ steps 2 1 ++ steps 0 4)

/-- A stays with its record past the lease, B claims the record, and A is about to settle it. -/
def reclaimedByB : List LeaseMove :=
  claimedByA ++ [.drift ⟨toString, 31000000, ()⟩, .spawn (.deliver "B" 30 5 10)] ++ steps 3 4 ++
    steps 0 2

def isolatedHistory (acts : List LeaseMove) : Log World.isolated :=
  Engine.isolated.history World.isolated leaseCalls ⟨.empty, 0, ()⟩ acts

/-- A settles its record within the lease. -/
theorem lease_safety_within_lease :
    LeaseSafe Engine.isolated World.isolated ⟨.empty, 0, ()⟩ (claimedByA ++ steps 0 2)
      (steps 0 2) :=
  lease_safety Engine.isolated World.isolated ⟨.empty, 0, ()⟩ (claimedByA ++ steps 0 2)
    (steps 0 2) (by decide +kernel)

/-- The message of the action. -/
def messageRow (status : OutboxStatus) (attempts : ℕ) (owner : Option String)
    (leaseUntil : Option Time) (error : Option String) (at' : Time) : OutboxRecord where
  outboxId := "OUT-2"
  topic := "action.dispatch"
  aggregateId := "ACT-1"
  payload := [("action_id", .str "ACT-1")]
  status := status
  attempts := attempts
  availableAt := if status = .leased then 0 else at'
  leaseOwner := owner
  leaseUntil := leaseUntil
  lastError := error
  createdAt := 0
  updatedAt := at'

/-- A takes the record from B, whose lease runs for another 30 seconds. -/
theorem lease_broken_by_expired_worker :
    ¬ LeaseSafe Engine.isolated World.isolated ⟨.empty, 0, ()⟩ reclaimedByB (steps 0 1) := by
  intro hsafe
  have hrow : (isolatedHistory reclaimedByB).state.db.outbox? "OUT-2" =
      some (messageRow .leased 2 (some "B") (some 61000000) none 31000000) := by decide +kernel
  have hclock : (isolatedHistory reclaimedByB).state.clock = 31000000 := by decide +kernel
  obtain ⟨r', hr', hcase⟩ := (hsafe "OUT-2" _ hrow).1 "B" 61000000 (.run 0 ⟨toString, 0, ()⟩) []
    ⟨rfl, rfl, rfl⟩ (hclock.le.trans (by decide)) rfl
  have hnew : (isolatedHistory (reclaimedByB ++ steps 0 1)).state.db.outbox? "OUT-2" =
      some (messageRow .quarantined 2 none none (some "ValueError") 31000000) := by decide +kernel
  rcases hcase with hunder | ⟨τ, _, _, _, _, _, _, _, htrace, hcall⟩
  · have hrr := Option.some.inj (hr'.symm.trans hnew)
    rw [hrr] at hunder
    exact absurd hunder.1 (by decide)
  · -- the entry is A's
    have hlast := congrArg (fun t => t.getLast?.map Entry.tid) htrace
    have hzero : ((isolatedHistory (reclaimedByB ++ steps 0 1)).trace.getLast?.map Entry.tid) =
        some 0 := by decide +kernel
    simp only [List.getLast?_append, List.getLast?_singleton, Option.some_or,
      Option.map_some] at hlast
    have hτ : τ = 0 := Option.some.inj (hlast.symm.trans hzero)
    subst hτ
    have hA : (isolatedHistory reclaimedByB).calls[0]? = some (.deliver "A" 30 1 10) :=
      System.call_of_spawn rfl _
    injection hA.symm.trans hcall with hcalls
    injection hcalls with howner
    exact absurd howner (by decide)

/-- And a record that A has quarantined does not stay so: B marks it for a retry. -/
example :
    ((isolatedHistory (reclaimedByB ++ steps 0 2)).state.db.outbox? "OUT-2").map
      OutboxRecord.status = some .quarantined ∧
    ((isolatedHistory (reclaimedByB ++ steps 0 2 ++ steps 3 4)).state.db.outbox? "OUT-2").map
      OutboxRecord.status = some .failed := by decide +kernel

end WorkflowEngine
