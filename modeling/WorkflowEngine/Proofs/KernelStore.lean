import WorkflowEngine.Interleave.Logic
import WorkflowEngine.Sanity.History

/-! The kernel store under concurrent transactions: case versions count the writes
that a compare-and-set let through, an action comes with its message and its
first events, and a transaction that raises leaves no trace in any table. -/

namespace WorkflowEngine

open Interleave Engine Relational

variable {X : Sig} {W : World X}

/-- A successful `append_fact` on the case. -/
def appendsOn (caseId : String) (x : Entry (sig X)) : Bool :=
  match x with
  | ⟨_, .tx (.appendFact c _ _), .ok _⟩ => c = caseId
  | _ => false

/-- A successful `insert_action` on the case. -/
def insertsOn (caseId : String) (x : Entry (sig X)) : Bool :=
  match x with
  | ⟨_, .tx (.insertAction r _), .ok _⟩ => r.command.caseId = caseId
  | _ => false

/-- A successful write on the case with this expected version. -/
def succeedsAt (caseId : String) (v : ℤ) (x : Entry (sig X)) : Bool :=
  match x with
  | ⟨_, .tx (.appendFact c _ w), .ok _⟩ => decide (c = caseId ∧ w = v)
  | ⟨_, .tx (.insertAction r w), .ok _⟩ => decide (r.command.caseId = caseId ∧ w = v)
  | _ => false

/-- An `append_fact` or `insert_action` that raised. -/
def raises (x : Entry (sig X)) : Bool :=
  match x with
  | ⟨_, .tx (.appendFact ..), .error _⟩ => true
  | ⟨_, .tx (.insertAction ..), .error _⟩ => true
  | _ => false

structure Versioned (db : Db) (t : List (Entry (sig X))) : Prop where
  counted : ∀ id c, db.case? id = some c → ∃ τ record,
    (⟨τ, Op.tx (.createCase record), Except.ok ()⟩ : Entry (sig X)) ∈ t ∧ record.caseId = id ∧
    c.version = record.version + t.countP (appendsOn id) + t.countP (insertsOn id)
  unborn : ∀ id, db.case? id = none →
    t.countP (appendsOn id) = 0 ∧ t.countP (insertsOn id) = 0
  spent : ∀ x ∈ t, ∀ id v, succeedsAt id v x = true → ∃ c, db.case? id = some c ∧ v < c.version
  once : ∀ id v, t.countP (succeedsAt id v) ≤ 1

namespace Versioned

variable {db db' : Db} {t : List (Entry (sig X))} {x : Entry (sig X)}

/-- An entry that writes no version. -/
def Silent (x : Entry (sig X)) : Prop :=
  ∀ id, appendsOn id x = false ∧ insertsOn id x = false ∧ ∀ v, succeedsAt id v x = false

private theorem countP_snoc (p : Entry (sig X) → Bool) :
    (t ++ [x]).countP p = t.countP p + if p x then 1 else 0 := by
  rw [List.countP_append, List.countP_singleton]

theorem silent (h : Versioned db t) (hx : Silent x) (hc : ∀ id, db'.case? id = db.case? id) :
    Versioned db' (t ++ [x]) := by
  refine ⟨fun id c hid => ?_, fun id hid => ?_, fun y hy id v hs => ?_, fun id v => ?_⟩
  · obtain ⟨τ, record, hmem, hr, hv⟩ := h.counted id c (hc id ▸ hid)
    refine ⟨τ, record, List.mem_append_left _ hmem, hr, ?_⟩
    simpa [countP_snoc, (hx id).1, (hx id).2.1] using hv
  · simpa [countP_snoc, (hx id).1, (hx id).2.1] using h.unborn id (hc id ▸ hid)
  · rw [hc]
    rcases List.mem_append.1 hy with hy | hy
    · exact h.spent y hy id v hs
    · rw [List.mem_singleton.1 hy, (hx id).2.2 v] at hs
      cases hs
  · simpa [countP_snoc, (hx id).2.2 v] using h.once id v

theorem created (h : Versioned db t) {τ : ℕ} {record : CaseRecord} {cases}
    (hi : db.cases.insert? record = some cases) :
    Versioned { db with cases } (t ++ [⟨τ, Op.tx (.createCase record), Except.ok ()⟩]) := by
  have hget : ∀ id, ({ db with cases } : Db).case? id =
      if id = record.caseId then some record else db.case? id := Table.get?_insert? hi ()
  have hnone : db.case? record.caseId = none := (Table.rows_of_insert? hi).2 ()
  refine ⟨fun id c hid => ?_, fun id hid => ?_, fun y hy id v hs => ?_, fun id v => ?_⟩
  · simp only [countP_snoc, appendsOn, insertsOn]
    rw [hget] at hid
    split_ifs at hid with he
    · cases hid
      refine ⟨τ, record, by simp, he.symm, ?_⟩
      obtain ⟨h1, h2⟩ := h.unborn id (he ▸ hnone)
      simp [h1, h2]
    · obtain ⟨τ', record', hmem, hr, hv⟩ := h.counted id c hid
      exact ⟨τ', record', List.mem_append_left _ hmem, hr, by simpa using hv⟩
  · rw [hget] at hid
    split_ifs at hid with he
    simpa [countP_snoc, appendsOn, insertsOn] using h.unborn id hid
  · rcases List.mem_append.1 hy with hy | hy
    · obtain ⟨c, hcase, hv⟩ := h.spent y hy id v hs
      refine ⟨c, Table.get?_of_insert? hi hcase, hv⟩
    · rw [List.mem_singleton.1 hy] at hs
      cases hs
  · simpa [countP_snoc, succeedsAt] using h.once id v

/-- A write that found the case at the expected version. -/
theorem bumped (h : Versioned db t) {caseId : String} {v : ℤ}
    (hf : ∃ c, db.case? caseId = some c ∧ c.version = v)
    (hc : ∀ id, db'.case? id = if id = caseId then (db.case? id).map Txn.bumped else db.case? id)
    (hone : ∀ id, (if appendsOn id x then 1 else 0) + (if insertsOn id x then 1 else 0) =
      if id = caseId then 1 else 0)
    (hat : ∀ id w, succeedsAt id w x = true ↔ id = caseId ∧ w = v) :
    Versioned db' (t ++ [x]) := by
  obtain ⟨c0, hc0, rfl⟩ := hf
  refine ⟨fun id c hid => ?_, fun id hid => ?_, fun y hy id w hs => ?_, fun id w => ?_⟩
  · simp only [countP_snoc]
    have h1 := hone id
    rw [hc] at hid
    split_ifs at hid with he
    · obtain ⟨d, hd, rfl⟩ := Option.map_eq_some_iff.1 hid
      obtain ⟨τ, record, hmem, hr, hv⟩ := h.counted id d hd
      refine ⟨τ, record, List.mem_append_left _ hmem, hr, ?_⟩
      rw [if_pos he] at h1
      have hver : (Txn.bumped d).version = d.version + 1 := rfl
      omega
    · obtain ⟨τ, record, hmem, hr, hv⟩ := h.counted id c hid
      refine ⟨τ, record, List.mem_append_left _ hmem, hr, ?_⟩
      rw [if_neg he] at h1
      omega
  · have h1 := hone id
    rw [hc] at hid
    simp only [countP_snoc]
    split_ifs at hid with he
    · rw [Option.map_eq_none_iff, he, hc0] at hid
      cases hid
    · obtain ⟨h2, h3⟩ := h.unborn id hid
      rw [if_neg he] at h1
      omega
  · have hmono : ∀ d, db.case? id = some d →
        ∃ c, db'.case? id = some c ∧ d.version ≤ c.version ∧
        (id = caseId → d.version < c.version) := by
      intro d hd
      have hid := hc id
      rw [hd] at hid
      split_ifs at hid with he
      · have hver : (Txn.bumped d).version = d.version + 1 := rfl
        exact ⟨_, hid, by omega, fun _ => by omega⟩
      · exact ⟨d, hid, le_rfl, fun h => absurd h he⟩
    rcases List.mem_append.1 hy with hy | hy
    · obtain ⟨d, hd, hlt⟩ := h.spent y hy id w hs
      obtain ⟨c, hcase, hle, -⟩ := hmono d hd
      exact ⟨c, hcase, by omega⟩
    · rw [List.mem_singleton.1 hy] at hs
      obtain ⟨rfl, rfl⟩ := (hat id w).1 hs
      obtain ⟨c, hcase, -, hlt⟩ := hmono c0 hc0
      exact ⟨c, hcase, hlt rfl⟩
  · rw [countP_snoc]
    split_ifs with hs
    · -- an earlier success with this version would have moved the case past it
      obtain ⟨rfl, rfl⟩ := (hat id w).1 hs
      have hzero : t.countP (succeedsAt id c0.version) = 0 := by
        refine List.countP_eq_zero.2 fun y hy hsy => ?_
        obtain ⟨d, hd, hlt⟩ := h.spent y hy id _ hsy
        rw [hc0] at hd
        cases hd
        omega
      omega
    · exact h.once id w

end Versioned

/-- The outbox rows that were written for an action. -/
def Db.messagesOf (db : Db) (id : String) : List OutboxRecord :=
  db.outbox.rows.filter fun r => r.aggregateId = id

/-- Every action came with one message and with its first two events, and nothing speaks of
an action that is not stored. -/
structure Provenance (db : Db) : Prop where
  events : ∀ e ∈ db.events.rows, ∃ a, db.action? e.actionId = some a
  stories : ∀ id a, db.action? id = some a → [.requested, .authorized] <+: db.story id
  outbox : ∀ r ∈ db.outbox.rows, ∃ a, db.action? r.aggregateId = some a
  messages : ∀ id a, db.action? id = some a → (db.messagesOf id).map OutboxRecord.message =
    [("action.dispatch", id, [("action_id", .str id)])]

namespace Provenance

variable {db db' : Db}

theorem empty : Provenance .empty where
  events _ h := by cases h
  stories _ _ h := by cases h
  outbox _ h := by cases h
  messages _ _ h := by cases h

private theorem same (h : Provenance db) (ha : db'.actions = db.actions)
    (he : db'.events = db.events) (ho : db'.outbox = db.outbox) : Provenance db' := by
  refine ⟨?_, ?_, ?_, ?_⟩ <;>
    simp only [Db.story, Db.eventsOf, Db.messagesOf, Db.action?, ha, he, ho]
  · exact h.events
  · exact h.stories
  · exact h.outbox
  · exact h.messages

/-- An update of outbox rows that leaves their messages alone. -/
private theorem updated (h : Provenance db) (p : OutboxRecord → Bool)
    (f : OutboxRecord → OutboxRecord) (hf : ∀ r, (f r).message = r.message)
    (ho : db'.outbox.rows = db.outbox.rows.map fun r => if p r then f r else r)
    (ha : db'.actions = db.actions) (he : db'.events = db.events) : Provenance db' := by
  have hm : ∀ r, (if p r then f r else r).message = r.message := by
    intro r
    split_ifs
    · exact hf r
    · rfl
  have hagg : ∀ r, (if p r then f r else r).aggregateId = r.aggregateId := fun r =>
    congrArg (fun m => m.2.1) (hm r)
  have hmsg : ∀ id, (db'.messagesOf id).map OutboxRecord.message =
      (db.messagesOf id).map OutboxRecord.message := by
    intro id
    rw [Db.messagesOf, ho, List.filter_map, List.map_map, Db.messagesOf]
    have hp : (fun r : OutboxRecord => decide (r.aggregateId = id)) ∘
        (fun r => if p r then f r else r) = fun r => decide (r.aggregateId = id) := by
      funext r
      simp only [Function.comp_apply, hagg]
    rw [hp]
    exact List.map_congr_left fun r _ => hm r
  refine ⟨?_, ?_, fun r hr => ?_, fun id a hid => ?_⟩
  · simp only [Db.action?, ha, he]
    exact h.events
  · simp only [Db.story, Db.eventsOf, Db.action?, ha, he]
    exact h.stories
  · rw [ho] at hr
    obtain ⟨r0, hr0, rfl⟩ := List.mem_map.1 hr
    rw [hagg, Db.action?, ha]
    exact h.outbox r0 hr0
  · rw [Db.action?, ha] at hid
    rw [hmsg]
    exact h.messages id a hid

private theorem moved (h : Provenance db) {id : String} {expected : ActionStatus}
    {f : ActionRecord → ActionRecord} {event : ActionEvent}
    (hm : Moved id expected f event db db') (hid : event.actionId = id) : Provenance db' := by
  have hget : ∀ id', db'.action? id' = (db.action? id').map fun a =>
      if a.actionId = id then f a else a := hm.actions .id
  have hkeep : ∀ id', (∃ a, db.action? id' = some a) → ∃ a, db'.action? id' = some a :=
    fun id' ⟨a, ha⟩ => ⟨_, (hget id').trans (congrArg (Option.map _) ha)⟩
  have hback : ∀ id' a, db'.action? id' = some a → ∃ b, db.action? id' = some b := by
    intro id' a ha
    rw [hget] at ha
    obtain ⟨b, hb, -⟩ := Option.map_eq_some_iff.1 ha
    exact ⟨b, hb⟩
  have hout : db'.outbox = db.outbox := by rw [hm.frame]
  refine ⟨fun e he => hkeep _ ?_, fun id' a ha => ?_, fun r hr => hkeep _ ?_, fun id' a ha => ?_⟩
  · rw [hm.events] at he
    rcases List.mem_append.1 he with he | he
    · exact h.events e he
    · rw [List.mem_singleton.1 he, hid]
      exact hm.found.imp fun _ ha => ha.1
  · obtain ⟨b, hb⟩ := hback id' a ha
    rw [Db.story_append hm.events]
    exact (h.stories id' b hb).trans (List.prefix_append _ _)
  · rw [hout] at hr
    exact h.outbox r hr
  · obtain ⟨b, hb⟩ := hback id' a ha
    rw [Db.messagesOf, hout]
    exact h.messages id' b hb

private theorem inserted (h : Provenance db) {now : Time} {ids : ℕ → String}
    {record : ActionRecord} {v : ℤ} (hi : Inserted now ids record v db db') : Provenance db' := by
  have hnone : db.action? record.actionId = none := (Table.rows_of_insert? hi.action).2 .id
  have hget : ∀ id, db'.action? id = if id = record.actionId then
      some { record with outcome := none } else db.action? id := Table.get?_insert? hi.action .id
  have hnew : db'.action? record.actionId = some { record with outcome := none } :=
    (hget _).trans (if_pos rfl)
  have hkeep : ∀ id, (∃ a, db.action? id = some a) → ∃ a, db'.action? id = some a :=
    fun id ⟨a, ha⟩ => ⟨a, Table.get?_of_insert? hi.action ha⟩
  -- nothing spoke of the new action before
  have habsent : ∀ id, (∃ a, db.action? id = some a) → id ≠ record.actionId := by
    rintro id ⟨a, ha⟩ rfl
    rw [hnone] at ha
    cases ha
  have hout := (Table.rows_of_insert? hi.outbox).1
  refine ⟨fun e he => ?_, fun id a ha => ?_, fun r hr => ?_, fun id a ha => ?_⟩
  · rw [hi.events] at he
    rcases List.mem_append.1 he with he | he
    · exact hkeep _ (h.events e he)
    · have hid : e.actionId = record.actionId := by
        simp only [List.mem_cons, List.not_mem_nil, or_false] at he
        rcases he with rfl | rfl <;> rfl
      exact ⟨_, hid ▸ hnew⟩
  · rw [Db.story_append hi.events]
    rw [hget] at ha
    split_ifs at ha with he
    · subst he
      have hempty : db.story record.actionId = [] := by
        rw [Db.story, Db.eventsOf, List.map_eq_nil_iff, List.filter_eq_nil_iff]
        exact fun e hmem heq => habsent _ (h.events e hmem) (of_decide_eq_true heq)
      simp [hempty]
    · exact (h.stories id a ha).trans (List.prefix_append _ _)
  · rw [hout] at hr
    rcases List.mem_append.1 hr with hr | hr
    · exact hkeep _ (h.outbox r hr)
    · rw [List.mem_singleton.1 hr]
      exact ⟨_, hnew⟩
  · rw [Db.messagesOf, hout, List.filter_append, List.map_append]
    rw [hget] at ha
    split_ifs at ha with he
    · subst he
      have hempty : db.outbox.rows.filter (fun r => r.aggregateId = record.actionId) = [] := by
        rw [List.filter_eq_nil_iff]
        exact fun r hr heq => habsent _ (h.outbox r hr) (of_decide_eq_true heq)
      rw [hempty]
      simp [dispatchRow, OutboxRecord.message]
    · have hne : (dispatchRow now ("OUT-" ++ ids 2) record.actionId).aggregateId ≠ id :=
        fun hx => he hx.symm
      simpa [Db.messagesOf, hne] using h.messages id a ha

end Provenance

/-- The transactions of the kernel store. The migration and the bare enqueueing of messages,
which are no kernel operations, stay out. -/
def Tx.ofKernel : Tx → Bool
  | .initializeStore => false
  | .insertOutbox _ => false
  | _ => true

theorem provenance_effect {now : Time} {ids : ℕ → String} {db db' : Db} {o : Tx} {r : o.Res}
    (ho : o.ofKernel = true) (h : Tx.Effect now ids db o r db') (hp : Provenance db) :
    Provenance db' := by
  cases h with
  | nothing => exact hp
  | initialized => cases ho
  | created h => exact hp.same rfl rfl rfl
  | appended h => exact hp.same (by rw [h.frame]) (by rw [h.frame]) (by rw [h.frame])
  | inserted h => exact hp.inserted h
  | moved h => exact hp.moved h rfl
  | claimed h => exact hp.moved h rfl
  | proposed h => exact hp.same rfl rfl rfl
  | decided h => exact hp.same (by rw [h.frame]) (by rw [h.frame]) (by rw [h.frame])
  | enqueued => cases ho
  | leased => exact hp.updated _ (Db.leaseRow _ _ _) (fun _ => rfl) rfl rfl rfl
  | settled => exact hp.updated _ (Db.settleRow _ _ _ _) (fun _ => rfl) rfl rfl rfl

theorem versioned_effect {now : Time} {ids : ℕ → String} {db db' : Db} {o : Tx} {r : o.Res}
    {t : List (Entry (sig X))} {τ : ℕ} (h : Tx.Effect now ids db o r db') (hv : Versioned db t) :
    Versioned db' (t ++ [(⟨τ, Op.tx o, r⟩ : Entry (sig X))]) := by
  have hsilent : Versioned.Silent (⟨τ, Op.tx o, r⟩ : Entry (sig X)) →
      (∀ id, db'.case? id = db.case? id) → _ := fun hs hc => hv.silent hs hc
  cases h with
  | @nothing o r hc =>
    refine hsilent (fun id => ?_) fun _ => rfl
    cases o with
    | appendFact =>
      cases r with
      | ok => cases hc
      | error => exact ⟨rfl, rfl, fun _ => rfl⟩
    | insertAction =>
      cases r with
      | ok => cases hc
      | error => exact ⟨rfl, rfl, fun _ => rfl⟩
    | _ => exact ⟨rfl, rfl, fun _ => rfl⟩
  | created h => exact hv.created h
  | @appended caseId proposal v db' h =>
    refine hv.bumped h.found h.cases (fun id => ?_) fun id w => ?_
    · simp [appendsOn, insertsOn, @eq_comm _ id]
    · simp [succeedsAt, @eq_comm _ id, @eq_comm _ w]
  | @inserted record v db' h =>
    refine hv.bumped h.found h.cases (fun id => ?_) fun id w => ?_
    · simp [appendsOn, insertsOn, @eq_comm _ id]
    · simp [succeedsAt, @eq_comm _ id, @eq_comm _ w]
  | initialized _ _ hf => exact hsilent (fun _ => ⟨rfl, rfl, fun _ => rfl⟩) fun _ => by rw [hf]; rfl
  | moved h => exact hsilent (fun _ => ⟨rfl, rfl, fun _ => rfl⟩) fun _ => by rw [h.frame]; rfl
  | claimed h => exact hsilent (fun _ => ⟨rfl, rfl, fun _ => rfl⟩) fun _ => by rw [h.frame]; rfl
  | decided h => exact hsilent (fun _ => ⟨rfl, rfl, fun _ => rfl⟩) fun _ => by rw [h.frame]; rfl
  | _ => exact hsilent (fun _ => ⟨rfl, rfl, fun _ => rfl⟩) fun _ => rfl

/-- Callers issue single transactions of the kernel store, with any arguments. -/
def kernelCalls : Admission X W
  | _, .transaction o => o.ofKernel
  | _, _ => false

section
variable (engine : Engine X) (W : World X)

def kernelLogic : Logic (engine.system W kernelCalls) where
  Inv h := Versioned h.state.db h.trace ∧ Provenance h.state.db
  Rely _ _ := True
  Pre _ o _ := ∃ t : Tx, o = .tx t ∧ t.ofKernel = true

theorem kernelLogic_sound : (kernelLogic engine W).Sound where
  refl _ := trivial
  trans _ _ _ _ _ := trivial
  step τ o e h hi hp := by
    obtain ⟨t, rfl, ht⟩ := hp
    have heff := Tx.effect h.state.clock e.ids h.state.db t
    exact ⟨⟨versioned_effect heff hi.1, provenance_effect ht heff hi.2⟩, trivial⟩
  spawn _ _ hi _ := ⟨hi, trivial⟩
  crash _ _ hi := ⟨hi, trivial⟩
  drift _ _ hi := ⟨hi, trivial⟩
  body h call _ ha _ := by
    cases call with
    | transaction o => exact fun _ _ _ _ => ⟨⟨o, rfl, ha⟩, fun _ => trivial⟩
    | _ => cases ha

end

/-- A write that raises rolls back. -/
theorem db_of_raises {x : Entry (sig X)} (hx : raises x = true) {e : EngineChoice W}
    {s : EngineState W} (hr : x.res = (exec W e s x.op).1) : (exec W e s x.op).2.db = s.db := by
  obtain ⟨τ, o, r⟩ := x
  cases o with
  | tx o =>
    cases o with
    | appendFact c p v =>
      cases r with
      | ok => cases hx
      | error exc => exact Txn.commit_error (t := Txn.appendFact s.clock c p v) hr.symm
    | insertAction record v =>
      cases r with
      | ok => cases hx
      | error exc => exact Txn.commit_error (t := Txn.insertAction s.clock e.ids record v) hr.symm
    | _ => cases hx
  | _ => cases hx

/-- In every state of every run of kernel transactions from an empty store: versions count
the successful writes, and no expected version lets two through; every action has exactly
one message, which names it, and its events start with requested and authorized; keys are
unique; and a write that raises leaves the whole database as it was. -/
theorem kernel_store_invariant (engine : Engine X) (W : World X) (clock : Time) (ext : W.State)
    (acts : List (engine.system W kernelCalls).Move) :
    let s : EngineState W := ⟨.empty, clock, ext⟩
    let h := engine.history W kernelCalls s acts
    (∀ id c, h.state.db.case? id = some c → ∃ τ record,
      (⟨τ, Op.tx (.createCase record), Except.ok ()⟩ : Entry (sig X)) ∈ h.trace ∧
      record.caseId = id ∧
      c.version = record.version + h.trace.countP (appendsOn id) +
        h.trace.countP (insertsOn id)) ∧
    (∀ id v, h.trace.countP (succeedsAt id v) ≤ 1) ∧
    (∀ id a, h.state.db.action? id = some a →
      (h.state.db.messagesOf id).map OutboxRecord.message =
        [("action.dispatch", id, [("action_id", .str id)])] ∧
      [.requested, .authorized] <+: h.state.db.story id) ∧
    (∀ a ∈ h.state.db.actions.rows, ∀ b ∈ h.state.db.actions.rows,
      a.command.idempotencyKey = b.command.idempotencyKey → a = b) ∧
    ∀ move x, (engine.history W kernelCalls s (acts ++ [move])).trace = h.trace ++ [x] →
      raises x = true →
      (engine.history W kernelCalls s (acts ++ [move])).state.db = h.state.db := by
  intro s h
  have hgood := (kernelLogic_sound engine W).good_run (s := s)
    ⟨⟨fun _ _ hc => (by cases hc), fun _ _ => ⟨rfl, rfl⟩, fun _ hx => (by cases hx),
      fun _ _ => Nat.zero_le 1⟩, .empty⟩ acts
  obtain ⟨hv, hp⟩ := hgood.inv
  refine ⟨hv.counted, hv.once, fun id a ha => ⟨hp.messages id a ha, hp.stories id a ha⟩,
    fun a ha b hb hk => Table.eq_of_mem (i := ActionColumn.key) ha hb hk, ?_⟩
  intro move x htrace hraise
  simp only [history, System.run_snoc] at htrace ⊢
  obtain ⟨e, -, -, hr, hstate⟩ := System.exec_of_next htrace
  rw [hstate]
  exact db_of_raises hraise hr

end WorkflowEngine
