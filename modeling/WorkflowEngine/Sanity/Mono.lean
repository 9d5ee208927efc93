import Mathlib.Logic.Relation
import WorkflowEngine.Sanity.Transactions
import WorkflowEngine.Spec.Kernel

/-! What a task read stays informative while the others move: no row is deleted,
commands, payloads and customers never change, an action only follows the
transition table, a fact only changes with the version of its case. `Grows` says
so of two databases, and every transaction that the engine issues lets its
database grow. -/

namespace WorkflowEngine

open Relational

/-- One move of an action: the claim, or a row of the table of `record_outcome`. -/
def ActionStatus.Next (s t : ActionStatus) : Prop :=
  (s = .authorized ∧ t = .dispatched) ∨ t ∈ CaseKernel.allowed s

def ActionStatus.Leads : ActionStatus → ActionStatus → Prop := Relation.ReflTransGen Next

def ActionStatus.final (s : ActionStatus) : Prop := s = .succeeded ∨ s = .failed ∨ s = .reconciled

instance (s : ActionStatus) : Decidable s.final := inferInstanceAs (Decidable (_ ∨ _))

namespace ActionStatus

theorem Leads.mem_of_closed {P : ActionStatus → Prop} (hP : ∀ s t, Next s t → P s → P t)
    {s t : ActionStatus} (h : Leads s t) (hs : P s) : P t := by
  induction h with
  | refl => exact hs
  | tail _ hn ih => exact hP _ _ hn ih

theorem Leads.ne_authorized {s t : ActionStatus} (h : Leads s t) (hs : s ≠ .authorized) :
    t ≠ .authorized := by
  refine h.mem_of_closed (P := (· ≠ .authorized)) (fun u v hn _ hv => ?_) hs
  subst hv
  cases u <;> simp [Next, CaseKernel.allowed] at hn

theorem not_next_of_final {s t : ActionStatus} (hs : s.final) : ¬ Next s t := by
  rcases hs with rfl | rfl | rfl <;> simp [Next, CaseKernel.allowed]

end ActionStatus

/-- `b` is a later version of the action `a`. -/
structure ActionRecord.Follows (a b : ActionRecord) : Prop where
  command : b.command = a.command
  status : a.status.Leads b.status
  final : a.status.final → b = a

theorem ActionRecord.Follows.refl (a : ActionRecord) : a.Follows a :=
  ⟨rfl, .refl, fun _ => rfl⟩

theorem ActionRecord.Follows.trans {a b c : ActionRecord} (h1 : a.Follows b) (h2 : b.Follows c) :
    a.Follows c := by
  refine ⟨h2.command.trans h1.command, h1.status.trans h2.status, fun hf => ?_⟩
  have hb := h1.final hf
  subst hb
  exact h2.final hf

/-- `d` is a later version of the case `c`. -/
structure CaseRecord.Continues (c d : CaseRecord) : Prop where
  customer : d.customerId = c.customerId
  procedure : d.procedureId = c.procedureId
  procedureVersion : d.procedureVersion = c.procedureVersion
  version : c.version ≤ d.version

theorem CaseRecord.Continues.trans {a b c : CaseRecord} (h1 : a.Continues b)
    (h2 : b.Continues c) : a.Continues c :=
  ⟨h2.customer.trans h1.customer, h2.procedure.trans h1.procedure,
    h2.procedureVersion.trans h1.procedureVersion, h1.version.trans h2.version⟩

/-- The part of an outbox row that its writer fixed. -/
def OutboxRecord.message (r : OutboxRecord) : String × String × Fields :=
  (r.topic, r.aggregateId, r.payload)

namespace Db

/-- Cases stay what they are, and the facts of a case are pinned by its version. -/
def Pinned (db db' : Db) : Prop :=
  ∀ id c, db.case? id = some c → ∃ d, db'.case? id = some d ∧ c.Continues d ∧
    (d.version = c.version → ∀ n, db'.fact? id n = db.fact? id n)

theorem Pinned.refl (db : Db) : db.Pinned db :=
  fun _ c h => ⟨c, h, ⟨rfl, rfl, rfl, le_rfl⟩, fun _ _ => rfl⟩

theorem Pinned.trans {db db' db'' : Db} (h1 : db.Pinned db') (h2 : db'.Pinned db'') :
    db.Pinned db'' := by
  intro id c h
  obtain ⟨d, hd, hcd, hpin⟩ := h1 id c h
  obtain ⟨e, he, hde, hpin'⟩ := h2 id d hd
  refine ⟨e, he, hcd.trans hde, fun hv n => ?_⟩
  have hle := hcd.version
  have hle' := hde.version
  rw [hpin' (by omega) n, hpin (by omega) n]

structure Grows (db db' : Db) : Prop where
  migrations : db.migrations <+: db'.migrations
  actions : ∀ id a, db.action? id = some a → ∃ b, db'.action? id = some b ∧ a.Follows b
  /-- The history of a settled action is closed once the migration ran. -/
  events : backfillMarker ∈ db.migrations → ∀ id a, db.action? id = some a → a.status.final →
    db'.eventsOf id = db.eventsOf id
  cases : db.Pinned db'
  outbox : ∀ id r, db.outbox? id = some r → ∃ r', db'.outbox? id = some r' ∧
    r'.message = r.message
  proposals : ∀ id p, db.proposal? id = some p → ∃ q, db'.proposal? id = some q ∧
    q.idempotencyKey = p.idempotencyKey ∧ (p.status ≠ .pending → q = p)

theorem Grows.refl (db : Db) : db.Grows db where
  migrations := List.prefix_refl _
  actions _ a h := ⟨a, h, .refl a⟩
  events _ _ _ _ _ := rfl
  cases := .refl db
  outbox _ r h := ⟨r, h, rfl⟩
  proposals _ p h := ⟨p, h, rfl, fun _ => rfl⟩

theorem Grows.trans {db db' db'' : Db} (h1 : db.Grows db') (h2 : db'.Grows db'') :
    db.Grows db'' where
  migrations := h1.migrations.trans h2.migrations
  actions id a h := by
    obtain ⟨b, hb, hab⟩ := h1.actions id a h
    obtain ⟨c, hc, hbc⟩ := h2.actions id b hb
    exact ⟨c, hc, hab.trans hbc⟩
  events hm id a h hf := by
    obtain ⟨b, hb, hab⟩ := h1.actions id a h
    have hba := hab.final hf
    subst hba
    rw [h2.events (h1.migrations.subset hm) id b hb hf, h1.events hm id b h hf]
  cases := h1.cases.trans h2.cases
  outbox id r h := by
    obtain ⟨r1, hr1, e1⟩ := h1.outbox id r h
    obtain ⟨r2, hr2, e2⟩ := h2.outbox id r1 hr1
    exact ⟨r2, hr2, e2.trans e1⟩
  proposals id p h := by
    obtain ⟨q, hq, e1, f1⟩ := h1.proposals id p h
    obtain ⟨r, hr, e2, f2⟩ := h2.proposals id q hq
    refine ⟨r, hr, e2.trans e1, fun hne => ?_⟩
    have hqp := f1 hne
    subst hqp
    exact f2 hne

/-- A change of the cases and facts, the rest as it was. -/
private theorem grows_cases {db db' : Db} (hc : db.Pinned db')
    (hf : db' = { db with cases := db'.cases, facts := db'.facts }) : db.Grows db' := by
  have g := Grows.refl db
  rw [hf]
  exact ⟨g.migrations, g.actions, g.events, hf ▸ hc, g.outbox, g.proposals⟩

private theorem grows_outbox {db : Db} {t : Table Unit String fun _ => OutboxRecord.outboxId}
    (ho : ∀ id r, db.outbox? id = some r → ∃ r', t.get? () id = some r' ∧
      r'.message = r.message) : db.Grows { db with outbox := t } := by
  have g := Grows.refl db
  exact ⟨g.migrations, g.actions, g.events, g.cases, ho, g.proposals⟩

private theorem grows_proposals {db : Db}
    {t : Table Unit String fun _ => ActionProposal.proposalId}
    (hp : ∀ id p, db.proposal? id = some p → ∃ q, t.get? () id = some q ∧
      q.idempotencyKey = p.idempotencyKey ∧ (p.status ≠ .pending → q = p)) :
    db.Grows { db with proposals := t } := by
  have g := Grows.refl db
  exact ⟨g.migrations, g.actions, g.events, g.cases, g.outbox, hp⟩

/-- The case whose version was bumped moved on; the others kept their facts. -/
private theorem pinned_bumped {db db' : Db} {caseId : String}
    (hc : ∀ id, db'.case? id =
      if id = caseId then (db.case? id).map Txn.bumped else db.case? id)
    (hf : ∀ id n, id ≠ caseId → db'.fact? id n = db.fact? id n) : db.Pinned db' := by
  intro id c h
  have hid := hc id
  by_cases he : id = caseId
  · rw [if_pos he, h, Option.map_some] at hid
    have hv : (Txn.bumped c).version = c.version + 1 := rfl
    refine ⟨_, hid, ⟨rfl, rfl, rfl, by omega⟩, fun hv' => by omega⟩
  · rw [if_neg he, h] at hid
    exact ⟨c, hid, ⟨rfl, rfl, rfl, le_rfl⟩, fun _ n => hf id n he⟩

private theorem pinned_appended {now : Time} {caseId : String} {proposal : FactProposal} {v : ℤ}
    {db db' : Db} (h : Appended now caseId proposal v db db') : db.Pinned db' := by
  refine pinned_bumped h.cases fun id n hne => h.facts id n ?_
  intro he
  exact hne (Prod.mk.inj he).1

private theorem pinned_inserted {now : Time} {ids : ℕ → String} {record : ActionRecord} {v : ℤ}
    {db db' : Db} (h : Inserted now ids record v db db') : db.Pinned db' :=
  pinned_bumped h.cases fun id n _ => by rw [h.frame]; rfl

private theorem pinned_created {db : Db} {record : CaseRecord} {cases}
    (h : db.cases.insert? record = some cases) : db.Pinned { db with cases } :=
  fun _ c hc => ⟨c, Table.get?_of_insert? h hc, ⟨rfl, rfl, rfl, le_rfl⟩, fun _ _ => rfl⟩

theorem eventsOf_append {db db' : Db} {new : List ActionEvent}
    (h : db'.events.rows = db.events.rows ++ new) (id : String) :
    db'.eventsOf id = db.eventsOf id ++ new.filter fun e => e.actionId = id := by
  rw [eventsOf, h, List.filter_append, eventsOf]

/-- The statuses of the events of an action, in rowid order. -/
def story (db : Db) (id : String) : List ActionStatus := (db.eventsOf id).map ActionEvent.status

theorem story_append {db db' : Db} {new : List ActionEvent}
    (h : db'.events.rows = db.events.rows ++ new) (id : String) :
    db'.story id = db.story id ++
      (new.filter fun e => e.actionId = id).map ActionEvent.status := by
  rw [story, eventsOf_append h, List.map_append, story]

private theorem grows_inserted {now : Time} {ids : ℕ → String} {record : ActionRecord} {v : ℤ}
    {db db' : Db} (h : Inserted now ids record v db db') : db.Grows db' where
  migrations := by rw [h.frame]
  actions id a ha := ⟨a, Table.get?_of_insert? h.action ha, .refl a⟩
  events _ id a ha _ := by
    have hnew := (Table.rows_of_insert? h.action).2 .id
    have hne : record.actionId ≠ id := by
      rintro rfl
      have hnone : db.action? record.actionId = none := hnew
      rw [hnone] at ha
      cases ha
    rw [eventsOf_append h.events id]
    simp [hne]
  cases := pinned_inserted h
  outbox id r hr := ⟨r, Table.get?_of_insert? h.outbox hr, rfl⟩
  proposals := by
    rw [h.frame]
    exact (Grows.refl db).proposals

private theorem grows_moved {id : String} {expected : ActionStatus}
    {f : ActionRecord → ActionRecord} {event : ActionEvent} {db db' : Db}
    (h : Moved id expected f event db db') (hcmd : ∀ a, (f a).command = a.command)
    (hn : ∀ a, expected.Next (f a).status) (he : event.actionId = id) : db.Grows db' where
  migrations := by rw [h.frame]
  actions id' a ha := by
    refine ⟨_, (h.actions .id id').trans (congrArg (Option.map _) ha), ?_⟩
    dsimp only
    split_ifs with hid
    · obtain ⟨b, hb, hs⟩ := h.found
      have hid' : id' = id := (Table.get?_eq_some.1 ha).2.symm.trans hid
      have hab : a = b := Option.some.inj (ha.symm.trans (hid' ▸ hb))
      subst hab
      refine ⟨hcmd a, .single (hs ▸ hn a), fun hf => ?_⟩
      exact absurd (hn a) (hs ▸ ActionStatus.not_next_of_final hf)
    · exact .refl a
  events _ id' a ha hf := by
    have hne : id ≠ id' := by
      rintro rfl
      obtain ⟨b, hb, hs⟩ := h.found
      have hab : a = b := Option.some.inj (ha.symm.trans hb)
      subst hab
      exact ActionStatus.not_next_of_final (hs ▸ hf) (hn a)
    rw [eventsOf_append h.events id']
    simp [he, hne]
  cases := by
    rw [h.frame]
    exact (Grows.refl db).cases
  outbox := by
    rw [h.frame]
    exact (Grows.refl db).outbox
  proposals := by
    rw [h.frame]
    exact (Grows.refl db).proposals

private theorem grows_decided {now : Time} {id : String} {status : ActionProposalStatus}
    {db db' : Db} (h : Decided now id .pending status db db') : db.Grows db' := by
  rw [h.frame]
  refine grows_proposals fun id' p hp => ?_
  by_cases he : id' = id
  · subst he
    obtain ⟨q, hq, -, hk, -⟩ := h.proposal p hp
    refine ⟨q, hq, hk, fun hne => ?_⟩
    obtain ⟨p', hp', hs⟩ := h.found
    have hpp : p = p' := Option.some.inj (hp.symm.trans hp')
    exact absurd (hpp ▸ hs) hne
  · exact ⟨p, (h.others id' he).trans hp, rfl, fun _ => rfl⟩

private theorem grows_initialized {db db' : Db}
    (hm : backfillMarker ∉ db.migrations)
    (hf : db' = { db with
      events := db'.events, migrations := db.migrations ++ [backfillMarker] }) :
    db.Grows db' := by
  have g := Grows.refl db
  rw [hf]
  exact ⟨List.prefix_append _ _, g.actions, fun h => absurd h hm, g.cases, g.outbox, g.proposals⟩

end Db

/-- Every transaction pins the facts, whoever issues it. -/
theorem pinned_effect {now : Time} {ids : ℕ → String} {db db' : Db} {o : Tx} {r : o.Res}
    (h : Tx.Effect now ids db o r db') : db.Pinned db' := by
  cases h with
  | created h => exact Db.pinned_created h
  | appended h => exact Db.pinned_appended h
  | inserted h => exact Db.pinned_inserted h
  | initialized hm he hf =>
    rw [hf]
    exact .refl db
  | moved h =>
    rw [h.frame]
    exact .refl db
  | claimed h =>
    rw [h.frame]
    exact .refl db
  | decided h =>
    rw [h.frame]
    exact .refl db
  | _ => exact .refl db

/-- Events are only ever added, after those that are there. -/
theorem events_effect {now : Time} {ids : ℕ → String} {db db' : Db} {o : Tx} {r : o.Res}
    (h : Tx.Effect now ids db o r db') : db.events.rows <+: db'.events.rows := by
  cases h with
  | initialized hm he hf =>
    rw [he]
    exact List.prefix_append _ _
  | inserted h =>
    rw [h.events]
    exact List.prefix_append _ _
  | moved h =>
    rw [h.events]
    exact List.prefix_append _ _
  | claimed h =>
    rw [h.events]
    exact List.prefix_append _ _
  | appended h =>
    rw [h.frame]
  | decided h =>
    rw [h.frame]
  | _ => exact List.prefix_refl _

/-- The transactions as the engine issues them: actions are inserted `AUTHORIZED` and follow
the transition table, messages are inserted `PENDING`, decisions are on pending proposals. -/
def Tx.Disciplined : Tx → Prop
  | .insertAction record _ => record.status = .authorized
  | .insertOutbox record => record.status = .pending
  | .transitionAction _ expected status _ => status ∈ CaseKernel.allowed expected
  | .transitionProposal _ expected _ _ _ => expected = .pending
  | _ => True

theorem grows_effect {now : Time} {ids : ℕ → String} {db db' : Db} {o : Tx} {r : o.Res}
    (hd : o.Disciplined) (h : Tx.Effect now ids db o r db') : db.Grows db' := by
  cases h with
  | nothing => exact .refl db
  | initialized hm he hf => exact Db.grows_initialized hm hf
  | created h => exact Db.grows_cases (Db.pinned_created h) rfl
  | appended h => exact Db.grows_cases (Db.pinned_appended h) h.frame
  | inserted h => exact Db.grows_inserted h
  | moved h => exact Db.grows_moved h (fun _ => rfl) (fun _ => Or.inr hd) rfl
  | claimed h => exact Db.grows_moved h (fun _ => rfl) (fun _ => Or.inl ⟨rfl, rfl⟩) rfl
  | proposed h =>
    exact Db.grows_proposals fun id p hp =>
      ⟨p, Table.get?_of_insert? h hp, rfl, fun _ => rfl⟩
  | decided h =>
    have he := hd
    subst he
    exact Db.grows_decided h
  | enqueued h => exact Db.grows_outbox fun id r hr => ⟨r, Table.get?_of_insert? h hr, rfl⟩
  | leased =>
    refine Db.grows_outbox fun id r hr => ?_
    refine Table.exists_updateWhere (g := OutboxRecord.message) ?_ hr
    exact fun _ => rfl
  | settled =>
    refine Db.grows_outbox fun id r hr => ?_
    refine Table.exists_updateWhere (g := OutboxRecord.message) ?_ hr
    exact fun _ => rfl

end WorkflowEngine
