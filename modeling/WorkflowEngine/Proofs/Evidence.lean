import Mathlib.Computability.RegularExpressions
import WorkflowEngine.Proofs.Dispatch

/-! The events of an action and its status tell one story. The grammar of the event
lists is a regular expression; a run keeps every list a word of it that ends in
the stored status, from the migration of a pre-v3 store on. -/

namespace WorkflowEngine

open Interleave Engine Relational RegularExpression

variable {X : Sig}

namespace ActionStatus

def afterUnknown : RegularExpression ActionStatus :=
  star (char unknown) * (1 + (char reconciled + char failed))

def afterDispatched : RegularExpression ActionStatus :=
  1 + (char succeeded + char failed + char unknown * afterUnknown)

def afterAuthorized : RegularExpression ActionStatus := 1 + char dispatched * afterDispatched

/-- What may still follow a status in an event list. -/
def residual : ActionStatus → RegularExpression ActionStatus
  | requested => 1 + char authorized * afterAuthorized
  | authorized => afterAuthorized
  | dispatched => afterDispatched
  | unknown => afterUnknown
  | _ => 1

/-- `requested (authorized (dispatched (succeeded | failed | unknown unknown* (reconciled |
failed)?)?)?)?` -/
def lifecycle : RegularExpression ActionStatus :=
  char requested * (1 + char authorized * (1 + char dispatched * (1 + (char succeeded +
    char failed + char unknown * (star (char unknown) * (1 + (char reconciled + char failed)))))))

theorem cons_mem {t : ActionStatus} {v : List ActionStatus} {R : RegularExpression ActionStatus}
    (h : v ∈ R.matches') : t :: v ∈ (char t * R).matches' :=
  Language.mem_mul.2 ⟨[t], rfl, v, h, rfl⟩

theorem singleton_mem {t : ActionStatus} {v : List ActionStatus}
    (h : v ∈ (1 : RegularExpression ActionStatus).matches') : t :: v ∈ (char t).matches' := by
  rw [matches'_epsilon, Language.mem_one] at h
  rw [h]
  rfl

theorem star_cons_mem {t : ActionStatus} {v : List ActionStatus}
    {R : RegularExpression ActionStatus} (h : v ∈ (star (char t) * R).matches') :
    t :: v ∈ (star (char t) * R).matches' := by
  obtain ⟨x, hx, y, hy, rfl⟩ := Language.mem_mul.1 h
  obtain ⟨L, rfl, hL⟩ := Language.mem_kstar.1 hx
  refine Language.mem_mul.2 ⟨t :: L.flatten, Language.mem_kstar.2 ⟨[t] :: L, rfl, ?_⟩, y, hy, rfl⟩
  intro z hz
  rcases List.mem_cons.1 hz with rfl | hz
  · rfl
  · exact hL z hz

theorem nil_mem_residual (s : ActionStatus) : [] ∈ s.residual.matches' := by
  rw [← rmatch_iff_matches']
  cases s <;> rfl

/-- The order of the events: the two of `insert_action`, then the moves of the action. -/
def Precedes (s t : ActionStatus) : Prop := (s = requested ∧ t = authorized) ∨ Next s t

theorem cons_mem_residual {s t : ActionStatus} {v : List ActionStatus} (hst : Precedes s t)
    (h : v ∈ t.residual.matches') : t :: v ∈ s.residual.matches' := by
  rcases hst with ⟨rfl, rfl⟩ | ⟨rfl, rfl⟩ | hst
  · exact Or.inr (cons_mem h)
  · exact Or.inr (cons_mem h)
  · cases s <;> simp only [CaseKernel.allowed, List.mem_cons, List.not_mem_nil, or_false] at hst
    · rcases hst with rfl | rfl | rfl
      · exact Or.inr (Or.inl (Or.inl (singleton_mem h)))
      · exact Or.inr (Or.inl (Or.inr (singleton_mem h)))
      · exact Or.inr (Or.inr (cons_mem h))
    · rcases hst with rfl | rfl | rfl
      · exact star_cons_mem h
      · exact Language.mem_mul.2 ⟨[], Language.nil_mem_kstar _, _,
          Or.inr (Or.inr (singleton_mem h)), rfl⟩
      · exact Language.mem_mul.2 ⟨[], Language.nil_mem_kstar _, _,
          Or.inr (Or.inl (singleton_mem h)), rfl⟩

/-- `w` is the event list of an action that stands at `s`. -/
inductive Lifecycle : List ActionStatus → ActionStatus → Prop
  | requested : Lifecycle [requested] requested
  | snoc {w : List ActionStatus} {s t : ActionStatus} (hw : Lifecycle w s) (hst : Precedes s t) :
      Lifecycle (w ++ [t]) t

theorem Lifecycle.append_mem {w v : List ActionStatus} {s : ActionStatus} (hw : Lifecycle w s)
    (hv : v ∈ s.residual.matches') : w ++ v ∈ lifecycle.matches' := by
  induction hw generalizing v with
  | requested => exact cons_mem hv
  | snoc hw hst ih =>
    rw [List.append_assoc, List.singleton_append]
    exact ih (cons_mem_residual hst hv)

theorem Lifecycle.mem {w : List ActionStatus} {s : ActionStatus} (hw : Lifecycle w s) :
    w ∈ lifecycle.matches' := by
  have h := hw.append_mem (nil_mem_residual s)
  rwa [List.append_nil] at h

theorem Lifecycle.getLast? {w : List ActionStatus} {s : ActionStatus} (hw : Lifecycle w s) :
    w.getLast? = some s := by
  cases hw with
  | requested => rfl
  | snoc => simp

theorem lifecycle_backfill (s : ActionStatus) : Lifecycle (Txn.backfillSequence s) s := by
  have h1 : Lifecycle [requested, authorized] authorized := .snoc .requested (Or.inl ⟨rfl, rfl⟩)
  have h2 : Lifecycle [requested, authorized, dispatched] dispatched :=
    .snoc h1 (Or.inr (Or.inl ⟨rfl, rfl⟩))
  have h3 : Lifecycle [requested, authorized, dispatched, unknown] unknown :=
    .snoc h2 (Or.inr (Or.inr (by decide)))
  cases s with
  | requested => exact .requested
  | authorized => exact h1
  | dispatched => exact h2
  | succeeded => exact .snoc h2 (Or.inr (Or.inr (by decide)))
  | failed => exact .snoc h2 (Or.inr (Or.inr (by decide)))
  | unknown => exact h3
  | reconciled => exact .snoc h3 (Or.inr (Or.inr (by decide)))

end ActionStatus

/-- The store was migrated, and every action has its story. -/
structure Evidence (db : Db) : Prop where
  migrated : backfillMarker ∈ db.migrations
  known : ∀ e ∈ db.events.rows, ∃ a, db.action? e.actionId = some a
  stories : ∀ id a, db.action? id = some a → ActionStatus.Lifecycle (db.story id) a.status

private theorem evidence_same {db db' : Db} (he : Evidence db) (hm : db'.migrations = db.migrations)
    (ha : db'.actions = db.actions) (hev : db'.events = db.events) : Evidence db' := by
  refine ⟨hm ▸ he.migrated, ?_, ?_⟩ <;> simp only [Db.story, Db.eventsOf, Db.action?, hev, ha]
  · exact he.known
  · exact he.stories

private theorem evidence_moved {id : String} {expected status : ActionStatus}
    {f : ActionRecord → ActionRecord} {event : ActionEvent} {db db' : Db}
    (h : Moved id expected f event db db') (hf : ∀ a, (f a).status = status)
    (hn : expected.Next status) (hid : event.actionId = id) (hs : event.status = status)
    (he : Evidence db) : Evidence db' := by
  have hget : ∀ id', db'.action? id' = (db.action? id').map fun a =>
      if a.actionId = id then f a else a := h.actions .id
  refine ⟨by rw [h.frame]; exact he.migrated, fun e hmem => ?_, fun id' a' ha' => ?_⟩
  · rw [h.events] at hmem
    have hold : ∃ a, db.action? e.actionId = some a := by
      rcases List.mem_append.1 hmem with hmem | hmem
      · exact he.known e hmem
      · rw [List.mem_singleton.1 hmem, hid]
        exact h.found.imp fun _ ha => ha.1
    obtain ⟨a, ha⟩ := hold
    exact ⟨_, (hget _).trans (congrArg (Option.map _) ha)⟩
  · rw [hget] at ha'
    obtain ⟨a, ha, rfl⟩ := Option.map_eq_some_iff.1 ha'
    have hida : a.actionId = id' := (Table.get?_eq_some.1 ha).2
    rw [Db.story_append h.events]
    by_cases hc : a.actionId = id
    · obtain ⟨b, hb, hexp⟩ := h.found
      have hab : a = b := Option.some.inj (ha.symm.trans (hida ▸ hc ▸ hb))
      subst hab
      have hev : event.actionId = id' := hid.trans (hc.symm.trans hida)
      simp only [hc, if_true, hf, List.filter_cons, hev, decide_true, List.filter_nil,
        List.map_cons, List.map_nil, hs]
      exact .snoc (he.stories id' a ha) (Or.inr (hexp ▸ hn))
    · have hev : event.actionId ≠ id' := fun hx => hc (hida.trans (hx.symm.trans hid))
      simpa [hc, hev] using he.stories id' a ha

private theorem evidence_inserted {now : Time} {ids : ℕ → String} {record : ActionRecord} {v : ℤ}
    {db db' : Db} (h : Inserted now ids record v db db') (hs : record.status = .authorized)
    (he : Evidence db) : Evidence db' := by
  have hnone : db.action? record.actionId = none := (Table.rows_of_insert? h.action).2 .id
  have hget : ∀ id, db'.action? id = if id = record.actionId then
      some { record with outcome := none } else db.action? id := Table.get?_insert? h.action .id
  refine ⟨by rw [h.frame]; exact he.migrated, fun e hmem => ?_, fun id a ha => ?_⟩
  · rw [h.events] at hmem
    rcases List.mem_append.1 hmem with hmem | hmem
    · obtain ⟨a, ha⟩ := he.known e hmem
      exact ⟨a, Table.get?_of_insert? h.action ha⟩
    · have hid : e.actionId = record.actionId := by
        simp only [List.mem_cons, List.not_mem_nil, or_false] at hmem
        rcases hmem with rfl | rfl <;> rfl
      exact ⟨_, (hget _).trans (if_pos hid)⟩
  · rw [hget] at ha
    rw [Db.story_append h.events]
    split_ifs at ha with hid
    · subst hid
      -- no event can speak of an action that was not stored
      have hempty : db.story record.actionId = [] := by
        rw [Db.story, Db.eventsOf, List.map_eq_nil_iff, List.filter_eq_nil_iff]
        intro e hmem heq
        obtain ⟨b, hb⟩ := he.known e hmem
        rw [of_decide_eq_true heq, hnone] at hb
        cases hb
      cases ha
      simp only [hempty, hs, List.nil_append, decide_true, List.filter_cons, if_true,
        List.filter_nil, List.map_cons, List.map_nil]
      exact ActionStatus.lifecycle_backfill .authorized
    · simpa [Ne.symm hid] using he.stories id a ha

/-- Every transaction of the engine keeps the evidence. -/
theorem kept_evidence : Kept Evidence := by
  intro now ids db db' o r hd h he
  cases h with
  | nothing => exact he
  | initialized hm _ _ => exact absurd he.migrated hm
  | created h => exact evidence_same he rfl rfl rfl
  | appended h => exact evidence_same he (by rw [h.frame]) (by rw [h.frame]) (by rw [h.frame])
  | inserted h => exact evidence_inserted h hd he
  | moved h => exact evidence_moved h (fun _ => rfl) (Or.inr hd) rfl rfl he
  | claimed h => exact evidence_moved h (fun _ => rfl) (Or.inl ⟨rfl, rfl⟩) rfl rfl he
  | proposed h => exact evidence_same he rfl rfl rfl
  | decided h => exact evidence_same he (by rw [h.frame]) (by rw [h.frame]) (by rw [h.frame])
  | enqueued h => exact evidence_same he rfl rfl rfl
  | leased => exact evidence_same he rfl rfl rfl
  | settled => exact evidence_same he rfl rfl rfl

/-- Numbering the rows of a list does not change what a row says of itself. -/
private theorem filter_zipIdx {α : Type} (l : List α) (n : ℕ) (mk : α → ℕ → ActionEvent)
    (p : α → Bool) (st : α → ActionStatus) {id : String}
    (hp : ∀ x i, decide ((mk x i).actionId = id) = p x) (hst : ∀ x i, (mk x i).status = st x) :
    (((l.zipIdx n).map fun x => mk x.1 x.2).filter fun e => e.actionId = id).map
      ActionEvent.status = (l.filter p).map st := by
  induction l generalizing n with
  | nil => rfl
  | cons x l ih =>
    simp only [List.zipIdx_cons, List.map_cons, List.filter_cons, hp]
    split_ifs
    · simp only [List.map_cons, hst, ih]
    · exact ih _

/-- The sequence of one row among those of all rows. -/
private theorem filter_flatMap {rows : List ActionRecord} {a : ActionRecord} (ha : a ∈ rows)
    (hnd : (rows.map ActionRecord.actionId).Nodup) (seq : ActionRecord → List ActionStatus) :
    ((rows.flatMap fun b => (seq b).map fun s => (b, s)).filter fun x =>
      decide (x.1.actionId = a.actionId)).map Prod.snd = seq a := by
  induction rows with
  | nil => cases ha
  | cons b rows ih =>
    rw [List.map_cons, List.nodup_cons] at hnd
    rw [List.flatMap_cons, List.filter_append, List.map_append]
    have hrow : ∀ c : ActionRecord, c.actionId ≠ a.actionId →
        ((seq c).map fun s => (c, s)).filter
        (fun x => decide (x.1.actionId = a.actionId)) = [] := by
      intro c hc
      simp [List.filter_eq_nil_iff, hc]
    rcases List.mem_cons.1 ha with rfl | ha
    · have hrest : (rows.flatMap fun c => (seq c).map fun s => (c, s)).filter
          (fun x => decide (x.1.actionId = a.actionId)) = [] := by
        rw [List.filter_flatMap, List.flatMap_eq_nil_iff]
        intro c hc
        exact hrow c fun he => hnd.1 (he ▸ List.mem_map_of_mem hc)
      simp [hrest, List.filter_map, Function.comp_def]
    · have hb : b.actionId ≠ a.actionId := fun he => hnd.1 (he ▸ List.mem_map_of_mem ha)
      rw [hrow b hb, ih ha hnd.2]
      rfl

/-- The migration of a pre-v3 store writes the story of every row. -/
theorem evidence_initialized {ids : ℕ → String} {db db' : Db}
    (hempty : db.events.rows = []) (hm : backfillMarker ∉ db.migrations)
    (h : (Txn.initializeStore ids).commit db = (.ok (), db')) : Evidence db' := by
  rcases initialized_of_ok h with ⟨hm', -⟩ | ⟨-, hev, hf⟩
  · exact absurd hm' hm
  have hlegacy : db.actions.rows.filter (fun a => (db.eventsOf a.actionId).isEmpty) =
      db.actions.rows := by
    refine List.filter_eq_self.2 fun a _ => ?_
    simp [Db.eventsOf, hempty]
  have hact : db'.actions = db.actions := by rw [hf]
  rw [hempty, List.nil_append, backfill, hlegacy] at hev
  refine ⟨by rw [hf]; simp, fun e he => ?_, fun id a ha => ?_⟩
  · rw [hev] at he
    obtain ⟨⟨⟨a, s⟩, n⟩, hx, rfl⟩ := List.mem_map.1 he
    obtain ⟨b, hb, hs⟩ := List.mem_flatMap.1 (List.fst_mem_of_mem_zipIdx hx)
    obtain ⟨t, -, hbt⟩ := List.mem_map.1 hs
    cases hbt
    exact ⟨_, by rw [Db.action?, hact]; exact (Table.mem_rows ActionColumn.id).1 hb⟩
  · rw [Db.action?, hact] at ha
    obtain ⟨hrow, rfl⟩ := Table.get?_eq_some.1 ha
    have hstory : db'.story a.actionId = Txn.backfillSequence a.status := by
      rw [Db.story, Db.eventsOf, hev]
      refine (filter_zipIdx _ 0 (fun (x : ActionRecord × ActionStatus) n =>
        ⟨"AEV-" ++ ids n, x.1.actionId, x.2,
        some [("migrated", .bool true)],
        if x.2 = x.1.status then x.1.updatedAt else x.1.createdAt⟩)
        (fun x => decide (x.1.actionId = a.actionId)) Prod.snd (fun _ _ => rfl)
        fun _ _ => rfl).trans ?_
      exact filter_flatMap hrow (db.actions.unique .id) fun b => Txn.backfillSequence b.status
    exact hstory ▸ ActionStatus.lifecycle_backfill a.status

/-- From the migration of any pre-v3 store on, in every state of every run: the events of an
action are a word of the lifecycle grammar, the last one is its status, and once that is
final, the rest of the run changes neither the action nor its events. -/
theorem lifecycle_and_evidence_agree (engine : Engine X) (W : World X) (legacy : Db)
    (ids : ℕ → String) (s : EngineState W) (hempty : legacy.events.rows = [])
    (hm : backfillMarker ∉ legacy.migrations)
    (hinit : (Txn.initializeStore ids).commit legacy = (.ok (), s.db))
    (acts acts' : List (engine.system W openCalls).Move) (id : String) (a : ActionRecord)
    (ha : (engine.history W openCalls s acts).state.db.action? id = some a) :
    (engine.history W openCalls s acts).state.db.story id ∈ ActionStatus.lifecycle.matches' ∧
    ((engine.history W openCalls s acts).state.db.story id).getLast? = some a.status ∧
    (a.status.final →
      (engine.history W openCalls s (acts ++ acts')).state.db.action? id = some a ∧
      (engine.history W openCalls s (acts ++ acts')).state.db.eventsOf id =
        (engine.history W openCalls s acts).state.db.eventsOf id) := by
  have hgood := openCalls_good engine W s kept_evidence (evidence_initialized hempty hm hinit) acts
  have he : Evidence (engine.history W openCalls s acts).state.db := hgood.inv.2
  have hstory := he.stories id a ha
  refine ⟨hstory.mem, hstory.getLast?, fun hf => ?_⟩
  have hlater := ((openCalls_sound engine W kept_evidence _).rely_run hgood acts').1
  rw [← System.run_append] at hlater
  obtain ⟨b, hb, hab⟩ := hlater.db.actions id a ha
  exact ⟨hab.final hf ▸ hb, hlater.db.events he.migrated id a ha hf⟩

/-- A reconciled action of a store from before the migration. -/
def legacyRow : ActionRecord where
  actionId := "ACT-1"
  command := {
    action := "add_case_note", caseId := "C-1", policyPackageId := "P-1", actorId := "agent"
    idempotencyKey := "key-1", parameters := [("note", .str "n")], parameterFactRefs := []
    requiredFactAuthority := [], keyMin := keyMin_one }
  status := .reconciled
  createdAt := 0
  updatedAt := 5

def legacyStore : Db :=
  { Db.empty with actions := ⟨[legacyRow], fun _ => List.nodup_singleton _⟩ }

def migratedState : EngineState World.isolated :=
  ⟨((Txn.initializeStore toString).commit legacyStore).2, 9, ()⟩

theorem lifecycle_and_evidence_agree_legacy :
    (Engine.isolated.history World.isolated openCalls migratedState
      [.spawn .initializeStore, .run 0 ⟨toString, 0, ()⟩]).state.db.story "ACT-1" ∈
        ActionStatus.lifecycle.matches' := by
  have hok : ((Txn.initializeStore toString).commit legacyStore).1 = .ok () := by decide +kernel
  have hdb : ((Txn.initializeStore toString).commit legacyStore).2 = migratedState.db := by
    rw [migratedState]
  have hinit : (Txn.initializeStore toString).commit legacyStore =
      (.ok (), migratedState.db) := by rw [← hdb, ← hok]
  have ha : (Engine.isolated.history World.isolated openCalls migratedState
      [.spawn .initializeStore, .run 0 ⟨toString, 0, ()⟩]).state.db.action? "ACT-1" =
        some legacyRow := by decide +kernel
  exact (lifecycle_and_evidence_agree Engine.isolated World.isolated legacyStore toString
    migratedState rfl (by decide) hinit _ [] "ACT-1" legacyRow ha).1

end WorkflowEngine
