import WorkflowEngine.HashChain.Chain
import WorkflowEngine.JsonText.RoundTrip
import WorkflowEngine.Spec.Audit

/-! The audit trail is one hash chain: what the writer hashes is what the verifier and the
backfill make of the stored row, and the head of a valid chain determines every entry. -/

namespace WorkflowEngine

open JsonText HashChain AuditRepository

variable {F : Type} [FloatText F]

variable (F) in
/-- A row with both hashes, as a link of the chain of canonical texts. -/
def AuditRow.link? (row : AuditRow) : Option (Link DbText DbText) := do
  let previous ← row.previousHash
  let entry ← row.entry (F := F)
  return ⟨previous, (Value.dict entry).canonical, ← row.entryHash⟩

variable (F) in
/-- The rows are linked from `g` on. -/
def Chained (g : DbText) (rows : List AuditRow) (links : List (Link DbText DbText)) : Prop :=
  rows.map (AuditRow.link? F) = links.map some ∧ Linked chained g links

/-- The digest of the rows. -/
def headOf (g : DbText) (links : List (Link DbText DbText)) : DbText :=
  head chained g (links.map Link.entry)

theorem AuditRow.link?_eq_some {row : AuditRow} {l : Link DbText DbText} :
    row.link? F = some l ↔ row.previousHash = some l.previous ∧ row.entryHash = some l.digest ∧
      ∃ entry, row.entry (F := F) = some entry ∧ l.entry = (Value.dict entry).canonical := by
  obtain ⟨previous, text, digest⟩ := l
  simp only [AuditRow.link?, Option.bind_eq_bind, Option.bind_eq_some_iff, Option.pure_def,
    Option.some.injEq, Link.mk.injEq]
  constructor
  · rintro ⟨p, hp, entry, he, d, hd, rfl, rfl, rfl⟩
    exact ⟨hp, hd, entry, he, rfl⟩
  · rintro ⟨hp, hd, entry, he, rfl⟩
    exact ⟨_, hp, entry, he, _, hd, rfl, rfl, rfl⟩

theorem chained_cons {g : DbText} {row : AuditRow} {rows : List AuditRow} {l : Link DbText DbText}
    {links : List (Link DbText DbText)} : Chained F g (row :: rows) (l :: links) ↔
      row.link? F = some l ∧ l.previous = g ∧ l.digest = chained g l.entry ∧
        Chained F (chained g l.entry) rows links := by
  simp only [Chained, List.map_cons, List.cons.injEq, Linked]
  tauto

theorem chained_nil (g : DbText) : Chained F g [] [] := ⟨rfl, trivial⟩

/-- The verifier accepts the chains, and reports their length and their digest. -/
theorem verifyFrom_eq_valid {g : DbText} {i n : ℕ} {hash : DbText} {rows : List AuditRow} :
    verifyFrom F g i rows = some (.valid n hash) ↔
      ∃ links, Chained F g rows links ∧ n = i + rows.length ∧ hash = headOf g links := by
  induction rows generalizing g i with
  | nil =>
    rw [verifyFrom]
    constructor
    · intro h
      cases h
      exact ⟨[], chained_nil hash, rfl, rfl⟩
    · rintro ⟨links, hc, rfl, rfl⟩
      cases links with
      | nil => rfl
      | cons l links => cases hc.1
  | cons row rows ih =>
    rw [verifyFrom]
    constructor
    · intro h
      obtain ⟨entry, he, h⟩ := Option.bind_eq_some_iff.1 h
      dsimp only at h
      split_ifs at h with hne
      · cases h
      rw [not_or, not_not, not_not] at hne
      obtain ⟨links, hc, rfl, rfl⟩ := ih.1 h
      refine ⟨⟨g, (Value.dict entry).canonical, hashEntry g entry⟩ :: links, ?_, ?_, rfl⟩
      · exact chained_cons.2 ⟨AuditRow.link?_eq_some.2 ⟨hne.1, hne.2, entry, he, rfl⟩, rfl, rfl, hc⟩
      · rw [List.length_cons]
        omega
    · rintro ⟨links, hc, rfl, rfl⟩
      cases links with
      | nil => cases hc.1
      | cons l links =>
        obtain ⟨hl, hp, hd, hc⟩ := chained_cons.1 hc
        obtain ⟨hrow, hhash, entry, he, hentry⟩ := AuditRow.link?_eq_some.1 hl
        rw [he, Option.bind_some]
        have hexpected : hashEntry g entry = chained g l.entry := by rw [hentry, hashEntry]
        dsimp only
        rw [hexpected, hrow, hhash, hp, hd, if_neg (by simp)]
        refine ih.2 ⟨links, hc, ?_, rfl⟩
        rw [List.length_cons]
        omega

/-! The writer and the verifier. -/

/-- The text of a value is not empty. -/
theorem dumps_ne_nil (v : Value F) : Value.dumps v ≠ [] := by
  obtain ⟨c, t, h, -⟩ := Value.begins_dump [' '] v
  rw [Value.dumps, h]
  exact List.cons_ne_nil c t

/-- A state is read back as it was written. -/
theorem loadState_dumps (name : String) (d : Option (JsonDict F)) :
    AuditRow.loadState (name, d.map fun d => Value.dumps (.dict d.1)) =
      some (name, d.map fun d => Value.dict d.1) := by
  cases d with
  | none => rfl
  | some d =>
    have hloads := Value.loads_dumps d.2
    unfold AuditRow.loadState
    simp only [Option.map_some, Option.getD_some]
    split
    · next h => exact absurd h (dumps_ne_nil _)
    · rw [hloads]
      rfl

theorem texts_insertRow (previous : DbText) (e : AuditEntry F) :
    (insertRow previous e).texts = e.texts := by
  simp [AuditRow.texts, insertRow, column, AuditEntry.texts, List.lookup_cons]

theorem states_insertRow (previous : DbText) (e : AuditEntry F) :
    (insertRow previous e).states =
      e.states.map fun kv => (kv.1, kv.2.map fun d => Value.dumps (.dict d.1)) := by
  simp [AuditRow.states, insertRow, stateColumn, AuditEntry.states, List.lookup_cons]

/-- The verifier makes of the stored row what the writer has hashed. -/
theorem entry_insertRow (previous : DbText) (e : AuditEntry F) :
    (insertRow previous e).entry = some e.toDict := by
  have hstates : (insertRow previous e).states.mapM AuditRow.loadState =
      some (e.states.map fun kv => (kv.1, kv.2.map fun d => Value.dict d.1)) := by
    rw [states_insertRow]
    generalize e.states = kvs
    induction kvs with
    | nil => rfl
    | cons kv kvs ih =>
      rw [List.map_cons, List.mapM_cons, loadState_dumps, ih]
      rfl
  unfold AuditRow.entry AuditEntry.toDict
  rw [hstates, texts_insertRow, Option.map_some]
  refine congrArg some (congrArg (_ ++ ·) ?_)
  unfold auditItems
  rw [List.filterMap_map]
  refine List.filterMap_congr fun kv _ => ?_
  obtain ⟨k, v⟩ := kv
  cases v <;> rfl

theorem hexdigest_ne_nil (text : DbText) : Sha256.hexdigest text ≠ [] := by
  simp [Sha256.hexdigest, Sha256.State.words, Sha256.hexWord]

theorem chained_snoc {g : DbText} {rows : List AuditRow} {links : List (Link DbText DbText)}
    {row : AuditRow} {l : Link DbText DbText} (hc : Chained F g rows links)
    (hl : row.link? F = some l)
    (hp : l.previous = headOf g links) (hd : l.digest = chained (headOf g links) l.entry) :
    Chained F g (rows ++ [row]) (links ++ [l]) := by
  refine ⟨?_, linked_append.2 ⟨hc.2, hp, hd, trivial⟩⟩
  rw [List.map_append, List.map_append, hc.1, List.map_singleton, hl]
  rfl

/-- The last row of a chain has its digest. -/
theorem Chained.last {g : DbText} {rows : List AuditRow} {links : List (Link DbText DbText)}
    (hc : Chained F g rows links) : rows = [] ∧ headOf g links = g ∨
      ∃ row, rows.getLast? = some row ∧ row.entryHash = some (headOf g links) ∧
        headOf g links ≠ [] := by
  obtain ⟨hmap, hlinked⟩ := hc
  cases links using List.reverseRecOn with
  | nil =>
    rw [List.map_nil, List.map_eq_nil_iff] at hmap
    exact Or.inl ⟨hmap, rfl⟩
  | append_singleton links l =>
    cases rows using List.reverseRecOn with
    | nil => simp at hmap
    | append_singleton rows row =>
      rw [List.map_append, List.map_append] at hmap
      obtain ⟨-, hlast⟩ := List.append_inj' hmap rfl
      obtain ⟨-, hhash, -⟩ := AuditRow.link?_eq_some.1 (List.singleton_inj.1 hlast)
      have hd : l.digest = headOf g (links ++ [l]) := hlinked.last
      refine Or.inr ⟨row, by simp, hd ▸ hhash, ?_⟩
      rw [headOf, List.map_append, List.map_singleton, head_snoc]
      exact hexdigest_ne_nil _

/-- The writer links its row to the chain. -/
theorem previousHash_of_chained {rows : List AuditRow} {links : List (Link DbText DbText)}
    (hc : Chained F GENESIS rows links) : previousHash rows = headOf GENESIS links := by
  unfold previousHash
  rcases hc.last with ⟨rfl, hh⟩ | ⟨row, hrow, hhash, hne⟩
  · rw [hh]
    rfl
  · rw [hrow, Option.bind_some, hhash, Option.getD_some]
    split
    · next h => exact absurd h hne
    · rfl

theorem chained_write {rows rows' : List AuditRow} {links : List (Link DbText DbText)}
    (hc : Chained F GENESIS rows links) {e : AuditEntry F} (hw : write rows e = some rows') :
    ∃ links', Chained F GENESIS rows' links' := by
  unfold write at hw
  dsimp only at hw
  split_ifs at hw
  cases hw
  have hprev := previousHash_of_chained hc
  exact ⟨_, chained_snoc (l := ⟨previousHash rows, _, hashEntry (previousHash rows) e.toDict⟩) hc
    (AuditRow.link?_eq_some.2 ⟨rfl, rfl, _, entry_insertRow _ e, rfl⟩) hprev (hprev ▸ rfl)⟩

/-! The backfill. -/

theorem hashed_of_chained {g : DbText} {rows : List AuditRow} {links : List (Link DbText DbText)}
    (hc : Chained F g rows links) : ∀ row ∈ rows, row.entryHash.getD [] ≠ [] := by
  induction rows generalizing g links with
  | nil => simp
  | cons row rows ih =>
    cases links with
    | nil => cases hc.1
    | cons l links =>
      obtain ⟨hl, -, hd, hc⟩ := chained_cons.1 hc
      obtain ⟨-, hhash, -⟩ := AuditRow.link?_eq_some.1 hl
      refine List.forall_mem_cons.2 ⟨?_, ih hc⟩
      rw [hhash, Option.getD_some, hd]
      exact hexdigest_ne_nil _

/-- A row that has a hash is left as it is, in its place. -/
theorem backfillAudit_getElem? {g : DbText} {rows rows' : List AuditRow}
    (hb : backfillAudit F g rows = some rows')
    {i : ℕ} {row : AuditRow} (hi : rows[i]? = some row) (hh : row.entryHash.getD [] ≠ []) :
    rows'[i]? = some row := by
  induction rows generalizing g rows' i with
  | nil => cases hi
  | cons r rows ih =>
    unfold backfillAudit at hb
    split at hb
    · next hnil =>
      obtain ⟨entry, -, hb⟩ := Option.bind_eq_some_iff.1 hb
      obtain ⟨rest, hrest, rfl⟩ := Option.map_eq_some_iff.1 hb
      cases i with
      | zero =>
        cases hi
        exact absurd hnil hh
      | succ i => exact ih hrest hi
    · obtain ⟨rest, hrest, rfl⟩ := Option.map_eq_some_iff.1 hb
      cases i with
      | zero => exact hi
      | succ i => exact ih hrest hi

theorem backfillAudit_hashed {g : DbText} {rows : List AuditRow}
    (h : ∀ row ∈ rows, row.entryHash.getD [] ≠ []) : backfillAudit F g rows = some rows := by
  induction rows generalizing g with
  | nil => rfl
  | cons row rows ih =>
    obtain ⟨hrow, hrows⟩ := List.forall_mem_cons.1 h
    unfold backfillAudit
    split
    · next hnil => exact absurd hnil hrow
    · rw [ih hrows]
      rfl

/-- Rows without hashes become a chain. -/
theorem backfillAudit_legacy {g : DbText} {rows : List AuditRow}
    (h : ∀ row ∈ rows, row.entryHash = none ∧ ∃ entry, row.entry (F := F) = some entry) :
    ∃ rows' links, backfillAudit F g rows = some rows' ∧ Chained F g rows' links := by
  induction rows generalizing g with
  | nil => exact ⟨[], [], rfl, chained_nil g⟩
  | cons row rows ih =>
    obtain ⟨⟨hnone, entry, he⟩, hrows⟩ := List.forall_mem_cons.1 h
    obtain ⟨rows', links, hb, hc⟩ := ih (g := hashEntry g entry) hrows
    refine ⟨{ row with previousHash := some g, entryHash := some (hashEntry g entry) } :: rows',
      ⟨g, (Value.dict entry).canonical, hashEntry g entry⟩ :: links, ?_,
      chained_cons.2 ⟨AuditRow.link?_eq_some.2 ⟨rfl, rfl, entry, ?_, rfl⟩, rfl, rfl, hc⟩⟩
    · unfold backfillAudit
      rw [hnone, Option.getD_none]
      simp only
      rw [he, Option.bind_some, hb]
      rfl
    · exact he

/-- A row from before the hashes: its states are absent, or JSON. -/
structure Legacy (F : Type) [FloatText F] (row : AuditRow) : Prop where
  unhashed : row.entryHash = none
  states : ∀ kv ∈ row.states, ∀ text, kv.2 = some text → (Value.loads (F := F) text).isSome = true

theorem Legacy.entry {row : AuditRow} (h : Legacy F row) :
    ∃ entry, row.entry (F := F) = some entry := by
  have hload : ∀ kv ∈ row.states, ∃ state, AuditRow.loadState (F := F) kv = some state := by
    intro kv hkv
    unfold AuditRow.loadState
    split
    · exact ⟨_, rfl⟩
    · next hne =>
      cases hv : kv.2 with
      | none =>
        rw [hv] at hne
        exact absurd rfl hne
      | some text =>
        obtain ⟨v, hv⟩ := Option.isSome_iff_exists.1 (h.states kv hkv text hv)
        exact ⟨_, congrArg _ hv⟩
  have hall : ∀ kvs : List (String × Option DbText), (∀ kv ∈ kvs, ∃ state,
      AuditRow.loadState (F := F) kv = some state) →
      ∃ states, kvs.mapM (AuditRow.loadState (F := F)) = some states := by
    intro kvs hkvs
    induction kvs with
    | nil => exact ⟨[], rfl⟩
    | cons kv kvs ih =>
      obtain ⟨⟨state, hs⟩, hrest⟩ := List.forall_mem_cons.1 hkvs
      obtain ⟨states, hss⟩ := ih hrest
      refine ⟨state :: states, ?_⟩
      rw [List.mapM_cons, hs, hss]
      rfl
  obtain ⟨states, hs⟩ := hall row.states hload
  exact ⟨_, congrArg (Option.map _) hs⟩

theorem chained_run {rows : List AuditRow} {links : List (Link DbText DbText)}
    (hc : Chained F GENESIS rows links) (calls : List (AuditCall F)) :
    ∃ links', Chained F GENESIS (auditRun rows calls) links' := by
  induction calls generalizing rows links with
  | nil => exact ⟨links, hc⟩
  | cons call calls ih =>
    have hnext : ∃ links', Chained F GENESIS (call.exec rows) links' := by
      cases call with
      | initDb =>
        refine ⟨links, ?_⟩
        unfold AuditCall.exec initDb
        rw [backfillAudit_hashed (hashed_of_chained hc)]
        exact hc
      | write e =>
        unfold AuditCall.exec
        dsimp only
        cases hw : write rows e with
        | none => exact ⟨links, hc⟩
        | some rows' => exact chained_write hc hw
    obtain ⟨links', hc'⟩ := hnext
    exact ih hc'

/-- The digest that a table ends with. -/
def EndsWith (rows : List AuditRow) (hash : DbText) : Prop :=
  match rows.getLast? with
  | none => hash = GENESIS
  | some row => row.entryHash = some hash

/-- A row from before the hashes. -/
def legacyAudit : AuditRow where
  entryId := some "A-1".toList
  timestamp := some "t1".toList
  action := some "case.updated".toList
  actor := some "rep-1".toList
  resourceType := some "case".toList
  resourceId := some "C-1".toList
  correlationId := none
  sessionId := none
  procedureId := none
  stepId := none
  beforeState := none
  afterState := none
  metadata := some "\x7b\"b\": 1.50, \"a\": [null]\x7d".toList
  previousHash := none
  entryHash := none

def closedEntry : AuditEntry WrittenFloat where
  entryId := "A-2".toList
  timestamp := "t2".toList
  correlationId := some []
  action := "case.updated".toList
  actor := "rep-1".toList
  resourceType := "case".toList
  resourceId := "C-1".toList
  sessionId := some "S-1".toList
  procedureId := none
  stepId := none
  beforeState := some ⟨[], by decide, trivial⟩
  afterState := some ⟨[(auditKey "z", .int 2), (auditKey "k", .str (ofText "é".toList))],
    by decide, trivial, trivial, trivial⟩
  metadata := none

/-- What the verifier hashes. -/
def hashedTexts (F : Type) [FloatText F] (g : DbText) : List AuditRow → List DbText
  | [] => []
  | row :: rest => match row.entry (F := F) with
    | none => []
    | some entry => (g ++ ':' :: (Value.dict entry).canonical) ::
      hashedTexts F (hashEntry g entry) rest

/-- The colon after a digest is the first one of the text. -/
theorem framing {g g' text text' : DbText} (hg : ':' ∉ g) (hg' : ':' ∉ g')
    (h : g ++ ':' :: text = g' ++ ':' :: text') : g = g' ∧ text = text' := by
  induction g generalizing g' with
  | nil =>
    cases g' with
    | nil => exact ⟨rfl, (List.cons.inj h).2⟩
    | cons c g' =>
      rw [(List.cons.inj h).1] at hg'
      exact absurd List.mem_cons_self hg'
  | cons c g ih =>
    cases g' with
    | nil =>
      rw [← (List.cons.inj h).1] at hg
      exact absurd List.mem_cons_self hg
    | cons c' g' =>
      obtain ⟨rfl, htail⟩ := List.cons.inj h
      obtain ⟨rfl, htext⟩ := ih (fun hm => hg (List.mem_cons_of_mem _ hm))
        (fun hm => hg' (List.mem_cons_of_mem _ hm)) htail
      exact ⟨rfl, htext⟩

theorem colon_not_mem_hexdigest (text : DbText) : ':' ∉ Sha256.hexdigest text := fun h => by
  have := Sha256.hexdigest_chars h
  revert this
  decide

theorem hexdigest_ne_genesis (text : DbText) : Sha256.hexdigest text ≠ GENESIS := fun h => by
  have hG : 'G' ∈ Sha256.hexdigest text := by
    rw [h]
    decide
  have := Sha256.hexdigest_chars hG
  revert this
  decide

theorem queries_chained {g : DbText} (hg : ':' ∉ g) {rows : List AuditRow}
    {links : List (Link DbText DbText)} (hc : Chained F g rows links) {p : DbText × DbText}
    (hp : p ∈ queries chained g (links.map Link.entry)) :
    ':' ∉ p.1 ∧ p.1 ++ ':' :: p.2 ∈ hashedTexts F g rows := by
  induction links generalizing g rows with
  | nil => cases hp
  | cons l links ih =>
    cases rows with
    | nil => cases hc.1
    | cons row rows =>
      obtain ⟨hl, -, -, hc⟩ := chained_cons.1 hc
      obtain ⟨-, -, entry, he, hentry⟩ := AuditRow.link?_eq_some.1 hl
      have hhash : hashEntry g entry = chained g l.entry := by rw [hentry, hashEntry]
      rw [hashedTexts, he]
      simp only
      rw [hhash, ← hentry]
      rcases List.mem_cons.1 hp with rfl | hp
      · exact ⟨hg, List.mem_cons_self⟩
      · obtain ⟨hcolon, hmem⟩ := ih (colon_not_mem_hexdigest _) hc hp
        exact ⟨hcolon, List.mem_cons_of_mem _ hmem⟩

omit [FloatText F] in
theorem keys_auditItems {α : Type} (value : α → Value F) (kvs : List (String × Option α)) :
    ((auditItems value kvs).map Prod.fst).Sublist (kvs.map fun kv => auditKey kv.1) := by
  induction kvs with
  | nil => exact List.Sublist.refl []
  | cons kv kvs ih =>
    obtain ⟨k, v⟩ := kv
    cases v with
    | none => exact ih.cons _
    | some v => exact ih.cons_cons _

theorem auditKey_injective : Function.Injective auditKey := fun _ _ h =>
  String.toList_injective (ofText_injective h)

theorem loaded_states {kvs : List (String × Option DbText)}
    {states : List (String × Option (Value F))}
    (h : kvs.mapM AuditRow.loadState = some states) :
    states.map Prod.fst = kvs.map Prod.fst ∧
      ∀ kv ∈ states, ∀ v, kv.2 = some v → v.Distinct := by
  induction kvs generalizing states with
  | nil =>
    cases h
    simp
  | cons kv kvs ih =>
    rw [List.mapM_cons] at h
    obtain ⟨state, hs, h⟩ := Option.bind_eq_some_iff.1 h
    obtain ⟨rest, hrest, h⟩ := Option.bind_eq_some_iff.1 h
    cases h
    obtain ⟨hkeys, hdistinct⟩ := ih hrest
    have hstate : state.1 = kv.1 ∧ ∀ v, state.2 = some v → v.Distinct := by
      unfold AuditRow.loadState at hs
      split at hs
      · cases hs
        simp
      · obtain ⟨v, hv, rfl⟩ := Option.map_eq_some_iff.1 hs
        refine ⟨rfl, fun w hw => ?_⟩
        cases hw
        exact Value.loads_distinct hv
    refine ⟨?_, List.forall_mem_cons.2 ⟨hstate.2, hdistinct⟩⟩
    rw [List.map_cons, List.map_cons, hkeys, hstate.1]

/-- A rebuilt entry has no key twice. -/
theorem entry_distinct {row : AuditRow} {entry : List (Str × Value F)}
    (h : row.entry = some entry) : (Value.dict entry).Distinct := by
  obtain ⟨states, hs, rfl⟩ := Option.map_eq_some_iff.1 h
  obtain ⟨hkeys, hdistinct⟩ := loaded_states hs
  refine ⟨?_, Value.distinctItems_iff.2 fun kv hkv => ?_⟩
  · rw [List.map_append]
    refine List.Sublist.nodup ((keys_auditItems _ _).append (keys_auditItems _ _)) ?_
    have hnames : (row.texts.map Prod.fst ++ states.map Prod.fst).Nodup := by
      rw [hkeys]
      change ["entry_id", "timestamp", "action", "actor", "resource_type", "resource_id",
        "correlation_id", "session_id", "procedure_id", "step_id", "before_state", "after_state",
        "metadata"].Nodup
      decide
    have hmap := hnames.map auditKey_injective
    rw [List.map_append, List.map_map, List.map_map] at hmap
    exact hmap
  · rcases List.mem_append.1 hkv with hkv | hkv
    · obtain ⟨⟨k, v⟩, -, hv⟩ := List.mem_filterMap.1 hkv
      obtain ⟨text, -, rfl⟩ := Option.map_eq_some_iff.1 hv
      trivial
    · obtain ⟨⟨k, v⟩, hmem, hv⟩ := List.mem_filterMap.1 hkv
      obtain ⟨w, hw, rfl⟩ := Option.map_eq_some_iff.1 hv
      exact hdistinct _ hmem w hw

theorem entries_of_chained {g : DbText} {rows : List AuditRow} {links : List (Link DbText DbText)}
    (hc : Chained F g rows links) : ∃ entries : List (List (Str × Value F)),
      rows.map AuditRow.entry = entries.map some ∧
      links.map Link.entry = entries.map fun e => (Value.dict e).canonical := by
  induction links generalizing g rows with
  | nil =>
    cases rows with
    | nil => exact ⟨[], rfl, rfl⟩
    | cons row rows => cases hc.1
  | cons l links ih =>
    cases rows with
    | nil => cases hc.1
    | cons row rows =>
      obtain ⟨hl, -, -, hc⟩ := chained_cons.1 hc
      obtain ⟨-, -, entry, he, hentry⟩ := AuditRow.link?_eq_some.1 hl
      obtain ⟨entries, hrows, hlinks⟩ := ih hc
      refine ⟨entry :: entries, ?_, ?_⟩
      · rw [List.map_cons, List.map_cons, he, hrows]
      · rw [List.map_cons, List.map_cons, hentry, hlinks]

theorem same_of_canonicals {entries entries' : List (List (Str × Value F))}
    (hd : ∀ e ∈ entries, (Value.dict e).Distinct) (hd' : ∀ e ∈ entries', (Value.dict e).Distinct)
    (h : entries.map (fun e => (Value.dict e).canonical) =
      entries'.map fun e => (Value.dict e).canonical) :
    List.Forall₂ (fun e e' => (Value.dict e).Same (.dict e')) entries entries' := by
  induction entries generalizing entries' with
  | nil =>
    cases entries' with
    | nil => exact .nil
    | cons e' entries' => cases h
  | cons e entries ih =>
    cases entries' with
    | nil => cases h
    | cons e' entries' =>
      obtain ⟨he, hrest⟩ := List.cons.inj h
      obtain ⟨hde, hd⟩ := List.forall_mem_cons.1 hd
      obtain ⟨hde', hd'⟩ := List.forall_mem_cons.1 hd'
      exact .cons (Value.same_of_canonical hde hde' he) (ih hd hd' hrest)

theorem distinct_of_entries {rows : List AuditRow} {entries : List (List (Str × Value F))}
    (h : rows.map AuditRow.entry = entries.map some) : ∀ e ∈ entries, (Value.dict e).Distinct := by
  intro e he
  have hmem : some e ∈ rows.map AuditRow.entry := h ▸ List.mem_map_of_mem he
  obtain ⟨row, -, hrow⟩ := List.mem_map.1 hmem
  exact entry_distinct hrow

/-- Two valid trails with one head have the same entries, if SHA-256 does not collide on what
their verification hashes. -/
theorem head_commits (rows rows' : List AuditRow) (n n' : ℕ) (hash : DbText)
    (h : verifyChain F rows = some (.valid n hash))
    (h' : verifyChain F rows' = some (.valid n' hash))
    (hinj : ∀ s ∈ hashedTexts F GENESIS rows ++ hashedTexts F GENESIS rows',
      ∀ s' ∈ hashedTexts F GENESIS rows ++ hashedTexts F GENESIS rows',
      Sha256.hexdigest s = Sha256.hexdigest s' → s = s') :
    rows.length = rows'.length ∧ ∃ entries entries',
      rows.map AuditRow.entry = entries.map some ∧ rows'.map AuditRow.entry = entries'.map some ∧
      List.Forall₂ (fun e e' : List (Str × Value F) => (Value.dict e).Same (.dict e'))
        entries entries' := by
  obtain ⟨links, hc, -, hhash⟩ := verifyFrom_eq_valid.1 h
  obtain ⟨links', hc', -, hhash'⟩ := verifyFrom_eq_valid.1 h'
  have hcolon : ':' ∉ GENESIS := by decide
  have hquery : ∀ p ∈ queries chained GENESIS (links.map Link.entry) ++
      queries chained GENESIS (links'.map Link.entry), ':' ∉ p.1 ∧ p.1 ++ ':' :: p.2 ∈
        hashedTexts F GENESIS rows ++ hashedTexts F GENESIS rows' := by
    intro p hp
    rcases List.mem_append.1 hp with hp | hp
    · exact (queries_chained hcolon hc hp).imp_right (List.mem_append_left _)
    · exact (queries_chained hcolon hc' hp).imp_right (List.mem_append_right _)
  have hentries : links.map Link.entry = links'.map Link.entry := by
    refine entries_of_head (fun p hp q hq hpq => ?_) (fun p _ => hexdigest_ne_genesis _)
      (hhash.symm.trans hhash')
    obtain ⟨hpc, hpm⟩ := hquery p hp
    obtain ⟨hqc, hqm⟩ := hquery q hq
    obtain ⟨h1, h2⟩ := framing hpc hqc (hinj _ hpm _ hqm hpq)
    exact Prod.ext h1 h2
  obtain ⟨entries, hrows, hlinks⟩ := entries_of_chained hc
  obtain ⟨entries', hrows', hlinks'⟩ := entries_of_chained hc'
  have hsame := same_of_canonicals (distinct_of_entries hrows) (distinct_of_entries hrows')
    (hlinks ▸ hlinks' ▸ hentries)
  refine ⟨?_, entries, entries', hrows, hrows', hsame⟩
  have hl := congrArg List.length hrows
  have hl' := congrArg List.length hrows'
  rw [List.length_map, List.length_map] at hl hl'
  rw [hl, hl', hsame.length_eq]

/-- The migrated row, with other spaces in its stored JSON. -/
def respaced (row : AuditRow) : AuditRow :=
  { row with metadata := some "\x7b\"b\":1.50,\"a\":[ null ]\x7d ".toList }

def migrated : List AuditRow := auditRun (F := WrittenFloat) [legacyAudit] [.initDb]

def migratedHead : DbText := (migrated.getLast?.bind AuditRow.entryHash).getD []

theorem head_commits_respaced : ∃ entries entries',
    migrated.map AuditRow.entry = entries.map some ∧
    (migrated.map respaced).map AuditRow.entry = entries'.map some ∧
    List.Forall₂ (fun e e' : List (Str × Value WrittenFloat) => (Value.dict e).Same (.dict e'))
      entries entries' :=
  (head_commits (F := WrittenFloat) migrated (migrated.map respaced) 1 1 migratedHead
    (by decide +kernel) (by decide +kernel) (by decide +kernel)).2

end WorkflowEngine
