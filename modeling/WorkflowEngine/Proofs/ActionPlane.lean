import WorkflowEngine.Interleave.Logic
import WorkflowEngine.Sanity.History

/-! The logic of the action plane: what every task of the engine keeps to when it
claims, dispatches, records and delivers actions. What a connector promises is a
`Contract`; the logic carries its invariant along and lets a task record an
outcome only when the contract justifies it. -/

namespace WorkflowEngine

open Interleave Engine Relational

variable {X : Sig} {W : World X}

/-- The outbox row names the action, the way `insert_action` writes it. -/
def OutboxRecord.names (r : OutboxRecord) (id : String) : Prop :=
  r.payload.get? "action_id" = some (.str id)

/-- A connector call of `τ` for the action that has not returned. -/
structure InCall (h : Log W) (τ : ℕ) (id : String) (command : ActionCommand) : Prop where
  called : Called h τ id command
  pending : ∀ s, ¬ Returned h τ id s

/-- The connector call of `τ` is its first one for the action, and has just begun. -/
def JustCalled (h : Log W) (τ : ℕ) (id : String) (command : ActionCommand) : Prop :=
  ∃ before, h.own τ = before ++ [⟨τ, .dispatchCalled id command, ()⟩] ∧
    ∀ x ∈ before, isCall (fun i _ => i = id) x = false

/-- What is known of the world behind the connectors, and of the outbox before the run. -/
structure Contract (W : World X) where
  /-- The outbox rows from before the run. -/
  Old : String → Prop
  Inv : Log W → Prop
  Rely : Log W → Log W → Prop
  /-- What a task must know to perform an operation of the outside world. -/
  ExtPre : ℕ → X.Op → Log W → Prop
  /-- Operations that need no justification. -/
  Free : X.Op → Prop
  /-- What a returned outcome of `connector.dispatch` says. -/
  Answer : ℕ → String → ActionStatus → Log W → Prop
  /-- What a task must know to record a status of an action. -/
  Justified : ℕ → String → ActionStatus → Log W → Prop

namespace ActionPlane

/-- The invariant that holds whatever the connectors do. -/
structure Inv (K : Contract W) (h : Log W) : Prop where
  left : ∀ τ id, Claimed h τ id → LeftAuthorized h.state.db id
  owner : ∀ τ τ' id, Claimed h τ id → Claimed h τ' id → τ = τ'
  called : ∀ τ id c, Called h τ id c → Claimed h τ id ∧
    ∃ a, h.state.db.action? id = some a ∧ a.command = c
  once : ∀ id, callsOf h id ≤ 1
  returned : ∀ τ id s, Returned h τ id s → ∃ c, Called h τ id c
  kept : ∀ oid, K.Old oid → ∃ r, h.state.db.outbox? oid = some r
  posted : ∀ record, Created h record → ∃ oid r, h.state.db.outbox? oid = some r ∧ ¬ K.Old oid ∧
    r.message = ("action.dispatch", record.actionId, [("action_id", .str record.actionId)])
  delivered : ∀ oid r, h.state.db.outbox? oid = some r → ¬ K.Old oid → r.status = .delivered →
    ∀ id, r.names id → LeftAuthorized h.state.db id

/-- What a task must know before an operation. -/
def Pre (K : Contract W) (τ : ℕ) (o : Op X) (h : Log W) : Prop :=
  o.Disciplined ∧ match o with
  | .tx (.transitionAction id _ status _) => K.Justified τ id status h
  | .tx (.updateOutbox oid .delivered ..) => ∀ r id, h.state.db.outbox? oid = some r →
      r.names id → LeftAuthorized h.state.db id
  | .dispatchCalled id c => Claimed h τ id ∧ (∀ c', ¬ Called h τ id c') ∧
      ∃ a, h.state.db.action? id = some a ∧ a.command = c
  | .dispatchReturned id s => (∃ c, InCall h τ id c) ∧ K.Answer τ id s h
  | .ext o => K.ExtPre τ o h
  | _ => True

end ActionPlane

/-- The engine's logic under a contract. -/
def Contract.logic (K : Contract W) (engine : Engine X) (admits : Admission X W) :
    Logic (engine.system W admits) where
  Inv h := ActionPlane.Inv K h ∧ K.Inv h
  Rely h h' := Later h h' ∧ K.Rely h h'
  Pre := ActionPlane.Pre K

/-- How a row of the outbox can come to be `DELIVERED`. -/
theorem outbox_effect {now : Time} {ids : ℕ → String} {db db' : Db} {o : Tx} {res : o.Res}
    (h : Tx.Effect now ids db o res db') {oid : String} {r' : OutboxRecord}
    (hr' : db'.outbox? oid = some r') (hs : r'.status = .delivered) :
    (∃ r, db.outbox? oid = some r ∧ r.status = .delivered ∧ r'.message = r.message) ∨
    (∃ record, o = .insertOutbox record ∧ record.status = .delivered) ∨
    ∃ r retryAt error at', db.outbox? oid = some r ∧ r'.message = r.message ∧
      o = .updateOutbox oid .delivered retryAt error at' := by
  have hsame : db'.outbox = db.outbox →
      ∃ r, db.outbox? oid = some r ∧ r.status = .delivered ∧ r'.message = r.message := by
    intro he
    refine ⟨r', ?_, hs, rfl⟩
    rw [Db.outbox?, ← he]
    exact hr'
  cases h with
  | nothing => exact Or.inl (hsame rfl)
  | initialized hm he hf => exact Or.inl (hsame (by rw [hf]))
  | created h => exact Or.inl (hsame rfl)
  | appended h => exact Or.inl (hsame (by rw [h.frame]))
  | inserted h =>
    have hg := (Table.get?_insert? h.outbox () oid).symm.trans hr'
    split_ifs at hg with he
    · cases hg
      cases hs
    · exact Or.inl ⟨r', hg, hs, rfl⟩
  | moved h => exact Or.inl (hsame (by rw [h.frame]))
  | claimed h => exact Or.inl (hsame (by rw [h.frame]))
  | proposed h => exact Or.inl (hsame rfl)
  | decided h => exact Or.inl (hsame (by rw [h.frame]))
  | @enqueued record t h =>
    have hg := (Table.get?_insert? h () oid).symm.trans hr'
    split_ifs at hg with he
    · cases hg
      exact Or.inr (Or.inl ⟨_, rfl, hs⟩)
    · exact Or.inl ⟨r', hg, hs, rfl⟩
  | leased =>
    rw [Db.outbox?_lease] at hr'
    obtain ⟨r, hr, he⟩ := Option.map_eq_some_iff.1 hr'
    split_ifs at he
    · subst he
      cases hs
    · exact Or.inl ⟨r, hr, he ▸ hs, he ▸ rfl⟩
  | @settled id status retryAt error at' =>
    rw [Db.outbox?_settle] at hr'
    obtain ⟨r, hr, he⟩ := Option.map_eq_some_iff.1 hr'
    split_ifs at he with hid
    · subst he
      have hst : status = .delivered := hs
      subst hst hid
      exact Or.inr (Or.inr ⟨r, retryAt, error, at', hr, rfl, rfl⟩)
    · exact Or.inl ⟨r, hr, he ▸ hs, he ▸ rfl⟩

theorem OutboxRecord.names_congr {r r' : OutboxRecord} {id : String} (h : r'.message = r.message)
    (hn : r'.names id) : r.names id := by
  have hp : r'.payload = r.payload := congrArg (fun m => m.2.2) h
  rw [OutboxRecord.names, ← hp]
  exact hn

namespace ActionPlane

variable {K : Contract W} {engine : Engine X} {admits : Admission X W} {h : Log W} {τ : ℕ}
  {o : Op X} {e : EngineChoice W}

/-- A claim that wins found the action `AUTHORIZED` and leaves it `DISPATCHED`. -/
theorem claim_won {id : String} {db : Db} {now : Time} {ids : ℕ → String}
    (h : ((Tx.claimAction id).exec now ids db).1 = .ok true) :
    (∃ a, db.action? id = some a ∧ a.status = .authorized) ∧
    LeftAuthorized ((Tx.claimAction id).exec now ids db).2 id := by
  have hm := claimed_of_ok (Prod.ext h rfl)
  refine ⟨hm.found, ?_⟩
  obtain ⟨a, ha, -⟩ := hm.found
  have hid : a.actionId = id := (Table.get?_eq_some.1 ha).2
  refine ⟨_, (hm.actions .id id).trans (congrArg (Option.map _) ha), ?_⟩
  simp [hid]

theorem claimed_after {τ' : ℕ} {id : String}
    (hc : Claimed ((engine.system W admits).after h τ o e) τ' id) :
    Claimed h τ' id ∨ τ' = τ ∧ (∃ a, h.state.db.action? id = some a ∧ a.status = .authorized) ∧
      LeftAuthorized ((engine.system W admits).after h τ o e).state.db id := by
  rcases List.mem_append.1 hc with hc | hc
  · exact Or.inl hc
  · injection List.mem_singleton.1 hc with ht ho hr
    subst ho
    obtain ⟨ha, hl⟩ := claim_won (eq_of_heq hr).symm
    exact Or.inr ⟨ht, ha, hl⟩

theorem called_after {τ' : ℕ} {id : String} {c : ActionCommand}
    (hc : Called ((engine.system W admits).after h τ o e) τ' id c) :
    Called h τ' id c ∨ τ' = τ ∧ o = .dispatchCalled id c := by
  rcases List.mem_append.1 hc with hc | hc
  · exact Or.inl hc
  · injection List.mem_singleton.1 hc with ht ho hr
    exact Or.inr ⟨ht, ho.symm⟩

theorem returned_after {τ' : ℕ} {id : String} {s : ActionStatus}
    (hc : Returned ((engine.system W admits).after h τ o e) τ' id s) :
    Returned h τ' id s ∨ τ' = τ ∧ o = .dispatchReturned id s := by
  rcases List.mem_append.1 hc with hc | hc
  · exact Or.inl hc
  · injection List.mem_singleton.1 hc with ht ho hr
    exact Or.inr ⟨ht, ho.symm⟩

theorem created_after {record : ActionRecord}
    (hc : Created ((engine.system W admits).after h τ o e) record) :
    Created h record ∨ ∃ v, Inserted h.state.clock e.ids record v h.state.db
      ((engine.system W admits).after h τ o e).state.db := by
  obtain ⟨τ', v, hc⟩ := hc
  rcases List.mem_append.1 hc with hc | hc
  · exact Or.inl ⟨τ', v, hc⟩
  · injection List.mem_singleton.1 hc with ht ho hr
    subst ho
    exact Or.inr ⟨v, inserted_of_ok (Prod.ext (eq_of_heq hr).symm rfl)⟩

private theorem once_after (hi : Inv K h) (hp : Pre K τ o h) (id : String) :
    callsOf ((engine.system W admits).after h τ o e) id ≤ 1 := by
  have hcount : callsOf ((engine.system W admits).after h τ o e) id = callsOf h id +
      (if isCall (fun i _ => decide (i = id)) (⟨τ, o, (exec W e h.state o).1⟩ : Entry (sig X))
        then 1 else 0) := by
    simp only [callsOf, System.after, List.countP_append, List.countP_singleton]
  have hle := hi.once id
  rw [hcount]
  split_ifs with hnew
  · -- the caller owns the claim, so an earlier call would be its own
    have hzero : callsOf h id = 0 := by
      refine List.countP_eq_zero.2 fun x hx hcall => ?_
      obtain ⟨i, c, hc, hid⟩ := exists_of_isCall hx hcall
      obtain ⟨i', c', hc', hid'⟩ := exists_of_isCall (h := ⟨h.state, [_], [], []⟩)
        (List.mem_singleton_self _) hnew
      injection List.mem_singleton.1 hc' with _ ho _
      subst ho
      have hii : i = i' := (of_decide_eq_true hid).trans (of_decide_eq_true hid').symm
      subst hii
      obtain ⟨hclaim, hfresh, -⟩ := hp.2
      have hown := hi.owner _ _ i (hi.called _ _ _ hc).1 hclaim
      exact hfresh c (hown ▸ hc)
    omega
  · omega

private theorem posted_after (hi : Inv K h) (hp : Pre K τ o h) (record : ActionRecord)
    (hc : Created ((engine.system W admits).after h τ o e) record) :
    ∃ oid r, ((engine.system W admits).after h τ o e).state.db.outbox? oid = some r ∧
      ¬ K.Old oid ∧
      r.message = ("action.dispatch", record.actionId,
        [("action_id", .str record.actionId)]) := by
  have hl : Later h ((engine.system W admits).after h τ o e) := later_after hp.1 e
  rcases created_after hc with hc | ⟨v, hins⟩
  · obtain ⟨oid, r, hr, hold, hm⟩ := hi.posted record hc
    obtain ⟨r', hr', hm'⟩ := hl.db.outbox oid r hr
    exact ⟨oid, r', hr', hold, hm'.trans hm⟩
  · refine ⟨_, _, (Table.get?_insert? hins.outbox () _).trans (if_pos rfl), fun hold => ?_, rfl⟩
    -- a row from before the run still occupies its id
    obtain ⟨r, hr⟩ := hi.kept _ hold
    have hnone := (Table.rows_of_insert? hins.outbox).2 ()
    have hr' : h.state.db.outbox.get? () _ = some r := hr
    rw [hnone] at hr'
    cases hr'

private theorem delivered_after (hi : Inv K h) (hp : Pre K τ o h) (oid : String)
    (r : OutboxRecord)
    (hr : ((engine.system W admits).after h τ o e).state.db.outbox? oid = some r)
    (hold : ¬ K.Old oid) (hs : r.status = .delivered) (id : String) (hn : r.names id) :
    LeftAuthorized ((engine.system W admits).after h τ o e).state.db id := by
  have hl : Later h ((engine.system W admits).after h τ o e) := later_after hp.1 e
  refine LeftAuthorized.mono hl.db ?_
  cases o with
  | tx o =>
    rcases outbox_effect (Tx.effect h.state.clock e.ids h.state.db o) hr hs with
      ⟨r0, hr0, hs0, hm⟩ | ⟨record, rfl, hd⟩ | ⟨r0, retryAt, error, at', hr0, hm, rfl⟩
    · exact hi.delivered oid r0 hr0 hold hs0 id (OutboxRecord.names_congr hm hn)
    · have hpend : record.status = .pending := hp.1
      rw [hd] at hpend
      cases hpend
    · exact hp.2 r0 id hr0 (OutboxRecord.names_congr hm hn)
  | _ => exact hi.delivered oid r hr hold hs id hn

theorem inv_after (hi : Inv K h) (hp : Pre K τ o h) :
    Inv K ((engine.system W admits).after h τ o e) := by
  have hl : Later h ((engine.system W admits).after h τ o e) := later_after hp.1 e
  refine ⟨fun τ' id hc => ?_, fun τ1 τ2 id h1 h2 => ?_, fun τ' id c hc => ?_, once_after hi hp,
    fun τ' id s hr => ?_, fun oid ho => ?_, posted_after hi hp, delivered_after hi hp⟩
  · rcases claimed_after hc with hc | ⟨-, -, hleft⟩
    · exact (hi.left τ' id hc).mono hl.db
    · exact hleft
  · -- a second winner would have found the action `AUTHORIZED` after the first had left it
    have hexcl : ∀ τ', Claimed h τ' id →
        ¬ ∃ a, h.state.db.action? id = some a ∧ a.status = .authorized := by
      rintro τ' hc ⟨a, ha, hs⟩
      obtain ⟨b, hb, hne⟩ := hi.left τ' id hc
      rw [ha] at hb
      cases hb
      exact hne hs
    rcases claimed_after h1 with g1 | ⟨e1, ha1, -⟩ <;>
      rcases claimed_after h2 with g2 | ⟨e2, ha2, -⟩
    · exact hi.owner _ _ id g1 g2
    · exact absurd ha2 (hexcl _ g1)
    · exact absurd ha1 (hexcl _ g2)
    · exact e1.trans e2.symm
  · rcases called_after hc with hc | ⟨rfl, rfl⟩
    · obtain ⟨hclaim, a, ha, hcmd⟩ := hi.called τ' id c hc
      obtain ⟨b, hb, hab⟩ := hl.db.actions id a ha
      exact ⟨hl.claimed hclaim, b, hb, hab.command.trans hcmd⟩
    · obtain ⟨hclaim, -, ha⟩ := hp.2
      exact ⟨hl.claimed hclaim, ha⟩
  · rcases returned_after hr with hr | ⟨rfl, rfl⟩
    · obtain ⟨c, hc⟩ := hi.returned τ' id s hr
      exact ⟨c, hl.called hc⟩
    · obtain ⟨c, hc⟩ := hp.2.1
      exact ⟨c, hl.called hc.called⟩
  · obtain ⟨r, hr⟩ := hi.kept oid ho
    obtain ⟨r', hr', -⟩ := hl.db.outbox oid r hr
    exact ⟨r', hr'⟩

/-- Two calls for one key are calls of one task for one action. -/
theorem Inv.caller {τ' : ℕ} {id id' : String} {c c' : ActionCommand} (hi : Inv K h)
    (hc : Called h τ id c) (hc' : Called h τ' id' c')
    (hk : c.idempotencyKey = c'.idempotencyKey) : τ = τ' ∧ id = id' := by
  obtain ⟨hclaim, a, ha, rfl⟩ := hi.called τ id c hc
  obtain ⟨hclaim', b, hb, rfl⟩ := hi.called τ' id' c' hc'
  obtain ⟨hma, hida⟩ := Table.get?_eq_some.1 ha
  obtain ⟨hmb, hidb⟩ := Table.get?_eq_some.1 hb
  have hab : a = b := Table.eq_of_mem (i := ActionColumn.key) hma hmb hk
  subst hab
  obtain rfl : id = id' := hida.symm.trans hidb
  exact ⟨hi.owner _ _ _ hclaim hclaim', rfl⟩

/-- After its call returned nobody has the action in a call. -/
theorem Inv.idle (hi : Inv K h) {id : String} {status : ActionStatus}
    (hr : Returned h τ id status) (τ' : ℕ) (c : ActionCommand) : ¬ InCall h τ' id c := by
  intro hin
  obtain ⟨c', hc'⟩ := hi.returned τ id status hr
  have hown := hi.owner _ _ id (hi.called _ _ _ hc').1 (hi.called _ _ _ hin.called).1
  exact hin.pending status (hown ▸ hr)

/-- How an action comes to have its status. -/
theorem status_after (hp : Pre K τ o h) {id : String} {a' : ActionRecord}
    (ha' : ((engine.system W admits).after h τ o e).state.db.action? id = some a') :
    a'.status = .authorized ∨ a'.status = .dispatched ∨
    ∃ a, h.state.db.action? id = some a ∧ a'.command = a.command ∧
      (a'.status = a.status ∨ K.Justified τ id a'.status h) := by
  cases o with
  | tx o =>
    rcases (Tx.effect h.state.clock e.ids h.state.db o).action_cases ha' with
      ⟨record, v, rfl, rfl⟩ | ⟨a, ha, -, hc, hs | ⟨outcome, rfl⟩ | ⟨-, -, hd⟩⟩
    · exact Or.inl hp.1
    · exact Or.inr (Or.inr ⟨a, ha, hc, Or.inl hs⟩)
    · have hid : a.actionId = id := (Table.get?_eq_some.1 ha).2
      exact Or.inr (Or.inr ⟨a, ha, hc, Or.inr (hid ▸ hp.2)⟩)
    · exact Or.inr (Or.inl hd)
  | _ => exact Or.inr (Or.inr ⟨a', ha', rfl, Or.inl rfl⟩)

/-- The invariant reads the database and the trace only. -/
theorem Inv.congr {h' : Log W} (hi : Inv K h) (hdb : h'.state.db = h.state.db)
    (ht : h'.trace = h.trace) : Inv K h' := by
  refine ⟨?_, ?_, ?_, ?_, ?_, ?_, ?_, ?_⟩ <;>
    simp only [Claimed, Called, Returned, Created, callsOf, ht, hdb]
  · exact hi.left
  · exact hi.owner
  · exact hi.called
  · exact hi.once
  · exact hi.returned
  · exact hi.kept
  · exact hi.posted
  · exact hi.delivered

theorem inv_init {s : EngineState W} (hold : ∀ oid, K.Old oid ↔ ∃ r, s.db.outbox? oid = some r) :
    Inv K ((engine.system W admits).init s).hist := by
  refine ⟨?_, ?_, ?_, ?_, ?_, fun oid ho => (hold oid).1 ho, ?_,
    fun oid r hr ho => absurd ((hold oid).2 ⟨r, hr⟩) ho⟩ <;>
    simp [Claimed, Called, Returned, Created, callsOf, System.init]

end ActionPlane

/-- The connectors, and whatever else the engine reaches outside its core, keep the contract. -/
structure Contract.Lawful (K : Contract W) (engine : Engine X) (admits : Admission X W) :
    Prop where
  refl : ∀ h, K.Rely h h
  trans : ∀ a b c, K.Rely a b → K.Rely b c → K.Rely a c
  step : ∀ τ o e h, ActionPlane.Inv K h → K.Inv h → ActionPlane.Pre K τ o h →
    K.Inv ((engine.system W admits).after h τ o e) ∧
    K.Rely h ((engine.system W admits).after h τ o e)
  spawn : ∀ h call, K.Inv h → K.Inv ((engine.system W admits).spawned h call) ∧
    K.Rely h ((engine.system W admits).spawned h call)
  crash : ∀ h τ, K.Inv h → K.Inv ((engine.system W admits).lost h τ) ∧
    K.Rely h ((engine.system W admits).lost h τ)
  drift : ∀ h e, K.Inv h → K.Inv ((engine.system W admits).drifted h e) ∧
    K.Rely h ((engine.system W admits).drifted h e)
  free : ∀ τ o h, K.Free o → K.ExtPre τ o h
  justified : ∀ τ id s h h', K.Justified τ id s h → Later h h' → K.Rely h h' →
    K.Justified τ id s h'
  unknown : ∀ τ id h, K.Justified τ id .unknown h
  answered : ∀ τ id c s h h', K.Answer τ id s h → InCall h' τ id c → Later h h' → K.Rely h h' →
    @Quiet _ _ _ (engine.system W admits) τ h h' → ActionPlane.Inv K h' → K.Inv h' →
    K.Answer τ id s h'
  answer : ∀ τ id s h e, K.Answer τ id s h →
    K.Justified τ id s ((engine.system W admits).after h τ (.dispatchReturned id s) e)
  dispatch : ∀ τ id command pinned resolved h,
    engine.gateway.resolveConnector command pinned = .ok resolved → InCall h τ id command →
    JustCalled h τ id command →
    (K.logic engine admits).wp τ (Task.ext (resolved.connector.dispatch command))
      (fun r h' => InCall h' τ id command ∧
        ∀ outcome, r = .ok outcome → K.Answer τ id outcome.status h') h
  reconcile : ∀ τ id command pinned resolved prior h,
    engine.gateway.resolveConnector command pinned = .ok resolved →
    (∃ a, h.state.db.action? id = some a ∧ a.command = command) →
    (K.logic engine admits).wp τ (Task.ext (resolved.connector.reconcile command prior))
      (fun r h' => ∀ outcome, r = .ok outcome → K.Justified τ id
        (if outcome.status = .succeeded then .reconciled else outcome.status) h') h
  resources : ∀ resourceType resourceId,
    (engine.resources resourceType resourceId).Issues K.Free
  requireActive : ∀ policy, engine.gateway.policy = some policy → ∀ packageId,
    (policy.requireActive packageId).Issues K.Free
  snapshot : ∀ policy, engine.gateway.policy = some policy → ∀ packageId signature,
    (policy.requireAuthorizationSnapshot packageId signature).Issues K.Free

theorem Contract.Lawful.stepwise {K : Contract W} {engine : Engine X} {admits : Admission X W}
    (hK : K.Lawful engine admits) : (K.logic engine admits).Stepwise where
  refl h := ⟨.refl h, hK.refl h⟩
  trans a b c h1 h2 := ⟨h1.1.trans h2.1, hK.trans a b c h1.2 h2.2⟩
  step τ o e h hi hp := by
    obtain ⟨hk, hr⟩ := hK.step τ o e h hi.1 hi.2 hp
    exact ⟨⟨ActionPlane.inv_after hi.1 hp, hk⟩, later_after hp.1 e, hr⟩

end WorkflowEngine
