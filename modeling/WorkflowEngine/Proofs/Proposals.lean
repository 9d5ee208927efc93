import WorkflowEngine.Proofs.Withdrawal
import WorkflowEngine.Sanity.Preparation
import WorkflowEngine.Sanity.Requests
import WorkflowEngine.Sanity.Transactions

/-! The state machine of proposals. Five programs decide proposals by compare-and-set, on what
they read some time before, and a confirmation submits an action in between. Every decision
has a warrant: the call that makes it, and the action that it links. -/

namespace WorkflowEngine

open Interleave Relational SQLiteCoreStore ConsequentialActionRequest

/-- The row that `transition_action_proposal` writes. -/
def ActionProposal.decide (p : ActionProposal) (now : Time) (status : ActionProposalStatus)
    (evidence actionId : Option String) : ActionProposal :=
  { p with
    status
    confirmationEvidenceRef := evidence.or p.confirmationEvidenceRef
    actionId := actionId.or p.actionId
    updatedAt := now
    confirmedAt := (if status = .confirmed then some now else none).or p.confirmedAt
    cancelledAt := (if status = .cancelled then some now else none).or p.cancelledAt }

/-- The row stays as it is, or it is decided, once. -/
def ActionProposal.Becomes (p p' : ActionProposal) : Prop :=
  p' = p ∨ p.status = .pending ∧ p'.status ≠ .pending ∧
    ∃ now evidence actionId, p' = p.decide now p'.status evidence actionId

namespace ActionProposal

variable {p p' p'' : ActionProposal}

theorem Becomes.trans (h : p.Becomes p') (h' : p'.Becomes p'') : p.Becomes p'' := by
  rcases h' with rfl | ⟨hs, hd, hw⟩
  · exact h
  · rcases h with rfl | ⟨-, hn, -⟩
    · exact Or.inr ⟨hs, hd, hw⟩
    · exact absurd hs hn

/-- A row that has been decided stays as it is. -/
theorem Becomes.eq_of_decided (h : p.Becomes p') (hs : p.status ≠ .pending) : p' = p := by
  rcases h with he | ⟨hp, -⟩
  · exact he
  · exact absurd hp hs

theorem Becomes.eq_of_pending (h : p.Becomes p') (hs : p'.status = .pending) : p' = p := by
  rcases h with he | ⟨-, hd, -⟩
  · exact he
  · exact absurd hs hd

theorem Becomes.customerId (h : p.Becomes p') : p'.customerId = p.customerId := by
  rcases h with rfl | ⟨-, -, now, evidence, actionId, he⟩
  · rfl
  · rw [he]
    rfl

end ActionProposal

namespace Tx

variable {now : Time} {ids : ℕ → String} {db : Db}

/-- The compare-and-set of a proposal, with the row that it writes. -/
theorem transitionProposal_cases (id : String) (expected status : ActionProposalStatus)
    (evidence actionId : Option String) :
    let x := (Tx.transitionProposal id expected status evidence actionId).exec now ids db
    (∃ p, x.1 = .ok () ∧ db.proposal? id = some p ∧ p.status = expected ∧
      x.2.actions = db.actions ∧
      ∀ k, x.2.proposal? k = if k = id then some (p.decide now status evidence actionId)
        else db.proposal? k) ∨
    (∃ e, x.1 = .error e) ∧ x.2 = db ∧ ∀ p, db.proposal? id = some p → p.status ≠ expected := by
  intro x
  have hx : x = (Txn.transitionProposal now id expected status evidence actionId).commit db := rfl
  have hcount := Table.count_eq_one (t := db.proposals) (i := ()) (k := id)
    (q := fun r => decide (r.status = expected))
  by_cases hc : ∃ p, db.proposals.get? () id = some p ∧ decide (p.status = expected) = true
  · obtain ⟨p, hp, hs⟩ := hc
    have hs : p.status = expected := by simpa using hs
    have hid : p.proposalId = id := (Table.get?_eq_some.1 hp).2
    have hone := hcount.2 ⟨p, hp, by simpa using hs⟩
    have hkey : ∀ (i : Unit) (r : ActionProposal),
        (r.decide now status evidence actionId).proposalId = r.proposalId := fun _ _ => rfl
    let rows := db.proposals.updateWhere
      (fun r => decide (r.proposalId = id) && decide (r.status = expected))
      (fun r => r.decide now status evidence actionId) hkey
    have hval : x = (.ok (), { db with proposals := rows }) := by
      rw [hx]
      simp only [Txn.transitionProposal, Txn.commit, bind, StateT.bind, get, getThe,
        MonadStateOf.get, StateT.get, pure, Except.bind,
        Except.pure, hone, ne_eq, not_true, if_false]
      rfl
    left
    refine ⟨p, by rw [hval], hp, hs, by rw [hval], fun k => ?_⟩
    rw [hval, Db.proposal?, Table.get?_updateWhere]
    split_ifs with hk
    · rw [hk, hp]
      simp [hid, hs]
    · rw [Db.proposal?]
      cases hq : db.proposals.get? () k with
      | none => rfl
      | some q =>
        obtain ⟨-, hqk⟩ := Table.get?_eq_some.1 hq
        have hne : q.proposalId ≠ id := fun he => hk (hqk.symm.trans he)
        simp [hne]
  · right
    have hne : db.proposals.count (fun r => decide (r.proposalId = id) &&
        decide (r.status = expected)) ≠ 1 := fun he => hc (hcount.1 he)
    refine ⟨?_, ?_, fun p hp hs => hc ⟨p, hp, by simpa using hs⟩⟩
    · refine ⟨.actionConflict
        ("Action proposal " ++ id ++ " transition conflict from " ++ expected.value), ?_⟩
      rw [hx]
      simp only [Txn.transitionProposal, Txn.commit, bind, StateT.bind, get, getThe,
        MonadStateOf.get, StateT.get, pure, Except.bind,
        Except.pure, hne, ne_eq, not_false_eq_true, if_true]
      rfl
    · rw [hx]
      simp only [Txn.transitionProposal, Txn.commit, bind, StateT.bind, get, getThe,
        MonadStateOf.get, StateT.get, pure, Except.bind,
        Except.pure, hne, ne_eq, not_false_eq_true, if_true]
      rfl

end Tx

/-- The action is stored, and `Q` is true of its command. -/
def Db.Holds (db : Db) (Q : ActionCommand → Prop) (actionId : String) : Prop :=
  ∃ a, db.action? actionId = some a ∧ Q a.command

theorem Db.Holds.imp {db : Db} {Q Q' : ActionCommand → Prop} {id : String} (h : db.Holds Q id)
    (hQ : ∀ c, Q c → Q' c) : db.Holds Q' id := by
  obtain ⟨a, ha, hc⟩ := h
  exact ⟨a, ha, hQ _ hc⟩

theorem Db.holds_of_actionByKey {db : Db} {key : String} {a : ActionRecord}
    (h : db.actionByKey? key = some a) {Q : ActionCommand → Prop} (hQ : Q a.command) :
    db.Holds (fun c => c.idempotencyKey = key ∧ Q c) a.actionId := by
  obtain ⟨hmem, hk⟩ := Table.get?_eq_some.1 h
  exact ⟨a, Table.get?_eq_some.2 ⟨hmem, rfl⟩, hk, hQ⟩

/-- What a later moment keeps: actions keep their commands, and proposals are decided at most
once. -/
structure Db.Onward (db db' : Db) : Prop where
  actions : ∀ id a, db.action? id = some a → ∃ a', db'.action? id = some a' ∧
    a'.command = a.command
  proposals : ∀ id p, db.proposal? id = some p → ∃ p', db'.proposal? id = some p' ∧ p.Becomes p'

namespace Db.Onward

variable {db db' db'' : Db}

theorem refl (db : Db) : db.Onward db :=
  ⟨fun _ a ha => ⟨a, ha, rfl⟩, fun _ p hp => ⟨p, hp, Or.inl rfl⟩⟩

theorem trans (h : db.Onward db') (h' : db'.Onward db'') : db.Onward db'' := by
  refine ⟨fun id a ha => ?_, fun id p hp => ?_⟩
  · obtain ⟨b, hb, e⟩ := h.actions id a ha
    obtain ⟨c, hc, e'⟩ := h'.actions id b hb
    exact ⟨c, hc, e'.trans e⟩
  · obtain ⟨q, hq, e⟩ := h.proposals id p hp
    obtain ⟨r, hr, e'⟩ := h'.proposals id q hq
    exact ⟨r, hr, e.trans e'⟩

theorem holds (h : db.Onward db') {Q : ActionCommand → Prop} {id : String} (hQ : db.Holds Q id) :
    db'.Holds Q id := by
  obtain ⟨a, ha, hc⟩ := hQ
  obtain ⟨b, hb, e⟩ := h.actions id a ha
  exact ⟨b, hb, e ▸ hc⟩

end Db.Onward

namespace Tx

variable {now : Time} {ids : ℕ → String} {db : Db} {o : Tx}

theorem command_kept {id : String} {a : ActionRecord} (ha : db.action? id = some a) :
    ∃ a', (o.exec now ids db).2.action? id = some a' ∧ a'.command = a.command := by
  have heff := Tx.effect now ids db o
  generalize (o.exec now ids db).1 = r, (o.exec now ids db).2 = db' at heff ⊢
  have hsame : db'.actions = db.actions → ∃ a', db'.action? id = some a' ∧
      a'.command = a.command := fun he => ⟨a, by rw [Db.action?, he]; exact ha, rfl⟩
  have hmoved : ∀ {k : String} {expected : ActionStatus} {f : ActionRecord → ActionRecord}
      {event : ActionEvent}, Moved k expected f event db db' →
      (∀ a, (f a).command = a.command) → ∃ a', db'.action? id = some a' ∧
        a'.command = a.command := by
    intro k expected f event h hf
    refine ⟨_, (h.actions .id id).trans (congrArg (Option.map _) ha), ?_⟩
    dsimp only
    split_ifs
    · exact hf a
    · rfl
  cases heff with
  | inserted h => exact ⟨a, Table.get?_of_insert? h.action ha, rfl⟩
  | moved h => exact hmoved h fun _ => rfl
  | claimed h => exact hmoved h fun _ => rfl
  | decided h => exact hsame (by rw [h.frame])
  | initialized _ _ hf => exact hsame (by rw [hf])
  | appended h => exact hsame (by rw [h.frame])
  | _ => exact hsame rfl

theorem proposal_kept (ht : ∀ id expected status evidence actionId,
      o ≠ .transitionProposal id expected status evidence actionId) {id : String}
    {p : ActionProposal} (hp : db.proposal? id = some p) :
    (o.exec now ids db).2.proposal? id = some p := by
  have heff := Tx.effect now ids db o
  generalize (o.exec now ids db).1 = r, (o.exec now ids db).2 = db' at heff ⊢
  cases heff with
  | proposed h => exact Table.get?_of_insert? h hp
  | decided h => exact absurd rfl (ht _ _ _ _ _)
  | inserted h =>
    rw [h.frame]
    exact hp
  | moved h =>
    rw [h.frame]
    exact hp
  | claimed h =>
    rw [h.frame]
    exact hp
  | appended h =>
    rw [h.frame]
    exact hp
  | initialized _ _ hf =>
    rw [hf]
    exact hp
  | _ => exact hp

theorem onward (hd : ∀ id expected status evidence actionId,
      o = .transitionProposal id expected status evidence actionId →
        expected = .pending ∧ status ≠ .pending) : db.Onward (o.exec now ids db).2 := by
  refine ⟨fun k a ha => command_kept ha, fun k q hq => ?_⟩
  by_cases ht : ∃ id expected status evidence actionId,
      o = .transitionProposal id expected status evidence actionId
  · obtain ⟨id, expected, status, evidence, actionId, rfl⟩ := ht
    obtain ⟨rfl, hs⟩ := hd _ _ _ _ _ rfl
    rcases transitionProposal_cases id .pending status evidence actionId
        with ⟨p, -, hp, hps, -, hrows⟩ | ⟨-, he, -⟩
    · rw [hrows]
      split_ifs with hk
      · subst hk
        obtain rfl : q = p := Option.some.inj (hq.symm.trans hp)
        exact ⟨_, rfl, Or.inr ⟨hps, hs, now, evidence, actionId, rfl⟩⟩
      · exact ⟨q, hq, Or.inl rfl⟩
    · rw [he]
      exact ⟨q, hq, Or.inl rfl⟩
  · refine ⟨q, proposal_kept (fun _ _ _ _ _ he => ht ⟨_, _, _, _, _, he⟩) hq, Or.inl rfl⟩

end Tx

section
variable {X : Sig} {W : World X}

/-- The confirmation context is that of the customer and the actor of the proposal. -/
structure ActionConfirmationContext.Owns (context : ActionConfirmationContext)
    (p : ActionProposal) : Prop where
  customer : context.customerId = p.customerId
  actor : context.actorId = p.actorId

/-- What stands behind a decision of `τ` on a `PENDING` proposal. -/
inductive Warrant (host : Host X) (h : Host.Log W) (τ : ℕ) (p : ActionProposal) :
    ActionProposalStatus → Option String → Prop where
  | confirmed {context : ActionConfirmationContext} {request : ConsequentialActionRequest}
      {id : String}
      (call : h.calls[τ]? = some (.engine (.confirm p.proposalId context)))
      (owns : context.Owns p)
      (built : host.engine.bridge.buildRequest p context = .ok request)
      (held : h.state.db.Holds request.Matches id) : Warrant host h τ p .confirmed (some id)
  | recovered {context : ActionConfirmationContext} {a : ActionRecord}
      (call : h.calls[τ]? = some (.engine (.cancel p.proposalId context)))
      (owns : context.Owns p)
      (found : (⟨τ, Op.tx (.getActionByKey p.idempotencyKey), some a⟩ : Entry (sig X)) ∈ h.trace)
      (held : h.state.db.Holds (fun c => c.idempotencyKey = p.idempotencyKey) a.actionId) :
      Warrant host h τ p .confirmed (some a.actionId)
  | cancelled {context : ActionConfirmationContext}
      (call : h.calls[τ]? = some (.engine (.cancel p.proposalId context)))
      (owns : context.Owns p) : Warrant host h τ p .cancelled none
  | expired (late : p.expiresAt ≤ h.state.clock) : Warrant host h τ p .expired none

/-- The record is one that `τ` has been called to propose. -/
def Proposed (host : Host X) (h : Host.Log W) (τ : ℕ) (record : ActionProposal) : Prop :=
  ∃ intent context context' prepared payload now hex,
    h.calls[τ]? = some (.propose intent context) ∧
    host.engine.bridge.Prepares intent prepared payload ∧
    record = ActionBridge.proposal intent context' prepared host.ttlSeconds now hex

theorem Proposed.pending {host : Host X} {h : Host.Log W} {τ : ℕ} {record : ActionProposal}
    (hp : Proposed host h τ record) : record.status = .pending := by
  obtain ⟨intent, _, context, prepared, _, now, hex, -, -, rfl⟩ := hp
  rfl

/-- The proposal names a stored action of its own key. -/
def Linked (db : Db) (p : ActionProposal) : Prop :=
  ∃ id, p.actionId = some id ∧ db.Holds (fun c => c.idempotencyKey = p.idempotencyKey) id

structure Host.Later (h h' : Host.Log W) : Prop where
  clock : h.state.clock ≤ h'.state.clock
  db : h.state.db.Onward h'.state.db
  calls : h.calls <+: h'.calls
  trace : h.trace <+: h'.trace

def proposalLogic (host : Host X) (W : World X) : Logic (host.system W) where
  Inv h := ∀ id p, h.state.db.proposal? id = some p → p.status = .confirmed → Linked h.state.db p
  Rely := Host.Later
  Pre τ o h := match o with
    | .tx (.createProposal record) => Proposed host h τ record
    | .tx (.transitionProposal id expected status _ actionId) =>
      expected = .pending ∧ status ≠ .pending ∧ ∀ p, h.state.db.proposal? id = some p →
        p.status = .pending → Warrant host h τ p status actionId
    | _ => True

variable {host : Host X} {τ : ℕ} {h : Host.Log W}

theorem Warrant.linked {p : ActionProposal} {actionId : Option String}
    (hw : Warrant host h τ p .confirmed actionId) : ∃ id, actionId = some id ∧
      h.state.db.Holds (fun c => c.idempotencyKey = p.idempotencyKey) id := by
  generalize hs : ActionProposalStatus.confirmed = status at hw
  cases hw with
  | confirmed call owns built held =>
    have hk := ActionBridge.key_of_buildRequest _ _ _ built
    exact ⟨_, rfl, held.imp fun c hc => hc.1.trans hk⟩
  | recovered call owns found held => exact ⟨_, rfl, held⟩
  | cancelled => cases hs
  | expired => cases hs

theorem Linked.onward {db db' : Db} {p : ActionProposal} (hp : Linked db p)
    (h : db.Onward db') : Linked db' p := by
  obtain ⟨id, hid, hl⟩ := hp
  exact ⟨id, hid, h.holds hl⟩

theorem Host.Later.refl (h : Host.Log W) : Host.Later h h :=
  ⟨le_rfl, .refl _, List.prefix_refl _, List.prefix_refl _⟩

theorem Host.Later.trans {h h' h'' : Host.Log W} (hl : Host.Later h h')
    (hl' : Host.Later h' h'') : Host.Later h h'' :=
  ⟨hl.clock.trans hl'.clock, hl.db.trans hl'.db, hl.calls.trans hl'.calls,
    hl.trace.trans hl'.trace⟩

theorem onward_exec {o : Op X} (hpre : (proposalLogic host W).Pre τ o h) (e : EngineChoice W) :
    h.state.db.Onward (Engine.exec W e h.state o).2.db := by
  cases o with
  | tx o =>
    refine Tx.onward fun id expected status evidence actionId ho => ?_
    subst ho
    exact ⟨hpre.1, hpre.2.1⟩
  | _ => exact .refl _

/-- A proposal that an operation has changed was decided by it. -/
theorem decided_by {o : Op X} (hpre : (proposalLogic host W).Pre τ o h) (e : EngineChoice W)
    {id : String} {p' : ActionProposal}
    (hp' : (Engine.exec W e h.state o).2.db.proposal? id = some p') :
    h.state.db.proposal? id = some p' ∨
    h.state.db.proposal? id = none ∧ Proposed host h τ p' ∨
    ∃ p status evidence actionId, h.state.db.proposal? id = some p ∧ p.status = .pending ∧
      o = .tx (.transitionProposal id .pending status evidence actionId) ∧
      Warrant host h τ p status actionId ∧ status ≠ .pending ∧
      p' = p.decide h.state.clock status evidence actionId := by
  cases o with
  | tx o =>
    rcases (Tx.effect h.state.clock e.ids h.state.db o).proposal_cases hp' with
      ⟨rfl, hnone⟩ | ⟨p, hp, -, -⟩
    · exact Or.inr (Or.inl ⟨hnone, hpre⟩)
    · by_cases hsame : p' = p
      · exact Or.inl (hsame ▸ hp)
      · -- only a transition changes a row
        right
        right
        by_cases ht : ∃ id expected status evidence actionId,
            o = .transitionProposal id expected status evidence actionId
        · obtain ⟨id', expected, status, evidence, actionId, rfl⟩ := ht
          obtain ⟨rfl, hs, hwarrant⟩ := hpre
          rcases @Tx.transitionProposal_cases h.state.clock e.ids h.state.db id' .pending status
              evidence actionId with
            ⟨q, -, hq, hqs, -, hrows⟩ | ⟨-, he, -⟩
          · have hrow := (hrows id).symm.trans hp'
            split_ifs at hrow with hid
            · subst hid
              obtain rfl : q = p := Option.some.inj (hq.symm.trans hp)
              exact ⟨q, status, evidence, actionId, hq, hqs, rfl, hwarrant q hq hqs, hs,
                (Option.some.inj hrow).symm⟩
            · exact absurd (Option.some.inj (hrow.symm.trans hp)) hsame
          · have hrow : (Tx.exec h.state.clock e.ids h.state.db _).2.proposal? id = some p' := hp'
            rw [he, hp] at hrow
            exact absurd (Option.some.inj hrow).symm hsame
        · have hkept : (Tx.exec h.state.clock e.ids h.state.db _).2.proposal? id = some p :=
            Tx.proposal_kept (fun _ _ _ _ _ he => ht ⟨_, _, _, _, _, he⟩) hp
          exact absurd (Option.some.inj (hp'.symm.trans hkept)) hsame
  | _ => exact Or.inl hp'

theorem proposalLogic_stepwise : (proposalLogic host W).Stepwise where
  refl := Host.Later.refl
  trans _ _ _ := Host.Later.trans
  step τ o e h hi hpre := by
    have hon := onward_exec hpre e
    refine ⟨fun id p' hp' hs => ?_, ?_, hon, List.prefix_refl _, List.prefix_append _ _⟩
    · rcases decided_by hpre e hp' with hp | ⟨-, hnew⟩ | ⟨p, status, evidence, actionId, hp, -, -,
          hw, -, rfl⟩
      · exact (hi id p' hp hs).onward hon
      · rw [hnew.pending] at hs
        cases hs
      · obtain rfl : status = .confirmed := hs
        obtain ⟨aid, rfl, hl⟩ := hw.linked
        exact ⟨aid, rfl, hon.holds hl⟩
    · cases o <;> exact le_rfl

/-- The row that was read, as it is now. -/
def Seen (h : Host.Log W) (id : String) (p : ActionProposal) : Prop :=
  ∃ p', h.state.db.proposal? id = some p' ∧ p.Becomes p'

/-- The proposal is stored, and decided. -/
def Resolved (h : Host.Log W) (id : String) (p : ActionProposal) : Prop :=
  h.state.db.proposal? id = some p ∧ p.status ≠ .pending

section
variable {h' : Host.Log W} {id : String} {p p' : ActionProposal}

theorem Seen.later (hp : Seen h id p) (hl : Host.Later h h') : Seen h' id p := by
  obtain ⟨q, hq, hb⟩ := hp
  obtain ⟨r, hr, hb'⟩ := hl.db.proposals id q hq
  exact ⟨r, hr, hb.trans hb'⟩

theorem Resolved.later (hp : Resolved h id p) (hl : Host.Later h h') : Resolved h' id p := by
  obtain ⟨q, hq, hb⟩ := hl.db.proposals id p hp.1
  exact ⟨hb.eq_of_decided hp.2 ▸ hq, hp.2⟩

theorem Seen.resolved (hp : Seen h id p) (hs : p.status ≠ .pending) : Resolved h id p := by
  obtain ⟨q, hq, hb⟩ := hp
  exact ⟨hb.eq_of_decided hs ▸ hq, hs⟩

theorem Seen.becomes (hp : Seen h id p) (hp' : Resolved h id p') : p.Becomes p' := by
  obtain ⟨q, hq, hb⟩ := hp
  rwa [← Option.some.inj (hq.symm.trans hp'.1)]

end

theorem pre_of_submits {P : String → Prop} {o : Op X} (ho : o.submits P) :
    (proposalLogic host W).Pre τ o h := by
  cases o with
  | tx o =>
    cases o with
    | createProposal => exact absurd ho id
    | transitionProposal => exact absurd ho id
    | _ => trivial
  | _ => trivial

/-- A program that decides and creates no proposal needs nothing. -/
theorem wp_submits {α : Type} {P : String → Prop} {q : Task X α} (hq : q.Issues (Op.submits P)) :
    (proposalLogic host W).wp τ q (fun _ _ => True) h :=
  Logic.wp_frame (J := fun _ => True) hq (fun _ _ _ _ _ => trivial)
    (fun _ _ _ _ ho => ⟨pre_of_submits ho, fun _ => trivial⟩) trivial

theorem wp_getOwned {id customerId : String} {actorId : Option String} :
    (proposalLogic host W).wp τ (ActionBridge.getOwned id customerId actorId)
      (fun r h' => ∀ p, r = .ok p → Seen h' id p ∧ p.proposalId = id ∧
        customerId = p.customerId ∧ ∀ actor ∈ actorId, actor = p.actorId) h := by
  intro h1 _ _ _
  refine ⟨trivial, fun e => ?_⟩
  cases hp : h1.state.db.proposal? id with
  | none =>
    have hread : (Engine.exec W e h1.state (.tx (.getProposal id))).1 = none := hp
    rw [hread]
    exact fun _ he => by cases he
  | some proposal =>
    have hread : (Engine.exec W e h1.state (.tx (.getProposal id))).1 = some proposal := hp
    rw [hread]
    change (proposalLogic host W).wp τ
      (if proposal.customerId ≠ customerId then Prog.raise _
        else if actorId.any (· ≠ proposal.actorId) then Prog.raise _ else Prog.ret proposal) _ _
    split_ifs with hc ha
    · exact fun _ he => by cases he
    · exact fun _ he => by cases he
    · rintro _ ⟨⟩
      refine ⟨⟨proposal, hp, Or.inl rfl⟩, (Table.get?_eq_some.1 hp).2, (not_not.1 hc).symm, ?_⟩
      intro actor hactor
      by_contra hne
      exact ha ((Option.any_eq_true _ _).2 ⟨actor, hactor, by simpa using hne⟩)

/-- A read of a proposal that has been decided. -/
theorem wp_getResolved {id : String} {q : ActionProposal} {α : Type} (hq : Resolved h id q)
    {k : Option ActionProposal → Task X α} {Q : Except PyErr α → Host.Log W → Prop}
    (hk : ∀ h', Host.Later h h' → (proposalLogic host W).wp τ (k (some q)) Q h') :
    (proposalLogic host W).wp τ (Prog.bind (getActionProposal id) k) Q h := by
  intro h1 hl _ hi
  refine ⟨trivial, fun e => ?_⟩
  change (proposalLogic host W).wp τ (k (h1.state.db.proposal? id)) Q _
  rw [(hq.later hl).1]
  exact hk _ (hl.trans (proposalLogic_stepwise.step τ (Op.tx (.getProposal id)) e h1 hi trivial).2)

/-- The compare-and-set of a proposal that was read: it decides the row, or somebody else
has decided it. -/
theorem wp_transition {id : String} {p : ActionProposal} {status : ActionProposalStatus}
    {evidence actionId : Option String} (hseen : Seen h id p) (hs : status ≠ .pending)
    (hw : ∀ h', Host.Later h h' → ∀ p', h'.state.db.proposal? id = some p' →
      p'.status = .pending → Warrant host h' τ p' status actionId) :
    (proposalLogic host W).wp τ (transitionActionProposal id .pending status evidence actionId)
      (fun r h' => match r with
        | .ok q => Resolved h' id q ∧ q.status = status
        | .error _ => ∃ q, Resolved h' id q) h := by
  intro h1 hl _ hi
  have hpre : (proposalLogic host W).Pre τ
      (.tx (.transitionProposal id .pending status evidence actionId)) h1 := ⟨rfl, hs, hw h1 hl⟩
  refine ⟨hpre, fun e => ?_⟩
  obtain ⟨q, hq, hbecomes⟩ := hseen.later hl
  rcases @Tx.transitionProposal_cases h1.state.clock e.ids h1.state.db id .pending status
      evidence actionId with ⟨r, hok, hr, hrs, -, hrows⟩ | ⟨⟨exc, herr⟩, he, hno⟩
  · change (proposalLogic host W).wp τ (Prog.bind (Prog.ofExcept
      (Tx.exec h1.state.clock e.ids h1.state.db
        (.transitionProposal id .pending status evidence actionId)).1) _) _ _
    rw [hok]
    refine wp_getResolved (q := r.decide h1.state.clock status evidence actionId) ⟨?_, hs⟩
      fun h2 hl2 => ?_
    · exact (hrows id).trans (if_pos rfl)
    · refine ⟨Resolved.later ⟨?_, hs⟩ hl2, rfl⟩
      exact (hrows id).trans (if_pos rfl)
  · change (proposalLogic host W).wp τ (Prog.bind (Prog.ofExcept
      (Tx.exec h1.state.clock e.ids h1.state.db
        (.transitionProposal id .pending status evidence actionId)).1) _) _ _
    rw [herr]
    refine ⟨q, ?_, hno q hq⟩
    change (Tx.exec h1.state.clock e.ids h1.state.db
      (.transitionProposal id .pending status evidence actionId)).2.proposal? id = some q
    rw [he]
    exact hq

/-- Whoever loses the race answers with the decision of the winner. -/
theorem wp_transitionOrCurrent {id : String} {p : ActionProposal} {status : ActionProposalStatus}
    {actionId : Option String} (hseen : Seen h id p) (hs : status ≠ .pending)
    (hw : ∀ h', Host.Later h h' → ∀ p', h'.state.db.proposal? id = some p' →
      p'.status = .pending → Warrant host h' τ p' status actionId) :
    (proposalLogic host W).wp τ (ActionBridge.transitionOrCurrent id status actionId)
      (fun r h' => ∀ q, r = .ok q → Resolved h' id q) h := by
  refine proposalLogic_stepwise.wp_catch (wp_transition hseen hs hw) ?_ ?_
  · rintro q h1 - ⟨hq, -⟩ _ ⟨⟩
    exact hq
  · rintro exc h1 - ⟨q, hq⟩
    cases exc with
    | actionConflict message =>
      refine wp_getResolved hq fun h2 hl2 => ?_
      rintro _ ⟨⟩
      exact hq.later hl2
    | _ => exact fun _ he => by cases he

theorem wp_recordConfirmed {p : ActionProposal} {context : ActionConfirmationContext}
    {a : ActionRecord} (hseen : Seen h p.proposalId p)
    (hw : ∀ h', Host.Later h h' → ∀ p', h'.state.db.proposal? p.proposalId = some p' →
      p'.status = .pending → Warrant host h' τ p' .confirmed (some a.actionId)) :
    (proposalLogic host W).wp τ (ActionBridge.recordConfirmed p context a)
      (fun r h' => ∀ q, r = .ok q → Resolved h' p.proposalId q ∧ q.status = .confirmed) h := by
  refine proposalLogic_stepwise.wp_catch (wp_transition hseen (by decide) hw) ?_ ?_
  · rintro q h1 - hq _ ⟨⟩
    exact hq
  · rintro exc h1 - -
    cases exc with
    | actionConflict message =>
      refine proposalLogic_stepwise.wp_seq wp_getOwned (fun current h2 _ hread => ?_)
        fun _ _ _ _ _ he => by cases he
      obtain ⟨hcur, -⟩ := hread current rfl
      split_ifs with hs
      · rintro _ ⟨⟩
        refine ⟨hcur.resolved ?_, hs⟩
        rw [hs]
        decide
      · exact fun _ he => by cases he
    | _ => exact fun _ he => by cases he

/-- The record is one of the stored action, whose command it has. -/
def ActionRecord.StoredIn (a : ActionRecord) (db : Db) : Prop := db.Holds (· = a.command) a.actionId

/-- What was answered about actions and proposals is true of the database. -/
def Op.TrueOf (db : Db) : (o : Op X) → o.Res → Prop
  | .tx (.getAction id), (found : Option ActionRecord) => ∀ a, found = some a →
    a.actionId = id ∧ a.StoredIn db
  | .tx (.getActionByKey key), (found : Option ActionRecord) => ∀ a, found = some a →
    db.Holds (fun c => c.idempotencyKey = key ∧ c = a.command) a.actionId
  | .tx (.insertAction record _), (r : Except PyErr Unit) => r = .ok () →
    db.Holds (· = record.command) record.actionId
  | .tx (.getProposal id), (found : Option ActionProposal) => ∀ p, found = some p →
    ∃ p', db.proposal? id = some p' ∧ p.Becomes p'
  | _, _ => True

theorem Op.TrueOf.onward {db db' : Db} (hon : db.Onward db') {o : Op X} {r : o.Res}
    (h : Op.TrueOf db o r) : Op.TrueOf db' o r := by
  cases o with
  | tx o =>
    cases o with
    | getAction => exact fun a ha => ⟨(h a ha).1, hon.holds (h a ha).2⟩
    | getActionByKey key => exact fun a ha => hon.holds (h a ha)
    | insertAction record v => exact fun hr => hon.holds (h hr)
    | getProposal id =>
      intro p hp
      obtain ⟨q, hq, hb⟩ := h p hp
      obtain ⟨r, hr, hb'⟩ := hon.proposals id q hq
      exact ⟨r, hr, hb.trans hb'⟩
    | _ => trivial
  | _ => trivial

/-- Two records of one stored action have the same command. -/
theorem ActionRecord.StoredIn.command_eq {a b : ActionRecord} {db : Db} (ha : a.StoredIn db)
    (hb : b.StoredIn db) (hid : b.actionId = a.actionId) : b.command = a.command := by
  obtain ⟨row, hrow, hcommand⟩ := ha
  obtain ⟨row', hrow', hcommand'⟩ := hb
  rw [hid] at hrow'
  obtain rfl := Option.some.inj (hrow.symm.trans hrow')
  exact hcommand'.symm.trans hcommand

theorem Op.reads_of_trueOf {db : Db} {a : ActionRecord} (ha : a.StoredIn db) {o : Op X} {r : o.Res}
    (h : Op.TrueOf db o r) :
    Op.reads a.actionId (fun b => b.actionId = a.actionId ∧ b.command = a.command) o r := by
  cases o with
  | tx o =>
    cases o with
    | getAction id =>
      rintro rfl b hb
      obtain ⟨hid, hstored⟩ := h b hb
      exact ⟨hid, ha.command_eq hstored hid⟩
    | _ => trivial
  | _ => trivial

theorem trueOf_exec (o : Op X) (e : EngineChoice W) (s : EngineState W) :
    Op.TrueOf (Engine.exec W e s o).2.db o (Engine.exec W e s o).1 := by
  cases o with
  | tx o =>
    cases o with
    | getAction id =>
      intro a ha
      obtain ⟨-, hid⟩ := Table.get?_eq_some.1 ha
      exact ⟨hid, a, hid.symm ▸ ha, rfl⟩
    | getActionByKey key => exact fun a ha => Db.holds_of_actionByKey ha rfl
    | insertAction record v =>
      intro hr
      have hins := inserted_of_ok (Prod.ext hr rfl :
        (Txn.insertAction s.clock e.ids record v).commit s.db = (.ok (), _))
      refine ⟨{ record with outcome := none }, ?_, rfl⟩
      exact (Table.get?_insert? hins.action .id record.actionId).trans (if_pos rfl)
    | getProposal id => exact fun p hp => ⟨p, hp, Or.inl rfl⟩
    | _ => trivial
  | _ => trivial

section
variable {db : Db}

theorem yields_getActionByKey (key : String) :
    (getActionByKey key : Task X (Option ActionRecord)).Yields (Op.TrueOf db) fun found =>
      ∀ a, found = some a →
        db.Holds (fun c => c.idempotencyKey = key ∧ c = a.command) a.actionId :=
  fun _ hr => hr

/-- A stored action that matches the request. -/
structure ConsequentialActionRequest.AnsweredBy (request : ConsequentialActionRequest) (db : Db)
    (a : ActionRecord) : Prop where
  stored : a.StoredIn db
  asked : request.Matches a.command

theorem ConsequentialActionRequest.AnsweredBy.held {request : ConsequentialActionRequest}
    {a : ActionRecord} (h : request.AnsweredBy db a) : db.Holds request.Matches a.actionId :=
  h.stored.imp fun _ he => he ▸ h.asked

/-- A dispatch returns the action that it was called for. -/
theorem yields_dispatch (gateway : ActionGateway X) {request : ConsequentialActionRequest}
    {a : ActionRecord} (ha : request.AnsweredBy db a) :
    (gateway.dispatch a).Yields (Op.TrueOf db) (request.AnsweredBy db) := by
  refine Prog.yields_answers (fun _ _ => Op.reads_of_trueOf ha.stored)
    (Prog.yields_mono (fun b hb => ?_) (gateway.dispatch_yields ⟨rfl, rfl⟩))
  obtain ⟨hid, hcommand⟩ := hb
  refine ⟨?_, hcommand ▸ ha.asked⟩
  unfold ActionRecord.StoredIn
  rw [hid, hcommand]
  exact ha.stored

theorem yields_authorizeAction {request : ConsequentialActionRequest} {command : ActionCommand}
    (hask : request.Asks command) (v : ℤ) :
    (CaseKernel.authorizeAction command v : Task X ActionRecord).Yields (Op.TrueOf db)
      (request.AnsweredBy db) := by
  refine Prog.yields_bind (yields_getActionByKey _) fun found hr => ?_
  cases found with
  | some duplicate =>
    dsimp only
    split_ifs with hne
    · trivial
    · exact ⟨(hr duplicate rfl).imp fun _ h => h.2,
        matches_of_asks hask (Or.inr (by simpa using hne))⟩
  | none =>
    refine Prog.yields_skip fun _ => Prog.yields_skip fun _ => ?_
    refine Prog.yields_skip fun now => Prog.yields_skip fun hex => ?_
    rintro (e | ⟨⟨⟩⟩) hr
    · trivial
    · exact ⟨hr rfl, matches_of_asks hask (Or.inl rfl)⟩

theorem yields_authorize (gateway : ActionGateway X) {request : ConsequentialActionRequest}
    {command : ActionCommand} (hask : request.Asks command) (v : ℤ) :
    (gateway.authorize command v).Yields (Op.TrueOf db) (request.AnsweredBy db) := by
  have hbound : ∀ bindingId bindingVersion contractVersion signature, request.Asks { command with
      connectorBindingId := bindingId
      connectorBindingVersion := bindingVersion
      contractVersion := contractVersion
      policyActivationSignature := signature } := fun _ _ _ _ =>
    ⟨hask.action, hask.caseId, hask.policyPackageId, hask.idempotencyKey, hask.parameters⟩
  refine Prog.yields_skip fun resolved => ?_
  cases gateway.policy with
  | none => exact yields_authorizeAction (hbound _ _ _ _) v
  | some policy =>
    refine Prog.yields_skip fun package => Prog.yields_skip fun (found : Option CaseRecord) => ?_
    cases found with
    | none => trivial
    | some case =>
      simp only [Prog.bind_eq, Prog.throw_eq, Prog.bind_raise]
      split_ifs
      · trivial
      · exact Prog.yields_skip fun _ => yields_authorizeAction (hbound _ _ _ _) v

theorem yields_authorizeNew (service : ConsequentialActionService X)
    (request : ConsequentialActionRequest) (actorId : String) :
    (service.authorizeNew request actorId).Yields (Op.TrueOf db) (request.AnsweredBy db) := by
  unfold ConsequentialActionService.authorizeNew
  cases specification? request.payload.action with
  | none => trivial
  | some specification =>
    refine Prog.yields_skip fun loaded => Prog.yields_skip fun case => ?_
    exact Prog.yields_skip fun case' => yields_authorize _ ⟨rfl, rfl, rfl, rfl, rfl⟩ _

/-- What a submission returns is an action that matches the request. -/
theorem yields_submit (service : ConsequentialActionService X)
    (request : ConsequentialActionRequest) (actorId : String) :
    (service.submit request actorId).Yields (Op.TrueOf db) (request.AnsweredBy db) := by
  refine Prog.yields_bind (yields_getActionByKey _) fun found hr => ?_
  cases found with
  | none =>
    exact Prog.yields_bind (yields_authorizeNew service request actorId)
      fun a ha => yields_dispatch _ ha
  | some duplicate =>
    simp only [ConsequentialActionService.replay, Prog.bind_eq, Prog.throw_eq, Prog.bind_raise]
    split_ifs with hm
    · trivial
    · refine Prog.yields_skip fun (found : Option CaseRecord) => ?_
      cases found with
      | none => trivial
      | some case =>
        dsimp only
        split_ifs
        · trivial
        · refine yields_dispatch _ ⟨(hr duplicate rfl).imp fun _ h => h.2, ?_, by simpa using hm⟩
          obtain ⟨row, -, hkey, hcommand⟩ := hr duplicate rfl
          exact hcommand ▸ hkey

end

theorem wp_submit_held {service : ConsequentialActionService X}
    {request : ConsequentialActionRequest} {actorId : String} :
    (proposalLogic host W).wp τ (service.submit request actorId)
      (fun r h' => ∀ a, r = .ok a → h'.state.db.Holds request.Matches a.actionId) h :=
  proposalLogic_stepwise.wp_yields (P := Op.submits fun _ => True)
    (A := fun h => Op.TrueOf h.state.db)
    (R := fun h a => h.state.db.Holds request.Matches a.actionId)
    (ConsequentialActionService.submits_submit service request trivial actorId)
    (fun _ _ _ ho => pre_of_submits ho)
    (fun h o e _ _ _ hl => Op.TrueOf.onward hl.db (trueOf_exec o e h.state))
    fun _ _ => Prog.yields_mono (fun _ h => h.held) (yields_submit service request actorId)

theorem wp_submitPending_held {p : ActionProposal} {context : ActionConfirmationContext}
    (hcall : h.calls[τ]? = some (.engine (.confirm p.proposalId context)))
    (howns : context.Owns p) (hseen : Seen h p.proposalId p) (hs : p.status = .pending) :
    (proposalLogic host W).wp τ (host.engine.bridge.submitPending p context)
      (fun r h' => ∀ q, r = .ok q → Resolved h' p.proposalId q ∧ q.status = .confirmed) h := by
  have hL : (proposalLogic host W).Stepwise := proposalLogic_stepwise
  have hfree : ∀ {α : Type} {q : Task X α} {h : Host.Log W}, q.Issues (Op.submits fun _ => True) →
      (proposalLogic host W).wp τ q (fun _ _ => True) h := fun hq => wp_submits hq
  refine hL.wp_seq (hfree (host.engine.bridge.submits_verifyResourceVersion p))
    (fun _ h1 hl1 _ => ?_) fun _ _ _ _ _ he => by cases he
  refine hL.wp_seq (hfree (Prog.issues_ofExcept _)) (fun _ h2 hl2 _ => ?_)
    fun _ _ _ _ _ he => by cases he
  refine hL.wp_seq (R := fun r _ => r = host.engine.bridge.buildRequest p context)
    (Logic.wp_ofExcept.2 rfl) (fun request h3 hl3 hbuilt => ?_) fun _ _ _ _ _ he => by cases he
  refine hL.wp_seq wp_submit_held (fun a h4 hl4 hheld => ?_) fun _ _ _ _ _ he => by cases he
  have hl := ((hl1.trans hl2).trans hl3).trans hl4
  refine wp_recordConfirmed (hseen.later hl) fun h5 hl5 p' hp' hs' => ?_
  -- the row that is still pending is the one that was read
  obtain ⟨q, hq, hb⟩ := hseen.later (hl.trans hl5)
  obtain rfl : q = p' := Option.some.inj (hq.symm.trans hp')
  obtain rfl := hb.eq_of_pending hs'
  exact .confirmed (getElem?_of_extends (hl.trans hl5).calls hcall) howns hbuilt.symm
    (hl5.db.holds (hheld a rfl))

theorem wp_expire_late {p : ActionProposal} (hseen : Seen h p.proposalId p)
    (hlate : p.expiresAt ≤ h.state.clock) :
    (proposalLogic host W).wp τ (ActionBridge.expire p)
      (fun r h' => ∀ q, r = .ok q → Resolved h' p.proposalId q) h := by
  refine wp_transitionOrCurrent hseen (by decide) fun h' hl p' hp' hs' => ?_
  obtain ⟨q, hq, hb⟩ := hseen.later hl
  obtain rfl : q = p' := Option.some.inj (hq.symm.trans hp')
  obtain rfl := hb.eq_of_pending hs'
  exact .expired (hlate.trans hl.clock)

theorem Seen.expiresAt {h' : Host.Log W} {id : String} {p q : ActionProposal} (hp : Seen h' id p)
    (hq : Resolved h' id q) : q.expiresAt = p.expiresAt := by
  rcases hp.becomes hq with rfl | ⟨-, -, now, evidence, actionId, he⟩
  · rfl
  · rw [he]
    rfl

/-- What a confirmation has come to: the record that is stored. -/
def Confirmed (id : String) (q : ActionProposal) (h : Host.Log W) : Prop :=
  Resolved h id q ∧ (q.status = .confirmed ∨ q.expiresAt ≤ h.state.clock)

theorem wp_confirm_held {id : String} {context : ActionConfirmationContext}
    (hcall : h.calls[τ]? = some (.engine (.confirm id context))) :
    (proposalLogic host W).wp τ (host.engine.bridge.confirm id context)
      (fun r h' => ∀ q, r = .ok q → Confirmed id q h') h := by
  have hL : (proposalLogic host W).Stepwise := proposalLogic_stepwise
  refine hL.wp_seq wp_getOwned (fun p h1 hl1 hread => ?_) fun _ _ _ _ _ he => by cases he
  obtain ⟨hseen, rfl, hcustomer, hactor⟩ := hread p rfl
  have howns : context.Owns p := ⟨hcustomer, hactor _ rfl⟩
  cases hs : p.status with
  | confirmed =>
    rintro _ ⟨⟩
    refine ⟨hseen.resolved ?_, Or.inl hs⟩
    rw [hs]
    decide
  | pending =>
    intro h2 hl2 _ hi
    refine ⟨trivial, fun e => ?_⟩
    have hl3 := (hL.step τ .now e h2 hi trivial).2
    have hseen3 := hseen.later (hl2.trans hl3)
    change (proposalLogic host W).wp τ
      (if decide (p.expiresAt ≤ h2.state.clock) = true then ActionBridge.expire p
        else host.engine.bridge.submitPending p context) _ _
    split_ifs with hlate
    · have hlate : p.expiresAt ≤ h2.state.clock := by simpa using hlate
      refine Logic.wp_mono (fun r h' hr q hq => ?_) (hL.wp_rely_post (wp_expire_late hseen3 hlate))
      refine ⟨hr.1 q hq, Or.inr ?_⟩
      rw [(hseen3.later hr.2).expiresAt (hr.1 q hq)]
      exact hlate.trans hr.2.clock
    · refine Logic.wp_mono (fun r h' hr q hq => ⟨(hr q hq).1, Or.inl (hr q hq).2⟩)
        (wp_submitPending_held ?_ howns hseen3 hs)
      exact getElem?_of_extends ((hl1.trans hl2).trans hl3).calls hcall
  | _ => exact fun _ he => by cases he

theorem wp_cancel_held {id : String} {context : ActionConfirmationContext}
    (hcall : h.calls[τ]? = some (.engine (.cancel id context))) :
    (proposalLogic host W).wp τ (ActionBridge.cancel id context) (fun _ _ => True) h := by
  have hL : (proposalLogic host W).Stepwise := proposalLogic_stepwise
  refine hL.wp_seq wp_getOwned (fun p h1 hl1 hread => ?_) fun _ _ _ _ => trivial
  obtain ⟨hseen, rfl, hcustomer, hactor⟩ := hread p rfl
  have howns : context.Owns p := ⟨hcustomer, hactor _ rfl⟩
  cases hs : p.status with
  | pending =>
    intro h2 hl2 _ hi
    refine ⟨trivial, fun e => ?_⟩
    have hl3 := (hL.step τ (.tx (.getActionByKey p.idempotencyKey)) e h2 hi trivial).2
    have hseen3 := hseen.later (hl2.trans hl3)
    have hcall3 := getElem?_of_extends ((hl1.trans hl2).trans hl3).calls hcall
    cases hfound : h2.state.db.actionByKey? p.idempotencyKey with
    | some existing =>
      have hread : (Engine.exec W e h2.state (.tx (.getActionByKey p.idempotencyKey))).1 =
          some existing := hfound
      rw [hread]
      have hentry : (⟨τ, Op.tx (.getActionByKey p.idempotencyKey), some existing⟩ : Entry (sig X)) ∈
          ((host.system W).after h2 τ (.tx (.getActionByKey p.idempotencyKey)) e).trace := by
        have hlast : (⟨τ, Op.tx (.getActionByKey p.idempotencyKey),
            h2.state.db.actionByKey? p.idempotencyKey⟩ : Entry (sig X)) ∈
            ((host.system W).after h2 τ (.tx (.getActionByKey p.idempotencyKey)) e).trace :=
          List.mem_append_right _ (List.mem_singleton_self _)
        rwa [hfound] at hlast
      refine Logic.wp_mono (fun _ _ _ => trivial)
        (wp_transitionOrCurrent hseen3 (by decide) fun h' hl p' hp' hs' => ?_)
      obtain ⟨q, hq, hb⟩ := hseen3.later hl
      obtain rfl : q = p' := Option.some.inj (hq.symm.trans hp')
      obtain rfl := hb.eq_of_pending hs'
      refine .recovered (getElem?_of_extends hl.calls hcall3) howns (hl.trace.subset hentry) ?_
      refine hl.db.holds (Db.Holds.imp (Db.holds_of_actionByKey (Q := fun _ => True) ?_ trivial)
        fun c hc => hc.1)
      exact hfound
    | none =>
      have hread : (Engine.exec W e h2.state (.tx (.getActionByKey p.idempotencyKey))).1 = none :=
        hfound
      rw [hread]
      refine Logic.wp_mono (fun _ _ _ => trivial)
        (wp_transition hseen3 (by decide) fun h' hl p' hp' hs' => ?_)
      obtain ⟨q, hq, hb⟩ := hseen3.later hl
      obtain rfl : q = p' := Option.some.inj (hq.symm.trans hp')
      obtain rfl := hb.eq_of_pending hs'
      exact .cancelled (getElem?_of_extends hl.calls hcall3) howns
  | _ => trivial

theorem wp_status_held {id customerId : String} {actorId : Option String} :
    (proposalLogic host W).wp τ (ActionBridge.status id customerId actorId)
      (fun _ _ => True) h := by
  have hL : (proposalLogic host W).Stepwise := proposalLogic_stepwise
  refine hL.wp_seq wp_getOwned (fun p h1 hl1 hread => ?_) fun _ _ _ _ => trivial
  obtain ⟨hseen, rfl, -⟩ := hread p rfl
  split_ifs
  · intro h2 hl2 _ hi
    refine ⟨trivial, fun e => ?_⟩
    have hl3 := (hL.step τ .now e h2 hi trivial).2
    change (proposalLogic host W).wp τ
      (if decide (p.expiresAt ≤ h2.state.clock) = true then ActionBridge.expire p
        else Prog.ret p) _ _
    split_ifs with hlate
    · have hlate : p.expiresAt ≤ h2.state.clock := by simpa using hlate
      exact Logic.wp_mono (fun _ _ _ => trivial)
        (wp_expire_late (hseen.later (hl2.trans hl3)) hlate)
    · trivial
  · trivial

/-- What the calls have come to: a confirmation, to the stored record. -/
def Replied (_ : ℕ) (call : HostCall X) (r : Except PyErr Reply) (h : Host.Log W) : Prop :=
  ∀ id context reply, call = .engine (.confirm id context) → r = .ok reply →
    ∃ q, reply = .proposal q ∧ Confirmed id q h

theorem wp_call_proposals {call : HostCall X} (hadm : Host.admits call = true)
    (hcall : h.calls[τ]? = some call) :
    (proposalLogic host W).wp τ (host.body call) (Replied τ call) h := by
  have hfree : ∀ {q : Task X Reply}, q.Issues (Op.submits fun _ => True) →
      (∀ id context, call ≠ .engine (.confirm id context)) →
      (proposalLogic host W).wp τ q (Replied τ call) h :=
    fun hq hne => Logic.wp_mono (fun _ _ _ _ _ _ he => absurd he (hne _ _)) (wp_submits hq)
  have hreply : ∀ {α : Type} {q : Task X α} {f : α → Reply},
      (proposalLogic host W).wp τ q (fun _ _ => True) h →
      (∀ id context, call ≠ .engine (.confirm id context)) →
      (proposalLogic host W).wp τ (q.bind fun a => .ret (f a)) (Replied τ call) h := by
    intro α q f hq hne
    refine Logic.wp_bind.2 (Logic.wp_mono (fun r h' _ => ?_) hq)
    cases r <;> exact fun _ _ _ he => absurd he (hne _ _)
  cases call with
  | propose intent context =>
    refine hreply (Logic.wp_mono (fun _ _ _ => trivial) (Logic.wp_frame
      (P := fun o => ∀ h : Host.Log W, h.calls[τ]? = some (HostCall.propose intent context) →
        (proposalLogic host W).Pre τ o h)
      (J := fun h => h.calls[τ]? = some (HostCall.propose intent context))
      (ActionBridge.issues_propose _ ?_ ?_ ?_ ?_)
      (fun _ _ hJ hl _ => getElem?_of_extends hl.calls hJ)
      (fun h o hJ _ ho => ⟨ho h hJ, fun e => ?_⟩) hcall)) nofun
    · exact fun _ _ _ => trivial
    · exact fun _ _ => trivial
    · exact fun _ _ => trivial
    · exact fun context' prepared payload now hex hp h hJ =>
        ⟨intent, context, context', prepared, payload, now, hex, hJ, hp, rfl⟩
    · exact hJ
  | engine call =>
    cases call with
    | confirm id context =>
      refine Logic.wp_bind.2 (Logic.wp_mono (fun r h' hr => ?_) (wp_confirm_held hcall))
      cases r with
      | error e => exact fun _ _ _ _ he => by cases he
      | ok q =>
        rintro _ _ _ ⟨⟩ ⟨⟩
        exact ⟨q, rfl, hr q rfl⟩
    | cancel id context => exact hreply (wp_cancel_held hcall) nofun
    | status id customerId actorId => exact hreply wp_status_held nofun
    | transaction o => cases hadm
    | initializeStore =>
      exact hfree (Prog.issues_bind (issues_attempt trivial) fun _ => trivial) nofun
    | submit request actorId =>
      exact hreply (wp_submits (P := fun _ => True)
        (ConsequentialActionService.submits_submit _ request trivial _)) nofun
    | authorize command v =>
      exact hreply (wp_submits (P := fun _ => True) (submits_authorize _ command trivial v)) nofun
    | authorizeAction command v =>
      exact hreply
        (wp_submits (P := fun _ => True) (submits_authorizeAction command trivial v)) nofun
    | markDispatched id =>
      refine hreply (wp_submits (P := fun _ => True) (Prog.issues_bind ?_ fun _ => trivial)) nofun
      refine Prog.issues_bind (issues_attempt trivial) fun _ => ?_
      refine Prog.issues_bind (issues_tx trivial) fun found => ?_
      split <;> trivial
    | recordOutcome id status outcome =>
      exact hreply
        (wp_submits (P := fun _ => True) (submits_reconciles (issues_recordOutcome ..))) nofun
    | dispatch a => exact hreply (wp_submits (P := fun _ => True) (submits_dispatch _ a)) nofun
    | reconcile a =>
      exact hreply (wp_submits (P := fun _ => True)
        (submits_reconciles (host.engine.gateway.issues_reconcile a))) nofun
    | deliver owner leaseSeconds maxAttempts limit =>
      exact hreply (wp_submits (P := fun _ => True)
        (submits_delivers (ActionDeliveryWorker.issues_runOnce _ limit))) nofun
    | sweep staleSeconds limit =>
      exact hreply (wp_submits (P := fun _ => True)
        (submits_reconciles (ReconciliationWorker.issues_runOnce _ limit))) nofun
    | enqueue topic aggregateId payload =>
      refine hfree (Prog.issues_bind ?_ fun _ => trivial) nofun
      refine Prog.issues_bind ((Prog.issues_perform _).2 trivial) fun now => ?_
      refine Prog.issues_bind ((Prog.issues_perform _).2 trivial) fun hex => ?_
      exact Prog.issues_bind (issues_attempt trivial) fun _ => trivial
    | outside q =>
      exact hfree (Prog.issues_bind (issues_ext (fun _ => trivial) q) fun _ => trivial) nofun

theorem proposalLogic_sound : (proposalLogic host W).Sound where
  toStepwise := proposalLogic_stepwise
  spawn h call hi _ := ⟨hi, le_rfl, .refl _, List.prefix_append _ _, List.prefix_refl _⟩
  crash h τ hi := ⟨hi, le_rfl, .refl _, List.prefix_refl _, List.prefix_refl _⟩
  drift h e hi := by
    refine ⟨hi, ?_, .refl _, List.prefix_refl _, List.prefix_refl _⟩
    exact le_add_of_nonneg_right (Int.natCast_nonneg _)
  body h call hi ha _ := Logic.wp_mono (fun _ _ _ => trivial)
    (wp_call_proposals ha (by simp [System.spawned]))

theorem proposalLogic_ends : (proposalLogic host W).Ends Replied where
  body h call hi ha _ := wp_call_proposals ha (by simp [System.spawned])
  stable τ call r h h' hr hl _ id context reply hc he := by
    obtain ⟨q, hq, hres, hs⟩ := hr id context reply hc he
    exact ⟨q, hq, hres.later hl, hs.imp_right fun hlate => hlate.trans hl.clock⟩

/-- A decision leaves everything else of the record alone. -/
def ActionProposal.SameTerms (p p' : ActionProposal) : Prop :=
  p' = { p with
    status := p'.status
    confirmationEvidenceRef := p'.confirmationEvidenceRef
    actionId := p'.actionId
    updatedAt := p'.updatedAt
    confirmedAt := p'.confirmedAt
    cancelledAt := p'.cancelledAt }

/-- The context in which a call confirms or cancels the proposal. -/
def HostCall.decides (id : String) : HostCall X → Option ActionConfirmationContext
  | .engine (.confirm proposalId context) => if proposalId = id then some context else none
  | .engine (.cancel proposalId context) => if proposalId = id then some context else none
  | _ => none

/-- What one decision of the scheduler does to the stored proposals. -/
structure ProposalStep (host : Host X) (W : World X) (h : Host.Log W) (a : (host.system W).Move)
    (h' : Host.Log W) : Prop where
  stored : ∀ id p, h.state.db.proposal? id = some p → ∃ p', h'.state.db.proposal? id = some p' ∧
    p.SameTerms p' ∧ (p' = p ∨ p.status = .pending ∧ p'.status ≠ .pending ∧
      (p'.status = .expired → p.expiresAt ≤ h.state.clock) ∧
      (p'.status = .confirmed ∨ p'.status = .cancelled → ∃ τ e context, a = .run τ e ∧
        h.calls[τ]?.bind (HostCall.decides id) = some context ∧ context.Owns p))
  created : ∀ id p', h.state.db.proposal? id = none → h'.state.db.proposal? id = some p' →
    p'.status = .pending

/-- Every confirmation of a proposal that returns, returns the record that is stored. -/
def ConfirmsAgree (host : Host X) (W : World X) (c : (host.system W).Config) : Prop :=
  ∀ (τ : ℕ) id context reply, c.hist.calls[τ]? = some (HostCall.engine (.confirm id context)) →
    c.tasks[τ]? = some (Prog.ret reply) → ∃ p, reply = Reply.proposal p ∧
      c.hist.state.db.proposal? id = some p ∧
      (p.status = .confirmed ∨ p.status ≠ .pending ∧ p.expiresAt ≤ c.hist.state.clock)

theorem proposalStep_of_pre {o : Op X} (hpre : (proposalLogic host W).Pre τ o h)
    (e : EngineChoice W) : ProposalStep host W h (.run τ e) ((host.system W).after h τ o e) := by
  refine ⟨fun id p hp => ?_, fun id p' hnone hp' => ?_⟩
  · obtain ⟨p', hp', -⟩ := (onward_exec hpre e).proposals id p hp
    refine ⟨p', hp', ?_⟩
    have hkey : p.proposalId = id := (Table.get?_eq_some.1 hp).2
    rcases decided_by hpre e hp' with hsame | ⟨hnone, -⟩ | ⟨q, status, evidence, actionId, hq, hs,
        -, hw, hne, rfl⟩
    · obtain rfl : p' = p := Option.some.inj (hsame.symm.trans hp)
      exact ⟨rfl, Or.inl rfl⟩
    · rw [hp] at hnone
      cases hnone
    · obtain rfl : q = p := Option.some.inj (hq.symm.trans hp)
      refine ⟨rfl, Or.inr ⟨hs, hne, fun hx => ?_, fun hx => ?_⟩⟩
      · change status = .expired at hx
        subst hx
        cases hw with
        | expired late => exact late
      · change status = .confirmed ∨ status = .cancelled at hx
        cases hw with
        | confirmed call owns built held =>
          exact ⟨τ, e, _, rfl, by simp [call, HostCall.decides, hkey], owns⟩
        | recovered call owns found held =>
          exact ⟨τ, e, _, rfl, by simp [call, HostCall.decides, hkey], owns⟩
        | cancelled call owns =>
          exact ⟨τ, e, _, rfl, by simp [call, HostCall.decides, hkey], owns⟩
        | expired late => rcases hx with hx | hx <;> cases hx
  · rcases decided_by hpre e hp' with hp | ⟨-, hnew⟩ | ⟨q, -, -, -, hq, -⟩
    · rw [hnone] at hp
      cases hp
    · exact hnew.pending
    · rw [hnone] at hq
      cases hq

theorem proposalStep_same {h' : Host.Log W} {a : (host.system W).Move}
    (he : h'.state.db = h.state.db) : ProposalStep host W h a h' := by
  refine ⟨fun id p hp => ⟨p, he ▸ hp, rfl, Or.inl rfl⟩, fun id p' hnone hp' => ?_⟩
  rw [he, hnone] at hp'
  cases hp'

/-- The state machine of proposals. Over every schedule of any calls of the engine, a stored
proposal is decided at most once, from `PENDING`, and nothing else of it ever changes; it becomes
`CONFIRMED` or `CANCELLED` by a confirmation or cancellation in the name of its customer and
actor; a `CONFIRMED` one names a stored action of its key; and all confirmations of one proposal
that return, return the stored record, `CONFIRMED` unless its time has passed. -/
theorem proposal_state_machine (host : Host X) (W : World X) (s : EngineState W)
    (hs : ∀ id p, s.db.proposal? id = some p → p.status = .confirmed → Linked s.db p)
    (acts : List (host.system W).Move) :
    let c := (host.system W).run ((host.system W).init s) acts
    (∀ a, ProposalStep host W c.hist a ((host.system W).next c a).hist) ∧
    (∀ id p, c.hist.state.db.proposal? id = some p → p.status = .confirmed →
      Linked c.hist.state.db p) ∧
    ConfirmsAgree host W c := by
  have hgood : (proposalLogic host W).Good
      ((host.system W).run ((host.system W).init s) acts) := proposalLogic_sound.good_run hs acts
  refine ⟨fun a => ?_, hgood.inv, ?_⟩
  · rcases System.next_cases ((host.system W).run ((host.system W).init s) acts) a with hn |
        ⟨call, -, -, hn⟩ | ⟨τ, e, o, k, rfl, hr, hn⟩ | ⟨τ, -, hn⟩ | ⟨e, -, hn⟩ <;> rw [hn]
    · exact proposalStep_same rfl
    · exact proposalStep_same rfl
    · exact proposalStep_of_pre (hgood.pre proposalLogic_sound hr) e
    · exact proposalStep_same rfl
    · exact proposalStep_same rfl
  · intro τ id context reply hcall hret
    obtain ⟨q, rfl, ⟨hq, hne⟩, hst⟩ := (proposalLogic_sound.ends_run proposalLogic_ends hs acts
      hret hcall).1 reply rfl id context reply rfl rfl
    exact ⟨q, rfl, hq, hst.imp_right fun hlate => ⟨hne, hlate⟩⟩

/-- The confirmations of a proposal that have come to an end raised, or returned one
`CONFIRMED` record. -/
def ConfirmedOrRaised (host : Host X) (W : World X) (c : (host.system W).Config) (id : String) :
    Prop :=
  ∃ p : ActionProposal, p.status = .confirmed ∧ ∀ (τ : ℕ) context reply,
    c.hist.calls[τ]? = some (HostCall.engine (.confirm id context)) →
    c.tasks[τ]? = some (Prog.ret reply) → reply = Reply.proposal p

end

section
open World

def noteHost : Host ⟨Empty, Empty.elim⟩ where
  engine := noteEngine

def noteIntent : ActionIntent where
  action := "add_case_note"
  arguments := [("note", .str "n")]

def noteContext : TrustedActionContext where
  actorId := "agent"
  customerId := "U-1"
  caseId := "C-1"
  procedureId := "proc"
  procedureVersion := "1"
  policyPackageId := "P-1"

/-- Let `τ` take its next `n` operations, with fresh identifiers. -/
def noteMoves (τ n : ℕ) : List (noteHost.system isolated).Move :=
  (List.range n).map fun i => .run τ ⟨fun j => toString τ ++ "." ++ toString i ++ toString j, 0, ()⟩

def noteRun (acts : List (noteHost.system isolated).Move) : (noteHost.system isolated).Config :=
  (noteHost.system isolated).run ((noteHost.system isolated).init ⟨.empty, 0, ()⟩) acts

/-- The second confirmation has read the proposal `PENDING` when the first one decides it. -/
def confirmedTwice : List (noteHost.system isolated).Move :=
  .spawn (.propose noteIntent noteContext) :: noteMoves 0 3 ++
    .spawn (.engine (.confirm "APR-0.10" agent)) :: .spawn (.engine (.confirm "APR-0.10" agent)) ::
    (noteMoves 2 2 ++ noteMoves 1 20 ++ noteMoves 2 20)

theorem proposal_state_machine_confirmedTwice :
    ((noteRun confirmedTwice).hist.state.db.proposal? "APR-0.10").map (·.status) =
      some .confirmed ∧ ConfirmsAgree noteHost isolated (noteRun confirmedTwice) :=
  ⟨by decide +kernel, (proposal_state_machine noteHost isolated ⟨.empty, 0, ()⟩
    (fun _ _ hp => by cases hp) confirmedTwice).2.2⟩

/-- A confirmation that comes too late. -/
def confirmedLate : List (noteHost.system isolated).Move :=
  .spawn (.propose noteIntent noteContext) :: noteMoves 0 3 ++
    .drift ⟨toString, 900000000, ()⟩ :: .spawn (.engine (.confirm "APR-0.10" agent)) ::
    noteMoves 1 4

/-- It neither raises nor returns a `CONFIRMED` record. -/
theorem late_confirmation_expired :
    ¬ ConfirmedOrRaised noteHost isolated (noteRun confirmedLate) "APR-0.10" := by
  rintro ⟨p, hp, hall⟩
  have hcall : (noteRun confirmedLate).hist.calls[1]? =
      some (HostCall.engine (.confirm "APR-0.10" agent)) := rfl
  have hstatus : ((noteRun confirmedLate).tasks[1]?.bind fun q => match q with
      | .ret (.proposal q) => some q.status
      | _ => none) = some .expired := by decide +kernel
  cases ht : (noteRun confirmedLate).tasks[1]? with
  | none =>
    rw [ht] at hstatus
    cases hstatus
  | some q =>
    cases q with
    | ret reply =>
      rw [hall 1 agent reply hcall ht] at ht
      rw [ht] at hstatus
      have hx : some p.status = some .expired := hstatus
      rw [hp] at hx
      cases hx
    | raise e =>
      rw [ht] at hstatus
      cases hstatus
    | call o k =>
      rw [ht] at hstatus
      cases hstatus

end

end WorkflowEngine
