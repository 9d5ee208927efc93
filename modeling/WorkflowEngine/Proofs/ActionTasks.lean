import WorkflowEngine.Proofs.ActionPlane
import WorkflowEngine.Sanity.Footprint

/-! The engine's programs in the logic of the action plane, one specification for
each. What a program learned from the database is stated about the database it
ends with, and persists from there. -/

namespace WorkflowEngine

open Interleave Engine Relational SQLiteCoreStore

variable {X : Sig} {W : World X} {K : Contract W} {engine : Engine X} {admits : Admission X W}
  {h : Log W} {τ : ℕ}

/-- Operations whose precondition asks nothing of the task. -/
def Plain (K : Contract W) : Op X → Prop
  | .tx (.insertAction ..) => False
  | .tx (.transitionAction ..) => False
  | .tx (.transitionProposal _ expected ..) => expected = .pending
  | .tx (.insertOutbox record) => record.status = .pending
  | .tx (.updateOutbox _ .delivered ..) => False
  | .tx _ => True
  | .now => True
  | .uuid => True
  | .dispatchCalled .. => False
  | .dispatchReturned .. => False
  | .reconcileCalled _ => True
  | .ext o => K.Free o

def Op.IsExt : Op X → Prop
  | .ext _ => True
  | _ => False

theorem wp_getAction {id : String} : (K.logic engine admits).wp τ (getAction id)
    (fun r h' => r = .ok (h'.state.db.action? id)) h :=
  fun _ _ _ _ => ⟨⟨trivial, trivial⟩, fun _ => rfl⟩

/-- A caller that finds the action knows afterwards that it has left `AUTHORIZED`; a caller
that wins holds the only claim and has not called yet. -/
theorem wp_claimAction {id : String} : (K.logic engine admits).wp τ (claimAction id)
    (fun r h' => ∀ row won, r = .ok (row, won) →
      ((∃ a, h.state.db.action? id = some a) → LeftAuthorized h'.state.db id) ∧
      (won = true → Claimed h' τ id ∧ ∀ c, ¬ Called h' τ id c)) h := by
  intro h1 hr1 _ hi1
  refine ⟨⟨trivial, trivial⟩, fun e1 => ?_⟩
  cases hx : ((Tx.claimAction id).exec h1.state.clock e1.ids h1.state.db).1 with
  | error exc =>
    have : (exec W e1 h1.state (.tx (.claimAction id))).1 = Except.error exc := hx
    rw [this]
    exact fun row won hr => by cases hr
  | ok won =>
    have hres : (exec W e1 h1.state (.tx (.claimAction id))).1 = Except.ok won := hx
    rw [hres]
    intro h2 hr2 hq2 hi2
    refine ⟨⟨trivial, trivial⟩, fun e2 => ?_⟩
    cases hrow : h2.state.db.action? id with
    | none =>
      have hread : (exec W e2 h2.state (.tx (.getAction id))).1 = none := hrow
      rw [hread]
      exact fun row won hr => by cases hr
    | some row =>
      have hread : (exec W e2 h2.state (.tx (.getAction id))).1 = some row := hrow
      rw [hread]
      rintro row' won' hr
      cases hr
      refine ⟨fun ⟨a, ha⟩ => ?_, fun hw => ?_⟩
      · obtain ⟨b, hb, -⟩ := hr1.1.db.actions id a ha
        have hleft : LeftAuthorized
            ((engine.system W admits).after h1 τ (.tx (.claimAction id)) e1).state.db id := by
          cases won with
          | true => exact (ActionPlane.claim_won hx).2
          | false =>
            obtain ⟨hsame, hne⟩ := unclaimed_of_ok (Prod.ext hx rfl)
            exact ⟨b, (congrArg (Db.action? · id) hsame).trans hb, hne b hb⟩
        exact hleft.mono hr2.1.db
      · subst hw
        have hclaim : Claimed ((engine.system W admits).after h1 τ (.tx (.claimAction id)) e1)
            τ id := List.mem_append_right _ (List.mem_singleton.2 (by rw [hres]))
        refine ⟨List.mem_append_left _ (hr2.1.claimed hclaim), fun c hc => ?_⟩
        -- a call of our own would have needed an earlier claim
        rcases ActionPlane.called_after hc with hc | ⟨-, ho⟩
        · rcases ActionPlane.called_after (hq2.mem_own hc rfl) with hc | ⟨-, ho⟩
          · obtain ⟨⟨a, ha, hs⟩, -⟩ := ActionPlane.claim_won hx
            obtain ⟨b, hb, hne⟩ := hi1.1.left τ id (hi1.1.called τ id c hc).1
            rw [ha] at hb
            cases hb
            exact hne hs
          · cases ho
        · cases ho

/-- Sequencing inside a program of the outside world. -/
theorem wp_ext_seq {α β : Type} {L : Logic (engine.system W admits)} (hL : L.Stepwise)
    {p : Prog X PyErr α} {f : α → Prog X PyErr β} {R : Except PyErr α → Log W → Prop}
    {Q : Except PyErr β → Log W → Prop} (hp : L.wp τ (Task.ext p) R h)
    (hf : ∀ a h', L.Rely h h' → R (.ok a) h' → L.wp τ (Task.ext (f a)) Q h')
    (he : ∀ e h', L.Rely h h' → R (.error e) h' → Q (.error e) h') :
    L.wp τ (Task.ext (p.bind f)) Q h := by
  have hbind : Task.ext (p.bind f) = (Task.ext p).bind fun a => Task.ext (f a) :=
    Prog.lift_bind ..
  rw [hbind]
  exact hL.wp_seq hp hf he

/-- A value that is computed on the way. -/
theorem wp_ext_ofExcept {α β : Type} {L : Logic (engine.system W admits)} {x : Except PyErr α}
    {f : α → Prog X PyErr β} {Q : Except PyErr β → Log W → Prop}
    (hf : ∀ a, x = .ok a → L.wp τ (Task.ext (f a)) Q h) (he : ∀ e, x = .error e → Q (.error e) h) :
    L.wp τ (Task.ext ((Prog.ofExcept x).bind f)) Q h := by
  cases x with
  | ok a => exact hf a rfl
  | error e => exact he e rfl

section
variable (hK : K.Lawful engine admits)
include hK

theorem pre_plain {o : Op X} (ho : Plain K o) : ActionPlane.Pre K τ o h := by
  unfold ActionPlane.Pre
  cases o with
  | tx o =>
    cases o with
    | updateOutbox id status => cases status <;> first | exact ho.elim | exact ⟨trivial, trivial⟩
    | transitionProposal => exact ⟨ho, trivial⟩
    | insertOutbox => exact ⟨ho, trivial⟩
    | _ => first | exact ho.elim | exact ⟨trivial, trivial⟩
  | ext o => exact ⟨trivial, hK.free τ o h ho⟩
  | _ => first | exact ho.elim | exact ⟨trivial, trivial⟩

theorem wp_plain {α : Type} {p : Task X α} (hp : p.Issues (Plain K)) :
    (K.logic engine admits).wp τ p (fun _ _ => True) h :=
  Logic.wp_frame (J := fun _ => True) hp (fun _ _ _ _ _ => trivial)
    (fun _ _ _ _ ho => ⟨pre_plain hK ho, fun _ => trivial⟩) trivial

theorem wp_op {o : Op X} (ho : Plain K o) :
    (K.logic engine admits).wp τ (Prog.perform (S := sig X) o) (fun _ _ => True) h :=
  fun _ _ _ _ => ⟨pre_plain hK ho, fun _ => trivial⟩

theorem wp_ext {α : Type} {p : Prog X PyErr α} (hp : p.Issues K.Free) :
    (K.logic engine admits).wp τ (Task.ext p) (fun _ _ => True) h :=
  wp_plain hK (Prog.issues_lift hp)

theorem wp_transitionAction {id : String} {expected status : ActionStatus}
    {outcome : Option Fields} (ha : status ∈ CaseKernel.allowed expected)
    (hj : K.Justified τ id status h) :
    (K.logic engine admits).wp τ (transitionAction id expected status outcome)
      (fun r h' => ∀ row, r = .ok row → row.actionId = id ∧ Snapshot h'.state.db row) h := by
  have hL := hK.stepwise
  refine hL.wp_seq (R := fun _ _ => True) ?_ (fun u h1 _ _ => ?_) fun e h1 _ _ row hr => by cases hr
  · intro h1 hr _ hi
    refine ⟨⟨ha, hK.justified _ _ _ _ _ hj hr.1 hr.2⟩, fun e => ?_⟩
    exact Logic.wp_ofExcept.2 trivial
  · refine hL.wp_seq wp_getAction (fun a h2 _ hg => ?_) fun e h2 _ _ row hr => by cases hr
    cases hg
    cases hrow : h2.state.db.action? id with
    | none => exact fun row hr => by cases hr
    | some row =>
      rintro row' hr
      cases hr
      exact ⟨(Table.get?_eq_some.1 hrow).2, .of_action? hrow⟩

theorem wp_recordOutcome {id : String} {status : ActionStatus} {outcome : Option Fields}
    (hj : K.Justified τ id status h) :
    (K.logic engine admits).wp τ (CaseKernel.recordOutcome id status outcome)
      (fun r h' => ∀ row, r = .ok row → row.actionId = id ∧ Snapshot h'.state.db row) h := by
  have hL := hK.stepwise
  simp only [CaseKernel.recordOutcome, Prog.bind_eq, Prog.throw_eq, Prog.bind_raise]
  split_ifs with hs
  · refine hL.wp_seq wp_getAction (fun a h1 hr hg => ?_) fun e h1 _ _ row hr => by cases hr
    cases hg
    cases h1.state.db.action? id with
    | none => exact fun row hr => by cases hr
    | some current =>
      dsimp only
      split_ifs with ha
      · exact wp_transitionAction hK ha (hK.justified _ _ _ _ _ hj hr.1 hr.2)
      · exact fun row hr => by cases hr
  · exact fun row hr => by cases hr

theorem wp_callConnector {a : ActionRecord} {pinned : Bool} {resolved : ResolvedActionConnector X}
    (hres : engine.gateway.resolveConnector a.command pinned = .ok resolved)
    (hc : Claimed h τ a.actionId) (hf : ∀ c, ¬ Called h τ a.actionId c)
    (hg : Genuine h.state.db a) :
    (K.logic engine admits).wp τ (ActionGateway.callConnector resolved.connector a)
      (fun r h' => ∀ outcome, r = .ok outcome →
        K.Justified τ a.actionId outcome.status h') h := by
  have hL := hK.stepwise
  intro h1 hr1 hq1 hi1
  have hf1 : ∀ c, ¬ Called h1 τ a.actionId c := fun c hcall => hf c (hq1.mem_own hcall rfl)
  refine ⟨⟨trivial, hr1.1.claimed hc, hf1, hg.mono hr1.1.db⟩, fun e1 => ?_⟩
  have hin : InCall ((engine.system W admits).after h1 τ (.dispatchCalled a.actionId a.command) e1)
      τ a.actionId a.command := by
    refine ⟨List.mem_append_right _ (List.mem_singleton.2 rfl), fun s hs => ?_⟩
    rcases ActionPlane.returned_after hs with hs | ⟨-, ho⟩
    · obtain ⟨c, hcall⟩ := hi1.1.returned τ _ s hs
      exact hf1 c hcall
    · cases ho
  have hjust :
      JustCalled ((engine.system W admits).after h1 τ (.dispatchCalled a.actionId a.command) e1)
      τ a.actionId a.command := by
    refine ⟨h1.own τ, System.own_after .., fun x hx => ?_⟩
    obtain ⟨hmem, ht⟩ := List.mem_filter.1 hx
    by_contra hcall
    obtain ⟨id, c, hc, hid⟩ := exists_of_isCall hmem (by simpa using hcall)
    rw [of_decide_eq_true ht, of_decide_eq_true hid] at hc
    exact hf1 c hc
  refine hL.wp_catch (R := fun r h' => ∀ outcome, r = .ok outcome →
    K.Justified τ a.actionId outcome.status h') ?_ (fun _ _ _ hR => hR) fun exc h2 _ _ => ?_
  · refine hL.wp_seq (hK.dispatch τ _ _ _ _ _ hres hin hjust) (fun outcome h2 hr2 hans => ?_)
      fun exc h2 _ _ out hr => by cases hr
    obtain ⟨hin2, hans⟩ := hans
    intro h3 hr3 hq3 hi3
    have hin3 : InCall h3 τ a.actionId a.command :=
      ⟨hr3.1.called hin2.called, fun s hs => hin2.pending s (hq3.mem_own hs rfl)⟩
    have hans3 := hK.answered _ _ _ _ _ _ (hans outcome rfl) hin3 hr3.1 hr3.2 hq3 hi3.1 hi3.2
    refine ⟨⟨trivial, ⟨a.command, hin3⟩, hans3⟩, fun e3 out hr => ?_⟩
    cases hr
    exact hK.answer τ _ _ h3 e3 hans3
  · rintro outcome hr
    cases hr
    exact hK.unknown _ _ _

theorem issues_checkSnapshot (command : ActionCommand) :
    (engine.gateway.checkSnapshot command : Task X Unit).Issues (Plain K) := by
  unfold ActionGateway.checkSnapshot
  cases hp : engine.gateway.policy with
  | none => exact Prog.issues_ret _
  | some policy =>
    refine Prog.issues_bind (Prog.issues_lift ?_) fun package => Prog.issues_ofExcept _
    split
    · exact hK.requireActive policy hp _
    · exact hK.snapshot policy hp _ _

/-- `dispatch` returns only when the action has left `AUTHORIZED`. -/
theorem wp_dispatch {a : ActionRecord} (hg : Genuine h.state.db a) :
    (K.logic engine admits).wp τ (engine.gateway.dispatch a)
      (fun r h' => ∀ b, r = .ok b → a.status = .authorized →
        LeftAuthorized h'.state.db a.actionId) h := by
  have hL := hK.stepwise
  simp only [ActionGateway.dispatch, Prog.bind_eq, Prog.pure_eq]
  split_ifs with hs
  · exact fun b _ ha => absurd ha hs
  · refine hL.wp_seq (wp_plain hK (issues_checkSnapshot hK _)) (fun _ h1 hr1 _ => ?_)
      fun _ _ _ _ b hr => by cases hr
    cases hres : engine.gateway.resolveConnector a.command true with
    | error exc => exact fun b hr => by cases hr
    | ok resolved =>
      have hg1 := hg.mono hr1.1.db
      rw [Prog.ofExcept_ok, Prog.bind_ret]
      refine hL.wp_seq wp_claimAction (fun claim h2 hr2 hpost => ?_)
        fun _ _ _ _ b hr => by cases hr
      obtain ⟨row, won⟩ := claim
      obtain ⟨hleft2, hwon⟩ := hpost row won rfl
      have hl : LeftAuthorized h2.state.db a.actionId :=
        hleft2 (hg1.imp fun _ hb => hb.1)
      cases won with
      | false => exact fun b _ _ => hl
      | true =>
        obtain ⟨hc, hf⟩ := hwon rfl
        refine hL.wp_seq (wp_callConnector hK hres hc hf (hg1.mono hr2.1.db))
          (fun outcome h3 hr3 hj => ?_) fun _ _ _ _ b hr => by cases hr
        refine Logic.wp_mono (fun r h' hQ b _ _ => ?_)
          (hL.wp_rely_post (wp_recordOutcome hK (hj outcome rfl)))
        exact (hl.mono hr3.1.db).mono hQ.2.1.db

theorem wp_query {a : ActionRecord} (hg : Genuine h.state.db a) :
    (K.logic engine admits).wp τ (engine.gateway.query a) (fun _ _ => True) h := by
  have hL := hK.stepwise
  simp only [ActionGateway.query, Prog.bind_eq]
  cases hres : engine.gateway.resolveConnector a.command true with
  | error exc => trivial
  | ok resolved =>
    rw [Prog.ofExcept_ok, Prog.bind_ret]
    refine hL.wp_seq (hK.reconcile τ _ _ _ _ _ _ hres hg) (fun outcome h1 _ hj => ?_)
      fun _ _ _ _ => trivial
    have hj := hj outcome rfl
    split_ifs at hj ⊢ with hs
    · exact Logic.wp_mono (fun _ _ _ => trivial) (wp_recordOutcome hK hj)
    · exact Logic.wp_mono (fun _ _ _ => trivial) (wp_recordOutcome hK hj)

theorem wp_reconcile {a : ActionRecord} (hg : Genuine h.state.db a) :
    (K.logic engine admits).wp τ (engine.gateway.reconcile a) (fun _ _ => True) h := by
  have hL := hK.stepwise
  simp only [ActionGateway.reconcile, Prog.bind_eq, Prog.pure_eq]
  refine hL.wp_seq (wp_op hK trivial) (fun _ h0 hr0 _ => ?_) fun _ _ _ _ => trivial
  have hg := hg.mono hr0.1.db
  have hmark : (K.logic engine admits).wp τ (ActionGateway.markStale a)
      (fun r h' => ∀ row, r = .ok row → Genuine h'.state.db row) h0 := by
    unfold ActionGateway.markStale
    split_ifs with hs
    · refine Logic.wp_mono ?_ (wp_recordOutcome hK (hK.unknown τ a.actionId h0))
      exact fun r h' hQ row hr => (hQ row hr).2.genuine
    · rintro row hr
      cases hr
      exact hg
  refine hL.wp_seq hmark (fun row h1 _ hrow => ?_) fun _ _ _ _ => trivial
  split_ifs with hs
  · trivial
  · exact wp_query hK (hrow row rfl)

end

/-- The record is a row of the outbox, as far as its message goes. -/
def Posted (db : Db) (record : OutboxRecord) : Prop :=
  ∃ r, db.outbox? record.outboxId = some r ∧ r.message = record.message

theorem Posted.mono {db db' : Db} (hg : db.Grows db') {record : OutboxRecord}
    (hp : Posted db record) : Posted db' record := by
  obtain ⟨r, hr, hm⟩ := hp
  obtain ⟨r', hr', hm'⟩ := hg.outbox _ r hr
  exact ⟨r', hr', hm'.trans hm⟩

theorem issues_failOutbox (id error : String) (retryAt : Option Time) (quarantine : Bool) :
    (failOutbox id error retryAt quarantine : Task X OutboxRecord).Issues (Plain K) := by
  unfold failOutbox updateOutbox
  refine Prog.issues_bind ((Prog.issues_perform _).2 trivial) fun now => ?_
  refine Prog.issues_bind ((Prog.issues_perform _).2 ?_) fun _ => ?_
  · cases quarantine <;> trivial
  · refine Prog.issues_bind ((Prog.issues_perform _).2 trivial) fun rows => ?_
    split <;> trivial

theorem issues_retryLater (worker : ActionDeliveryWorker X) (record : OutboxRecord) (exc : PyErr) :
    (worker.retryLater record exc).Issues (Plain K) := by
  simp only [ActionDeliveryWorker.retryLater, Prog.bind_eq]
  split_ifs
  · exact Prog.issues_bind (issues_failOutbox ..) fun _ => trivial
  · refine Prog.issues_bind ((Prog.issues_perform _).2 trivial) fun now => ?_
    exact Prog.issues_bind (issues_failOutbox ..) fun _ => trivial

theorem wp_namedAction {worker : ActionDeliveryWorker X} {record : OutboxRecord} :
    (K.logic engine admits).wp τ (worker.namedAction record)
      (fun r h' => ∀ a, r = .ok (some a) → Snapshot h'.state.db a ∧
        ∀ id, record.names id → a.actionId = id) h := by
  have hget : ∀ key, (∀ id, record.names id → key = id) →
      (K.logic engine admits).wp τ (getAction key) (fun r h' => ∀ a, r = .ok (some a) →
        Snapshot h'.state.db a ∧ ∀ id, record.names id → a.actionId = id) h := by
    intro key hkey
    refine Logic.wp_mono (fun r h' hr a ha => ?_) wp_getAction
    have hrow : h'.state.db.action? key = some a := Except.ok.inj (hr.symm.trans ha)
    refine ⟨.of_action? hrow, fun id hid => ?_⟩
    rw [← hkey id hid]
    exact (Table.get?_eq_some.1 hrow).2
  unfold ActionDeliveryWorker.namedAction
  cases hp : record.payload.get? "action_id" with
  | none => exact fun a ha => by cases ha
  | some v =>
    have hn : ∀ id, record.names id → v = .str id := by
      intro id hid
      unfold OutboxRecord.names at hid
      rw [hp] at hid
      exact Option.some.inj hid
    cases hv : sqlText worker.binding v with
    | error err =>
      simp only [hv, Prog.ofExcept_error, Prog.bind_eq, Prog.bind_raise]
      exact fun a ha => by cases ha
    | ok found =>
      simp only [hv, Prog.ofExcept_ok, Prog.bind_eq, Prog.bind_ret]
      cases found with
      | none => exact fun a ha => by cases ha
      | some key =>
        refine hget key fun id hid => ?_
        rw [hn id hid, sqlText] at hv
        split_ifs at hv
        cases hv
        rfl

section
variable (hK : K.Lawful engine admits)
include hK

theorem wp_completeOutbox {record : OutboxRecord} (hp : Posted h.state.db record)
    (hl : ∀ id, record.names id → LeftAuthorized h.state.db id) :
    (K.logic engine admits).wp τ (completeOutbox record.outboxId) (fun _ _ => True) h := by
  have hL := hK.stepwise
  refine hL.wp_seq (wp_op hK trivial) (fun now h1 hr1 _ => ?_) fun _ _ _ _ => trivial
  intro h2 hr2 _ _
  have hlater := hr1.1.trans hr2.1
  refine ⟨⟨trivial, fun r id hr hn => ?_⟩, fun e => ?_⟩
  · obtain ⟨r', hr', hm⟩ := hp.mono hlater.db
    rw [hr] at hr'
    cases hr'
    exact (hl id (OutboxRecord.names_congr hm hn)).mono hlater.db
  · refine wp_plain hK (Prog.issues_bind trivial fun _ => ?_)
    refine Prog.issues_bind ((Prog.issues_perform _).2 trivial) fun rows => ?_
    split <;> trivial

theorem wp_deliver {worker : ActionDeliveryWorker X} (hw : worker.gateway = engine.gateway)
    {record : OutboxRecord} (hp : Posted h.state.db record) :
    (K.logic engine admits).wp τ (worker.deliver record) (fun _ _ => True) h := by
  have hL := hK.stepwise
  simp only [ActionDeliveryWorker.deliver, Prog.bind_eq, Prog.pure_eq, hw]
  split_ifs with ht
  · exact wp_plain hK (Prog.issues_bind (issues_failOutbox ..) fun _ => trivial)
  · refine hL.wp_seq wp_namedAction (fun found h1 hr1 hfound => ?_) fun _ _ _ _ => trivial
    cases found with
    | none => exact wp_plain hK (Prog.issues_bind (issues_failOutbox ..) fun _ => trivial)
    | some a =>
      obtain ⟨hsnap, hname⟩ := hfound a rfl
      refine hL.wp_catch (R := fun _ _ => True) ?_ (fun _ _ _ _ => trivial) fun exc h2 _ _ => ?_
      · refine hL.wp_seq (wp_dispatch hK hsnap.genuine) (fun b h2 hr2 hleft => ?_)
          fun _ _ _ _ => trivial
        have hl : LeftAuthorized h2.state.db a.actionId := by
          by_cases hs : a.status = .authorized
          · exact hleft b rfl hs
          · exact (hsnap.left hs).mono hr2.1.db
        refine hL.wp_seq (wp_completeOutbox hK ((hp.mono hr1.1.db).mono hr2.1.db) fun id hid => ?_)
          (fun _ _ _ _ => trivial) fun _ _ _ _ => trivial
        exact hname id hid ▸ hl
      · exact wp_plain hK (Prog.issues_bind (issues_retryLater ..) fun _ => trivial)

theorem wp_deliverAll {worker : ActionDeliveryWorker X} (hw : worker.gateway = engine.gateway)
    {records : List OutboxRecord} (hp : ∀ record ∈ records, Posted h.state.db record)
    (run : WorkerRun) :
    (K.logic engine admits).wp τ (worker.deliverAll records run) (fun _ _ => True) h := by
  have hL := hK.stepwise
  induction records generalizing h run with
  | nil => trivial
  | cons record records ih =>
    simp only [ActionDeliveryWorker.deliverAll, Prog.bind_eq]
    refine hL.wp_seq (wp_deliver hK hw (hp record (List.mem_cons_self ..)))
      (fun done h1 hr1 _ => ?_) fun _ _ _ _ => trivial
    have hrest : ∀ r ∈ records, Posted h1.state.db r := fun r hr =>
      (hp r (List.mem_cons_of_mem _ hr)).mono hr1.1.db
    cases done with
    | true => exact ih hrest _
    | false => exact ih hrest _

theorem wp_claimOutbox {owner : String} {leaseSeconds limit : ℤ} :
    (K.logic engine admits).wp τ (claimOutbox owner leaseSeconds limit)
      (fun r h' => ∀ records, r = .ok records → ∀ record ∈ records, Posted h'.state.db record)
      h := by
  have hL := hK.stepwise
  refine hL.wp_seq (wp_op hK trivial) (fun now h1 _ _ => ?_) fun _ _ _ _ _ hr => by cases hr
  refine hL.wp_seq (wp_op hK trivial) (fun now' h2 _ _ => ?_) fun _ _ _ _ _ hr => by cases hr
  refine Logic.wp_bind_ofExcept (fun _ _ _ hr => by cases hr) fun leaseUntil _ => ?_
  refine Logic.wp_bind_ofExcept (fun _ _ _ hr => by cases hr) fun bound _ => ?_
  refine hL.wp_seq (wp_op hK trivial) (fun (ids : List String) h3 _ _ => ?_)
    fun _ _ _ _ _ hr => by cases hr
  split_ifs
  · rintro records hr record hm
    cases hr
    cases hm
  · rintro records hr
    cases hr
  · intro h4 _ _ _
    refine ⟨⟨trivial, trivial⟩, fun e4 records hr record hm => ?_⟩
    cases hr
    exact ⟨record, (Table.mem_rows ()).1 (Db.mem_selectIn.1 hm).1, rfl⟩

theorem wp_deliveryRun {worker : ActionDeliveryWorker X} (hw : worker.gateway = engine.gateway)
    (limit : ℤ) :
    (K.logic engine admits).wp τ (worker.runOnce limit) (fun _ _ => True) h := by
  refine hK.stepwise.wp_seq (wp_claimOutbox hK) (fun records h1 _ hposted => ?_)
    fun _ _ _ _ => trivial
  exact wp_deliverAll hK hw (hposted records rfl) _

omit hK in
theorem wp_listActions {status : Option ActionStatus} {limit : ℤ} :
    (K.logic engine admits).wp τ (listActions status limit)
      (fun r h' => ∀ actions, r = .ok actions → ∀ a ∈ actions, Snapshot h'.state.db a) h := by
  refine Logic.wp_bind_ofExcept (fun _ _ _ hr => by cases hr) fun bound _ => ?_
  intro h1 _ _ _
  refine ⟨⟨trivial, trivial⟩, fun e actions hr a ha => ?_⟩
  cases hr
  have hrow := Db.mem_of_oldest ha
  exact .of_mem (List.mem_of_mem_filter hrow)

theorem wp_reconcileAll {worker : ReconciliationWorker X} (hw : worker.gateway = engine.gateway)
    {actions : List ActionRecord} (ha : ∀ a ∈ actions, Snapshot h.state.db a) (run : WorkerRun) :
    (K.logic engine admits).wp τ (worker.reconcileAll actions run) (fun _ _ => True) h := by
  have hL := hK.stepwise
  induction actions generalizing h run with
  | nil => trivial
  | cons a actions ih =>
    simp only [ReconciliationWorker.reconcileAll, Prog.bind_eq, hw]
    refine hL.wp_seq (R := fun _ _ => True) ?_ (fun settled h1 hr1 _ => ?_) fun _ _ _ _ => trivial
    · refine hL.wp_catch (R := fun _ _ => True) ?_ (fun _ _ _ _ => trivial) fun _ _ _ _ => trivial
      exact hL.wp_seq (wp_reconcile hK (ha a (List.mem_cons_self ..)).genuine)
        (fun _ _ _ _ => trivial) fun _ _ _ _ => trivial
    · have hrest : ∀ b ∈ actions, Snapshot h1.state.db b := fun b hb =>
        (ha b (List.mem_cons_of_mem _ hb)).mono hr1.1.db
      cases settled with
      | true => exact ih hrest _
      | false => exact ih hrest _

theorem wp_reconciliationRun {worker : ReconciliationWorker X}
    (hw : worker.gateway = engine.gateway) (limit : ℤ) :
    (K.logic engine admits).wp τ (worker.runOnce limit) (fun _ _ => True) h := by
  have hL := hK.stepwise
  refine hL.wp_seq wp_listActions (fun unknown h1 hr1 hu => ?_) fun _ _ _ _ => trivial
  refine hL.wp_seq wp_listActions (fun dispatched h2 hr2 hd => ?_) fun _ _ _ _ => trivial
  refine hL.wp_seq (wp_op hK trivial) (fun now h3 hr3 _ => ?_) fun _ _ _ _ => trivial
  refine Logic.wp_bind_ofExcept (fun _ _ => trivial) fun staleBefore _ => ?_
  refine wp_reconcileAll hK hw (fun a ha => ?_) _
  rcases List.mem_append.1 (ReconciliationWorker.upTo_subset _ _ ha) with ha | ha
  · exact (hu unknown rfl a (List.mem_of_mem_filter ha)).mono (hr2.1.trans hr3.1).db
  · exact (hd dispatched rfl a (List.mem_of_mem_filter ha)).mono hr3.1.db

omit hK in
theorem wp_getActionByKey {key : String} : (K.logic engine admits).wp τ (getActionByKey key)
    (fun r h' => r = .ok (h'.state.db.actionByKey? key)) h :=
  fun _ _ _ _ => ⟨⟨trivial, trivial⟩, fun _ => rfl⟩

omit hK in
theorem wp_insertAction {record : ActionRecord} {v : ℤ} (hs : record.status = .authorized)
    (ho : record.outcome = none) :
    (K.logic engine admits).wp τ (insertAction record v)
      (fun r h' => ∀ a, r = .ok a → Snapshot h'.state.db a) h := by
  intro h1 _ _ _
  refine ⟨⟨hs, trivial⟩, fun e => ?_⟩
  cases hx : ((Tx.insertAction record v).exec h1.state.clock e.ids h1.state.db).1 with
  | error exc =>
    have hres : (exec W e h1.state (.tx (.insertAction record v))).1 = Except.error exc := hx
    rw [hres]
    exact fun a ha => by cases ha
  | ok u =>
    have hres : (exec W e h1.state (.tx (.insertAction record v))).1 = Except.ok u := hx
    rw [hres]
    rintro a ha
    cases ha
    have hins := (inserted_of_ok (Prod.ext hx rfl)).action
    have hrow := (Table.get?_insert? hins .id record.actionId).trans (if_pos rfl)
    have he : { record with outcome := none } = record := by rw [← ho]
    rw [he] at hrow
    exact .of_action? hrow

theorem wp_authorizeAction {command : ActionCommand} {v : ℤ} :
    (K.logic engine admits).wp τ (CaseKernel.authorizeAction command v)
      (fun r h' => ∀ a, r = .ok a → Snapshot h'.state.db a) h := by
  have hL := hK.stepwise
  refine hL.wp_seq wp_getActionByKey (fun found h1 _ hf => ?_) fun _ _ _ _ a ha => by cases ha
  cases hf
  cases hrow : h1.state.db.actionByKey? command.idempotencyKey with
  | some duplicate =>
    simp only [Prog.bind_eq, Prog.throw_eq, Prog.bind_raise, Prog.pure_eq]
    split_ifs
    · exact fun a ha => by cases ha
    · rintro a ha
      cases ha
      exact .of_mem (Table.get?_eq_some.1 hrow).1
  | none =>
    refine hL.wp_seq (wp_plain hK (Prog.issues_ofExcept _)) (fun _ h2 _ _ => ?_)
      fun _ _ _ _ a ha => by cases ha
    refine hL.wp_seq (wp_plain hK (issues_verifyFacts (fun _ _ => trivial) _)) (fun _ h3 _ _ => ?_)
      fun _ _ _ _ a ha => by cases ha
    refine hL.wp_seq (wp_op hK trivial) (fun now h4 _ _ => ?_) fun _ _ _ _ a ha => by cases ha
    refine hL.wp_seq (wp_op hK trivial) (fun hex h5 _ _ => ?_) fun _ _ _ _ a ha => by cases ha
    exact wp_insertAction rfl rfl

theorem wp_authorize {command : ActionCommand} {v : ℤ} :
    (K.logic engine admits).wp τ (engine.gateway.authorize command v)
      (fun r h' => ∀ a, r = .ok a → Snapshot h'.state.db a) h := by
  have hL := hK.stepwise
  refine hL.wp_seq (wp_plain hK (Prog.issues_ofExcept _)) (fun resolved h1 _ _ => ?_)
    fun _ _ _ _ a ha => by cases ha
  cases hp : engine.gateway.policy with
  | none => exact wp_authorizeAction hK
  | some policy =>
    refine hL.wp_seq (wp_ext hK (hK.requireActive policy hp _)) (fun package h2 _ _ => ?_)
      fun _ _ _ _ a ha => by cases ha
    refine hL.wp_seq (wp_op hK trivial) (fun (found : Option CaseRecord) h3 _ _ => ?_)
      fun _ _ _ _ a ha => by cases ha
    cases found with
    | none => exact fun a ha => by cases ha
    | some case =>
      simp only [Prog.bind_eq, Prog.throw_eq, Prog.bind_raise]
      split_ifs
      · exact fun a ha => by cases ha
      · refine hL.wp_seq (wp_plain hK (Prog.issues_ofExcept _)) (fun _ h4 _ _ => ?_)
          fun _ _ _ _ a ha => by cases ha
        exact wp_authorizeAction hK

theorem wp_authorizeNew {request : ConsequentialActionRequest} {actorId : String} :
    (K.logic engine admits).wp τ (engine.service.authorizeNew request actorId)
      (fun r h' => ∀ a, r = .ok a → Snapshot h'.state.db a) h := by
  have hL := hK.stepwise
  unfold ConsequentialActionService.authorizeNew
  cases specification? request.payload.action with
  | none => exact fun a ha => by cases ha
  | some specification =>
    refine hL.wp_seq (wp_plain hK (ConsequentialActionService.issues_loadResource_of _ _
      hK.resources _)) (fun _ h1 _ _ => ?_)
      fun _ _ _ _ a ha => by cases ha
    refine hL.wp_seq (wp_plain hK
      (ConsequentialActionService.issues_openCase _ (fun _ => trivial) fun _ => trivial))
      (fun _ h2 _ _ => ?_)
      fun _ _ _ _ a ha => by cases ha
    refine hL.wp_seq (wp_plain hK
      (ConsequentialActionService.issues_commitFacts (fun _ => trivial) (fun _ _ _ => trivial) ..))
      (fun _ h3 _ _ => ?_)
      fun _ _ _ _ a ha => by cases ha
    exact wp_authorize hK

theorem wp_replay {request : ConsequentialActionRequest} {duplicate : ActionRecord}
    (hs : Snapshot h.state.db duplicate) :
    (K.logic engine admits).wp τ (engine.service.replay request duplicate)
      (fun _ _ => True) h := by
  have hL := hK.stepwise
  simp only [ConsequentialActionService.replay, Prog.bind_eq, Prog.throw_eq, Prog.bind_raise]
  split_ifs
  · trivial
  · refine hL.wp_seq (wp_op hK trivial) (fun (found : Option CaseRecord) h1 hr1 _ => ?_)
      fun _ _ _ _ => trivial
    cases found with
    | none => trivial
    | some case =>
      dsimp only
      split_ifs
      · trivial
      · exact Logic.wp_mono (fun _ _ _ => trivial) (wp_dispatch hK (hs.mono hr1.1.db).genuine)

theorem wp_submit {request : ConsequentialActionRequest} {actorId : String} :
    (K.logic engine admits).wp τ (engine.service.submit request actorId) (fun _ _ => True) h := by
  have hL := hK.stepwise
  refine hL.wp_seq wp_getActionByKey (fun found h1 _ hf => ?_) fun _ _ _ _ => trivial
  cases hf
  cases hrow : h1.state.db.actionByKey? request.idempotencyKey with
  | some duplicate => exact wp_replay hK (.of_mem (Table.get?_eq_some.1 hrow).1)
  | none =>
    refine hL.wp_seq (wp_authorizeNew hK) (fun a h2 _ ha => ?_) fun _ _ _ _ => trivial
    exact Logic.wp_mono (fun _ _ _ => trivial) (wp_dispatch hK (ha a rfl).genuine)

end
end WorkflowEngine
