import WorkflowEngine.Proofs.Dispatch
import WorkflowEngine.Sanity.Preparation
import WorkflowEngine.Spec.Refunds

/-! At most one refund for an order. The index refuses a second row whatever the connector has
read, rows are never deleted once it exists, and a row is written only by a call that has read
the order before. -/

namespace WorkflowEngine

open Interleave Engine Relational DatabaseRefundConnector

namespace RefundRecord

theorem earliest_eq_self {rows : List RefundRecord}
    (h : rows.Pairwise fun r r' => r.orderId ≠ r'.orderId) : earliest rows = rows := by
  induction rows with
  | nil => rfl
  | cons r rows ih =>
    obtain ⟨hr, hrows⟩ := List.pairwise_cons.1 h
    rw [earliest, ih hrows]
    exact congrArg _ (List.filter_eq_self.2 fun r' hr' => decide_eq_true (hr r' hr').symm)

/-- Every order keeps a row. -/
theorem exists_earliest {rows : List RefundRecord} {r : RefundRecord} (h : r ∈ rows) :
    ∃ r' ∈ earliest rows, r'.orderId = r.orderId := by
  induction rows with
  | nil => cases h
  | cons r0 rows ih =>
    by_cases hr0 : r.orderId = r0.orderId
    · exact ⟨r0, List.mem_cons_self, hr0.symm⟩
    · rcases List.mem_cons.1 h with rfl | h
      · exact absurd rfl hr0
      · obtain ⟨r', hr', he⟩ := ih h
        refine ⟨r', List.mem_cons_of_mem _ (List.mem_filter.2 ⟨hr', ?_⟩), he⟩
        exact decide_eq_true (he ▸ hr0)

end RefundRecord

namespace Refunds

theorem rows_of_insert? {t t' : Refunds} {row : RefundRecord} (h : t.insert? row = some t') :
    t'.indexed = t.indexed ∧ t'.rows = t.rows ++ [row] := by
  unfold insert? at h
  split_ifs at h
  obtain rfl := Option.some.inj h
  exact ⟨rfl, rfl⟩

/-- The migration has nothing left to delete. -/
theorem rows_initDb {t : Refunds} (hi : t.indexed = true) : t.initDb.rows = t.rows :=
  RefundRecord.earliest_eq_self (t.unique hi)

theorem mem_getByOrder {t : Refunds} {key : Option String} {row : RefundRecord}
    (h : t.getByOrder key = some row) : row ∈ t.rows ∧ key = some row.orderId :=
  ⟨List.mem_of_find?_eq_some h, by simpa using List.find?_some h⟩

end Refunds

theorem AppDb.key_of_order? {db : AppDb} {key : Option String} {order : Order}
    (h : db.order? key = some order) : key = some order.orderId := by
  obtain ⟨h, -⟩ := Option.filter_eq_some_iff.1 h
  obtain ⟨id, rfl, hfound⟩ := Option.bind_eq_some_iff.1 h
  exact congrArg some (Table.get?_eq_some.1 hfound).2.symm

theorem DatabaseRefundConnector.get?_of_parameter {c : ActionCommand} {name : String} {v : Json}
    (h : parameter c name = .ok v) : c.parameters.get? name = some v := by
  unfold parameter at h
  cases hv : c.parameters.get? name with
  | none =>
    simp only [hv] at h
    cases h
  | some w =>
    simp only [hv] at h
    exact congrArg some (Except.ok.inj h)

variable {Y : Sig} {V : World Y}

/-- The log of an engine over the application database. -/
abbrev RefundLog (V : World Y) := Log V.refunding

def refundsOf (h : RefundLog V) : Refunds := h.state.ext.1.refunds

/-- The order of the command has a row. -/
def Refunded (database : DatabaseRefundConnector) (t : Refunds) (c : ActionCommand) : Prop :=
  ∃ row ∈ t.rows, database.orderKey c = .ok (some row.orderId)

/-- The command is entitled to the row, by the order as it was read: it is the order of the
command, owned by its customer, eligible, and its total is the amount of the command. -/
structure Entitles (database : DatabaseRefundConnector) (c : ActionCommand) (order : Order)
    (row : RefundRecord) : Prop where
  named : database.orderKey c = .ok (some order.orderId)
  line : row.orderId = order.orderId
  amount : row.amount = order.total
  owned : c.parameters.get? "customer_id" = some (.str order.customerId)
  eligible : ∃ orderId, c.parameters.get? "order_id" = some orderId ∧
    (({} : RefundDecisionService).evaluate orderId.pyStr (.str order.customerId)
      (.str order.customerId) order.status (order.daysSinceDelivery.getD 0)
      order.total).eligible = true
  asked : ∃ amount, (parameter c "refund_amount").bind Json.toFloat = .ok amount ∧
    Json.numEq amount order.total = true

/-- The operations of a call up to its insertion. -/
def consulted (τ : ℕ) (id : String) (c : ActionCommand) (order : Order) (now : String) :
    List (Entry (sig (refundSig.sum Y))) :=
  [⟨τ, .dispatchCalled id c, ()⟩, ⟨τ, .ext (.inl (.order (some order.orderId))), some order⟩,
    ⟨τ, .ext (.inl (.refundByOrder (some order.orderId))), none⟩, ⟨τ, .ext (.inl .now), now⟩]

/-- `τ` has read what entitles its call to the row. -/
def RefundPoised (database : DatabaseRefundConnector) (h : RefundLog V) (τ : ℕ)
    (row : RefundRecord) : Prop :=
  ∃ id c order now before, h.own τ = before ++ consulted τ id c order now ∧
    Entitles database c order row

/-- The row was inserted by a call that had read what entitles it to the row. -/
def Issued (database : DatabaseRefundConnector) (h : RefundLog V) (row : RefundRecord) : Prop :=
  ∃ τ id c order now before after, h.own τ = before ++ consulted τ id c order now ++
    ⟨τ, .ext (.inl (.createRefund row)), .ok ()⟩ :: after ∧ Entitles database c order row

structure RefundInv (database : DatabaseRefundConnector) (start : List RefundRecord)
    (h : RefundLog V) : Prop where
  indexed : (refundsOf h).indexed = true
  issued : ∀ row ∈ (refundsOf h).rows, row ∈ start ∨ Issued database h row
  succeeded : ∀ id a, h.state.db.action? id = some a →
    a.status = .succeeded ∨ a.status = .reconciled → Refunded database (refundsOf h) a.command

def StoredRefund (database : DatabaseRefundConnector) (h : RefundLog V) (id : String) : Prop :=
  ∃ a, h.state.db.action? id = some a ∧ Refunded database (refundsOf h) a.command

/-- The contract of the connector. -/
def refundContract (database : DatabaseRefundConnector) (start : List RefundRecord)
    (V : World Y) (old : String → Prop) : Contract V.refunding where
  Old := old
  Inv := RefundInv database start
  Rely h h' := (refundsOf h).rows ⊆ (refundsOf h').rows
  ExtPre τ o h := match o with
    | .inl (.createRefund row) => RefundPoised database h τ row
    | _ => True
  Free o := ∀ row, o ≠ .inl (.createRefund row)
  Answer _ id status h := match status with
    | .succeeded => StoredRefund database h id
    | .failed => True
    | .unknown => True
    | _ => False
  Justified _ id status h := match status with
    | .succeeded => StoredRefund database h id
    | .reconciled => StoredRefund database h id
    | _ => True

section
variable {database : DatabaseRefundConnector} {start : List RefundRecord} {h h' : RefundLog V}

theorem Refunded.mono {t t' : Refunds} {c : ActionCommand} (hr : Refunded database t c)
    (hg : t.rows ⊆ t'.rows) : Refunded database t' c := by
  obtain ⟨row, hrow, hc⟩ := hr
  exact ⟨row, hg hrow, hc⟩

theorem StoredRefund.later {id : String} (hs : StoredRefund database h id) (hl : Later h h')
    (hg : (refundsOf h).rows ⊆ (refundsOf h').rows) : StoredRefund database h' id := by
  obtain ⟨a, ha, hr⟩ := hs
  obtain ⟨b, hb, hab⟩ := hl.db.actions id a ha
  exact ⟨b, hb, hab.command ▸ hr.mono hg⟩

theorem Issued.later {row : RefundRecord} (hi : Issued database h row)
    (ht : h.trace <+: h'.trace) : Issued database h' row := by
  obtain ⟨τ, id, c, order, now, before, after, hown, he⟩ := hi
  obtain ⟨new, hnew⟩ := ht.filter fun x => decide (x.tid = τ)
  refine ⟨τ, id, c, order, now, before, after ++ new, hnew.symm.trans ?_, he⟩
  change h.own τ ++ new = _
  rw [hown]
  simp only [List.append_assoc, List.cons_append]

/-- A move that leaves the database and the trace alone, and deletes no refund. -/
theorem RefundInv.aside (hs : RefundInv database start h) (hdb : h'.state.db = h.state.db)
    (ht : h'.trace = h.trace) (hi : (refundsOf h').indexed = true)
    (hr : (refundsOf h').rows = (refundsOf h).rows) : RefundInv database start h' := by
  refine ⟨hi, fun row hrow => ?_, fun id a ha hst => ?_⟩
  · refine (hs.issued row (hr ▸ hrow)).imp_right fun hissued => hissued.later ?_
    rw [ht]
  · obtain ⟨row, hrow, hc⟩ := hs.succeeded id a (hdb ▸ ha) hst
    exact ⟨row, hr.symm ▸ hrow, hc⟩

end

section
variable {engine : Engine (refundSig.sum Y)} {admits : Admission _ V.refunding}
  {database : DatabaseRefundConnector} {start : List RefundRecord} {old : String → Prop}
  {h : RefundLog V} {τ : ℕ} {o : Op (refundSig.sum Y)} {e : EngineChoice V.refunding}

/-- What an operation of the engine does to the refunds. -/
theorem refunds_after (engine : Engine (refundSig.sum Y)) (admits : Admission _ V.refunding)
    (h : RefundLog V) (τ : ℕ) (o : Op (refundSig.sum Y)) (e : EngineChoice V.refunding) :
    refundsOf ((engine.system V.refunding admits).after h τ o e) = refundsOf h ∨
    ∃ row, o = .ext (.inl (.createRefund row)) ∧
      (refundsOf h).insert? row =
        some (refundsOf ((engine.system V.refunding admits).after h τ o e)) ∧
      ((engine.system V.refunding admits).after h τ o e).own τ =
        h.own τ ++ [⟨τ, .ext (.inl (.createRefund row)), .ok ()⟩] := by
  have hown := (engine.system V.refunding admits).own_after h τ o e
  cases o with
  | ext o =>
    cases o with
    | inl o =>
      cases o with
      | createRefund row =>
        cases hins : (refundsOf h).insert? row with
        | none =>
          left
          have hins' : h.state.ext.1.refunds.insert? row = none := hins
          simp only [refundsOf, System.after, Engine.exec, World.refunding, hins']
        | some t =>
          right
          have hins' : h.state.ext.1.refunds.insert? row = some t := hins
          refine ⟨row, rfl, ?_, ?_⟩
          · simp only [refundsOf, System.after, Engine.exec, World.refunding, hins']
          · simp only [Engine.exec, World.refunding, hins'] at hown
            exact hown
      | _ => exact Or.inl rfl
    | inr o => exact Or.inl rfl
  | _ => exact Or.inl rfl

/-- The index stays, and so do the rows. -/
theorem refunds_kept :
    (refundsOf ((engine.system V.refunding admits).after h τ o e)).indexed = (refundsOf h).indexed ∧
    (refundsOf h).rows ⊆ (refundsOf ((engine.system V.refunding admits).after h τ o e)).rows := by
  rcases refunds_after engine admits h τ o e with he | ⟨row, -, hins, -⟩
  · rw [he]
    exact ⟨rfl, List.Subset.refl _⟩
  · obtain ⟨hi, hrows⟩ := Refunds.rows_of_insert? hins
    exact ⟨hi, hrows ▸ List.subset_append_left _ _⟩

theorem refundInv_after (hs : RefundInv database start h)
    (hp : ActionPlane.Pre (refundContract database start V old) τ o h) :
    RefundInv database start ((engine.system V.refunding admits).after h τ o e) := by
  have hl : Later h ((engine.system V.refunding admits).after h τ o e) := later_after hp.1 e
  obtain ⟨hindexed, hrows⟩ := @refunds_kept _ _ engine admits h τ o e
  refine ⟨hindexed.trans hs.indexed, fun row hrow => ?_, fun id a ha hst => ?_⟩
  · have hold : row ∈ (refundsOf h).rows → row ∈ start ∨
        Issued database ((engine.system V.refunding admits).after h τ o e) row :=
      fun hr => (hs.issued row hr).imp_right fun hi => hi.later hl.trace
    rcases refunds_after engine admits h τ o e with he | ⟨new, rfl, hins, hown⟩
    · exact hold (he ▸ hrow)
    · rw [(Refunds.rows_of_insert? hins).2] at hrow
      rcases List.mem_append.1 hrow with hr | hr
      · exact hold hr
      · obtain rfl := List.mem_singleton.1 hr
        obtain ⟨id, c, order, now, before, hread, hent⟩ := hp.2
        refine Or.inr ⟨τ, id, c, order, now, before, [], hown.trans ?_, hent⟩
        rw [hread]
  · have hstored : StoredRefund database h id := by
      rcases ActionPlane.status_after hp ha with hn | hn | ⟨b, hb, -, hsame | hj⟩
      · rw [hn] at hst
        rcases hst with hst | hst <;> cases hst
      · rw [hn] at hst
        rcases hst with hst | hst <;> cases hst
      · exact ⟨b, hb, hs.succeeded id b hb (hsame ▸ hst)⟩
      · rcases hst with hst | hst <;> rw [hst] at hj <;> exact hj
    obtain ⟨b, hb, hr⟩ := hstored.later hl hrows
    obtain rfl : b = a := Option.some.inj (hb.symm.trans ha)
    exact hr

end

section
variable {engine : Engine (refundSig.sum Y)} {admits : Admission _ V.refunding}
  {database : DatabaseRefundConnector} {start : List RefundRecord} {old : String → Prop}
  {h : RefundLog V} {τ : ℕ} {id : String} {c : ActionCommand}

/-- A read of a call, with the operations of the task so far. -/
theorem wp_consult {o : RefundOp} (ho : ∀ row, o ≠ .createRefund row) (hin : InCall h τ id c)
    {xs : List (Entry (sig (refundSig.sum Y)))} (hown : h.own τ = xs) :
    ((refundContract database start V old).logic engine admits).wp τ
      (Task.ext (DatabaseRefundConnector.perform o))
      (fun r h' => InCall h' τ id c ∧ (∃ a, h'.state.db.action? id = some a ∧ a.command = c) ∧
        ∃ x e, r = .ok x ∧ x = (V.refunding.exec e h'.state.ext (.inl o)).1 ∧
          h'.own τ = xs ++ [⟨τ, .ext (.inl o), x⟩]) h := by
  intro h1 hr1 hq1 hi1
  have hin1 := hin.rely hr1.1 hq1
  obtain ⟨-, hstored⟩ := hi1.1.called τ id c hin1.called
  refine ⟨⟨trivial, ?_⟩, fun e => ⟨hin1.after _ e, hstored, _, e.ext, rfl, ?_, ?_⟩⟩
  · cases o with
    | createRefund row => exact absurd rfl (ho row)
    | _ => trivial
  · cases o with
    | createRefund row => exact absurd rfl (ho row)
    | _ => rfl
  · have hown1 := (engine.system V.refunding admits).own_after h1 τ (.ext (.inl o)) e
    rw [hq1.own, hown] at hown1
    exact hown1

/-- The insertion of a row, by a call that has read what entitles it to the row. -/
theorem wp_createRefund {row : RefundRecord} (hin : InCall h τ id c)
    (hp : RefundPoised database h τ row) (hrow : database.orderKey c = .ok (some row.orderId)) :
    ((refundContract database start V old).logic engine admits).wp τ
      (Task.ext (DatabaseRefundConnector.perform (.createRefund row)))
      (fun r h' => InCall h' τ id c ∧ ∃ x, r = .ok x ∧ (x = .ok () → StoredRefund database h' id))
      h := by
  intro h1 hr1 hq1 hi1
  have hin1 := hin.rely hr1.1 hq1
  obtain ⟨-, a, ha, rfl⟩ := hi1.1.called τ id c hin1.called
  have hp1 : RefundPoised database h1 τ row := by
    obtain ⟨id', c', order, now, before, hown, he⟩ := hp
    exact ⟨id', c', order, now, before, hq1.own.trans hown, he⟩
  refine ⟨⟨trivial, hp1⟩, fun e => ⟨hin1.after _ e, _, rfl, fun hok => ?_⟩⟩
  change (V.refunding.exec e.ext h1.state.ext (.inl (.createRefund row))).1 = .ok () at hok
  cases hins : h1.state.ext.1.refunds.insert? row with
  | none =>
    simp only [World.refunding, hins] at hok
    cases hok
  | some t =>
    refine ⟨a, ha, row, ?_, hrow⟩
    simp only [refundsOf, System.after, Engine.exec, World.refunding, hins]
    rw [(Refunds.rows_of_insert? hins).2]
    exact List.mem_append_right _ (List.mem_singleton.2 rfl)

section
variable (hL : ((refundContract database start V old).logic engine admits).Stepwise)
include hL

theorem wp_refundDispatch (hin : InCall h τ id c) (hj : JustCalled h τ id c) :
    ((refundContract database start V old).logic engine admits).wp τ
      (Task.ext (database.dispatch c))
      (fun r h' => InCall h' τ id c ∧ ∀ outcome, r = .ok outcome →
        (refundContract database start V old).Answer τ id outcome.status h') h := by
  obtain ⟨before, hown, -⟩ := hj
  refine wp_ext_ofExcept (fun orderId horderId => ?_) fun _ _ => ⟨hin, fun _ hr => by cases hr⟩
  refine wp_ext_ofExcept (fun key hkey => ?_) fun _ _ => ⟨hin, fun _ hr => by cases hr⟩
  have hnamed : database.orderKey c = .ok key := by
    rw [orderKey, horderId]
    exact hkey
  refine wp_ext_seq hL (wp_consult (o := .order key) (fun _ => nofun) hin hown)
    (fun found h1 _ hread => ?_)
    fun _ h1 _ hread => ⟨hread.1, fun _ hr => by cases hr⟩
  obtain ⟨hin1, -, x, e, hx, hfound, hown1⟩ := hread
  obtain rfl := Except.ok.inj hx
  cases found with
  | none => exact ⟨hin1, fun _ hr => by cases hr; trivial⟩
  | some order =>
    obtain rfl : key = some order.orderId := AppDb.key_of_order? hfound.symm
    refine wp_ext_ofExcept (fun customerId hcustomer => ?_)
      fun _ _ => ⟨hin1, fun _ hr => by cases hr⟩
    dsimp only
    split_ifs with hel
    · exact ⟨hin1, fun _ hr => by cases hr; trivial⟩
    · refine wp_ext_ofExcept (fun amount hamount => ?_) fun _ _ => ⟨hin1, fun _ hr => by cases hr⟩
      split_ifs with heq
      · exact ⟨hin1, fun _ hr => by cases hr; trivial⟩
      · refine wp_ext_seq hL (wp_consult (o := .refundByOrder (some order.orderId))
          (fun _ => nofun) hin1 hown1) (fun found h2 _ hread => ?_)
          fun _ h2 _ hread => ⟨hread.1, fun _ hr => by cases hr⟩
        obtain ⟨hin2, hstored, x, e, hx, hfound, hown2⟩ := hread
        obtain rfl := Except.ok.inj hx
        cases found with
        | some existing =>
          refine ⟨hin2, fun outcome hr => ?_⟩
          cases hr
          obtain ⟨a, ha, rfl⟩ := hstored
          obtain ⟨hmem, hk⟩ := Refunds.mem_getByOrder hfound.symm
          exact ⟨a, ha, existing, hmem, hnamed.trans (congrArg _ hk)⟩
        | none =>
          have hentitled : ∀ row : RefundRecord, row.orderId = order.orderId →
              row.amount = order.total → Entitles database c order row := by
            intro row hline htotal
            have hel' : (({} : RefundDecisionService).evaluate orderId.pyStr customerId
              (.str order.customerId) order.status (order.daysSinceDelivery.getD 0)
              order.total).eligible = true := by simpa using hel
            obtain rfl := RefundDecisionService.owner_of_eligible hel'
            exact ⟨hnamed, hline, htotal, get?_of_parameter hcustomer,
              ⟨orderId, get?_of_parameter horderId, hel'⟩, amount, hamount, by simpa using heq⟩
          refine wp_ext_seq hL (wp_consult (o := .now) (fun _ => nofun) hin2 hown2)
            (fun now h3 _ hread => ?_) fun _ h3 _ hread => ⟨hread.1, fun _ hr => by cases hr⟩
          obtain ⟨hin3, -, x, e', hx, -, hown3⟩ := hread
          obtain rfl := Except.ok.inj hx
          refine wp_ext_ofExcept (fun reason hreason => ?_)
            fun _ _ => ⟨hin3, fun _ hr => by cases hr⟩
          refine wp_ext_seq hL (R := fun r h' => InCall h' τ id c ∧
            (r = .ok () → StoredRefund database h' id)) ?_ (fun _ h4 _ hc => ?_)
            fun _ h4 _ hc => ⟨hc.1, fun _ hr => by cases hr⟩
          · refine wp_ext_seq hL (wp_createRefund hin3 ⟨id, c, order, now, before, ?_,
              hentitled _ rfl rfl⟩ hnamed) (fun done h4 _ hc => ?_)
              fun _ h4 _ hc => ⟨hc.1, fun hr => by cases hr⟩
            · rw [hown3]
              simp only [consulted, List.append_assoc, List.cons_append, List.nil_append]
            · obtain ⟨hin4, x, hx, hrow⟩ := hc
              obtain rfl := Except.ok.inj hx
              cases done with
              | ok u => exact ⟨hin4, fun _ => hrow rfl⟩
              | error exc => exact ⟨hin4, fun hr => by cases hr⟩
          · refine ⟨hc.1, fun outcome hr => ?_⟩
            cases hr
            exact hc.2 rfl

theorem wp_refundReconcile (prior : Option Fields)
    (hst : ∃ a, h.state.db.action? id = some a ∧ a.command = c) :
    ((refundContract database start V old).logic engine admits).wp τ
      (Task.ext (database.reconcile c prior))
      (fun r h' => ∀ outcome, r = .ok outcome → (refundContract database start V old).Justified τ id
        (if outcome.status = .succeeded then .reconciled else outcome.status) h') h := by
  refine wp_ext_ofExcept (fun key hkey => ?_) fun _ _ _ hr => by cases hr
  refine wp_ext_seq hL (R := fun r h' => ∃ found, r = .ok found ∧
    (found ≠ none → StoredRefund database h' id)) ?_ (fun found h1 _ hread => ?_)
    fun _ _ _ _ _ hr => by cases hr
  · intro h1 hr1 _ _
    refine ⟨⟨trivial, trivial⟩, fun e => ⟨_, rfl, fun hsome => ?_⟩⟩
    obtain ⟨a, ha, rfl⟩ := hst
    obtain ⟨b, hb, hab⟩ := hr1.1.db.actions id a ha
    obtain ⟨row, hrow⟩ := Option.ne_none_iff_exists'.1 hsome
    obtain ⟨hmem, hk⟩ := Refunds.mem_getByOrder (t := h1.state.ext.1.refunds) hrow
    exact ⟨b, hb, row, hmem, hab.command ▸ hkey.trans (congrArg _ hk)⟩
  · obtain ⟨_, he, hsome⟩ := hread
    cases he
    cases found with
    | some refund =>
      rintro outcome hr
      cases hr
      exact hsome (Option.some_ne_none refund)
    | none =>
      dsimp only
      split <;> rintro outcome hr <;> cases hr <;> trivial

end

end

section
variable {engine : Engine Y} {database : DatabaseRefundConnector} {admits : Admission _ V.refunding}
  {start : List RefundRecord} {old : String → Prop}

theorem refund_stepwise :
    ((refundContract database start V old).logic (engine.backedBy database.connector)
      admits).Stepwise where
  refl h := ⟨.refl h, List.Subset.refl _⟩
  trans _ _ _ h1 h2 := ⟨h1.1.trans h2.1, List.Subset.trans h1.2 h2.2⟩
  step _ _ e _ hi hp := ⟨⟨ActionPlane.inv_after hi.1 hp, refundInv_after hi.2 hp⟩,
    later_after hp.1 e, refunds_kept.2⟩

/-- Once the index exists, what others do to the application database keeps every refund. -/
theorem AppChange.apply_refunds (change : AppChange) {db : AppDb} (hi : db.refunds.indexed = true) :
    (change.apply db).refunds.indexed = true ∧
    (change.apply db).refunds.rows = db.refunds.rows := by
  cases change with
  | none => exact ⟨hi, rfl⟩
  | initDb => exact ⟨rfl, Refunds.rows_initDb hi⟩
  | orders table customers => exact ⟨hi, rfl⟩

theorem refund_lawful :
    (refundContract database start V old).Lawful (engine.backedBy database.connector) admits where
  refl _ := List.Subset.refl _
  trans _ _ _ := List.Subset.trans
  step _ _ _ _ _ hs hp := ⟨refundInv_after hs hp, refunds_kept.2⟩
  spawn _ _ hs := ⟨hs.aside rfl rfl hs.indexed rfl, List.Subset.refl _⟩
  crash _ _ hs := ⟨hs.aside rfl rfl hs.indexed rfl, List.Subset.refl _⟩
  drift h e hs := by
    obtain ⟨hi, hr⟩ := e.ext.change.apply_refunds hs.indexed
    exact ⟨hs.aside rfl rfl hi hr, fun _ hrow => hr.symm ▸ hrow⟩
  free τ o h hf := by
    cases o with
    | inl o =>
      cases o with
      | createRefund row => exact absurd rfl (hf row)
      | _ => trivial
    | inr o => trivial
  justified τ id s h h' hj hl hr := by
    cases s with
    | succeeded => exact StoredRefund.later hj hl hr
    | reconciled => exact StoredRefund.later hj hl hr
    | _ => exact hj
  unknown _ _ _ := trivial
  answered τ id c s h h' ha hin hl hr hq hi hs := by
    cases s with
    | succeeded => exact StoredRefund.later ha hl hr
    | _ => exact ha
  answer τ id s h e ha := by
    cases s with
    | succeeded => exact ha
    | failed => trivial
    | unknown => trivial
    | _ => cases ha
  dispatch τ id c pinned resolved h hres hin hj := by
    rw [connector_of_backedBy hres]
    exact wp_refundDispatch refund_stepwise hin hj
  reconcile τ id c pinned resolved prior h hres hst := by
    rw [connector_of_backedBy hres]
    exact wp_refundReconcile refund_stepwise prior hst
  resources resourceType resourceId :=
    Prog.issues_lift (Prog.Issues.mono (fun _ _ _ => nofun) (Prog.issues_true _))
  requireActive policy hp packageId := by
    obtain ⟨resolver, rfl⟩ := policy_of_backedBy hp
    exact Prog.issues_lift (Prog.Issues.mono (fun _ _ _ => nofun) (Prog.issues_true _))
  snapshot policy hp packageId signature := by
    obtain ⟨resolver, rfl⟩ := policy_of_backedBy hp
    exact Prog.issues_lift (Prog.Issues.mono (fun _ _ _ => nofun) (Prog.issues_true _))

end

/-- Every entry point but the recording of an outcome by hand. Orders change and `init_db` runs at
any moment. -/
def refundCalls : Admission (refundSig.sum Y) V.refunding
  | _, .recordOutcome .. => false
  | _, .outside _ => false
  | h, call => openCalls h call

theorem refundCalls_sound (engine : Engine Y) (database : DatabaseRefundConnector) (V : World Y)
    (start : List RefundRecord) (old : String → Prop) :
    ((refundContract database start V old).logic (engine.backedBy database.connector)
      refundCalls).Sound := by
  refine refund_lawful.sound fun h call hc => ?_
  cases call with
  | dispatch a => exact (decide_eq_true_iff (p := Genuine h.state.db a)).1 hc
  | reconcile a => exact (decide_eq_true_iff (p := Genuine h.state.db a)).1 hc
  | recordOutcome id status outcome => cases hc
  | transaction o => cases hc
  | outside p => cases hc
  | _ => trivial

/-- The application database after the first `init_db`. -/
def afterInitDb (s : EngineState V.refunding) : EngineState V.refunding :=
  { s with ext := (s.ext.1.initDb, s.ext.2) }

/-- From any legacy table: no two rows have one order, every new row was inserted by a call that had
read an order which entitles its command to the row, and a recorded success has its row. -/
theorem one_refund_per_order (engine : Engine Y) (database : DatabaseRefundConnector) (V : World Y)
    (s : EngineState V.refunding)
    (hs : ∀ id a, s.db.action? id = some a → a.status = .succeeded ∨ a.status = .reconciled →
      Refunded database s.ext.1.refunds a.command)
    (acts : List ((engine.backedBy database.connector).system V.refunding refundCalls).Move) :
    let h := (engine.backedBy database.connector).history V.refunding refundCalls
      (afterInitDb s) acts
    ((refundsOf h).rows.Pairwise fun r r' => r.orderId ≠ r'.orderId) ∧
    (∀ row ∈ (refundsOf h).rows, row ∈ s.ext.1.refunds.initDb.rows ∨ Issued database h row) ∧
    ∀ id a, h.state.db.action? id = some a → a.status = .succeeded ∨ a.status = .reconciled →
      Refunded database (refundsOf h) a.command := by
  have hsound := refundCalls_sound engine database V s.ext.1.refunds.initDb.rows
    fun oid => ∃ r, s.db.outbox? oid = some r
  have hinit : RefundInv database s.ext.1.refunds.initDb.rows
      (((engine.backedBy database.connector).system V.refunding refundCalls).init
        (afterInitDb s)).hist := by
    refine ⟨rfl, fun row hrow => Or.inl hrow, fun id a ha hst => ?_⟩
    obtain ⟨row, hrow, hc⟩ := hs id a ha hst
    obtain ⟨row', hrow', he⟩ := RefundRecord.exists_earliest hrow
    exact ⟨row', hrow', he ▸ hc⟩
  obtain ⟨-, hinv⟩ := (hsound.good_run (s := afterInitDb s)
    ⟨ActionPlane.inv_init fun _ => Iff.rfl, hinit⟩ acts).inv
  exact ⟨(refundsOf _).unique hinv.indexed, hinv.issued, hinv.succeeded⟩

/-- An engine that knows `issue_refund` alone. -/
def refundEngine : Engine ⟨Empty, Empty.elim⟩ where
  gateway := { connectors := .mapping fun action =>
    let unbacked := ⟨fun _ => throw .assertionError, fun _ _ => throw .assertionError⟩
    if action = "issue_refund" then some unbacked else none }
  resources _ _ := return none

/-- A connector whose digests are its keys. -/
def toyRefunds : DatabaseRefundConnector :=
  ⟨id, { realText := fun m e => toString m ++ "e" ++ toString e }⟩

abbrev RefundMove :=
  ((refundEngine.backedBy toyRefunds.connector).system World.isolated.refunding refundCalls).Move

/-- An authorized refund of order `O-2`. -/
def refundAction (id key : String) (h : 4 ≤ key.length) : ActionRecord where
  actionId := id
  command := {
    action := "issue_refund", caseId := "C-1", policyPackageId := "P-1", actorId := "agent"
    idempotencyKey := key
    parameters := [("order_id", .str "O-2"), ("customer_id", .str "U-1"),
      ("refund_amount", .int 25), ("reason", .str "broken")]
    parameterFactRefs := [], requiredFactAuthority := [], keyMin := h }
  status := .authorized
  createdAt := 0
  updatedAt := 0

def legacyRefund (id : String) : RefundRecord where
  refundId := some id
  orderId := "O-1"
  amount := (10, 0)
  currency := none
  status := none
  reason := none
  refundMethod := none
  estimatedDays := none
  processedAt := "t"

/-- Two refunds of `O-1` from before the migration, and two actions for `O-2`. -/
def refundStart : EngineState World.isolated.refunding where
  db := { Db.empty with actions :=
    ⟨[refundAction "ACT-1" "key-1" keyMin_one, refundAction "ACT-2" "key-2" keyMin_two],
      by decide +kernel⟩ }
  clock := 0
  ext := ({
    orders := ⟨[⟨"O-2", "U-1", (25, 0), "delivered", some 3, none⟩], by decide +kernel⟩
    customers := ["U-1"]
    refunds := ⟨[legacyRefund "R-1", legacyRefund "R-2"], false, by decide +kernel, nofun⟩ }, ())

def refundMoves (τ n : ℕ) : List RefundMove :=
  (List.range n).map fun i =>
    .run τ ⟨fun j => toString τ ++ "." ++ toString i ++ "." ++ toString j, 0, "t", .none, ()⟩

/-- Both dispatches find no refund, the second insertion fails, and `init_db` runs again. The
outcome of the second action is then queried. -/
def racingRefunds : List RefundMove :=
  .spawn (.dispatch (refundAction "ACT-1" "key-1" keyMin_one)) ::
    .spawn (.dispatch (refundAction "ACT-2" "key-2" keyMin_two)) ::
    refundMoves 0 6 ++ refundMoves 1 20 ++ .drift ⟨toString, 0, "t", .initDb, ()⟩ ::
    refundMoves 0 20 ++ .drift ⟨toString, 31000000, "t", .none, ()⟩ ::
    .spawn (.sweep 30 10) :: refundMoves 2 10

def racingHistory : RefundLog World.isolated :=
  (refundEngine.backedBy toyRefunds.connector).history World.isolated.refunding refundCalls
    (afterInitDb refundStart) racingRefunds

/-- The action that lost the race is reconciled against the row of the other. -/
theorem one_refund_per_order_racing : ∃ a row, racingHistory.state.db.action? "ACT-1" = some a ∧
    a.status = .reconciled ∧ row ∈ (refundsOf racingHistory).rows ∧
    toyRefunds.orderKey a.command = .ok (some row.orderId) := by
  -- both actions are authorized at the start
  have hnone : ∀ id b, refundStart.db.action? id = some b →
      b.status = .succeeded ∨ b.status = .reconciled →
      Refunded toyRefunds refundStart.ext.1.refunds b.command := by
    intro id b hb hst
    have hmem : b ∈ [refundAction "ACT-1" "key-1" (by decide),
        refundAction "ACT-2" "key-2" (by decide)] := (Table.get?_eq_some.1 hb).1
    simp only [List.mem_cons, List.not_mem_nil, or_false] at hmem
    rcases hmem with rfl | rfl <;> rcases hst with hst | hst <;> cases hst
  have hstatus : (racingHistory.state.db.action? "ACT-1").map ActionRecord.status =
      some .reconciled := by decide +kernel
  obtain ⟨a, ha, hst⟩ := Option.map_eq_some_iff.1 hstatus
  unfold racingHistory at ha ⊢
  obtain ⟨-, -, hrefunded⟩ := one_refund_per_order refundEngine toyRefunds World.isolated
    refundStart hnone racingRefunds
  obtain ⟨row, hrow, hkey⟩ := hrefunded "ACT-1" a ha (Or.inr hst)
  exact ⟨a, row, ha, hst, hrow, hkey⟩

end WorkflowEngine
