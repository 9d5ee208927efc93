import WorkflowEngine.Proofs.Dispatch

/-! Withdrawn proposals. `confirm` submits the action before it decides the proposal,
so a cancellation or an expiry that comes in between does not stop it. As long as
a proposal is withdrawn only when no action of its key is stored and no
confirmation of it is on its way, a withdrawn proposal never executes. -/

namespace WorkflowEngine

open Interleave Engine Relational SQLiteCoreStore

variable {X : Sig} {W : World X}

def ActionProposalStatus.withdrawn (s : ActionProposalStatus) : Prop :=
  s = .cancelled ∨ s = .expired

instance (s : ActionProposalStatus) : Decidable s.withdrawn :=
  inferInstanceAs (Decidable (_ ∨ _))

theorem ActionProposalStatus.withdrawn.ne_pending {s : ActionProposalStatus} (h : s.withdrawn) :
    s ≠ .pending := by
  rintro rfl
  rcases h with h | h <;> cases h

/-- The stored status of the proposal is `CANCELLED` or `EXPIRED`. -/
def Withdrawn (db : Db) (pid : String) : Prop :=
  ∃ p, db.proposal? pid = some p ∧ p.status.withdrawn

instance (db : Db) (pid : String) : Decidable (Withdrawn db pid) :=
  inferInstanceAs (Decidable (∃ p ∈ db.proposal? pid, p.status.withdrawn))

/-- The proposal that the operation read, if it is `PENDING`. -/
def pendingRead (pid : String) : Entry (sig X) → Option ActionProposal
  | ⟨_, .tx (.getProposal id), (found : Option ActionProposal)⟩ =>
    found.filter fun p => decide (id = pid) && decide (p.status = .pending)
  | _ => none

def clockRead : Entry (sig X) → Option Time
  | ⟨_, .now, (now : Time)⟩ => some now
  | _ => none

/-- A confirmation, seen from its own operations, has read the proposal `PENDING` and has not
found it expired. -/
def poised (pid : String) : List (Entry (sig X)) → Bool
  | [] => false
  | x :: rest => (pendingRead pid x).any fun p =>
      rest.head?.all fun y => (clockRead y).any fun now => now < p.expiresAt

def Call.confirms (pid : String) : Call X → Bool
  | .confirm id _ => id = pid
  | _ => false

/-- `τ` is a confirmation on its way to submit the action of the proposal. -/
def Poised (h : Log W) (τ : ℕ) (pid : String) : Prop :=
  h.calls[τ]?.any (Call.confirms pid) = true ∧ poised pid (h.own τ) = true

instance (h : Log W) (τ : ℕ) (pid : String) : Decidable (Poised h τ pid) :=
  inferInstanceAs (Decidable (_ ∧ _))

theorem poised_snoc {pid : String} {own : List (Entry (sig X))} {x : Entry (sig X)}
    (h : poised pid (own ++ [x]) = true) :
    poised pid own = true ∨ own = [] ∧ ∃ p, pendingRead pid x = some p := by
  cases own with
  | nil =>
    obtain ⟨p, hp, -⟩ := (Option.any_eq_true _ _).1 h
    exact Or.inr ⟨rfl, p, hp⟩
  | cons y rest =>
    left
    obtain ⟨p, hp, hrest⟩ := (Option.any_eq_true _ _).1 h
    refine (Option.any_eq_true _ _).2 ⟨p, hp, ?_⟩
    cases rest with
    | nil => rfl
    | cons z rest => exact hrest

/-- Only a stored proposal that is `PENDING` is read as such. -/
theorem pending_of_read {pid : String} {τ : ℕ} {o : Op X} {e : EngineChoice W} {s : EngineState W}
    {p : ActionProposal}
    (h : pendingRead pid (⟨τ, o, (exec W e s o).1⟩ : Entry (sig X)) = some p) :
    s.db.proposal? pid = some p ∧ p.status = .pending := by
  unfold pendingRead at h
  split at h
  · rename_i id found he
    injection he with _ ho hr
    subst ho
    cases hr
    obtain ⟨hp, hid⟩ := Option.filter_eq_some_iff.1 h
    simp only [Bool.and_eq_true, decide_eq_true_eq] at hid
    obtain ⟨rfl, hs⟩ := hid
    exact ⟨hp, hs⟩
  · cases h

/-- Every entry point is open, and proposals may be created; but only a confirmation may bring
in an action or a proposal with this key. -/
def proposalCalls (key : String) : Admission X W
  | _, .submit request _ => request.idempotencyKey ≠ key
  | _, .authorize command _ => command.idempotencyKey ≠ key
  | _, .authorizeAction command _ => command.idempotencyKey ≠ key
  | _, .transaction (.createProposal record) => record.idempotencyKey ≠ key
  | h, call => openCalls h call

/-- Who may insert an action with the key, and that no other proposal uses it. -/
def withdrawalLogic (engine : Engine X) (W : World X) (admits : Admission X W)
    (key pid : String) : Logic (engine.system W admits) where
  Inv h := ∀ id p, h.state.db.proposal? id = some p → p.idempotencyKey = key → id = pid
  Rely _ _ := True
  Pre τ o h := match o with
    | .tx (.insertAction record _) => record.command.idempotencyKey = key → Poised h τ pid
    | .tx (.createProposal record) => record.idempotencyKey ≠ key
    | _ => True

section
variable {engine : Engine X} {admits : Admission X W} {key pid : String} {τ : ℕ} {h : Log W}

theorem withdrawalLogic_stepwise : (withdrawalLogic engine W admits key pid).Stepwise where
  refl _ := trivial
  trans _ _ _ _ _ := trivial
  step τ o e h hi hp := by
    refine ⟨fun id p' hp' hk => ?_, trivial⟩
    cases o with
    | tx o =>
      rcases (Tx.effect h.state.clock e.ids h.state.db o).proposal_cases hp' with
        ⟨rfl, -⟩ | ⟨p, hp0, hkey, -⟩
      · exact absurd hk hp
      · exact hi id p hp0 (hkey.symm.trans hk)
    | _ => exact hi id p' hp' hk

theorem pre_of_keysIn {P : String → Prop} {o : Op X} (ho : o.keysIn P)
    (hP : P key → Poised h τ pid) : (withdrawalLogic engine W admits key pid).Pre τ o h := by
  cases o with
  | tx o =>
    cases o with
    | insertAction record v =>
      intro hk
      exact hP (hk ▸ ho)
    | createProposal record => exact absurd ho id
    | _ => trivial
  | _ => trivial

/-- A program that never inserts the key needs nothing. -/
theorem wp_otherKeys {α : Type} {p : Task X α} (hp : p.Issues (Op.keysIn (· ≠ key))) :
    (withdrawalLogic engine W admits key pid).wp τ p (fun _ _ => True) h :=
  Logic.wp_frame (J := fun _ => True) hp (fun _ _ _ _ _ => trivial)
    (fun _ _ _ _ ho => ⟨pre_of_keysIn ho fun hne => absurd rfl hne, fun _ => trivial⟩) trivial

/-- `τ` is a confirmation of the proposal, and `own` is what it did so far. -/
structure Confirming (h : Log W) (τ : ℕ) (proposalId : String) (own : List (Entry (sig X))) :
    Prop where
  call : ∃ context, h.calls[τ]? = some (.confirm proposalId context)
  own : h.own τ = own

section
variable {proposalId : String} {own : List (Entry (sig X))}

theorem Confirming.quiet {h' : Log W} (hc : Confirming h τ proposalId own)
    (hq : @Quiet _ _ _ (engine.system W admits) τ h h') : Confirming h' τ proposalId own := by
  obtain ⟨context, hcall⟩ := hc.call
  exact ⟨⟨context, getElem?_of_extends hq.calls hcall⟩, hq.own.trans hc.own⟩

theorem Confirming.after (hc : Confirming h τ proposalId own) (o : Op X) (e : EngineChoice W) :
    Confirming ((engine.system W admits).after h τ o e) τ proposalId
      (own ++ [⟨τ, o, (exec W e h.state o).1⟩]) := by
  have hown := @System.own_after _ _ _ (engine.system W admits) h τ o e
  exact ⟨hc.call, hc.own ▸ hown⟩

/-- A confirmation that went on to submit stays poised. -/
theorem Confirming.poised {proposal : ActionProposal} {now : Time} {rest : List (Entry (sig X))}
    (hc : Confirming h τ pid
      (⟨τ, Op.tx (.getProposal pid), some proposal⟩ :: ⟨τ, Op.now, now⟩ :: rest))
    (hs : proposal.status = .pending) (hnow : now < proposal.expiresAt) : Poised h τ pid := by
  obtain ⟨context, hcall⟩ := hc.call
  refine ⟨?_, ?_⟩
  · simp [hcall, Call.confirms]
  · rw [hc.own]
    simp [WorkflowEngine.poised, pendingRead, clockRead, hs, hnow]

/-- A confirmation goes on with the proposal that its first operation read. -/
theorem wp_getOwned_first {customerId : String} {actorId : Option String}
    (hc : Confirming h τ proposalId []) :
    (withdrawalLogic engine W admits key pid).wp τ
      (ActionBridge.getOwned proposalId customerId actorId)
      (fun r h' => ∀ proposal, r = .ok proposal →
        (proposal.idempotencyKey = key → proposalId = pid) ∧
        Confirming h' τ proposalId [⟨τ, Op.tx (.getProposal proposalId), some proposal⟩]) h := by
  intro h1 _ hq hi
  refine ⟨trivial, fun e => ?_⟩
  have hc1 := @Confirming.after _ _ engine admits _ _ _ _ (hc.quiet hq)
    (.tx (.getProposal proposalId)) e
  change Confirming _ τ proposalId
    [⟨τ, Op.tx (.getProposal proposalId), h1.state.db.proposal? proposalId⟩] at hc1
  cases hp : h1.state.db.proposal? proposalId with
  | none =>
    have hread : (exec W e h1.state (.tx (.getProposal proposalId))).1 = none := hp
    rw [hread]
    exact fun _ he => by cases he
  | some proposal =>
    have hread : (exec W e h1.state (.tx (.getProposal proposalId))).1 = some proposal := hp
    rw [hread]
    rw [hp] at hc1
    change (withdrawalLogic engine W admits key pid).wp τ
      (if proposal.customerId ≠ customerId then Prog.raise _
        else if actorId.any (· ≠ proposal.actorId) then Prog.raise _ else Prog.ret proposal) _ _
    split_ifs
    · exact fun _ he => by cases he
    · exact fun _ he => by cases he
    · rintro _ he
      cases he
      exact ⟨hi proposalId proposal hp, hc1⟩

/-- Past the clock, everything that `confirm` does for a proposal that has not expired. -/
theorem wp_submitPending_poised {proposal : ActionProposal} {now : Time}
    {context : ActionConfirmationContext} (hk : proposal.idempotencyKey = key → proposalId = pid)
    (hs : proposal.status = .pending) (hnow : now < proposal.expiresAt)
    (hc : Confirming h τ proposalId
      [⟨τ, Op.tx (.getProposal proposalId), some proposal⟩, ⟨τ, Op.now, now⟩]) :
    (withdrawalLogic engine W admits key pid).wp τ (engine.bridge.submitPending proposal context)
      (fun _ _ => True) h := by
  refine Logic.wp_mono (fun _ _ _ => trivial) (Logic.wp_frame
    (J := fun h : Log W => ∃ rest, Confirming h τ proposalId
      (⟨τ, Op.tx (.getProposal proposalId), some proposal⟩ :: ⟨τ, Op.now, now⟩ :: rest))
    (engine.bridge.keys_submitPending (P := (· = proposal.idempotencyKey)) proposal context rfl)
    (fun h h' hJ _ hq => ?_) (fun h o hJ _ ho => ?_) ⟨[], hc⟩)
  · obtain ⟨rest, hJ⟩ := hJ
    exact ⟨rest, hJ.quiet hq⟩
  · obtain ⟨rest, hJ⟩ := hJ
    refine ⟨pre_of_keysIn ho fun hkey => ?_, fun e => ⟨_, hJ.after o e⟩⟩
    obtain rfl := hk hkey.symm
    exact hJ.poised hs hnow

theorem wp_confirm_poised {context : ActionConfirmationContext}
    (hc : Confirming h τ proposalId []) :
    (withdrawalLogic engine W admits key pid).wp τ (engine.bridge.confirm proposalId context)
      (fun _ _ => True) h := by
  have hL : (withdrawalLogic engine W admits key pid).Stepwise := withdrawalLogic_stepwise
  refine hL.wp_seq (wp_getOwned_first hc) (fun proposal h1 _ hread => ?_) fun _ _ _ _ => trivial
  obtain ⟨hk, hc1⟩ := hread proposal rfl
  cases hs : proposal.status with
  | pending =>
    intro h2 _ hq _
    refine ⟨trivial, fun e => ?_⟩
    have hc2 := @Confirming.after _ _ engine admits _ _ _ _ (hc1.quiet hq) .now e
    change (withdrawalLogic engine W admits key pid).wp τ
      (if decide (proposal.expiresAt ≤ h2.state.clock) = true then ActionBridge.expire proposal
        else engine.bridge.submitPending proposal context) _ _
    split_ifs with hlate
    · exact wp_otherKeys (keys_decides (ActionBridge.issues_transitionOrCurrent ..))
    · have hnow : h2.state.clock < proposal.expiresAt := by simpa using hlate
      exact wp_submitPending_poised hk hs hnow hc2
  | _ => trivial

end

theorem wp_call_poised {h0 : Log W} {call : Call X} (hadm : proposalCalls key h0 call = true)
    (hcall : h.calls[τ]? = some call) (hown : h.own τ = []) :
    (withdrawalLogic engine W admits key pid).wp τ (engine.body call) (fun _ _ => True) h := by
  have hreply : ∀ {α : Type} {p : Task X α} {f : α → Reply}, p.Issues (Op.keysIn (· ≠ key)) →
      (withdrawalLogic engine W admits key pid).wp τ (p.bind fun a => .ret (f a))
        (fun _ _ => True) h :=
    fun hp => wp_otherKeys (Prog.issues_bind hp fun _ => trivial)
  cases call with
  | initializeStore => exact hreply (f := fun _ => .done) (issues_attempt trivial)
  | submit request actorId =>
    refine hreply (keys_submits (ConsequentialActionService.submits_submit _ request ?_ _))
    simpa [proposalCalls] using hadm
  | authorize command v =>
    refine hreply (keys_submits (submits_authorize _ command ?_ v))
    simpa [proposalCalls] using hadm
  | authorizeAction command v =>
    refine hreply (keys_submits (submits_authorizeAction command ?_ v))
    simpa [proposalCalls] using hadm
  | markDispatched id =>
    refine hreply (f := Reply.action) (Prog.issues_bind ?_ fun _ => trivial)
    refine Prog.issues_bind (issues_attempt trivial) fun _ => ?_
    refine Prog.issues_bind (issues_tx trivial) fun found => ?_
    split <;> trivial
  | recordOutcome id status outcome =>
    exact hreply (keys_submits (submits_reconciles (issues_recordOutcome ..)))
  | dispatch a => exact hreply (keys_submits (submits_dispatch _ a))
  | reconcile a =>
    exact hreply (keys_submits (submits_reconciles (engine.gateway.issues_reconcile a)))
  | deliver owner leaseSeconds maxAttempts limit =>
    exact hreply (keys_submits (submits_delivers (ActionDeliveryWorker.issues_runOnce _ limit)))
  | sweep staleSeconds limit =>
    exact hreply (keys_submits (submits_reconciles (ReconciliationWorker.issues_runOnce _ limit)))
  | confirm proposalId context =>
    refine Logic.wp_bind.2 (Logic.wp_mono (fun r h' _ => ?_)
      (wp_confirm_poised ⟨⟨context, hcall⟩, hown⟩))
    cases r <;> trivial
  | cancel proposalId context => exact hreply (keys_decides (ActionBridge.issues_cancel ..))
  | status proposalId customerId actorId =>
    exact hreply (keys_decides (ActionBridge.issues_status ..))
  | enqueue topic aggregateId payload =>
    refine hreply (f := fun _ => .done) ?_
    refine Prog.issues_bind ((Prog.issues_perform _).2 trivial) fun now => ?_
    refine Prog.issues_bind ((Prog.issues_perform _).2 trivial) fun hex => ?_
    exact Prog.issues_bind (issues_attempt trivial) fun _ => trivial
  | transaction o =>
    cases o with
    | createProposal record =>
      have hne : record.idempotencyKey ≠ key := by simpa [proposalCalls] using hadm
      exact fun _ _ _ _ => ⟨hne, fun _ => trivial⟩
    | _ => cases hadm
  | outside p => exact hreply (f := fun _ => .done) (issues_ext (fun _ => trivial) p)

end

section
variable (engine : Engine X) (W : World X) (key pid : String)

theorem withdrawalLogic_sound :
    (withdrawalLogic engine W (proposalCalls key) key pid).Sound where
  toStepwise := withdrawalLogic_stepwise
  spawn _ _ hi _ := ⟨hi, trivial⟩
  crash _ _ hi := ⟨hi, trivial⟩
  drift _ _ hi := ⟨hi, trivial⟩
  body h call hi ha hfresh := by
    refine wp_call_poised ha (by simp [System.spawned]) ?_
    exact List.filter_eq_nil_iff.2 fun x hx => by simpa using hfresh x hx

theorem proposalCalls_sound (old : String → Prop) :
    ((Contract.arbitrary W old fun _ => True).logic engine (proposalCalls key)).Sound := by
  refine (Contract.arbitrary_lawful kept_true old).sound fun h call hc => ?_
  unfold proposalCalls at hc
  split at hc
  · trivial
  · trivial
  · trivial
  · trivial
  · exact admissible_of_openCalls hc old _

/-- No action of the key is stored, and no confirmation that still runs is poised. -/
structure Quiescent (c : (engine.system W (proposalCalls key)).Config) : Prop where
  unstored : c.hist.state.db.actionByKey? key = none
  unpoised : ∀ τ, System.live _ c τ = true → ¬ Poised c.hist τ pid

instance (c : (engine.system W (proposalCalls key)).Config) :
    Decidable (Quiescent engine W key pid c) :=
  decidable_of_iff (c.hist.state.db.actionByKey? key = none ∧
      ∀ τ ∈ List.range c.tasks.length, System.live _ c τ = true → ¬ Poised c.hist τ pid)
    ⟨fun h => ⟨h.1, fun τ hτ => h.2 τ (List.mem_range.2 (System.lt_of_live hτ)) hτ⟩,
      fun h => ⟨h.unstored, fun τ _ => h.unpoised τ⟩⟩

/-- The task is about to withdraw the proposal. -/
def withdrawing (pid : String) : Option (Task X Reply) → Bool
  | some (.call (.tx (.transitionProposal id _ status ..)) _) =>
    decide (id = pid) && decide status.withdrawn
  | _ => false

/-- The decision withdraws no `PENDING` proposal that may still execute. -/
def withdrawsQuietly (c : (engine.system W (proposalCalls key)).Config) :
    (engine.system W (proposalCalls key)).Move → Prop
  | .run τ _ => withdrawing pid c.tasks[τ]? = true →
      (c.hist.state.db.proposal? pid).any (·.status = .pending) = true →
      Quiescent engine W key pid c
  | _ => True

instance (c : (engine.system W (proposalCalls key)).Config) :
    (a : (engine.system W (proposalCalls key)).Move) →
      Decidable (withdrawsQuietly engine W key pid c a)
  | .run _ _ => inferInstanceAs (Decidable (_ → _ → _))
  | .spawn _ => isTrue trivial
  | .crash _ => isTrue trivial
  | .drift _ => isTrue trivial

variable {engine W key pid}

theorem lt_of_poised {c : (engine.system W (proposalCalls key)).Config}
    (hg : (withdrawalLogic engine W (proposalCalls key) key pid).Good c) {τ : ℕ}
    (hp : poised pid (c.hist.own τ) = true) : τ < c.hist.calls.length := by
  cases hown : c.hist.own τ with
  | nil =>
    rw [hown] at hp
    cases hp
  | cons x rest =>
    have hx : x ∈ c.hist.own τ := hown ▸ List.mem_cons_self ..
    obtain ⟨hmem, hτ⟩ := List.mem_filter.1 hx
    exact of_decide_eq_true hτ ▸ hg.bound x hmem

/-- An action of the key comes from a poised confirmation. -/
theorem Quiescent.unstored_after {c : (engine.system W (proposalCalls key)).Config}
    (hq : Quiescent engine W key pid c)
    (hg : (withdrawalLogic engine W (proposalCalls key) key pid).Good c) {τ : ℕ} {o : Op X}
    {k : o.Res → Task X Reply} (hr : System.Ready _ c τ o k) (e : EngineChoice W) :
    (exec W e c.hist.state o).2.db.actionByKey? key = none := by
  cases o with
  | tx o =>
    cases hsome : (exec W e c.hist.state (.tx o)).2.db.actionByKey? key with
    | none => rfl
    | some a =>
      exfalso
      obtain ⟨record, v, rfl, -, rfl⟩ :=
        (Tx.effect c.hist.state.clock e.ids c.hist.state.db o).appeared hq.unstored hsome
      have hk : record.command.idempotencyKey = key := (Table.get?_eq_some.1 hsome).2
      have hpre := hg.pre (withdrawalLogic_sound engine W key pid) hr
      exact hq.unpoised τ (System.live_iff.2 ⟨Op.tx (.insertAction record v), k, hr⟩) (hpre hk)
  | _ => exact hq.unstored

/-- Quiescence lasts as long as nobody reads the proposal `PENDING`. -/
theorem Quiescent.next {c : (engine.system W (proposalCalls key)).Config}
    (hq : Quiescent engine W key pid c)
    (hg : (withdrawalLogic engine W (proposalCalls key) key pid).Good c)
    (a : (engine.system W (proposalCalls key)).Move)
    (hread : ∀ (τ : ℕ) (o : Op X) (k : o.Res → Task X Reply) (e : EngineChoice W), a = .run τ e →
      System.Ready _ c τ o k →
      pendingRead pid (⟨τ, o, (exec W e c.hist.state o).1⟩ : Entry (sig X)) = none) :
    Quiescent engine W key pid (System.next _ c a) := by
  rcases System.next_cases c a with hn | ⟨call, -, -, hn⟩ | ⟨τ, e, o, k, ha, hr, hn⟩ | ⟨τ, -, hn⟩ |
      ⟨e, -, hn⟩ <;> rw [hn]
  · exact hq
  · refine ⟨hq.unstored, fun τ hlive hp => ?_⟩
    have hlt := lt_of_poised hg hp.2
    obtain ⟨o, k, ht, hcr⟩ := System.live_iff.1 hlive
    rw [List.getElem?_append_left (hg.length ▸ hlt)] at ht
    refine hq.unpoised τ (System.live_iff.2 ⟨o, k, ht, hcr⟩) ⟨?_, hp.2⟩
    simpa [System.spawned, List.getElem?_append_left hlt] using hp.1
  · refine ⟨hq.unstored_after hg hr e, fun τ' hlive hp => ?_⟩
    by_cases hτ : τ' = τ
    · subst hτ
      have hown := @System.own_after _ _ _ (engine.system W (proposalCalls key)) c.hist τ' o e
      rcases poised_snoc (hown ▸ hp.2) with hbefore | ⟨-, p, hp⟩
      · exact hq.unpoised τ' (System.live_iff.2 ⟨o, k, hr⟩) ⟨hp.1, hbefore⟩
      · rw [hread τ' o k e ha hr] at hp
        cases hp
    · have hown := @System.own_after_ne _ _ _ (engine.system W (proposalCalls key)) c.hist _ _
        hτ o e
      obtain ⟨o', k', ht, hcr⟩ := System.live_iff.1 hlive
      rw [List.getElem?_set_ne (Ne.symm hτ)] at ht
      exact hq.unpoised τ' (System.live_iff.2 ⟨o', k', ht, hcr⟩) ⟨hp.1, hown ▸ hp.2⟩
  · refine ⟨hq.unstored, fun τ' hlive hp => ?_⟩
    obtain ⟨o, k, ht, hcr⟩ := System.live_iff.1 hlive
    exact hq.unpoised τ' (System.live_iff.2 ⟨o, k, ht, fun h => hcr (List.mem_cons_of_mem _ h)⟩) hp
  · exact ⟨hq.unstored, hq.unpoised⟩

/-- A decision that withdraws the proposal is a transition from `PENDING`. -/
theorem withdraws_cases {c : (engine.system W (proposalCalls key)).Config}
    {a : (engine.system W (proposalCalls key)).Move} {p : ActionProposal}
    (hp : c.hist.state.db.proposal? pid = some p) (hs : p.status = .pending)
    (hw : Withdrawn (System.next _ c a).hist.state.db pid) :
    ∃ τ e status evidence actionId, a = .run τ e ∧ status.withdrawn ∧ ∃ k, System.Ready _ c τ
      (Op.tx (.transitionProposal pid .pending status evidence actionId)) k := by
  obtain ⟨p', hp', hw⟩ := hw
  have hne : c.hist.state.db.proposal? pid ≠ some p' := by
    intro he
    rw [Option.some.inj (hp.symm.trans he)] at hs
    exact hw.ne_pending hs
  rcases System.next_cases c a with hn | ⟨call, -, -, hn⟩ | ⟨τ, e, o, k, ha, hr, hn⟩ | ⟨τ, -, hn⟩ |
      ⟨e, -, hn⟩ <;> rw [hn] at hp'
  · exact absurd hp' hne
  · exact absurd hp' hne
  · cases o with
    | tx o =>
      rcases (Tx.effect c.hist.state.clock e.ids c.hist.state.db o).proposal_cases hp' with
        ⟨-, hnone⟩ | ⟨q, hq, -, hst | ⟨status, evidence, actionId, rfl, hst⟩⟩
      · rw [hp] at hnone
        cases hnone
      · obtain rfl : q = p := Option.some.inj (hq.symm.trans hp)
        exact absurd (hst.trans hs) hw.ne_pending
      · obtain rfl : q = p := Option.some.inj (hq.symm.trans hp)
        rw [hs] at hr
        exact ⟨τ, e, status, evidence, actionId, ha, hst ▸ hw, k, hr⟩
    | _ => exact absurd hp' hne
  · exact absurd hp' hne
  · exact absurd hp' hne

variable (engine W key pid) in
/-- The invariant of the runs that withdraw the proposal quietly. -/
structure WithdrawnIdle (c : (engine.system W (proposalCalls key)).Config) : Prop where
  stored : ∃ p, c.hist.state.db.proposal? pid = some p
  idle : Withdrawn c.hist.state.db pid → Quiescent engine W key pid c

theorem WithdrawnIdle.next {c : (engine.system W (proposalCalls key)).Config}
    {a : (engine.system W (proposalCalls key)).Move} (hi : WithdrawnIdle engine W key pid c)
    (hg : (withdrawalLogic engine W (proposalCalls key) key pid).Good c)
    (hl : Later c.hist (System.next _ c a).hist) (hG : withdrawsQuietly engine W key pid c a) :
    WithdrawnIdle engine W key pid (System.next _ c a) := by
  obtain ⟨p, hp⟩ := hi.stored
  obtain ⟨q, hq, -, hkeep⟩ := hl.db.proposals pid p hp
  refine ⟨⟨q, hq⟩, fun hw => ?_⟩
  by_cases hs : p.status = .pending
  · obtain ⟨τ, e, status, evidence, actionId, rfl, hstatus, k, hr⟩ := withdraws_cases hp hs hw
    have hquiet : Quiescent engine W key pid c := by
      refine hG ?_ (by simp [hp, hs])
      rw [hr.1]
      simp [withdrawing, hstatus]
    refine hquiet.next hg _ fun τ' o k' e' ha hr' => ?_
    cases ha
    cases Option.some.inj (hr.1.symm.trans hr'.1)
    rfl
  · -- a withdrawn proposal was so before, and nobody reads it `PENDING`
    obtain rfl := hkeep hs
    have hw0 : Withdrawn c.hist.state.db pid := by
      obtain ⟨q', hq', hw⟩ := hw
      obtain rfl : q' = q := Option.some.inj (hq'.symm.trans hq)
      exact ⟨q', hp, hw⟩
    refine (hi.idle hw0).next hg _ fun τ o k e _ _ => ?_
    refine Option.eq_none_iff_forall_ne_some.2 fun r hr => ?_
    obtain ⟨hr, hrs⟩ := pending_of_read hr
    obtain rfl : r = q := Option.some.inj (hr.symm.trans hp)
    exact hs hrs

end

/-- In a run that went through `acts` and goes on with `acts'`: if the proposal is `CANCELLED`
or `EXPIRED` after `acts`, no action of the key is stored after `acts'`, and none has been
dispatched. -/
def NeverExecutes (engine : Engine X) (W : World X) (s : EngineState W) (key pid : String)
    (acts acts' : List (engine.system W (proposalCalls key)).Move) : Prop :=
  Withdrawn (engine.history W (proposalCalls key) s acts).state.db pid →
    (engine.history W (proposalCalls key) s (acts ++ acts')).state.db.actionByKey? key = none ∧
    callsFor (engine.history W (proposalCalls key) s (acts ++ acts')) key = 0

/-- A withdrawn proposal never executes, in every run that withdraws it only when no action of
its key is stored and no confirmation that has read it `PENDING`, and has not found it
expired, still runs. -/
theorem withdrawn_never_executes (engine : Engine X) (W : World X) (s : EngineState W)
    (key pid : String) (hstored : ∃ p, s.db.proposal? pid = some p)
    (hkey : ∀ id p, s.db.proposal? id = some p → p.idempotencyKey = key → id = pid)
    (hs : Withdrawn s.db pid → s.db.actionByKey? key = none)
    (acts acts' : List (engine.system W (proposalCalls key)).Move)
    (hG : System.Guarded (withdrawsQuietly engine W key pid)
      ((engine.system W (proposalCalls key)).init s) (acts ++ acts')) :
    NeverExecutes engine W s key pid acts acts' := by
  intro hw
  have hsound := proposalCalls_sound engine W key fun oid => ∃ r, s.db.outbox? oid = some r
  have hplane := hsound.good_run (s := s) ⟨ActionPlane.inv_init fun _ => Iff.rfl, trivial⟩
  have hidle : WithdrawnIdle engine W key pid
      (System.run _ ((engine.system W (proposalCalls key)).init s) (acts ++ acts')) := by
    refine System.run_induction (J := WithdrawnIdle engine W key pid)
      ⟨hstored, fun hw => ⟨hs hw, fun τ hlive => ?_⟩⟩
      (fun before a hi ha => ?_) _ hG
    · exact absurd (System.lt_of_live hlive) (Nat.not_lt_zero τ)
    · exact hi.next ((withdrawalLogic_sound engine W key pid).good_run (s := s) hkey before)
        (Logic.rely_next hsound (hplane before) a).1 ha
  have hlater := (hsound.rely_run (hplane acts) acts').1
  rw [← System.run_append] at hlater
  obtain ⟨p, hp, hwp⟩ := hw
  obtain ⟨q, hq, -, hkeep⟩ := hlater.db.proposals pid p hp
  rw [hkeep hwp.ne_pending] at hq
  have hquiet := hidle.idle ⟨p, hq, hwp⟩
  refine ⟨hquiet.unstored, List.countP_eq_zero.2 fun x hx hcall => ?_⟩
  -- a call would be for a stored action of the key
  obtain ⟨id, command, hc, hk⟩ := exists_of_isCall hx hcall
  obtain ⟨-, a, ha, rfl⟩ := (hplane (acts ++ acts')).inv.1.called _ _ _ hc
  have hmem := (Table.get?_eq_some.1 ha).1
  have hnone := Table.get?_eq_none.1 hquiet.unstored a hmem
  exact hnone (of_decide_eq_true hk)

/-- A provider that takes every note. -/
def noteConnector : ActionConnector ⟨Empty, Empty.elim⟩ where
  dispatch _ := return ⟨.succeeded, []⟩
  reconcile _ _ := return ⟨.unknown, []⟩

def noteEngine : Engine ⟨Empty, Empty.elim⟩ where
  gateway := { connectors := .mapping fun _ => some noteConnector }
  resources _ _ := return none
  validatePayload fields := match fields.get? "action", fields.get? "note" with
    | some (.str "add_case_note"), some (.str note) =>
      if h : 1 ≤ note.length ∧ note.length ≤ 10000 then some (.addCaseNote note h) else none
    | _, _ => none

def noteProposal : ActionProposal where
  proposalId := "PROP-1"
  action := "add_case_note"
  payload := [("action", .str "add_case_note"), ("note", .str "n")]
  caseId := "C-1"
  customerId := "U-1"
  actorId := "agent"
  procedureId := "proc"
  procedureVersion := "1"
  policyPackageId := "P-1"
  idempotencyKey := "key-1"
  status := .pending
  createdAt := 0
  expiresAt := 900000000
  updatedAt := 0

def proposed : EngineState World.isolated where
  db := { Db.empty with proposals := ⟨[noteProposal], fun _ => List.nodup_singleton _⟩ }
  clock := 0
  ext := ()

abbrev ProposalMove := (noteEngine.system World.isolated (proposalCalls "key-1")).Move

/-- Let `τ` take its next `n` operations, with fresh identifiers. -/
def moves (τ n : ℕ) : List ProposalMove :=
  (List.range n).map fun i => .run τ ⟨fun j => toString i ++ "." ++ toString j, 0, ()⟩

def agent : ActionConfirmationContext := ⟨"agent", "U-1", none, none⟩

/-- The confirmation that had read the proposal has crashed when the proposal is cancelled. -/
def cancelledAfterCrash : List ProposalMove :=
  .spawn (.confirm "PROP-1" agent) :: moves 0 2 ++
    .crash 0 :: .spawn (.cancel "PROP-1" agent) :: moves 1 3

theorem withdrawn_never_executes_after_crash :
    Withdrawn (noteEngine.history World.isolated (proposalCalls "key-1") proposed
      cancelledAfterCrash).state.db "PROP-1" ∧
    NeverExecutes noteEngine World.isolated proposed "key-1" "PROP-1" cancelledAfterCrash
      (.spawn (.confirm "PROP-1" agent) :: moves 2 2) := by
  refine ⟨by decide +kernel, ?_⟩
  refine withdrawn_never_executes noteEngine World.isolated proposed "key-1" "PROP-1"
    ⟨noteProposal, by decide +kernel⟩ (fun id p hp _ => ?_) (fun _ => by decide +kernel)
    cancelledAfterCrash (.spawn (.confirm "PROP-1" agent) :: moves 2 2) (by decide +kernel)
  obtain ⟨hmem, rfl⟩ := Table.get?_eq_some.1 hp
  rw [List.mem_singleton.1 hmem]
  rfl

/-- A confirmation has read the proposal and the clock when the proposal is cancelled. -/
def cancelledInBetween : List ProposalMove :=
  .spawn (.confirm "PROP-1" agent) :: moves 0 2 ++ .spawn (.cancel "PROP-1" agent) :: moves 1 3

/-- The cancelled proposal executes. -/
theorem cancelled_proposal_executes :
    ¬ NeverExecutes noteEngine World.isolated proposed "key-1" "PROP-1" cancelledInBetween
      (moves 0 11) := by
  intro hsafe
  have hcalls : callsFor (noteEngine.history World.isolated (proposalCalls "key-1") proposed
      (cancelledInBetween ++ moves 0 11)) "key-1" = 1 := by decide +kernel
  have hzero := (hsafe (by decide +kernel)).2
  omega

/-- And a proposal whose action is stored still expires, where a cancellation would recover it. -/
example :
    Withdrawn (noteEngine.history World.isolated (proposalCalls "key-1") proposed
      (.spawn (.confirm "PROP-1" agent) :: moves 0 9 ++
        .crash 0 :: .drift ⟨toString, 900000000, ()⟩ ::
        .spawn (.status "PROP-1" "U-1" none) :: moves 1 3)).state.db "PROP-1" ∧
    ((noteEngine.history World.isolated (proposalCalls "key-1") proposed
      (.spawn (.confirm "PROP-1" agent) :: moves 0 9)).state.db.actionByKey? "key-1").isSome := by
  decide +kernel

end WorkflowEngine
