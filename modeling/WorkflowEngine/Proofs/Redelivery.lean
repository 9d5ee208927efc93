import WorkflowEngine.Proofs.Duplicates
import WorkflowEngine.Proofs.TurnOrder

/-! Failed turns. A message is accepted for good before its processor starts, so a turn that
raises or crashes has used its message up. A redelivery is answered like any other duplicate,
and is never processed. -/

namespace WorkflowEngine

open Interleave SQLiteCoreStore TurnLog

/-- The answer to a message whose id was accepted before. -/
abbrev alreadyReceived : Except PyErr MessageAcceptance :=
  .ok ⟨false, .duplicate, some "message_id"⟩

/-- The task has delivered `e`, and it was accepted. -/
def AcceptedBy (xs : List (Entry conversationSig)) (τ : ℕ) (e : MessageEnvelope) : Prop :=
  ∃ r, (⟨τ, .accept e, r⟩ : Entry conversationSig) ∈ xs ∧ (⟨e, r⟩ : Receipt).accepted = true

theorem Inbox.Outcome.received_iff {inbox inbox' : Inbox} {e : MessageEnvelope}
    {r : Except PyErr MessageAcceptance} (h : Inbox.Outcome inbox e r inbox') :
    r = alreadyReceived ↔ inbox.holds e.key = true := by
  cases h with
  | received hh => simp [hh]
  | processed hh _ _ _ => simp [hh]
  | quarantined hh _ _ _ _ => simp [hh]
  | accepted hh _ _ => simp [hh]
  | overflow hh _ _ _ => simp [hh]

section
variable {guard : JurisdictionGuard} {admits : ConversationCall → Bool}

theorem mem_acceptedOf {h : TurnLog} {e : MessageEnvelope} :
    e ∈ acceptedOf h.receipts ↔ ∃ τ, AcceptedBy h.trace τ e := by
  unfold acceptedOf
  constructor
  · intro he
    obtain ⟨receipt, hr, rfl⟩ := List.mem_map.1 he
    obtain ⟨hr, ha⟩ := List.mem_filter.1 hr
    obtain ⟨⟨τ, o, r⟩, hx, heq⟩ := List.mem_filterMap.1 hr
    cases o with
    | accept a =>
      cases heq
      exact ⟨τ, r, hx, ha⟩
    | _ => cases heq
  · rintro ⟨τ, r, hx, ha⟩
    refine List.mem_map.2 ⟨⟨e, r⟩, List.mem_filter.2 ⟨?_, ha⟩, rfl⟩
    exact List.mem_filterMap.2 ⟨_, hx, rfl⟩

/-- A message id is answered as received exactly after it was accepted. -/
theorem received_iff_accepted (acts : List (conversationSystem guard admits).Move) (now : Time)
    (e : MessageEnvelope) :
    (acceptMessageResult now (turnHistory guard admits acts).state e).1 = alreadyReceived ↔
      ∃ τ first, AcceptedBy (turnHistory guard admits acts).trace τ first ∧ first.key = e.key := by
  refine ((Inbox.accept_outcome now _ e).received_iff.trans (ledger_run acts).holds_iff).trans ?_
  simp only [mem_acceptedOf]
  constructor
  · rintro ⟨first, ⟨τ, hfirst⟩, hkey⟩
    exact ⟨τ, first, hfirst, hkey⟩
  · rintro ⟨τ, first, hfirst, hkey⟩
    exact ⟨first, ⟨τ, hfirst⟩, hkey⟩

/-- The processor of the turn has returned. -/
def Completed (h : TurnLog) (τ : ℕ) : Prop :=
  ∃ generated, (⟨τ, .generated, .ok generated⟩ : Entry conversationSig) ∈ h.trace

/-- The turn is over without a result: its processor has raised, or the turn has crashed. -/
def Failed (h : TurnLog) (τ : ℕ) : Prop :=
  (∃ err, (⟨τ, .generated, .error err⟩ : Entry conversationSig) ∈ h.trace) ∨
    τ ∈ h.crashed ∧ ¬ Completed h τ

/-- A turn whose message was accepted has completed or is still running, unless it has failed. -/
theorem not_failed_iff (acts : List (conversationSystem guard admits).Move) {τ : ℕ}
    {e : MessageEnvelope} (h : AcceptedBy (turnHistory guard admits acts).trace τ e) :
    let c := (conversationSystem guard admits).run
      ((conversationSystem guard admits).init .empty) acts
    ¬ Failed c.hist τ ↔ Completed c.hist τ ∨ (conversationSystem guard admits).live c τ = true := by
  intro c
  obtain ⟨r, hx, ha⟩ := h
  obtain ⟨p, hp, hc⟩ := course_of_mem acts hx
  constructor
  · intro hnot
    obtain ⟨hraised, hcrashed⟩ := not_or.1 hnot
    rcases hc.ended ⟨e, r⟩ (mem_ownReceipts.2 hx) ha with ⟨o, k, rfl⟩ | ⟨g, hg⟩
    · by_cases hcr : τ ∈ c.hist.crashed
      · exact Or.inl (not_not.1 fun hno => hcrashed ⟨hcr, hno⟩)
      · exact Or.inr (System.live_iff.2 ⟨o, k, hp, hcr⟩)
    · cases g with
      | ok generated => exact Or.inl ⟨generated, Entry.own_event_iff.1 hg⟩
      | error err => exact absurd ⟨err, Entry.own_event_iff.1 hg⟩ hraised
  · rintro hdone (⟨err, herr⟩ | ⟨hcr, hno⟩)
    · obtain ⟨hover, hone⟩ := hc.closed _ (Entry.own_event_iff.2 herr)
      rcases hdone with ⟨generated, hg⟩ | hlive
      · cases hone _ (Entry.own_event_iff.2 hg)
      · obtain ⟨o, k, hready, -⟩ := System.live_iff.1 hlive
        exact hover o k (Option.some.inj (hp.symm.trans hready))
    · rcases hdone with hg | hlive
      · exact hno hg
      · obtain ⟨o, k, -, hnot⟩ := System.live_iff.1 hlive
        exact hnot hcr

/-- A delivery that is answered as received follows a turn of the message that has completed or is
still running. -/
def NotSwallowed (c : (conversationSystem guard admits).Config)
    (a : (conversationSystem guard admits).Move) : Prop :=
  ∀ τ e, ((conversationSystem guard admits).next c a).hist.trace =
      c.hist.trace ++ [⟨τ, .accept e, alreadyReceived⟩] →
    ∃ τ' first, AcceptedBy c.hist.trace τ' first ∧ first.key = e.key ∧
      (Completed c.hist τ' ∨ (conversationSystem guard admits).live c τ' = true)

/-- No turn of a message that is delivered has failed before. -/
def Unfailed (c : (conversationSystem guard admits).Config)
    (a : (conversationSystem guard admits).Move) : Prop :=
  ∀ e, (conversationSystem guard admits).performs c a = some (.accept e) →
    ∀ τ first, AcceptedBy c.hist.trace τ first → first.key = e.key → ¬ Failed c.hist τ

/-- The turn that was accepted is the only one of its message. -/
theorem AcceptedBy.unique {acts : List (conversationSystem guard admits).Move} {τ τ' : ℕ}
    {e e' : MessageEnvelope} (h : AcceptedBy (turnHistory guard admits acts).trace τ e)
    (h' : AcceptedBy (turnHistory guard admits acts).trace τ' e') (hkey : e.key = e'.key) :
    τ = τ' := by
  obtain ⟨r, hr, ha⟩ := h
  obtain ⟨r', hr', ha'⟩ := h'
  exact eq_of_accepted acts (a := ⟨e, r⟩) (b := ⟨e', r'⟩) (mem_ownReceipts.2 hr)
    (mem_ownReceipts.2 hr') ha ha' hkey

theorem notSwallowed_iff (acts : List (conversationSystem guard admits).Move)
    (a : (conversationSystem guard admits).Move) :
    let c := (conversationSystem guard admits).run
      ((conversationSystem guard admits).init .empty) acts
    NotSwallowed c a ↔ Unfailed c a := by
  intro c
  constructor
  · intro h e hperforms τ first hfirst hkey
    obtain ⟨τ', choice, k, rfl, hready⟩ := System.ready_of_performs hperforms
    have hanswer := (received_iff_accepted acts choice.now e).2 ⟨τ, first, hfirst, hkey⟩
    have htrace : ((conversationSystem guard admits).next c (.run τ' choice)).hist.trace =
        c.hist.trace ++ [⟨τ', .accept e, alreadyReceived⟩] := by
      rw [System.next_run hready, ← hanswer]
      rfl
    obtain ⟨τ'', first', hfirst', hkey', hdone⟩ := h τ' e htrace
    obtain rfl := hfirst.unique hfirst' (hkey.trans hkey'.symm)
    exact (not_failed_iff acts hfirst).2 hdone
  · intro h τ e htrace
    obtain ⟨choice, k, -, hres, -⟩ := System.exec_of_next htrace
    obtain ⟨τ', first, hfirst, hkey⟩ := (received_iff_accepted acts choice.now e).1 hres.symm
    have hnot := h e (System.performs_of_next htrace) τ' first hfirst hkey
    exact ⟨τ', first, hfirst, hkey, (not_failed_iff acts hfirst).1 hnot⟩

end

/-- A run loses no message to a failure exactly if no message is delivered again after the turn
that accepted it has failed. -/
theorem turns_survive_iff (guard : JurisdictionGuard) (admits : ConversationCall → Bool)
    (acts : List (conversationSystem guard admits).Move) :
    System.Guarded NotSwallowed ((conversationSystem guard admits).init .empty) acts ↔
      System.Guarded Unfailed ((conversationSystem guard admits).init .empty) acts :=
  System.guarded_congr notSwallowed_iff acts

/-- A message whose turn has failed is never processed again. -/
theorem failed_for_good (guard : JurisdictionGuard) (admits : ConversationCall → Bool)
    (acts later : List (conversationSystem guard admits).Move) {τ : ℕ} {first : MessageEnvelope}
    (hfirst : AcceptedBy (turnHistory guard admits acts).trace τ first)
    (hfailed : Failed (turnHistory guard admits acts) τ) :
    let h := turnHistory guard admits (acts ++ later)
    Failed h τ ∧
      (∀ now e, e.key = first.key → (acceptMessageResult now h.state e).1 = alreadyReceived) ∧
      ∀ x ∈ h.trace, TurnLog.invoked? h x = some first.key → x.tid = τ := by
  intro h
  have hlater : h = ((conversationSystem guard admits).run ((conversationSystem guard admits).run
      ((conversationSystem guard admits).init .empty) acts) later).hist :=
    congrArg System.Config.hist (System.run_append _ acts later)
  have htrace : ∀ x ∈ (turnHistory guard admits acts).trace, x ∈ h.trace := by
    intro x hx
    rw [hlater]
    exact (System.trace_run _ later).subset hx
  have hkept : AcceptedBy h.trace τ first := by
    obtain ⟨r, hr, ha⟩ := hfirst
    exact ⟨r, htrace _ hr, ha⟩
  refine ⟨?_, fun now e hkey => (received_iff_accepted _ now e).2 ⟨τ, first, hkept, hkey.symm⟩,
    fun x hx hinvoked => ?_⟩
  · rcases hfailed with ⟨err, herr⟩ | ⟨hcrashed, hno⟩
    · exact Or.inl ⟨err, htrace _ herr⟩
    · obtain ⟨hstays, hown⟩ := System.crashed_run hcrashed later
      rw [← hlater] at hstays hown
      refine Or.inr ⟨hstays, fun hcompleted => hno ?_⟩
      obtain ⟨generated, hg⟩ := hcompleted
      exact ⟨generated, hown _ hg rfl⟩
  · obtain ⟨-, receipt, hr, hacc, hkey⟩ := receipt_of_invoked _ hx hinvoked
    have hother : AcceptedBy h.trace x.tid receipt.envelope :=
      ⟨receipt.answer, mem_ownReceipts.1 (by rw [hr]; exact List.mem_singleton_self _), hacc⟩
    exact hother.unique hkept hkey

abbrev directGuard : JurisdictionGuard := ⟨{ profileId := "NAM" }, true⟩

abbrev customerActor : TurnActor :=
  ⟨"CUST-1", "customer", [], sessionOwnerId "CUST-1" "CUST-1"⟩

/-- A turn whose processor raises, and a redelivery of its message. -/
def failedTurn : List (conversationSystem directGuard fun _ => true).Move :=
  let turn := ConversationCall.turn (message "M-1" none) customerActor
  let failure := TurnChoice.mk 1 "" (.error (.other "RuntimeError"))
  [.spawn turn, .run 0 failure, .run 0 failure, .run 0 failure, .spawn turn, .run 1 failure]

/-- The processor raises, and the redelivery is answered as received. -/
theorem failed_turn_swallowed :
    ¬ System.Guarded NotSwallowed ((conversationSystem directGuard fun _ => true).init .empty)
      failedTurn := by
  intro h
  obtain ⟨-, -, -, -, -, hlast, -⟩ := h
  have hunfailed := (notSwallowed_iff failedTurn.dropLast _).1 hlast
  refine hunfailed (message "M-1" none) rfl 0 (message "M-1" none) ?_ rfl (Or.inl ?_)
  · exact ⟨.ok ⟨true, .accepted, none⟩, List.mem_cons_self, rfl⟩
  · exact ⟨.other "RuntimeError", List.mem_cons_of_mem _ (List.mem_cons_of_mem _
      List.mem_cons_self)⟩

/-- One turn accepted, one answer that the message was received, and no result. -/
example : ((turnHistory directGuard (fun _ => true) failedTurn).receipts.map Receipt.accepted,
    (turnHistory directGuard (fun _ => true) failedTurn).receipts.map
      (·.answer == alreadyReceived)) =
      ([true, false], [false, true]) := by decide +kernel

end WorkflowEngine
