import WorkflowEngine.InOrder.Delivery
import WorkflowEngine.Spec.Conversation

/-! What one delivery does to the inbox. It is suppressed, or it is recorded as accepted or
quarantined, or its transaction fails because the sequence number does not fit its column. -/

namespace WorkflowEngine

open Relational SQLiteCoreStore InOrder

namespace MessageEnvelope

/-- The sequence number, if there is one, fits the column. -/
def Fits (e : MessageEnvelope) : Prop := ∀ s ∈ e.sequence, -(2 ^ 63) ≤ s ∧ s < 2 ^ 63

instance (e : MessageEnvelope) : Decidable e.Fits :=
  inferInstanceAs (Decidable (∀ s ∈ e.sequence, -(2 ^ 63) ≤ s ∧ s < 2 ^ 63))

end MessageEnvelope

/-- The binding of an optional sequence number. -/
theorem mapM_sqlInteger (s : Option ℤ) :
    (∃ m, s.mapM sqlInteger = .ok m ∧ m.map (·.1) = s) ∨
    s.mapM sqlInteger = .error (.other "OverflowError") ∧
      ∃ n ∈ s, ¬ (-(2 ^ 63) ≤ n ∧ n < 2 ^ 63) := by
  cases s with
  | none => exact Or.inl ⟨none, rfl, rfl⟩
  | some n =>
    by_cases h : -(2 ^ 63) ≤ n ∧ n < 2 ^ 63
    · refine Or.inl ⟨some ⟨n, h⟩, ?_, rfl⟩
      rw [Option.mapM_some, sqlInteger_of_fits h]
      rfl
    · refine Or.inr ⟨?_, n, rfl, h⟩
      rw [Option.mapM_some, sqlInteger, dif_neg h]
      rfl

section
variable {last sequence : Option ℤ}

theorem arrival_processed (h : arrival last sequence = .processed) :
    ∃ s l, sequence = some s ∧ last = some l ∧ s ≤ l := by
  unfold arrival at h
  split at h
  · split_ifs at h with h1 h2
    exact ⟨_, _, rfl, rfl, h1⟩
  · cases h

theorem arrival_gap {expected received : ℤ} (h : arrival last sequence = .gap expected received) :
    ∃ s l, sequence = some s ∧ last = some l ∧ l + 1 < s := by
  unfold arrival at h
  split at h
  · split_ifs at h with h1 h2
    exact ⟨_, _, rfl, rfl, h2⟩
  · cases h

theorem arrival_next (h : arrival last sequence = .next) {s l : ℤ} (hs : s ∈ sequence)
    (hl : l ∈ last) : s = l + 1 := by
  cases hs
  cases hl
  simp only [arrival] at h
  split_ifs at h
  omega

end

namespace Inbox

/-- The row that `e` leaves, over the row that was there. -/
structure Row (old : Option InboxRow) (e : MessageEnvelope) (status : OrderingStatus)
    (row : InboxRow) : Prop where
  envelope : row.envelopeJson = e
  status : row.orderingStatus = status
  kept : ∀ row0 ∈ old, row.conversationId = row0.conversationId ∧ row.sequence = row0.sequence
  new : old = none → row.conversationId = e.conversationId ∧ row.sequence.map (·.1) = e.sequence

/-- What a transaction that commits has written. -/
structure Recorded (inbox : Inbox) (e : MessageEnvelope) (status : OrderingStatus)
    (inbox' : Inbox) : Prop where
  message : ∃ row, inbox'.message? e.key = some row ∧ Row (inbox.message? e.key) e status row
  others : ∀ k ≠ e.key, inbox'.message? k = inbox.message? k
  last : ∀ c, inbox'.lastSequence? c =
    if status = .accepted ∧ c = e.conversation ∧ e.sequence.isSome then e.sequence
    else inbox.lastSequence? c

theorem writeMessage_cases (now : Time) (inbox : Inbox) (e : MessageEnvelope)
    (status : OrderingStatus) :
    (∃ t', writeMessage now inbox.messages e status = .ok t' ∧
      (∃ row, t'.get? () e.key = some row ∧ Row (inbox.message? e.key) e status row) ∧
      ∀ k ≠ e.key, t'.get? () k = inbox.message? k) ∨
    writeMessage now inbox.messages e status = .error (.other "OverflowError") ∧
      inbox.message? e.key = none ∧ ¬ e.Fits := by
  unfold writeMessage message?
  cases hrow : inbox.messages.get? () e.key with
  | some row0 =>
    left
    refine ⟨_, rfl, ⟨row0.update e status now, ?_, rfl, rfl, ?_, ?_⟩, fun k hk => ?_⟩
    · have hkey : row0.key = e.key := (Table.get?_eq_some.1 hrow).2
      simp [Table.get?_updateWhere, hrow, hkey]
    · rintro row1 ⟨⟩
      exact ⟨rfl, rfl⟩
    · intro h
      cases h
    · rw [Table.get?_updateWhere]
      cases hk' : inbox.messages.get? () k with
      | none => rfl
      | some row1 =>
        have hkey : row1.key = k := (Table.get?_eq_some.1 hk').2
        simp [hkey, hk]
  | none =>
    rcases mapM_sqlInteger e.sequence with ⟨m, hm, hval⟩ | ⟨herr, n, hn, hout⟩
    · left
      simp only [hm]
      let row : InboxRow := ⟨e.providerId, e.messageId, e.conversationId, m, e, status, now⟩
      cases hi : inbox.messages.insert? row with
      | none =>
        obtain ⟨⟨⟩, b, hb⟩ := Table.insert?_eq_none.1 hi
        rw [show row.key = e.key from rfl, hrow] at hb
        cases hb
      | some t' =>
        refine ⟨t', ?_, ⟨row, ?_, rfl, rfl, ?_, fun _ => ⟨rfl, hval⟩⟩, fun k hk => ?_⟩
        · simp only [bind, Except.bind]
          rw [hi]
        · rw [Table.get?_insert? hi]
          exact if_pos rfl
        · rintro row1 ⟨⟩
        · rw [Table.get?_insert? hi]
          exact if_neg hk
    · right
      simp only [herr]
      exact ⟨rfl, trivial, fun h => hout (h n hn)⟩

theorem writeSequence_cases (now : Time) (inbox : Inbox) (e : MessageEnvelope) :
    (∃ t', writeSequence now inbox.sequences e = .ok t' ∧
      ∀ c, (t'.get? () c).map (·.lastSequence.1) =
        if c = e.conversation ∧ e.sequence.isSome then e.sequence else inbox.lastSequence? c) ∨
    writeSequence now inbox.sequences e = .error (.other "OverflowError") ∧ ¬ e.Fits := by
  unfold writeSequence
  cases hs : e.sequence with
  | none => exact Or.inl ⟨_, rfl, fun c => by simp [lastSequence?]⟩
  | some s =>
    by_cases h : -(2 ^ 63) ≤ s ∧ s < 2 ^ 63
    · left
      simp only [sqlInteger_of_fits h]
      refine ⟨_, rfl, fun c => ?_⟩
      have hkey : SequenceRow.conversation ⟨e.providerId, e.conversationId, ⟨s, h⟩, now⟩ =
        e.conversation := rfl
      rw [Table.get?_upsert, hkey]
      by_cases hc : c = e.conversation
      · simp only [hc, if_true, true_and, Option.isSome_some, Option.map_some]
        cases inbox.sequences.get? () e.conversation <;> rfl
      · simp [hc, lastSequence?]
    · right
      refine ⟨?_, fun hf => h (hf s hs)⟩
      simp only [sqlInteger, dif_neg h]
      rfl

/-- A transaction commits, unless the sequence number has to be bound and does not fit. -/
theorem record_cases (now : Time) (inbox : Inbox) (e : MessageEnvelope) (status : OrderingStatus) :
    (∃ inbox', recordMessage now inbox e status = .ok inbox' ∧ Recorded inbox e status inbox') ∨
    recordMessage now inbox e status = .error (.other "OverflowError") ∧ ¬ e.Fits ∧
      (status = .quarantined → inbox.message? e.key = none) := by
  unfold recordMessage
  rcases writeMessage_cases now inbox e status with ⟨t, ht, hrow, hothers⟩ | ⟨herr, hnone, hf⟩
  · rw [ht]
    cases status with
    | quarantined => exact Or.inl ⟨⟨t, inbox.sequences⟩, rfl, hrow, hothers, fun c => by simp; rfl⟩
    | accepted =>
      rcases writeSequence_cases now inbox e with ⟨u, hu, hlast⟩ | ⟨herr, hf⟩
      · left
        refine ⟨⟨t, u⟩, ?_, hrow, hothers, fun c => ?_⟩
        · simp only [hu]
          rfl
        · rw [lastSequence?, hlast]
          simp
      · right
        refine ⟨?_, hf, nofun⟩
        simp only [herr]
        rfl
  · rw [herr]
    exact Or.inr ⟨rfl, hf, fun _ => hnone⟩

/-- The number comes right after the last one of its conversation, if there is one. -/
def Next (inbox : Inbox) (e : MessageEnvelope) : Prop :=
  ∀ s ∈ e.sequence, ∀ l ∈ inbox.lastSequence? e.conversation, s = l + 1

/-- Everything that a delivery can come to. -/
inductive Outcome (inbox : Inbox) (e : MessageEnvelope) :
    Except PyErr MessageAcceptance → Inbox → Prop where
  | received (hh : inbox.holds e.key = true) :
    Outcome inbox e (.ok ⟨false, .duplicate, some "message_id"⟩) inbox
  | processed {s l : ℤ} (hh : inbox.holds e.key = false) (hs : e.sequence = some s)
    (hl : inbox.lastSequence? e.conversation = some l) (hle : s ≤ l) :
    Outcome inbox e (.ok ⟨false, .duplicate, some "sequence_already_processed"⟩) inbox
  | quarantined {s l : ℤ} {reason : Option String} {inbox' : Inbox}
    (hh : inbox.holds e.key = false) (hs : e.sequence = some s)
    (hl : inbox.lastSequence? e.conversation = some l) (hlt : l + 1 < s)
    (hr : Recorded inbox e .quarantined inbox') :
    Outcome inbox e (.ok ⟨false, .quarantined, reason⟩) inbox'
  | accepted {inbox' : Inbox} (hh : inbox.holds e.key = false) (hn : Next inbox e)
    (hr : Recorded inbox e .accepted inbox') : Outcome inbox e (.ok ⟨true, .accepted, none⟩) inbox'
  | overflow (hh : inbox.holds e.key = false) (hf : ¬ e.Fits)
    (hlt : ∀ s ∈ e.sequence, ∀ l ∈ inbox.lastSequence? e.conversation, l < s)
    (hn : Next inbox e ∨ inbox.message? e.key = none) :
    Outcome inbox e (.error (.other "OverflowError")) inbox

theorem accept_outcome (now : Time) (inbox : Inbox) (e : MessageEnvelope) :
    Outcome inbox e (acceptMessageResult now inbox e).1 (acceptMessageResult now inbox e).2 := by
  unfold acceptMessageResult
  cases hh : inbox.holds e.key with
  | true =>
    exact .received hh
  | false =>
    rw [if_neg Bool.false_ne_true]
    cases ha : arrival (inbox.lastSequence? e.conversation) e.sequence with
    | processed =>
      obtain ⟨s, l, hs, hl, hle⟩ := arrival_processed ha
      exact .processed hh hs hl hle
    | gap expected received =>
      obtain ⟨s, l, hs, hl, hlt⟩ := arrival_gap ha
      rcases record_cases now inbox e .quarantined with ⟨inbox', hok, hr⟩ | ⟨herr, hf, hnone⟩
      · simp only [hok]
        exact .quarantined hh hs hl hlt hr
      · simp only [herr]
        refine .overflow hh hf (fun s' hs' l' hl' => ?_) (Or.inr (hnone rfl))
        rw [hs] at hs'
        rw [hl] at hl'
        cases hs'
        cases hl'
        omega
    | next =>
      have hn : Next inbox e := fun s hs l hl => arrival_next ha hs hl
      rcases record_cases now inbox e .accepted with ⟨inbox', hok, hr⟩ | ⟨herr, hf, -⟩
      · simp only [hok]
        exact .accepted hh hn hr
      · simp only [herr]
        refine .overflow hh hf (fun s hs l hl => ?_) (Or.inl hn)
        have := hn s hs l hl
        omega

/-- The accepted message of this envelope is there. -/
def Accepted (inbox : Inbox) (e : MessageEnvelope) : Prop :=
  ∃ row, inbox.message? e.key = some row ∧ row.orderingStatus = .accepted ∧ row.envelopeJson = e

/-- The two tables, and the envelopes that were accepted so far. -/
structure Ledger (inbox : Inbox) (accepted : List MessageEnvelope) : Prop where
  keys : ∀ k row, inbox.message? k = some row → row.envelopeJson.key = k
  stored : ∀ e, e ∈ accepted ↔ inbox.Accepted e
  once : (accepted.map (·.key)).Nodup
  chain : ∀ c, Consecutive (sequencesOf c accepted)
  last : ∀ c, inbox.lastSequence? c = (sequencesOf c accepted).getLast?

theorem ledger_empty : Ledger .empty [] := by
  refine ⟨fun k row h => (by cases h), fun e => ⟨nofun, ?_⟩, List.nodup_nil, fun c => .nil, ?_⟩
  · rintro ⟨row, h, -⟩
    cases h
  · intro c
    rfl

theorem holds_eq_true {inbox : Inbox} {k : String × String} :
    inbox.holds k = true ↔ ∃ row, inbox.message? k = some row ∧ row.orderingStatus = .accepted := by
  unfold holds
  cases inbox.message? k with
  | none => simp
  | some row => cases h : row.orderingStatus <;> simp [h]

theorem Ledger.holds_iff {inbox : Inbox} {es : List MessageEnvelope} (h : Ledger inbox es)
    {k : String × String} : inbox.holds k = true ↔ ∃ e ∈ es, e.key = k := by
  rw [holds_eq_true]
  constructor
  · rintro ⟨row, hrow, hs⟩
    have hk := h.keys k row hrow
    exact ⟨row.envelopeJson, (h.stored _).2 ⟨row, hk.symm ▸ hrow, hs, rfl⟩, hk⟩
  · rintro ⟨e, he, rfl⟩
    obtain ⟨row, hrow, hs, -⟩ := (h.stored e).1 he
    exact ⟨row, hrow, hs⟩

theorem sequencesOf_snoc (c : String × String) (es : List MessageEnvelope) (e : MessageEnvelope) :
    sequencesOf c (es ++ [e]) =
      sequencesOf c es ++ if e.conversation = c then e.sequence.toList else [] := by
  unfold sequencesOf
  rw [List.filter_append, List.filterMap_append]
  by_cases h : e.conversation = c
  · cases hs : e.sequence <;> simp [h, hs]
  · simp [h]

section
variable {inbox inbox' : Inbox} {e : MessageEnvelope} {status : OrderingStatus}

theorem Recorded.keys (hr : Recorded inbox e status inbox')
    (hk : ∀ k row, inbox.message? k = some row → row.envelopeJson.key = k) :
    ∀ k row, inbox'.message? k = some row → row.envelopeJson.key = k := by
  intro k row hrow
  by_cases he : k = e.key
  · subst he
    obtain ⟨row', hrow', hR⟩ := hr.message
    rw [hrow'] at hrow
    cases hrow
    rw [hR.envelope]
  · exact hk k row (hr.others k he ▸ hrow)

/-- Which messages are accepted after `e` was recorded. -/
theorem Recorded.accepted_iff (hr : Recorded inbox e status inbox') (hh : inbox.holds e.key = false)
    (e' : MessageEnvelope) :
    inbox'.Accepted e' ↔ inbox.Accepted e' ∨ status = .accepted ∧ e' = e := by
  obtain ⟨row', hrow', hR⟩ := hr.message
  unfold Accepted
  by_cases he : e'.key = e.key
  · have hold : ¬ ∃ row, inbox.message? e'.key = some row ∧ row.orderingStatus = .accepted ∧
        row.envelopeJson = e' := by
      rintro ⟨row, hrow, hs, -⟩
      have : inbox.holds e.key = true := holds_eq_true.2 ⟨row, he ▸ hrow, hs⟩
      rw [hh] at this
      cases this
    rw [he, hrow']
    rw [he] at hold
    constructor
    · rintro ⟨row, ⟨⟩, hs, rfl⟩
      exact Or.inr ⟨hR.status.symm.trans hs, hR.envelope⟩
    · rintro (h | ⟨rfl, rfl⟩)
      · exact absurd h hold
      · exact ⟨row', rfl, hR.status, hR.envelope⟩
  · rw [hr.others _ he]
    constructor
    · exact Or.inl
    · rintro (h | ⟨-, rfl⟩)
      · exact h
      · exact absurd rfl he

end

/-- A delivery keeps the ledger, and adds its envelope if it is accepted. -/
theorem Ledger.step {inbox inbox' : Inbox} {es : List MessageEnvelope} (h : Ledger inbox es)
    {e : MessageEnvelope} {r : Except PyErr MessageAcceptance} (ho : Outcome inbox e r inbox') :
    Ledger inbox' (es ++ acceptedOf [⟨e, r⟩]) := by
  cases ho with
  | received _ => simpa [acceptedOf, Receipt.accepted] using h
  | processed _ _ _ _ => simpa [acceptedOf, Receipt.accepted] using h
  | overflow _ _ _ _ => simpa [acceptedOf, Receipt.accepted] using h
  | quarantined hh hs hl hlt hr =>
    have hnil : ∀ reason, acceptedOf [⟨e, .ok ⟨false, .quarantined, reason⟩⟩] = [] := fun _ => rfl
    rw [hnil, List.append_nil]
    refine ⟨hr.keys h.keys, fun e' => ?_, h.once, h.chain, fun c => ?_⟩
    · simpa [hr.accepted_iff hh] using h.stored e'
    · simpa [hr.last] using h.last c
  | accepted hh hn hr =>
    have he : acceptedOf [⟨e, .ok ⟨true, .accepted, none⟩⟩] = [e] := rfl
    rw [he]
    refine ⟨hr.keys h.keys, fun e' => ?_, ?_, fun c => ?_, fun c => ?_⟩
    · simp [hr.accepted_iff hh, ← h.stored e']
    · rw [List.map_append, List.nodup_append]
      refine ⟨h.once, List.nodup_singleton _, ?_⟩
      intro k hk k' hk' heq
      obtain ⟨e', he', rfl⟩ := List.mem_map.1 hk
      have hke : e'.key = e.key := by simpa [heq] using hk'
      have : inbox.holds e.key = true := h.holds_iff.2 ⟨e', he', hke⟩
      rw [hh] at this
      cases this
    · rw [sequencesOf_snoc]
      by_cases hc : e.conversation = c
      · subst hc
        rw [if_pos rfl]
        cases hs : e.sequence with
        | none => simpa using h.chain _
        | some s => exact (h.chain _).snoc fun l hl => hn s hs l (h.last _ ▸ hl)
      · simpa [hc] using h.chain c
    · rw [hr.last, sequencesOf_snoc, h.last]
      by_cases hc : c = e.conversation
      · subst hc
        cases hs : e.sequence <;> simp
      · simp [hc, Ne.symm hc]

theorem acceptedOf_append (xs ys : List Receipt) :
    acceptedOf (xs ++ ys) = acceptedOf xs ++ acceptedOf ys := by
  simp [acceptedOf]

theorem deliverAll_snoc (inbox : Inbox) (ds : List (Time × MessageEnvelope))
    (d : Time × MessageEnvelope) :
    inbox.deliverAll (ds ++ [d]) = deliver (inbox.deliverAll ds) d := by
  simp [deliverAll]

theorem Ledger.deliverAll {inbox : Inbox} {es : List MessageEnvelope} (h : Ledger inbox es)
    (ds : List (Time × MessageEnvelope)) :
    Ledger (inbox.deliverAll ds).2 (es ++ acceptedOf (inbox.deliverAll ds).1) := by
  induction ds using List.reverseRecOn with
  | nil => simpa [Inbox.deliverAll, acceptedOf] using h
  | append_singleton ds d ih =>
    rw [deliverAll_snoc, deliver, acceptedOf_append, ← List.append_assoc]
    exact ih.step (accept_outcome d.1 _ d.2)

end Inbox
end WorkflowEngine
