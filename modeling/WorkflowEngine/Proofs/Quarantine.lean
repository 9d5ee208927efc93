import WorkflowEngine.Proofs.Duplicates

/-! The quarantine. A message that waits in quarantine may be presented again with any other
conversation and number. It is judged by those, and its row keeps the old ones. As long as it
is presented as it was, it leaves the quarantine in its turn only. -/

namespace WorkflowEngine

open SQLiteCoreStore

/-- The columns say what the envelope in `envelope_json` says. -/
def InboxRow.Coherent (row : InboxRow) : Prop :=
  row.conversationId = row.envelopeJson.conversationId ∧
    row.sequence.map (·.1) = row.envelopeJson.sequence

instance (row : InboxRow) : Decidable row.Coherent := inferInstanceAs (Decidable (_ ∧ _))

namespace Inbox

def Coherent (inbox : Inbox) : Prop := ∀ row ∈ inbox.messages.rows, row.Coherent

instance (inbox : Inbox) : Decidable inbox.Coherent :=
  inferInstanceAs (Decidable (∀ row ∈ inbox.messages.rows, row.Coherent))

instance (inbox : Inbox) (e : MessageEnvelope) : Decidable (inbox.Next e) :=
  inferInstanceAs (Decidable (∀ s ∈ e.sequence, ∀ l ∈ inbox.lastSequence? e.conversation,
    s = l + 1))

/-- The delivery is not recorded: its number is processed already, or is next and does not fit
the column. -/
def Unrecorded (inbox : Inbox) (e : MessageEnvelope) : Prop :=
  (∃ s ∈ e.sequence, ∃ l ∈ inbox.lastSequence? e.conversation, s ≤ l) ∨ inbox.Next e ∧ ¬ e.Fits

instance (inbox : Inbox) (e : MessageEnvelope) : Decidable (inbox.Unrecorded e) :=
  inferInstanceAs (Decidable (_ ∨ _))

/-- A message that waits in quarantine is presented with the conversation and the number of
its row, unless the delivery is not recorded anyway. -/
def Repeats (inbox : Inbox) (e : MessageEnvelope) : Prop :=
  ∀ row ∈ inbox.message? e.key, row.orderingStatus = .quarantined →
    (row.conversationId = e.conversationId ∧ row.sequence.map (·.1) = e.sequence) ∨
      inbox.Unrecorded e

instance (inbox : Inbox) (e : MessageEnvelope) : Decidable (inbox.Repeats e) :=
  inferInstanceAs (Decidable (∀ row ∈ inbox.message? e.key, row.orderingStatus = .quarantined →
    (row.conversationId = e.conversationId ∧ row.sequence.map (·.1) = e.sequence) ∨
      inbox.Unrecorded e))

variable {inbox inbox' : Inbox} {e x : MessageEnvelope} {status : OrderingStatus}

theorem coherent_iff : inbox.Coherent ↔ ∀ k row, inbox.message? k = some row → row.Coherent := by
  constructor
  · intro h k row hrow
    exact h row (Relational.Table.get?_eq_some.1 hrow).1
  · intro h row hrow
    exact h row.key row (Relational.Table.get?_eq_some.2 ⟨hrow, rfl⟩)

theorem quarantined_of_not_holds {row : InboxRow} (hh : inbox.holds e.key = false)
    (hrow : inbox.message? e.key = some row) : row.orderingStatus = .quarantined := by
  simpa [holds, hrow] using hh

/-- What is recorded as accepted has a number that fits. -/
theorem Recorded.fits (hr : Recorded inbox e .accepted inbox') : e.Fits := by
  intro s hs
  have hl := hr.last e.conversation
  rw [hs, if_pos ⟨rfl, rfl, rfl⟩] at hl
  obtain ⟨row, -, rfl⟩ := Option.map_eq_some_iff.1 hl
  exact row.lastSequence.2

/-- A delivery that is recorded repeats what the row says. -/
theorem Repeats.columns (hf : inbox.Repeats e) (hh : inbox.holds e.key = false)
    (hu : ¬ inbox.Unrecorded e) {row : InboxRow} (hrow : inbox.message? e.key = some row) :
    row.conversationId = e.conversationId ∧ row.sequence.map (·.1) = e.sequence :=
  (hf row hrow (quarantined_of_not_holds hh hrow)).resolve_right hu

theorem Recorded.coherent (hr : Recorded inbox e status inbox') (hc : inbox.Coherent)
    (hrow : ∀ row, inbox.message? e.key = some row →
      row.conversationId = e.conversationId ∧ row.sequence.map (·.1) = e.sequence) :
    inbox'.Coherent := by
  rw [coherent_iff] at hc ⊢
  intro k row' hrow'
  by_cases hk : k = e.key
  · subst hk
    obtain ⟨row1, hrow1, hR⟩ := hr.message
    rw [hrow1] at hrow'
    cases hrow'
    unfold InboxRow.Coherent
    rw [hR.envelope]
    cases hold : inbox.message? e.key with
    | none => exact hR.new hold
    | some row =>
      obtain ⟨h1, h2⟩ := hR.kept row hold
      rw [h1, h2]
      exact hrow row hold
  · exact hc k row' (hr.others k hk ▸ hrow')

/-- The row still says what `x` was put into quarantine for. -/
structure Held (inbox : Inbox) (x : MessageEnvelope) : Prop where
  row : ∃ row, inbox.message? x.key = some row ∧ row.conversationId = x.conversationId ∧
    row.sequence.map (·.1) = x.sequence
  begun : (inbox.lastSequence? x.conversation).isSome
  sequenced : x.sequence.isSome

theorem Recorded.begun (hr : Recorded inbox e status inbox') {c : String × String}
    (hb : (inbox.lastSequence? c).isSome) : (inbox'.lastSequence? c).isSome := by
  rw [hr.last]
  split_ifs with h
  · exact h.2.2
  · exact hb

/-- No row loses its conversation or its number. -/
theorem Recorded.held (hr : Recorded inbox e status inbox') (hx : inbox.Held x) :
    inbox'.Held x := by
  refine ⟨?_, hr.begun hx.begun, hx.sequenced⟩
  obtain ⟨row, hxrow, hcols⟩ := hx.row
  by_cases hk : x.key = e.key
  · obtain ⟨row', hrow', hR⟩ := hr.message
    rw [hk] at hxrow ⊢
    obtain ⟨h1, h2⟩ := hR.kept row hxrow
    exact ⟨row', hrow', by rw [h1, h2]; exact hcols⟩
  · exact ⟨row, by rw [hr.others _ hk]; exact hxrow, hcols⟩

/-- Everything that was put into quarantine is still held there, or accepted. -/
structure Orderly (run : List Receipt × Inbox) : Prop where
  coherent : run.2.Coherent
  held : ∀ x ∈ run.1, x.status = some .quarantined →
    run.2.holds x.envelope.key = true ∨ run.2.Held x.envelope

/-- A message that was in quarantine is accepted in its turn. -/
def InTurn (run : List Receipt × Inbox) (e : MessageEnvelope) : Prop :=
  ∀ x ∈ run.1, x.status = some .quarantined → x.envelope.key = e.key →
    e.conversationId = x.envelope.conversationId ∧ e.sequence = x.envelope.sequence ∧
    ∃ s ∈ e.sequence, run.2.lastSequence? e.conversation = some (s - 1)

instance (run : List Receipt × Inbox) (e : MessageEnvelope) : Decidable (InTurn run e) :=
  inferInstanceAs (Decidable (∀ x ∈ run.1, x.status = some .quarantined → x.envelope.key = e.key →
    e.conversationId = x.envelope.conversationId ∧ e.sequence = x.envelope.sequence ∧
    ∃ s ∈ e.sequence, run.2.lastSequence? e.conversation = some (s - 1)))

theorem Orderly.accepted_inTurn {run : List Receipt × Inbox} (ho : Orderly run)
    (hf : run.2.Repeats e) (hh : run.2.holds e.key = false) (hn : run.2.Next e)
    (hu : ¬ run.2.Unrecorded e) : InTurn run e := by
  intro x hx hq hk
  rcases ho.held x hx hq with hacc | hheld
  · rw [hk, hh] at hacc
    cases hacc
  · obtain ⟨row, hrow, hc, hs⟩ := hheld.row
    rw [hk] at hrow
    obtain ⟨hec, hes⟩ := hf.columns hh hu hrow
    have hconv : e.conversationId = x.envelope.conversationId := hec.symm.trans hc
    have hseq : e.sequence = x.envelope.sequence := hes.symm.trans hs
    refine ⟨hconv, hseq, ?_⟩
    obtain ⟨s, hsome⟩ := Option.isSome_iff_exists.1 hheld.sequenced
    have hcv : e.conversation = x.envelope.conversation := by
      unfold MessageEnvelope.conversation
      rw [hconv, show e.providerId = x.envelope.providerId from congrArg Prod.fst hk.symm]
    obtain ⟨l, hl⟩ := Option.isSome_iff_exists.1 hheld.begun
    have hsl := hn s (hseq.trans hsome) l (hcv ▸ hl)
    exact ⟨s, hseq.trans hsome, by rw [hcv, hl, hsl]; simp⟩

theorem Recorded.holds (hr : Recorded inbox e status inbox') (hh : inbox.holds e.key = false)
    {k : String × String} (hk : inbox.holds k = true) : inbox'.holds k = true := by
  have hne : k ≠ e.key := by
    rintro rfl
    rw [hh] at hk
    cases hk
  rw [Inbox.holds, hr.others k hne]
  exact hk

/-- What a recorded delivery leaves, when it repeats its row. -/
theorem Orderly.recorded {run : List Receipt × Inbox} (ho : Orderly run)
    (hr : Recorded run.2 e status inbox') (hh : run.2.holds e.key = false)
    (hcols : ∀ row, run.2.message? e.key = some row →
      row.conversationId = e.conversationId ∧ row.sequence.map (·.1) = e.sequence)
    {r : Except PyErr MessageAcceptance}
    (hnew : (⟨e, r⟩ : Receipt).status = some .quarantined →
      e.sequence.isSome ∧ (run.2.lastSequence? e.conversation).isSome) :
    Orderly (run.1 ++ [⟨e, r⟩], inbox') := by
  have hc := hr.coherent ho.coherent hcols
  refine ⟨hc, fun x hx hq => ?_⟩
  rcases List.mem_append.1 hx with hx | hx
  · rcases ho.held x hx hq with hacc | hheld
    · exact Or.inl (hr.holds hh hacc)
    · exact Or.inr (hr.held hheld)
  · rw [List.mem_singleton.1 hx] at hq ⊢
    obtain ⟨row, hrow, hR⟩ := hr.message
    obtain ⟨h1, h2⟩ := coherent_iff.1 hc _ _ hrow
    rw [hR.envelope] at h1 h2
    exact Or.inr ⟨⟨row, hrow, h1, h2⟩, hr.begun (hnew hq).2, (hnew hq).1⟩

theorem Orderly.unchanged {run : List Receipt × Inbox} (ho : Orderly run)
    {r : Except PyErr MessageAcceptance} (hne : (⟨e, r⟩ : Receipt).status ≠ some .quarantined) :
    Orderly (run.1 ++ [⟨e, r⟩], run.2) := by
  refine ⟨ho.coherent, fun x hx hq => ?_⟩
  rcases List.mem_append.1 hx with hx | hx
  · exact ho.held x hx hq
  · rw [List.mem_singleton.1 hx] at hq
    exact absurd hq hne

/-- One delivery that repeats its row. -/
theorem Orderly.step {run : List Receipt × Inbox} (ho : Orderly run) (hf : run.2.Repeats e)
    {r : Except PyErr MessageAcceptance} (hout : Outcome run.2 e r inbox') :
    Orderly (run.1 ++ [⟨e, r⟩], inbox') ∧
      ((⟨e, r⟩ : Receipt).accepted = true → InTurn run e) := by
  cases hout with
  | received hh => exact ⟨ho.unchanged (by simp [Receipt.status]), nofun⟩
  | processed hh hs hl hle => exact ⟨ho.unchanged (by simp [Receipt.status]), nofun⟩
  | overflow hh hfit hlt hn => exact ⟨ho.unchanged (by simp [Receipt.status]), nofun⟩
  | quarantined hh hs hl hlt hr =>
    have hu : ¬ run.2.Unrecorded e := by
      rintro (⟨s', hs', l', hl', hle⟩ | ⟨hn, -⟩)
      · rw [hs] at hs'
        rw [hl] at hl'
        cases hs'
        cases hl'
        omega
      · have := hn _ hs _ hl
        omega
    refine ⟨ho.recorded hr hh (fun row hrow => hf.columns hh hu hrow) fun _ => ?_, nofun⟩
    simp [hs, hl]
  | accepted hh hn hr =>
    have hu : ¬ run.2.Unrecorded e := by
      rintro (⟨s, hs, l, hl, hle⟩ | ⟨-, hfit⟩)
      · have := hn s hs l hl
        omega
      · exact hfit hr.fits
    exact ⟨ho.recorded hr hh (fun row hrow => hf.columns hh hu hrow) (by simp [Receipt.status]),
      fun _ => ho.accepted_inTurn hf hh hn hu⟩

/-- A delivery after which the rows are coherent has repeated its row. -/
theorem repeats_of_coherent {r : Except PyErr MessageAcceptance} (hout : Outcome inbox e r inbox')
    (hc : inbox'.Coherent) : inbox.Repeats e := by
  intro row hrow hq
  have hwritten : ∀ status, Recorded inbox e status inbox' →
      row.conversationId = e.conversationId ∧ row.sequence.map (·.1) = e.sequence := by
    intro status hr
    obtain ⟨row', hrow', hR⟩ := hr.message
    obtain ⟨h1, h2⟩ := hR.kept row hrow
    have hc' := coherent_iff.1 hc _ _ hrow'
    rw [InboxRow.Coherent, hR.envelope, h1, h2] at hc'
    exact hc'
  cases hout with
  | received hh =>
    obtain ⟨row', hrow', ha⟩ := holds_eq_true.1 hh
    rw [hrow] at hrow'
    cases hrow'
    rw [hq] at ha
    cases ha
  | processed hh hs hl hle => exact Or.inr (Or.inl ⟨_, hs, _, hl, hle⟩)
  | quarantined hh hs hl hlt hr => exact Or.inl (hwritten _ hr)
  | accepted hh hn hr => exact Or.inl (hwritten _ hr)
  | overflow hh hfit hlt hn =>
    refine Or.inr (Or.inr ⟨hn.resolve_right ?_, hfit⟩)
    rw [hrow]
    nofun

end Inbox

open Inbox

/-- Over any deliveries to an empty inbox, every message leaves the quarantine in its turn and
the rows stay coherent exactly if every message that waits is presented as it was. -/
theorem quarantine_respected_iff (ds : List (Time × MessageEnvelope)) :
    (∀ pre d post, ds = pre ++ d :: post →
      ((⟨d.2, (acceptMessageResult d.1 (Inbox.empty.deliverAll pre).2 d.2).1⟩ : Receipt).accepted =
        true → InTurn (Inbox.empty.deliverAll pre) d.2) ∧
      (Inbox.empty.deliverAll (pre ++ [d])).2.Coherent) ↔
    ∀ pre d post, ds = pre ++ d :: post → (Inbox.empty.deliverAll pre).2.Repeats d.2 := by
  constructor
  · intro h pre d post hd
    have hc := (h pre d post hd).2
    rw [deliverAll_snoc] at hc
    exact repeats_of_coherent (accept_outcome d.1 _ d.2) hc
  · intro h pre d post hd
    have hrun : ∀ before after, ds = before ++ after → Orderly (Inbox.empty.deliverAll before) := by
      intro before
      induction before using List.reverseRecOn with
      | nil => exact fun _ _ => ⟨fun row hrow => (by cases hrow), fun x hx => (by cases hx)⟩
      | append_singleton before d' ih =>
        intro after hsplit
        rw [List.append_assoc] at hsplit
        have hstep := (ih _ hsplit).step (h before d' after hsplit)
          (accept_outcome d'.1 (Inbox.empty.deliverAll before).2 d'.2)
        rw [deliverAll_snoc]
        exact hstep.1
    have hstep := (hrun pre _ hd).step (h pre d post hd)
      (accept_outcome d.1 (Inbox.empty.deliverAll pre).2 d.2)
    refine ⟨hstep.2, ?_⟩
    rw [deliverAll_snoc]
    exact hstep.1.coherent

/-- The third message waits for the second; presented without its number it is accepted, and
its row says 3 where its envelope says nothing. -/
theorem quarantine_bypassed :
    let ds := [(0, message "M-1" (some 1)), (1, message "M-3" (some 3))]
    (Inbox.empty.deliverAll (ds ++ [(2, message "M-3" none)])).1.map (·.status) =
      [some .accepted, some .quarantined, some .accepted] ∧
    ¬ InTurn (Inbox.empty.deliverAll ds) (message "M-3" none) ∧
    ¬ (Inbox.empty.deliverAll (ds ++ [(2, message "M-3" none)])).2.Coherent := by
  decide +kernel

end WorkflowEngine
