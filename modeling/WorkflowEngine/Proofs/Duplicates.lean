import WorkflowEngine.Sanity.Inbox

/-! Duplicate answers. A sequence number counts as processed when it is not above the last
one of its conversation. The last one is consecutive to those before it, but the first one is
whatever arrives first, so that the answer is true of every number from the first one on. -/

namespace WorkflowEngine

open SQLiteCoreStore InOrder

/-- The message, or one with its number in the conversation, is among `es`. -/
def Known (es : List MessageEnvelope) (e : MessageEnvelope) : Prop :=
  (∃ e' ∈ es, e'.key = e.key) ∨
    ∃ e' ∈ es, e'.conversation = e.conversation ∧ e'.sequence = e.sequence ∧ e.sequence.isSome

instance (es : List MessageEnvelope) (e : MessageEnvelope) : Decidable (Known es e) :=
  inferInstanceAs (Decidable (_ ∨ _))

namespace Inbox

/-- A message that is not there does not come from before the beginning of its
conversation. -/
def Begun (inbox : Inbox) (e : MessageEnvelope) : Prop :=
  inbox.holds e.key = true ∨ inbox.lastSequence? e.conversation = none ∨
    ∀ s ∈ e.sequence, ∃ row ∈ inbox.messages.rows, row.orderingStatus = .accepted ∧
      row.envelopeJson.conversation = e.conversation ∧ ∃ s' ∈ row.envelopeJson.sequence, s' ≤ s

instance (inbox : Inbox) (e : MessageEnvelope) : Decidable (inbox.Begun e) :=
  inferInstanceAs (Decidable (_ ∨ _ ∨ _))

theorem mem_sequencesOf {c : String × String} {es : List MessageEnvelope} {s : ℤ} :
    s ∈ sequencesOf c es ↔ ∃ e ∈ es, e.conversation = c ∧ e.sequence = some s := by
  simp [sequencesOf, and_assoc]

variable {inbox : Inbox} {es : List MessageEnvelope}

/-- The accepted rows are those of the ledger. -/
theorem Ledger.mem_iff (h : Ledger inbox es) {e : MessageEnvelope} :
    e ∈ es ↔ ∃ row ∈ inbox.messages.rows, row.orderingStatus = .accepted ∧
    row.envelopeJson = e := by
  rw [h.stored]
  constructor
  · rintro ⟨row, hrow, hs⟩
    exact ⟨row, (Relational.Table.get?_eq_some.1 hrow).1, hs⟩
  · rintro ⟨row, hrow, hs, rfl⟩
    have hget : inbox.message? row.key = some row := Relational.Table.get?_eq_some.2 ⟨hrow, rfl⟩
    exact ⟨row, h.keys _ _ hget ▸ hget, hs, rfl⟩

theorem Ledger.begun_iff (h : Ledger inbox es) {e : MessageEnvelope} {s l : ℤ}
    (hh : inbox.holds e.key = false) (hs : e.sequence = some s)
    (hl : inbox.lastSequence? e.conversation = some l) :
    inbox.Begun e ↔ ∃ s' ∈ sequencesOf e.conversation es, s' ≤ s := by
  unfold Begun
  constructor
  · rintro (h1 | h1 | h1)
    · rw [hh] at h1
      cases h1
    · rw [hl] at h1
      cases h1
    · obtain ⟨row, hrow, ha, hc, s', hs', hle⟩ := h1 s hs
      exact ⟨s', mem_sequencesOf.2 ⟨_, h.mem_iff.2 ⟨row, hrow, ha, rfl⟩, hc, hs'⟩, hle⟩
  · rintro ⟨s', hs', hle⟩
    obtain ⟨e', he', hc, hs'⟩ := mem_sequencesOf.1 hs'
    obtain ⟨row, hrow, ha, rfl⟩ := h.mem_iff.1 he'
    refine Or.inr (Or.inr fun s1 hs1 => ?_)
    rw [hs] at hs1
    cases hs1
    exact ⟨row, hrow, ha, hc, s', hs', hle⟩

theorem Ledger.begun_of_lt (h : Ledger inbox es) {e : MessageEnvelope}
    (hlt : ∀ s ∈ e.sequence, ∀ l ∈ inbox.lastSequence? e.conversation, l < s) : inbox.Begun e := by
  cases hh : inbox.holds e.key with
  | true => exact Or.inl hh
  | false =>
    cases hl : inbox.lastSequence? e.conversation with
    | none => exact Or.inr (Or.inl hl)
    | some l =>
      cases hs : e.sequence with
      | none => exact Or.inr (Or.inr (by simp [hs]))
      | some s =>
        have hm : l ∈ sequencesOf e.conversation es := List.mem_of_getLast? (h.last _ ▸ hl)
        exact (h.begun_iff hh hs hl).2 ⟨l, hm, (hlt s hs l hl).le⟩

/-- One delivery: its answer is true exactly if the message does not come from before the
beginning. -/
theorem Ledger.truthful_iff (h : Ledger inbox es) (now : Time) (e : MessageEnvelope) :
    ((⟨e, (acceptMessageResult now inbox e).1⟩ : Receipt).status = some .duplicate → Known es e) ↔
      inbox.Begun e := by
  have ho := accept_outcome now inbox e
  generalize (acceptMessageResult now inbox e).1 = r, (acceptMessageResult now inbox e).2 = i at ho
  cases ho with
  | received hh => exact ⟨fun _ => Or.inl hh, fun _ _ => Or.inl (h.holds_iff.1 hh)⟩
  | processed hh hs hl hle =>
    rename_i s l
    rw [h.begun_iff hh hs hl]
    constructor
    · intro hk
      rcases hk rfl with hkey | ⟨e', he', hc, hs', -⟩
      · rw [h.holds_iff.2 hkey] at hh
        cases hh
      · exact ⟨s, mem_sequencesOf.2 ⟨e', he', hc, hs'.trans hs⟩, le_rfl⟩
    · rintro ⟨s', hs', hle'⟩ -
      have hm := (h.chain _).mem_of_between hs' (h.last _ ▸ hl) hle' hle
      obtain ⟨e', he', hc, hse⟩ := mem_sequencesOf.1 hm
      exact Or.inr ⟨e', he', hc, hse.trans hs.symm, by simp [hs]⟩
  | quarantined hh hs hl hlt _ =>
    refine ⟨fun _ => h.begun_of_lt fun s' hs' l' hl' => ?_, fun _ hd => (by cases hd)⟩
    rw [hs] at hs'
    rw [hl] at hl'
    cases hs'
    cases hl'
    omega
  | accepted hh hn _ =>
    refine ⟨fun _ => h.begun_of_lt fun s hs l hl => ?_, fun _ hd => (by cases hd)⟩
    have := hn s hs l hl
    omega
  | overflow hh hf hlt _ => exact ⟨fun _ => h.begun_of_lt hlt, fun _ hd => (by cases hd)⟩

end Inbox

/-- Over any deliveries to an empty inbox, every `duplicate` is true of a message that was
accepted before exactly if no message comes from before the beginning of its conversation. -/
theorem duplicates_truthful_iff (ds : List (Time × MessageEnvelope)) :
    (∀ pre d post, ds = pre ++ d :: post →
      (⟨d.2, (acceptMessageResult d.1 (Inbox.empty.deliverAll pre).2 d.2).1⟩ : Receipt).status =
        some .duplicate → Known (acceptedOf (Inbox.empty.deliverAll pre).1) d.2) ↔
    ∀ pre d post, ds = pre ++ d :: post → (Inbox.empty.deliverAll pre).2.Begun d.2 := by
  have hl : ∀ pre, Inbox.Ledger (Inbox.empty.deliverAll pre).2
      (acceptedOf (Inbox.empty.deliverAll pre).1) := by
    intro pre
    simpa using Inbox.ledger_empty.deliverAll pre
  constructor
  · intro h pre d post hd
    exact ((hl pre).truthful_iff d.1 d.2).1 (h pre d post hd)
  · intro h pre d post hd
    exact ((hl pre).truthful_iff d.1 d.2).2 (h pre d post hd)

/-- A message of the conversation `C` of one provider. -/
def message (messageId : String) (sequence : Option ℤ) : MessageEnvelope where
  providerId := "chat-a"
  messageId := messageId
  conversationId := "C"
  customerId := "CUST-1"
  channel := .chat
  text := "hello"
  sequence := sequence
  correlationId := "c0"

/-- The third message arrives first; the second one is answered as a duplicate although
neither it nor another one with its number was accepted. -/
theorem overtaken_message_reported :
    let first := (0, message "M-3" (some 3))
    (Inbox.empty.deliverAll [first, (1, message "M-2" (some 2))]).1.map (·.status) =
      [some .accepted, some .duplicate] ∧
    ¬ Known (acceptedOf (Inbox.empty.deliverAll [first]).1) (message "M-2" (some 2)) := by
  decide +kernel

end WorkflowEngine
