import WorkflowEngine.Proofs.Duplicates

/-! Convergence of the inbox. The next messages of a conversation, delivered in any order and
any number of times, are accepted one after the other, each at its first delivery after its
predecessor's acceptance. -/

namespace WorkflowEngine

open SQLiteCoreStore InOrder

namespace Inbox

def status? (inbox : Inbox) (k : String × String) : Option OrderingStatus :=
  (inbox.message? k).map (·.orderingStatus)

/-- The envelopes `es` are the next ones of the conversation `c`, after the number `l`. -/
structure Stream (inbox : Inbox) (c : String × String) (l : ℤ) (es : List MessageEnvelope) :
    Prop where
  conversation : ∀ e ∈ es, e.conversation = c
  sequence : ∀ i (h : i < es.length), es[i].sequence = some (l + 1 + i)
  distinct : (es.map (·.messageId)).Nodup
  fresh : ∀ e ∈ es, inbox.message? e.key = none
  last : inbox.lastSequence? c = some l
  fits : l + es.length < 2 ^ 63

variable {inbox inbox' : Inbox} {c : String × String} {l : ℤ} {es : List MessageEnvelope}

theorem lastSequence?_fits (h : inbox.lastSequence? c = some l) : -(2 ^ 63) ≤ l ∧ l < 2 ^ 63 := by
  obtain ⟨row, -, rfl⟩ := Option.map_eq_some_iff.1 h
  exact row.lastSequence.2

namespace Stream

theorem nodup (hs : Stream inbox c l es) : es.Nodup := hs.distinct.of_map _

theorem eq_of_key (hs : Stream inbox c l es) {a b : MessageEnvelope} (ha : a ∈ es) (hb : b ∈ es)
    (h : a.key = b.key) : a = b :=
  List.inj_on_of_nodup_map hs.distinct ha hb (congrArg Prod.snd h)

theorem fits_of_mem (hs : Stream inbox c l es) {e : MessageEnvelope} (he : e ∈ es) : e.Fits := by
  obtain ⟨i, hi, rfl⟩ := List.mem_iff_getElem.1 he
  intro s hsome
  rw [hs.sequence i hi] at hsome
  cases hsome
  have h1 := lastSequence?_fits hs.last
  have h2 := hs.fits
  omega

end Stream

/-- The state of the inbox when the first `k` messages of the stream have been accepted. -/
structure Progress (inbox : Inbox) (c : String × String) (l : ℤ) (es : List MessageEnvelope)
    (delivered : List MessageEnvelope) (k : ℕ) (run : List Receipt × Inbox) : Prop where
  subset : ∀ e ∈ delivered, e ∈ es
  accepted : acceptedOf run.1 = es.take k
  last : ∀ c', run.2.lastSequence? c' = if c' = c then some (l + k) else inbox.lastSequence? c'
  done : ∀ e ∈ es.take k, run.2.status? e.key = some .accepted
  waiting : ∀ e ∈ delivered, e ∉ es.take k → run.2.status? e.key = some .quarantined
  pending : ∀ e ∈ es, e ∉ es.take k → run.2.holds e.key = false
  others : ∀ key, (∀ e ∈ es, e.key ≠ key) → run.2.status? key = inbox.status? key

theorem holds_of_status {k : String × String} (h : inbox.status? k = some .accepted) :
    inbox.holds k = true := by
  obtain ⟨row, hrow, ha⟩ := Option.map_eq_some_iff.1 h
  exact holds_eq_true.2 ⟨row, hrow, ha⟩

theorem Recorded.status_eq {e : MessageEnvelope} {status : OrderingStatus}
    (hr : Recorded inbox e status inbox') (k : String × String) :
    inbox'.status? k = if k = e.key then some status else inbox.status? k := by
  unfold status?
  split_ifs with hk
  · obtain ⟨row, hrow, hR⟩ := hr.message
    rw [hk, hrow, Option.map_some, hR.status]
  · rw [hr.others k hk]

theorem Recorded.holds_ne {e : MessageEnvelope} {status : OrderingStatus}
    (hr : Recorded inbox e status inbox') {k : String × String} (hk : k ≠ e.key) :
    inbox'.holds k = inbox.holds k := by
  unfold holds
  rw [hr.others k hk]

theorem progress_init (hs : Stream inbox c l es) : Progress inbox c l es [] 0 ([], inbox) := by
  refine ⟨by simp, rfl, fun c' => ?_, by simp, by simp, fun e he _ => ?_, fun _ _ => rfl⟩
  · split_ifs with hc
    · rw [hc, hs.last]
      simp
    · rfl
  · rw [holds, hs.fresh e he]
    rfl

/-- A message of the stream that is delivered again after its acceptance. -/
theorem Progress.again {delivered : List MessageEnvelope} {k : ℕ} {run : List Receipt × Inbox}
    (hp : Progress inbox c l es delivered k run) {e : MessageEnvelope} (he : e ∈ es.take k)
    {r : Except PyErr MessageAcceptance} (ho : Outcome run.2 e r inbox') :
    Progress inbox c l es (delivered ++ [e]) k (run.1 ++ [⟨e, r⟩], inbox') := by
  have hh := holds_of_status (hp.done e he)
  cases ho with
  | received _ =>
    refine ⟨?_, ?_, hp.last, hp.done, fun e' he' hn => ?_, hp.pending, hp.others⟩
    · intro e' he'
      rcases List.mem_append.1 he' with he' | he'
      · exact hp.subset e' he'
      · exact List.mem_of_mem_take (List.mem_singleton.1 he' ▸ he)
    · simpa [acceptedOf, Receipt.accepted] using hp.accepted
    · rcases List.mem_append.1 he' with he' | he'
      · exact hp.waiting e' he' hn
      · rw [List.mem_singleton.1 he'] at hn
        exact absurd he hn
  | processed hf _ _ _ => simp [hh] at hf
  | quarantined hf _ _ _ _ => simp [hh] at hf
  | accepted hf _ _ => simp [hh] at hf
  | overflow hf _ _ _ => simp [hh] at hf

/-- The next message of the stream. -/
theorem Progress.next (hs : Stream inbox c l es) {delivered : List MessageEnvelope} {k : ℕ}
    {run : List Receipt × Inbox} (hp : Progress inbox c l es delivered k run)
    (hk : k < es.length) {r : Except PyErr MessageAcceptance} (ho : Outcome run.2 es[k] r inbox') :
    Progress inbox c l es (delivered ++ [es[k]]) (k + 1) (run.1 ++ [⟨es[k], r⟩], inbox') := by
  have hmem : es[k] ∈ es := List.getElem_mem hk
  have htake : es.take (k + 1) = es.take k ++ [es[k]] := (List.take_concat_get' es k hk).symm
  have hnot : es[k] ∉ es.take k := by
    have := hs.nodup.sublist (List.take_sublist (k + 1) es)
    rw [htake] at this
    exact fun h => (List.nodup_append.1 this).2.2 _ h _ (by simp) rfl
  have hlast : run.2.lastSequence? es[k].conversation = some (l + k) := by
    rw [hs.conversation _ hmem, hp.last, if_pos rfl]
  have hseq := hs.sequence k hk
  cases ho with
  | received hh =>
    rw [hp.pending _ hmem hnot] at hh
    cases hh
  | processed hh h1 h2 hle =>
    rw [hseq] at h1
    rw [hlast] at h2
    cases h1
    cases h2
    omega
  | quarantined hh h1 h2 hlt hr =>
    rw [hseq] at h1
    rw [hlast] at h2
    cases h1
    cases h2
    omega
  | overflow hh hf _ _ => exact absurd (hs.fits_of_mem hmem) hf
  | accepted hh hn hr =>
    -- every other message of the stream has another key
    have hother : ∀ e ∈ es, e ∉ es.take (k + 1) → e.key ≠ es[k].key ∧ e ∉ es.take k := by
      intro e he hn'
      rw [htake, List.mem_append, List.mem_singleton, not_or] at hn'
      exact ⟨fun h => hn'.2 (hs.eq_of_key he hmem h), hn'.1⟩
    have hdel : ∀ e ∈ delivered ++ [es[k]], e ∈ es := by
      intro e he
      rcases List.mem_append.1 he with he | he
      · exact hp.subset e he
      · exact List.mem_singleton.1 he ▸ hmem
    refine ⟨hdel, ?_, fun c' => ?_, fun e he => ?_, fun e he hn' => ?_, fun e he hn' => ?_,
      fun key hkey => ?_⟩
    · rw [acceptedOf_append, hp.accepted, htake]
      rfl
    · rw [hr.last, hs.conversation _ hmem, hseq]
      by_cases hc : c' = c
      · simp [hc]
        omega
      · simp [hc, hp.last]
    · rw [hr.status_eq]
      split_ifs with hkey
      · rfl
      · rw [htake] at he
        rcases List.mem_append.1 he with he | he
        · exact hp.done e he
        · exact absurd (congrArg MessageEnvelope.key (List.mem_singleton.1 he)) hkey
    · obtain ⟨hkey, hne⟩ := hother e (hdel e he) hn'
      rw [hr.status_eq, if_neg hkey]
      rcases List.mem_append.1 he with he | he
      · exact hp.waiting e he hne
      · exact absurd (congrArg MessageEnvelope.key (List.mem_singleton.1 he)) hkey
    · obtain ⟨hkey, hne⟩ := hother e he hn'
      rw [hr.holds_ne hkey]
      exact hp.pending e he hne
    · rw [hr.status_eq, if_neg fun h => hkey _ hmem h.symm]
      exact hp.others key hkey

/-- A message of the stream that comes before its turn. -/
theorem Progress.early (hs : Stream inbox c l es) {delivered : List MessageEnvelope} {k i : ℕ}
    {run : List Receipt × Inbox} (hp : Progress inbox c l es delivered k run) (hki : k < i)
    (hi : i < es.length) {r : Except PyErr MessageAcceptance} (ho : Outcome run.2 es[i] r inbox') :
    Progress inbox c l es (delivered ++ [es[i]]) k (run.1 ++ [⟨es[i], r⟩], inbox') := by
  have hmem : es[i] ∈ es := List.getElem_mem hi
  have hnot : es[i] ∉ es.take k := by
    intro h
    obtain ⟨j, hj, he⟩ := List.mem_take_iff_getElem.1 h
    have := (List.Nodup.getElem_inj_iff hs.nodup).1 he
    omega
  have hlast : run.2.lastSequence? es[i].conversation = some (l + k) := by
    rw [hs.conversation _ hmem, hp.last, if_pos rfl]
  have hseq := hs.sequence i hi
  cases ho with
  | received hh =>
    rw [hp.pending _ hmem hnot] at hh
    cases hh
  | processed hh h1 h2 hle =>
    rw [hseq] at h1
    rw [hlast] at h2
    cases h1
    cases h2
    omega
  | accepted hh hn hr =>
    have := hn _ hseq _ hlast
    omega
  | overflow hh hf _ _ => exact absurd (hs.fits_of_mem hmem) hf
  | quarantined hh h1 h2 hlt hr =>
    have hkeys : ∀ e ∈ es, e ≠ es[i] → e.key ≠ es[i].key :=
      fun e he hne hkey => hne (hs.eq_of_key he hmem hkey)
    refine ⟨?_, ?_, fun c' => ?_, fun e he => ?_, fun e he hn' => ?_, fun e he hn' => ?_,
      fun key hkey => ?_⟩
    · intro e he
      rcases List.mem_append.1 he with he | he
      · exact hp.subset e he
      · exact List.mem_singleton.1 he ▸ hmem
    · simpa [acceptedOf, Receipt.accepted] using hp.accepted
    · simpa [hr.last] using hp.last c'
    · have hne : e ≠ es[i] := fun h => hnot (h ▸ he)
      rw [hr.status_eq, if_neg (hkeys e (List.mem_of_mem_take he) hne)]
      exact hp.done e he
    · rw [hr.status_eq]
      split_ifs with hkey
      · rfl
      · rcases List.mem_append.1 he with he | he
        · exact hp.waiting e he hn'
        · exact absurd (congrArg MessageEnvelope.key (List.mem_singleton.1 he)) hkey
    · by_cases hkey : e.key = es[i].key
      · obtain ⟨row, hrow, hR⟩ := hr.message
        rw [hkey, holds, hrow]
        simp [hR.status]
      · rw [hr.holds_ne hkey]
        exact hp.pending e he hn'
    · rw [hr.status_eq, if_neg fun h => hkey _ hmem h.symm]
      exact hp.others key hkey

/-- The messages that are accepted are those that the deliveries contain in order. -/
theorem progress_run (hs : Stream inbox c l es) (ds : List (Time × MessageEnvelope))
    (hd : ∀ d ∈ ds, d.2 ∈ es) : Progress inbox c l es (ds.map (·.2))
      (matched es (ds.map (·.2))) (inbox.deliverAll ds) := by
  induction ds using List.reverseRecOn with
  | nil =>
    rw [List.map_nil, matched_nil]
    exact progress_init hs
  | append_singleton ds d ih =>
    have hp := ih fun d' hd' => hd d' (List.mem_append_left _ hd')
    have ho := accept_outcome d.1 (inbox.deliverAll ds).2 d.2
    obtain ⟨i, hi, he⟩ := List.mem_iff_getElem.1 (hd d (by simp))
    rw [List.map_append, List.map_singleton, deliverAll_snoc, matched_snoc]
    generalize matched es (ds.map (·.2)) = k at hp ⊢
    unfold deliver
    rw [← he] at ho ⊢
    rcases Nat.lt_trichotomy i k with hlt | heq | hgt
    · have hne : es[k]? ≠ some es[i] := by
        intro h
        obtain ⟨hk, hkeq⟩ := List.getElem?_eq_some_iff.1 h
        have := (List.Nodup.getElem_inj_iff hs.nodup).1 hkeq
        omega
      rw [if_neg hne]
      exact hp.again (List.mem_take_iff_getElem.2 ⟨i, by omega, rfl⟩) ho
    · subst heq
      rw [if_pos (List.getElem?_eq_getElem hi)]
      exact hp.next hs hi ho
    · have hne : es[k]? ≠ some es[i] := by
        intro h
        obtain ⟨hk, hkeq⟩ := List.getElem?_eq_some_iff.1 h
        have := (List.Nodup.getElem_inj_iff hs.nodup).1 hkeq
        omega
      rw [if_neg hne]
      exact hp.early hs hgt hi ho

/-- Deliveries that contain the whole stream in order leave every message accepted. -/
theorem complete_run (hs : Stream inbox c l es) {ds : List (Time × MessageEnvelope)}
    (hd : ∀ d ∈ ds, d.2 ∈ es) (hsub : es.Sublist (ds.map (·.2))) :
    Progress inbox c l es (ds.map (·.2)) es.length (inbox.deliverAll ds) :=
  matched_eq_length_iff.2 hsub ▸ progress_run hs ds hd

theorem status_of_complete (hs : Stream inbox c l es) {ds ds' : List (Time × MessageEnvelope)}
    (hd : ∀ d ∈ ds, d.2 ∈ es) (hd' : ∀ d ∈ ds', d.2 ∈ es) (hsub : es.Sublist (ds.map (·.2)))
    (hsub' : es.Sublist (ds'.map (·.2))) (key : String × String) :
    (inbox.deliverAll ds).2.status? key = (inbox.deliverAll ds').2.status? key := by
  have hp := complete_run hs hd hsub
  have hp' := complete_run hs hd' hsub'
  by_cases hk : ∀ e ∈ es, e.key ≠ key
  · rw [hp.others key hk, hp'.others key hk]
  · simp only [not_forall, not_not] at hk
    obtain ⟨e, he, rfl⟩ := hk
    rw [← List.take_length (l := es)] at he
    rw [hp.done e he, hp'.done e he]

end Inbox

open Inbox

/-- Any deliveries of the next messages of a conversation. What is accepted is the longest
beginning of the stream that the deliveries contain in order, and the rest waits. Once the
whole stream is contained, as it is after one pass for each message, everything is accepted
and the state does not depend on the order. -/
theorem inbox_converges {inbox : Inbox} {c : String × String} {l : ℤ} {es : List MessageEnvelope}
    (hs : Stream inbox c l es) (ds : List (Time × MessageEnvelope)) (hd : ∀ d ∈ ds, d.2 ∈ es) :
    (∃ k ≤ es.length,
      (∀ j ≤ es.length, (es.take j).Sublist (ds.map (·.2)) ↔ j ≤ k) ∧
      acceptedOf (inbox.deliverAll ds).1 = es.take k ∧
      (inbox.deliverAll ds).2.lastSequence? c = some (l + k) ∧
      ∀ e ∈ ds.map (·.2), (inbox.deliverAll ds).2.status? e.key =
        some (if e ∈ es.take k then .accepted else .quarantined)) ∧
    (es.Sublist (ds.map (·.2)) →
      acceptedOf (inbox.deliverAll ds).1 = es ∧
      (inbox.deliverAll ds).2.lastSequence? c = some (l + es.length) ∧
      (∀ e ∈ es, (inbox.deliverAll ds).2.status? e.key = some .accepted) ∧
      ∀ ds', (∀ d ∈ ds', d.2 ∈ es) → es.Sublist (ds'.map (·.2)) →
        ∀ key c', (inbox.deliverAll ds').2.status? key = (inbox.deliverAll ds).2.status? key ∧
          (inbox.deliverAll ds').2.lastSequence? c' = (inbox.deliverAll ds).2.lastSequence? c') ∧
    ∀ passes : List (List (Time × MessageEnvelope)), ds = passes.flatten →
      (∀ pass ∈ passes, es ⊆ pass.map (·.2)) → es.length ≤ passes.length →
      es.Sublist (ds.map (·.2)) := by
  refine ⟨⟨_, matched_le es _, fun j hj => take_sublist_iff hj, ?_⟩, fun hsub => ?_, ?_⟩
  · have hp := progress_run hs ds hd
    refine ⟨hp.accepted, by rw [hp.last, if_pos rfl], fun e he => ?_⟩
    split_ifs with hk
    · exact hp.done e hk
    · exact hp.waiting e he hk
  · have hp := complete_run hs hd hsub
    refine ⟨by rw [hp.accepted, List.take_length], by rw [hp.last, if_pos rfl], fun e he => ?_,
      fun ds' hd' hsub' key c' => ⟨status_of_complete hs hd' hd hsub' hsub key, ?_⟩⟩
    · exact hp.done e (by rwa [List.take_length])
    · rw [hp.last, (complete_run hs hd' hsub').last]
  · rintro passes rfl hpass hlen
    rw [List.map_flatten]
    refine sublist_flatten_of_passes (fun pass hp => ?_) (by simpa using hlen)
    obtain ⟨p, hp', rfl⟩ := List.mem_map.1 hp
    exact hpass p hp'

/-- The inbox after the first message of the conversation. -/
def firstReceived (sequence : ℤ) : Inbox :=
  (Inbox.empty.deliverAll [(0, message "M-1" (some sequence))]).2

/-- The second and the third message, first in the wrong order and then again. -/
theorem inbox_converges_reversed :
    let es := [message "M-2" (some 2), message "M-3" (some 3)]
    let ds := [(1, message "M-3" (some 3)), (2, message "M-2" (some 2)),
      (3, message "M-3" (some 3))]
    acceptedOf ((firstReceived 1).deliverAll ds).1 = es ∧
      ((firstReceived 1).deliverAll ds).2.lastSequence? ("chat-a", "C") = some (1 + 2) := by
  have hs : Stream (firstReceived 1) ("chat-a", "C") 1
      [message "M-2" (some 2), message "M-3" (some 3)] :=
    ⟨by decide, by decide, by decide, by decide +kernel, by decide +kernel, by decide⟩
  have h := (inbox_converges hs [(1, message "M-3" (some 3)), (2, message "M-2" (some 2)),
    (3, message "M-3" (some 3))] (by decide +kernel)).2.1 (by decide +kernel)
  exact ⟨h.1, h.2.1⟩

/-- After the largest number of the column the next message is never accepted: its transaction
fails. -/
theorem number_past_column_fails :
    (firstReceived (2 ^ 63 - 1)).lastSequence? ("chat-a", "C") = some (2 ^ 63 - 1) ∧
    (firstReceived (2 ^ 63 - 1)).message? ("chat-a", "M-2") = none ∧
    ((firstReceived (2 ^ 63 - 1)).deliverAll [(1, message "M-2" (some (2 ^ 63)))]).1.map
      (·.answer) =
      [.error (.other "OverflowError")] ∧
    acceptedOf ((firstReceived (2 ^ 63 - 1)).deliverAll
      [(1, message "M-2" (some (2 ^ 63)))]).1 = [] := by
  decide +kernel

end WorkflowEngine
