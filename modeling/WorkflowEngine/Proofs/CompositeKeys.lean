import WorkflowEngine.Separator.Pairs
import WorkflowEngine.Spec.CaseIds
import WorkflowEngine.Spec.Channels

/-! The keys that are joined from two ids, and when they name one pair only. -/

namespace WorkflowEngine

open Separator

/-- Both parts may hold the separator: the second pair splits the joined text at a later one. -/
def SplitsLater (sep a c a' c' : String) : Prop := ∃ w, a' = a ++ sep ++ w ∧ c = w ++ sep ++ c'

theorem splitsLater_iff {sep a c a' c' : String} : SplitsLater sep a c a' c' ↔
    ∃ w, a'.toList = a.toList ++ sep.toList ++ w ∧ c.toList = w ++ sep.toList ++ c'.toList := by
  constructor
  · rintro ⟨w, rfl, rfl⟩
    exact ⟨w.toList, by simp, by simp⟩
  · rintro ⟨w, ha, hc⟩
    refine ⟨String.ofList w, String.toList_inj.1 ?_, String.toList_inj.1 ?_⟩
    · simpa using ha
    · simpa using hc

theorem SplitsLater.length_lt {sep a c a' c' : String} (h : SplitsLater sep a c a' c')
    (hsep : 0 < sep.length) : a.length < a'.length := by
  obtain ⟨w, rfl, -⟩ := h
  simp only [String.length_append]
  omega

/-- The two separators of a session key may share a colon. -/
theorem cutLater_customer {a c a' c' : String} :
    CutLater ":customer:".toList a.toList c.toList a'.toList c'.toList ↔
      SplitsLater ":customer:" a c a' c' ∨ a' = a ++ ":customer" ∧ c = "customer:" ++ c' := by
  rw [cutLater_iff (by decide), splitsLater_iff]
  refine or_congr_right ⟨?_, ?_⟩
  · rintro ⟨u, b, v, hu, hb, hub, hbv, ha, hc⟩
    have hborder : ∀ n < 10, n ≠ 0 →
        ":customer:".toList.drop n = ":customer:".toList.take (10 - n) →
        n = 9 := by decide
    have hten : ":customer:".toList.length = 10 := by decide
    have hlength := congrArg List.length hub
    rw [hten, List.length_append] at hlength
    have hu := List.length_pos_iff.2 hu
    have hb := List.length_pos_iff.2 hb
    have hdrop : ":customer:".toList.drop u.length = b := by rw [hub, List.drop_left]
    have htake : ":customer:".toList.take (10 - u.length) = b := by
      rw [hbv, List.take_left' (by omega)]
    have hnine := hborder u.length (by omega) (by omega) (hdrop.trans htake.symm)
    have hu' : u = ":customer:".toList.take 9 := by rw [hub, List.take_left' hnine]
    have hv : v = ":customer:".toList.drop 1 := by rw [hbv, List.drop_left' (by omega)]
    refine ⟨String.toList_inj.1 ?_, String.toList_inj.1 ?_⟩
    · rw [ha, hu', String.toList_append]
      rfl
    · rw [hc, hv, String.toList_append]
      rfl
  · rintro ⟨rfl, rfl⟩
    exact ⟨":customer".toList, [':'],
      "customer:".toList, by decide, by decide, by decide, by decide,
      String.toList_append, String.toList_append⟩

theorem cutLater_colon {a c a' c' : String} :
    CutLater ":".toList a.toList c.toList a'.toList c'.toList ↔ SplitsLater ":" a c a' c' := by
  rw [cutLater_iff (by decide), splitsLater_iff]
  refine or_iff_left ?_
  rintro ⟨u, b, v, hu, hb, hub, -⟩
  have hlength := congrArg List.length hub
  have hu := List.length_pos_iff.2 hu
  have hb := List.length_pos_iff.2 hb
  rw [List.length_append] at hlength
  have hone : ":".toList.length = 1 := by decide
  omega

/-- The case ids of refunds: of the proposals for an order, and of the refund command. -/
def RefundCaseId (upper : String → String) (customerId orderId caseId : String) : Prop :=
  caseId = refundCommandCaseId customerId orderId ∨
    ∃ conversationId arguments value, Fields.get? arguments "order_id" = some value ∧
      value.truthy = true ∧ value.pyStr = orderId ∧
      caseId = actionCaseId upper "issue_refund" customerId conversationId arguments

theorem refundCaseId_iff {upper : String → String} {customerId orderId caseId : String} :
    RefundCaseId upper customerId orderId caseId ↔
      caseId = refundCommandCaseId customerId orderId := by
  refine ⟨?_, .inl⟩
  rintro (rfl | ⟨conversationId, arguments, value, hvalue, htruthy, rfl, rfl⟩)
  · rfl
  · simp [actionCaseId, refundCommandCaseId, hvalue, htruthy, String.append_assoc]

theorem sessionOwnerId_eq_iff {a c a' c' : String} : sessionOwnerId a c = sessionOwnerId a' c' ↔
    a.toList ++ ":customer:".toList ++ c.toList =
      a'.toList ++ ":customer:".toList ++ c'.toList := by
  rw [sessionOwnerId, sessionOwnerId, ← String.toList_inj]
  simp

theorem refundCommandCaseId_eq_iff {a c a' c' : String}
    (hcollision : caseDigest (a ++ ":" ++ c) = caseDigest (a' ++ ":" ++ c') →
      a ++ ":" ++ c = a' ++ ":" ++ c') :
    refundCommandCaseId a c = refundCommandCaseId a' c' ↔
      a.toList ++ ":".toList ++ c.toList = a'.toList ++ ":".toList ++ c'.toList := by
  have htext : a ++ ":" ++ c = a' ++ ":" ++ c' ↔
      a.toList ++ ":".toList ++ c.toList = a'.toList ++ ":".toList ++ c'.toList := by
    rw [← String.toList_inj]
    simp
  rw [← htext, refundCommandCaseId, refundCommandCaseId, String.append_right_inj]
  exact ⟨hcollision, fun h => by rw [h]⟩

/-- The keys of two pairs differ exactly when neither pair splits the other's text later on. -/
theorem compositeKeys_inj_iff (upper : String → String) (a c a' c' : String)
    (hcollision : caseDigest (a ++ ":" ++ c) = caseDigest (a' ++ ":" ++ c') →
      a ++ ":" ++ c = a' ++ ":" ++ c') :
    ((sessionOwnerId a c = sessionOwnerId a' c' → a = a' ∧ c = c') ↔
      ¬ (SplitsLater ":customer:" a c a' c' ∨ SplitsLater ":customer:" a' c' a c ∨
        (a' = a ++ ":customer" ∧ c = "customer:" ++ c') ∨
        (a = a' ++ ":customer" ∧ c' = "customer:" ++ c))) ∧
    ((∀ caseId, RefundCaseId upper a c caseId → RefundCaseId upper a' c' caseId →
        a = a' ∧ c = c') ↔
      ¬ (SplitsLater ":" a c a' c' ∨ SplitsLater ":" a' c' a c)) := by
  have hpair : (a = a' ∧ c = c') ↔ (a.toList = a'.toList ∧ c.toList = c'.toList) := by
    rw [String.toList_inj, String.toList_inj]
  constructor
  · rw [sessionOwnerId_eq_iff, hpair, joined_inj_iff, cutLater_customer, cutLater_customer,
      or_or_or_comm, or_assoc]
  · rw [← cutLater_colon, ← cutLater_colon, ← joined_inj_iff, ← hpair,
      ← refundCommandCaseId_eq_iff hcollision]
    simp only [refundCaseId_iff]
    exact ⟨fun h heq => h _ rfl heq, fun h caseId hid hid' => h (hid.symm.trans hid')⟩

/-- Two agents whose ids differ share a session, and two customers a refund case. -/
theorem compositeKeys_not_inj :
    (¬ ∀ a c a' c', sessionOwnerId a c = sessionOwnerId a' c' → a = a' ∧ c = c') ∧
    ∀ upper, ¬ ∀ a c a' c' caseId, RefundCaseId upper a c caseId → RefundCaseId upper a' c' caseId →
      a = a' ∧ c = c' := by
  constructor
  · intro h
    have hne := h "agent" "x:customer:CUST-1" "agent:customer:x" "CUST-1" (by decide)
    exact absurd hne.1 (by decide)
  · intro upper h
    have hkey : refundCommandCaseId "CUST" "1:ORD-1" = refundCommandCaseId "CUST:1" "ORD-1" := by
      rw [refundCommandCaseId, refundCommandCaseId]
      exact congrArg (fun s => "CASE-REFUND-" ++ caseDigest s) (by decide)
    have hne := h "CUST" "1:ORD-1" "CUST:1" "ORD-1" _ (.inl rfl) (.inl hkey)
    exact absurd hne.1 (by decide)

theorem compositeKeys_inj_customers :
    sessionOwnerId "agent" "CUST-1" ≠ sessionOwnerId "agent" "CUST-2" ∧
    ∀ caseId, RefundCaseId id "CUST-1" "ORD-1" caseId →
    ¬ RefundCaseId id "CUST-2" "ORD-1" caseId := by
  have hsession := (compositeKeys_inj_iff id "agent" "CUST-1" "agent" "CUST-2"
    (by decide +kernel)).1.2
  have hcase := (compositeKeys_inj_iff id "CUST-1" "ORD-1" "CUST-2" "ORD-1"
    (by decide +kernel)).2.2
  constructor
  · intro h
    have hne := hsession (by
      rintro (h | h | h | h)
      · exact absurd (h.length_lt (by decide)) (by decide)
      · exact absurd (h.length_lt (by decide)) (by decide)
      · exact absurd h.1 (by decide)
      · exact absurd h.1 (by decide)) h
    exact absurd hne.2 (by decide)
  · intro caseId h h'
    have hne := hcase (by
      rintro (h | h)
      · exact absurd (h.length_lt (by decide)) (by decide)
      · exact absurd (h.length_lt (by decide)) (by decide)) caseId h h'
    exact absurd hne.1 (by decide)

end WorkflowEngine
