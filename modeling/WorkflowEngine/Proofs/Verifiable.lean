import WorkflowEngine.Sanity.Amounts
import WorkflowEngine.Spec.Steering

/-! When the verification of a response returns. The amounts and the day counts are cut out of the
text by patterns that match more than the conversions behind them take. -/

namespace WorkflowEngine

open Regex Fallible

/-- What is relied on of the libraries: no digit is a space, and `Rational` and `RealVal` take the
`repr` of the finite floats. -/
structure ReasoningLibs.Documented (libs : ReasoningLibs) : Prop where
  apart : Claims.DigitsApart libs.tables
  rational : ∀ x : PyFloat, Returns (libs.rational x.repr) ↔ x.isFinite = true
  realVal : ∀ x : PyFloat, x.isFinite = true → Returns (libs.realVal x.repr)
  zero : Returns (libs.rational "0")

variable {libs : ReasoningLibs}

/-! Conversions -/

/-- An integer beyond the floats. -/
def Json.Overflows (v : Json) : Prop :=
  ∃ n, v = .int n ∧ 2 ^ 53 < n.natAbs ∧ roundFloat n 0 = none

theorem Json.not_overflows {v : Json} (h : ∀ n, v ≠ .int n) : ¬ v.Overflows := by
  rintro ⟨n, hn, -⟩
  exact h n hn

/-- A value that `float()` takes, if it does, to one with the property; it may refuse the value
with an error that is caught. -/
structure Quantity (libs : ReasoningLibs) (v : Json) (p : PyFloat → Prop) : Prop where
  small : ¬ v.Overflows
  value : ∀ x, v.toPyFloat libs.tables = .ok x → p x

theorem toPyFloat_int (n : ℤ) :
    (∃ x, Json.toPyFloat libs.tables (.int n) = .ok x) ∧ ¬ (Json.int n).Overflows ∨
    Json.toPyFloat libs.tables (.int n) = .error (.other "OverflowError") ∧
      (Json.int n).Overflows := by
  change (∃ x, (Json.toFloat (.int n)).map _ = .ok x) ∧ _ ∨ (Json.toFloat (.int n)).map _ = _ ∧ _
  rw [Json.toFloat]
  split_ifs with hsmall
  · refine .inl ⟨⟨_, rfl⟩, ?_⟩
    rintro ⟨m, hm, hlarge, -⟩
    cases hm
    exact absurd hsmall (not_le.2 hlarge)
  · cases hround : roundFloat n 0 with
    | some x =>
      refine .inl ⟨⟨_, rfl⟩, ?_⟩
      rintro ⟨m, hm, -, hnone⟩
      cases hm
      rw [hround] at hnone
      cases hnone
    | none => exact .inr ⟨rfl, n, rfl, not_le.1 hsmall, hround⟩

theorem floatOfText_error {s : List Char} {e : PyErr} (h : floatOfText libs.tables s = .error e) :
    ∃ message, e = .valueError message := by
  unfold floatOfText at h
  dsimp only at h
  split at h
  · cases h
  · split at h
    · cases h
    · cases h
      exact ⟨_, rfl⟩

/-- A conversion that is guarded against all but an overflow. -/
theorem returns_bind_floatOrNone {β : Type} {v : Json} {f : Option PyFloat → Except PyErr β}
    {p : PyFloat → Prop} (hnone : Returns (f none)) (hsome : ∀ x, Returns (f (some x)) ↔ p x) :
    Returns (ReasoningEngine.floatOrNone libs v >>= f) ↔ Quantity libs v p := by
  have hvalue : ∀ x, v.toPyFloat libs.tables = .ok x → ¬ v.Overflows →
      (Returns (ReasoningEngine.floatOrNone libs v >>= f) ↔ Quantity libs v p) := by
    intro x hx hsmall
    have hfloat : ReasoningEngine.floatOrNone libs v = .ok (some x) := by
      rw [ReasoningEngine.floatOrNone, hx]
    rw [hfloat]
    refine (hsome x).trans ⟨fun hp => ⟨hsmall, fun y hy => ?_⟩, fun h => h.value x hx⟩
    obtain rfl : x = y := Except.ok.inj (hx.symm.trans hy)
    exact hp
  have hcaught : ∀ e, v.toPyFloat libs.tables = .error e → ¬ v.Overflows →
      ReasoningEngine.floatOrNone libs v = .ok none →
      (Returns (ReasoningEngine.floatOrNone libs v >>= f) ↔ Quantity libs v p) := by
    intro e he hsmall hfloat
    rw [hfloat]
    refine iff_of_true hnone ⟨hsmall, fun y hy => ?_⟩
    rw [he] at hy
    cases hy
  cases v with
  | str s =>
    cases h : floatOfText libs.tables s.toList with
    | ok x => exact hvalue x h (Json.not_overflows (by simp))
    | error e =>
      obtain ⟨message, rfl⟩ := floatOfText_error h
      refine hcaught _ h (Json.not_overflows (by simp)) ?_
      rw [ReasoningEngine.floatOrNone, Json.toPyFloat, h]
  | int n =>
    rcases toPyFloat_int n with ⟨⟨x, hx⟩, hsmall⟩ | ⟨herror, hlarge⟩
    · exact hvalue x hx hsmall
    · refine iff_of_false ?_ fun h => h.small hlarge
      rw [ReasoningEngine.floatOrNone, herror]
      exact not_returns_error _
  | null => exact hcaught _ rfl (Json.not_overflows (by simp)) rfl
  | bool b => exact hvalue _ rfl (Json.not_overflows (by simp))
  | float m e => exact hvalue _ rfl (Json.not_overflows (by simp))
  | list xs => exact hcaught _ rfl (Json.not_overflows (by simp)) rfl
  | dict kvs => exact hcaught _ rfl (Json.not_overflows (by simp)) rfl

/-! Claims -/

namespace Claims

variable {tables : Tables} {text : String}

/-- Every amount has a digit, and no count of days more digits than `int()` takes. -/
structure Readable (tables : Tables) (text : String) : Prop where
  amounts : ∀ a ∈ amountTexts tables text, ∃ c ∈ a, tables.isDigit c = true
  days : ∀ x ∈ dayTexts tables text, x.1.length ≤ intMaxStrDigits ∧ x.2.length ≤ intMaxStrDigits

/-- Every amount is read as a float that is finite. -/
def AllFinite (tables : Tables) (text : String) : Prop :=
  ∀ a ∈ amountTexts tables text, ∃ x, amountOf tables a = .ok x ∧ x.isFinite = true

theorem returns_intOfDigits {s : List Char} :
    Returns (intOfDigits tables s) ↔ s.length ≤ intMaxStrDigits := by
  unfold intOfDigits
  split_ifs with h
  · exact iff_of_false (not_returns_error _) (not_le.2 h)
  · exact iff_of_true (returns_ok _) (not_lt.1 h)

theorem returns_daysOf {x : List Char × List Char} : Returns (daysOf tables x) ↔
    x.1.length ≤ intMaxStrDigits ∧ x.2.length ≤ intMaxStrDigits := by
  refine (returns_seq fun first _ => ?_).trans (and_congr_left' returns_intOfDigits)
  split_ifs with h
  · rw [h]
    exact iff_of_true (returns_pure _) (Nat.zero_le _)
  · exact returns_bind_pure.trans returns_intOfDigits

theorem returns_extractClaims (hapart : DigitsApart tables) :
    Returns (extractClaims tables text) ↔ Readable tables text := by
  refine (returns_seq fun amounts _ => returns_bind_pure).trans ?_
  rw [returns_mapM, returns_mapM]
  constructor
  · rintro ⟨hamounts, hdays⟩
    exact ⟨fun a ha => (returns_amountOf hapart ha).1 (hamounts a ha), fun x hx =>
      returns_daysOf.1 (hdays x hx)⟩
  · rintro ⟨hamounts, hdays⟩
    exact ⟨fun a ha => (returns_amountOf hapart ha).2 (hamounts a ha), fun x hx =>
      returns_daysOf.2 (hdays x hx)⟩

/-- The claims that were extracted. -/
structure Of (tables : Tables) (text : String) (c : Claims) : Prop where
  approved : c.refundApproved = claims tables refundApprovedPattern text
  denied : c.refundDenied = claims tables (refundDeniedPattern tables) text
  none : amountTexts tables text = [] → c.mentionedAmounts = none
  some : amountTexts tables text ≠ [] → ∃ amounts, c.mentionedAmounts = some amounts ∧
    ((∀ x ∈ amounts, x.isFinite = true) ↔ AllFinite tables text)

theorem of_extractClaims {c : Claims} (h : extractClaims tables text = .ok c) :
    Of tables text c := by
  obtain ⟨amounts, hamounts, h⟩ := bind_eq_ok.1 h
  obtain ⟨days, -, h⟩ := bind_eq_ok.1 h
  cases h
  refine ⟨rfl, rfl, fun hnil => ?_, fun hne => ⟨amounts, ?_, ?_⟩⟩
  · rw [hnil] at hamounts
    cases hamounts
    rfl
  · refine if_neg fun hempty => hne ?_
    rcases head_of_mapM hamounts with ⟨hnil, -⟩ | ⟨_, _, _, _, -, rfl, -⟩
    · exact hnil
    · cases hempty
  · constructor
    · intro hfinite a ha
      obtain ⟨x, hx, he⟩ := mem_of_mapM hamounts ha
      exact ⟨x, he, hfinite x hx⟩
    · intro hfinite x hx
      obtain ⟨a, ha, he⟩ := of_mem_mapM hamounts hx
      obtain ⟨y, hy, hfin⟩ := hfinite a ha
      obtain rfl : x = y := Except.ok.inj (he.symm.trans hy)
      exact hfin

end Claims

/-! The reasoning rails -/

namespace ReasoningEngine

variable {moment : Moment} {policy : ReasoningPolicy} {state : Fields} {text : String}

/-- Z3 takes the status and the category of an order whose age is known. -/
def Groundable (libs : ReasoningLibs) (moment : Moment) (state : Fields) : Prop :=
  ∀ age, getOrderAgeDays libs moment state = some age →
    ((state.get? "order_status").getD (.str "")).truthy = true →
      Returns (libs.stringVal ((state.get? "order_status").getD (.str ""))) ∧
      Returns (libs.boolEq ((state.get? "is_refundable_category").getD (.bool true)))

theorem returns_verifyEligibilityClaims {claims : Claims} :
    Returns (verifyEligibilityClaims libs moment claims policy state) ↔
      (claims.refundApproved = true ∨ claims.refundDenied = true →
        Groundable libs moment state) := by
  unfold verifyEligibilityClaims Groundable
  by_cases hclaim : claims.refundApproved = true ∨ claims.refundDenied = true
  · rw [if_neg (by rcases hclaim with h | h <;> simp [h]), forall_prop_of_true hclaim]
    cases hage : getOrderAgeDays libs moment state with
    | none => exact iff_of_true (returns_ok _) nofun
    | some age =>
      dsimp only
      split_ifs with hstatus
      · refine iff_of_true (returns_ok _) fun _ _ htruthy => ?_
        rw [htruthy] at hstatus
        cases hstatus
      · have htruthy : ((state.get? "order_status").getD (.str "")).truthy = true := by
          simpa using hstatus
        rw [returns_seq fun _ _ => returns_bind_pure]
        exact ⟨fun h _ _ _ => h, fun h => h age rfl htruthy⟩
  · rw [if_pos (by simpa [not_or] using hclaim)]
    exact iff_of_true (returns_ok _) fun h => absurd h hclaim

theorem returns_verifyAmount (hdoc : libs.Documented) {orderTotal amount : PyFloat} {orderSym : ℚ}
    {found : List Finding × List String} (htotal : orderTotal.isFinite = true) :
    Returns (verifyAmount libs moment policy orderTotal orderSym found amount) ↔
      amount.isFinite = true := by
  unfold verifyAmount
  rw [← hdoc.rational amount]
  refine (returns_seq fun amountSym h => ?_).trans (and_iff_left trivial)
  have hfinite := (hdoc.rational amount).1 ⟨amountSym, h⟩
  rw [iff_true]
  obtain ⟨totalTerm, ht⟩ := hdoc.realVal orderTotal htotal
  obtain ⟨amountTerm, ha⟩ := hdoc.realVal amount hfinite
  split_ifs <;> exact returns_bind.2
    ⟨totalTerm, ht, returns_bind.2 ⟨amountTerm, ha, returns_pure _⟩⟩

theorem returns_verifyAmountClaims (hdoc : libs.Documented) {claims : Claims}
    {amounts : List PyFloat} (hamounts : claims.mentionedAmounts = some amounts)
    {cited : List String} :
    Returns (verifyAmountClaims libs moment claims policy state cited) ↔
      (stateValue state "order_total" ≠ .null →
        Quantity libs (stateValue state "order_total") fun x =>
          x.isFinite = true ∧ ∀ a ∈ amounts, a.isFinite = true) := by
  unfold verifyAmountClaims
  rw [hamounts]
  dsimp only
  split_ifs with hnull
  · exact iff_of_true (returns_pure _) fun h => absurd hnull h
  · rw [forall_prop_of_true hnull]
    refine returns_bind_floatOrNone (returns_pure _) fun x => ?_
    rw [← hdoc.rational x]
    have hloop : ∀ orderSym, libs.rational x.repr = .ok orderSym →
        (Returns (amounts.foldlM (verifyAmount libs moment policy x orderSym) ([], cited)) ↔
          ∀ a ∈ amounts, a.isFinite = true) := fun orderSym hsym =>
      returns_foldlM fun found amount _ =>
        returns_verifyAmount hdoc ((hdoc.rational x).1 ⟨orderSym, hsym⟩)
    exact returns_seq hloop

/-- What the reasoning rails need of a text and a state. -/
structure Verifiable (libs : ReasoningLibs) (moment : Moment) (text : String) (state : Fields) :
    Prop where
  claims : Claims.Readable libs.tables text
  eligibility : Claims.claims libs.tables Claims.refundApprovedPattern text = true ∨
      Claims.claims libs.tables (Claims.refundDeniedPattern libs.tables) text = true →
    Groundable libs moment state
  amounts : Claims.amountTexts libs.tables text ≠ [] → stateValue state "order_total" ≠ .null →
    Quantity libs (stateValue state "order_total") fun x =>
      x.isFinite = true ∧ Claims.AllFinite libs.tables text

theorem returns_verify (hdoc : libs.Documented) (hrules : policy.rules ≠ [])
    {currentStep : Option String} :
    Returns (verify libs moment text policy state currentStep) ↔
      Verifiable libs moment text state := by
  unfold verify
  rw [if_neg (by simpa using hrules)]
  refine (returns_seq (p := (_ → Groundable libs moment state) ∧ (_ → _)) fun c hc => ?_).trans
    ⟨fun ⟨hclaims, heligibility, hamounts⟩ =>
      ⟨(Claims.returns_extractClaims hdoc.apart).1 hclaims, heligibility, hamounts⟩,
    fun ⟨hclaims, heligibility, hamounts⟩ =>
      ⟨(Claims.returns_extractClaims hdoc.apart).2 hclaims, heligibility, hamounts⟩⟩
  have hof := Claims.of_extractClaims hc
  rw [← hof.approved, ← hof.denied]
  split_ifs with hnone
  · obtain rfl : c = {} := of_decide_eq_true hnone
    refine iff_of_true (returns_pure _) ⟨fun h => ?_, fun hne => ?_⟩
    · rcases h with h | h <;> cases h
    · obtain ⟨amounts, hsome, -⟩ := hof.some hne
      cases hsome
  · rw [← returns_verifyEligibilityClaims]
    refine returns_seq fun found _ => returns_bind_pure.trans ?_
    by_cases hnil : Claims.amountTexts libs.tables text = []
    · refine iff_of_true ?_ fun h => absurd hnil h
      rw [verifyAmountClaims, hof.none hnil]
      exact returns_ok _
    · obtain ⟨amounts, hsome, hfinite⟩ := hof.some hnil
      rw [returns_verifyAmountClaims hdoc hsome, forall_prop_of_true hnil]
      simp only [hfinite]

end ReasoningEngine

/-! The compliance rails -/

namespace ComplianceChecker

open ReasoningEngine

variable {state : Fields} {text : String} {currentStep : Option String}

theorem returns_checkAmount (hdoc : libs.Documented) {orderTotal : PyFloat} {orderSym : ℚ}
    {a : List Char} : Returns (checkAmount libs orderTotal orderSym a) ↔
      ∃ x, Claims.amountOf libs.tables a = .ok x ∧ x.isFinite = true := by
  refine returns_bind.trans (exists_congr fun x => and_congr_right' ?_)
  exact returns_bind_pure.trans (hdoc.rational x)

theorem returns_checkFinancialCompliance (hdoc : libs.Documented) :
    Returns (checkFinancialCompliance libs text state) ↔
      (Claims.amountTexts libs.tables text ≠ [] → stateValue state "order_total" ≠ .null →
        Quantity libs (stateValue state "order_total") fun x =>
          x.isFinite = true ∧ Claims.AllFinite libs.tables text) := by
  unfold checkFinancialCompliance
  dsimp only
  split_ifs with hnil hnull
  · exact iff_of_true (returns_pure _) fun hne => absurd (List.isEmpty_iff.1 hnil) hne
  · exact iff_of_true (returns_pure _) fun _ h => absurd hnull h
  · rw [forall_prop_of_true (by simpa using hnil), forall_prop_of_true hnull]
    refine returns_bind_floatOrNone (returns_pure _) fun x => ?_
    rw [← hdoc.rational x]
    refine returns_seq fun orderSym _ => returns_bind_pure.trans ?_
    rw [returns_mapM]
    exact forall₂_congr fun a _ => returns_checkAmount hdoc

theorem returns_checkProvisional (hdoc : libs.Documented) {disputed : PyFloat} {a : List Char} :
    Returns (checkProvisional libs currentStep disputed a) ↔
      (∃ x, Claims.amountOf libs.tables a = .ok x ∧ x.isFinite = true) ∧
        disputed.isFinite = true := by
  rw [← exists_and_right]
  refine returns_bind.trans (exists_congr fun x => ?_)
  rw [and_assoc, ← hdoc.rational x, ← hdoc.rational disputed]
  refine and_congr_right' (returns_seq fun amountSym _ => ?_)
  refine (returns_seq (p := True) fun disputedSym _ => ?_).trans (and_iff_left trivial)
  split_ifs
  · exact iff_true_intro (returns_pure _)
  · exact iff_true_intro (returns_pure _)

/-- `max(0, disputed - liability)` is no infinity. -/
def CreditFinite (disputed liability : PyFloat) : Prop :=
  (disputed.sub liability).positive = true → (disputed.sub liability).isFinite = true

theorem returns_rational_expectedCredit (hdoc : libs.Documented) {disputed liability : PyFloat} :
    Returns (libs.rational (expectedCredit disputed liability).repr) ↔
      CreditFinite disputed liability := by
  unfold expectedCredit CreditFinite
  dsimp only
  split_ifs with hpositive
  · rw [hdoc.rational, forall_prop_of_true hpositive]
  · exact iff_of_true hdoc.zero fun h => absurd h hpositive

/-- A credit that was issued is compared with the expected one, and shown where it differs. -/
structure Comparable (libs : ReasoningLibs) (disputed liability : PyFloat) (actual : Json) :
    Prop where
  expected : CreditFinite disputed liability
  actual : ∃ s r, strOf actual = .ok s ∧ libs.rational s = .ok r ∧
    (libs.rational (expectedCredit disputed liability).repr ≠ .ok r → Returns (format2 actual))

/-- The credit that the state reports can be checked. -/
def CreditChecked (libs : ReasoningLibs) (disputed liability : PyFloat)
    (provCredit : Json) : Prop :=
  provCredit.truthy = true → ∃ kvs, provCredit = .dict kvs ∧
    (((Fields.get? kvs "provisional_credit_issued").getD .null).truthy = true →
      Comparable libs disputed liability
        ((Fields.get? kvs "provisional_credit_amount").getD (.int 0)))

theorem returns_bind_getOr {β : Type} {v d : Json} {key : String} {f : Json → Except PyErr β} :
    Returns (v.getOr key d >>= f) ↔
      ∃ kvs, v = .dict kvs ∧ Returns (f ((Fields.get? kvs key).getD d)) := by
  cases v with
  | dict kvs =>
    refine ⟨fun h => ⟨kvs, rfl, h⟩, ?_⟩
    rintro ⟨_, hkvs, h⟩
    cases hkvs
    exact h
  | _ =>
    refine iff_of_false (not_returns_error _) ?_
    rintro ⟨_, hkvs, -⟩
    cases hkvs

theorem returns_checkIssuedCredit (hdoc : libs.Documented) {disputed liability : PyFloat}
    {provCredit : Json} : Returns (checkIssuedCredit libs disputed liability provCredit) ↔
      CreditChecked libs disputed liability provCredit := by
  unfold checkIssuedCredit CreditChecked
  split_ifs with hfalsy
  · refine iff_of_true (returns_pure _) fun h => ?_
    rw [h] at hfalsy
    cases hfalsy
  · rw [forall_prop_of_true (by simpa using hfalsy)]
    refine returns_bind_getOr.trans (exists_congr fun kvs => and_congr_right fun hkvs => ?_)
    subst hkvs
    split_ifs with hissued
    · refine iff_of_true (returns_pure _) fun h => ?_
      rw [h] at hissued
      cases hissued
    · rw [forall_prop_of_true (by simpa using hissued)]
      change Returns (libs.rational _ >>= _) ↔ _
      constructor
      · intro h
        obtain ⟨e, he, h⟩ := returns_bind.1 h
        obtain ⟨s, hs, h⟩ := returns_bind.1 h
        obtain ⟨r, hr, h⟩ := returns_bind.1 h
        refine ⟨(returns_rational_expectedCredit hdoc).1 ⟨e, he⟩, s, r, hs, hr, fun hne => ?_⟩
        rw [if_neg fun heq : r = e => hne (heq ▸ he)] at h
        exact returns_bind_pure.1 h
      · rintro ⟨hexpected, s, r, hs, hr, hshown⟩
        obtain ⟨e, he⟩ := (returns_rational_expectedCredit hdoc).2 hexpected
        refine returns_bind.2 ⟨e, he, returns_bind.2 ⟨s, hs, returns_bind.2 ⟨r, hr, ?_⟩⟩⟩
        split_ifs with heq
        · exact returns_pure _
        · refine returns_bind_pure.2 (hshown fun h => heq ?_)
          exact Except.ok.inj (h.symm.trans he)

theorem returns_liabilityAndAmount {maxLiability disputedAmount : Json} {β : Type}
    {f : Option (PyFloat × PyFloat) → Except PyErr β} {p : PyFloat → PyFloat → Prop}
    (hnone : Returns (f none)) (hsome : ∀ x y, Returns (f (some (x, y))) ↔ p x y) :
    Returns (liabilityAndAmount libs maxLiability disputedAmount >>= f) ↔
      Quantity libs maxLiability fun x => Quantity libs disputedAmount (p x) := by
  unfold liabilityAndAmount
  rw [bind_assoc]
  refine returns_bind_floatOrNone hnone fun x => ?_
  dsimp only
  rw [bind_assoc]
  exact returns_bind_floatOrNone hnone fun y => hsome x y

/-- What the checks of a dispute need of its liability and amount. -/
def LiabilityChecked (libs : ReasoningLibs) (text : String) (state : Fields)
    (maxLiability disputedAmount : Json) : Prop :=
  maxLiability ≠ .null → disputedAmount ≠ .null →
    Quantity libs maxLiability fun liability => Quantity libs disputedAmount fun disputed =>
      (Claims.amountTexts libs.tables text ≠ [] →
        Claims.AllFinite libs.tables text ∧ disputed.isFinite = true) ∧
      CreditChecked libs disputed liability ((state.get? "provisional_credit").getD (.dict []))

theorem returns_checkLiability (hdoc : libs.Documented) {maxLiability disputedAmount : Json} :
    Returns (checkLiability libs text state currentStep maxLiability disputedAmount) ↔
      LiabilityChecked libs text state maxLiability disputedAmount := by
  unfold checkLiability LiabilityChecked
  split_ifs with hnull
  · exact iff_of_true (returns_pure _) fun h h' => absurd hnull (not_or.2 ⟨h, h'⟩)
  · obtain ⟨hliability, hamount⟩ := not_or.1 hnull
    rw [forall_prop_of_true hliability, forall_prop_of_true hamount]
    refine returns_liabilityAndAmount (returns_pure _) fun liability disputed => ?_
    rw [← returns_checkIssuedCredit hdoc]
    refine (returns_seq fun provisional _ => returns_bind_pure).trans (and_congr_left' ?_)
    rw [returns_mapM]
    constructor
    · intro h hne
      obtain ⟨a, ha⟩ := List.exists_mem_of_ne_nil _ hne
      exact ⟨fun b hb => ((returns_checkProvisional hdoc).1 (h b hb)).1,
        ((returns_checkProvisional hdoc).1 (h a ha)).2⟩
    · intro h a ha
      obtain ⟨hfinite, hdisputed⟩ := h (List.ne_nil_of_mem ha)
      exact (returns_checkProvisional hdoc).2 ⟨hfinite a ha, hdisputed⟩

/-- `eligibility.get("max_liability") or dispute_data.get("max_liability")` -/
def liabilityIn (eligibility disputeData : Fields) : Json :=
  let own := (eligibility.get? "max_liability").getD .null
  if own.truthy then own else (disputeData.get? "max_liability").getD .null

theorem maxLiabilityOf_dict (eligibility disputeData : Fields) :
    maxLiabilityOf (.dict eligibility) (.dict disputeData) =
      .ok (liabilityIn eligibility disputeData) := by
  change (if _ then _ else _) = _
  unfold liabilityIn
  dsimp only
  split_ifs <;> rfl

theorem returns_disputeValues {β : Type} {eligibility disputeData : Json}
    {f : Json → Json → Except PyErr β} :
    Returns (do
      let maxLiability ← maxLiabilityOf eligibility disputeData
      let disputedAmount ← disputeData.getOr "amount" .null
      f maxLiability disputedAmount) ↔
    ∃ data own, disputeData = .dict data ∧ eligibility = .dict own ∧
      Returns (f (liabilityIn own data) ((Fields.get? data "amount").getD .null)) := by
  constructor
  · intro h
    obtain ⟨maxLiability, hmax, h⟩ := returns_bind.1 h
    obtain ⟨data, rfl, h⟩ := returns_bind_getOr.1 h
    obtain ⟨own, rfl, -⟩ := returns_bind_getOr.1 ⟨maxLiability, hmax⟩
    obtain rfl := Except.ok.inj ((maxLiabilityOf_dict own data).symm.trans hmax)
    exact ⟨data, own, rfl, rfl, h⟩
  · rintro ⟨data, own, rfl, rfl, h⟩
    exact returns_bind.2 ⟨_, maxLiabilityOf_dict own data, h⟩

/-- The data of a dispute, if there is any, are dicts whose values can be checked. -/
def DisputeChecked (libs : ReasoningLibs) (text : String) (state : Fields) : Prop :=
  ((state.get? "dispute_data").getD (.dict [])).truthy = true ∨
      ((state.get? "dispute_eligibility").getD (.dict [])).truthy = true →
    ∃ disputeData eligibility, (state.get? "dispute_data").getD (.dict []) = .dict disputeData ∧
      (state.get? "dispute_eligibility").getD (.dict []) = .dict eligibility ∧
      LiabilityChecked libs text state (liabilityIn eligibility disputeData)
        ((Fields.get? disputeData "amount").getD .null)

theorem returns_checkRegECompliance (hdoc : libs.Documented) :
    Returns (checkRegECompliance libs text state currentStep) ↔ DisputeChecked libs text state := by
  unfold checkRegECompliance DisputeChecked
  dsimp only
  generalize (state.get? "dispute_data").getD (.dict []) = disputeData
  generalize (state.get? "dispute_eligibility").getD (.dict []) = eligibility
  by_cases hfalsy : disputeData.truthy = true ∨ eligibility.truthy = true
  · rw [if_neg (by rcases hfalsy with h | h <;> simp [h]), forall_prop_of_true hfalsy]
    refine returns_disputeValues.trans (exists₂_congr fun data own => ?_)
    refine and_congr_right' (and_congr_right' ?_)
    exact returns_bind_pure.trans (returns_checkLiability hdoc)
  · rw [if_pos (by simpa [not_or] using hfalsy)]
    exact iff_of_true (returns_pure _) fun h => absurd h hfalsy

/-- What the compliance rails need of a text and a state. -/
structure Checkable (libs : ReasoningLibs) (text : String) (state : Fields)
    (procedureId : Option String) : Prop where
  amounts : Claims.amountTexts libs.tables text ≠ [] → stateValue state "order_total" ≠ .null →
    Quantity libs (stateValue state "order_total") fun x =>
      x.isFinite = true ∧ Claims.AllFinite libs.tables text
  dispute : procedureId = some "cs_eft_dispute" ∨
      (stateValue state "dispute_data").truthy = true ∨
      (stateValue state "dispute_eligibility").truthy = true →
    DisputeChecked libs text state

theorem returns_checkAll (hdoc : libs.Documented) {procedureId : Option String} :
    Returns (checkAll libs text state currentStep procedureId) ↔
      Checkable libs text state procedureId := by
  unfold checkAll
  refine (returns_seq (p := _ → DisputeChecked libs text state) fun financial _ => ?_).trans
    ⟨fun ⟨hamounts, hdispute⟩ => ⟨(returns_checkFinancialCompliance hdoc).1 hamounts, hdispute⟩,
      fun ⟨hamounts, hdispute⟩ => ⟨(returns_checkFinancialCompliance hdoc).2 hamounts, hdispute⟩⟩
  dsimp only
  split_ifs with hdispute
  · rw [forall_prop_of_true hdispute]
    exact returns_bind_pure.trans (returns_checkRegECompliance hdoc)
  · exact iff_of_true (returns_pure _) fun h => absurd h hdispute

end ComplianceChecker

/-- The verification of a response returns exactly when the rails that are on can take the text
and the state. -/
theorem runVerification_returns_iff (hdoc : libs.Documented) (settings : GuardrailSettings)
    (moment : Moment) (text : String) (state : Fields) (procedureId currentStep : Option String)
    (policy : Option ReasoningPolicy) :
    (∃ result, Guardrails.runVerification libs settings moment text state procedureId currentStep
        policy = .ok result) ↔
      ((∃ p, policy = some p ∧ p.rules ≠ []) →
        ReasoningEngine.Verifiable libs moment text state) ∧
      (settings.complianceEnabled = true →
        ComplianceChecker.Checkable libs text state procedureId) := by
  have hreasoning : Returns (Guardrails.reasoningRails libs moment text state currentStep policy) ↔
      ((∃ p, policy = some p ∧ p.rules ≠ []) →
        ReasoningEngine.Verifiable libs moment text state) := by
    cases policy with
    | none => exact iff_of_true (returns_ok _) fun ⟨_, h, _⟩ => nomatch h
    | some p =>
      refine returns_map.trans ?_
      by_cases hrules : p.rules = []
      · refine iff_of_true ?_ fun ⟨_, h, hne⟩ => absurd (Option.some.inj h ▸ hrules) hne
        rw [ReasoningEngine.verify, if_pos (by simpa using hrules)]
        exact returns_pure _
      · rw [forall_prop_of_true ⟨p, rfl, hrules⟩]
        exact ReasoningEngine.returns_verify hdoc hrules
  have hcompliance : Returns (Guardrails.complianceRails libs settings text state procedureId
      currentStep) ↔ (settings.complianceEnabled = true →
        ComplianceChecker.Checkable libs text state procedureId) := by
    unfold Guardrails.complianceRails
    split_ifs with henabled
    · rw [forall_prop_of_true henabled]
      exact ComplianceChecker.returns_checkAll hdoc
    · exact iff_of_true (returns_ok _) fun h => absurd h henabled
  rw [← hreasoning, ← hcompliance]
  refine returns_seq fun found _ => ?_
  refine (returns_seq (p := True) fun violations _ => ?_).trans (and_iff_left trivial)
  dsimp only
  split_ifs
  · exact iff_true_intro (returns_pure _)
  · exact iff_true_intro (returns_pure _)

section

/-- Unlike those of the infinities and of NaN, the `repr` of a finite float has no letter but
`e`. -/
theorem not_mem_floatRepr (m e : ℤ) : 'n' ∉ (Json.floatRepr m e).toList := by
  have hdigits : ∀ n : ℕ, 'n' ∉ Nat.toDigits 10 n := fun n hmem =>
    absurd (Nat.isDigit_of_mem_toDigits (by decide) (by decide) hmem) (by decide)
  have hkept : 'n' ∉ ((toString m.natAbs).toList.reverse.dropWhile (· == '0')).reverse := by
    intro hmem
    have hdropped := (List.dropWhile_sublist (· == '0')).subset (List.mem_reverse.1 hmem)
    refine hdigits m.natAbs ?_
    simpa using hdropped
  unfold Json.floatRepr
  dsimp only
  generalize ((toString m.natAbs).toList.reverse.dropWhile (· == '0')).reverse = kept at hkept ⊢
  have hshown : 'n' ∉ if kept.isEmpty then ['0'] else kept := by
    split_ifs
    · decide
    · exact hkept
  generalize (if kept.isEmpty then ['0'] else kept) = digits at hshown ⊢
  generalize (if kept.isEmpty then (1 : ℤ) else _) = point
  have htake : ∀ k, 'n' ∉ digits.take k := fun k h => hshown (List.mem_of_mem_take h)
  have hdrop : ∀ k, 'n' ∉ digits.drop k := fun k h => hshown (List.mem_of_mem_drop h)
  have htail : 'n' ∉ digits.tail := fun h => hshown (List.mem_of_mem_tail h)
  split_ifs <;> simp [hshown, hdigits, htake, hdrop, htail]

/-- The value of the `repr` of a finite float. -/
def finiteValue (s : String) : Except PyErr ℚ :=
  if 'n' ∈ s.toList then .error (.typeError ("invalid input: " ++ s))
  else match decimalValue s with
    | .ok q => .ok q
    | .error _ => .ok 0

/-- Texts in ASCII, and rationals that are made of every finite float. -/
def finiteLibs : ReasoningLibs :=
  { ReasoningLibs.ascii with rational := finiteValue, realVal := finiteValue }

theorem returns_finiteValue {s : String} : Returns (finiteValue s) ↔ 'n' ∉ s.toList := by
  unfold finiteValue
  split_ifs with h
  · exact iff_of_false (not_returns_error _) (not_not.2 h)
  · refine iff_of_true ?_ h
    split <;> exact returns_ok _

theorem not_mem_repr_iff (x : PyFloat) : 'n' ∉ x.repr.toList ↔ x.isFinite = true := by
  cases x with
  | finite m e => exact iff_of_true (not_mem_floatRepr m e) rfl
  | infinite negative =>
    refine iff_of_false ?_ nofun
    cases negative <;> decide
  | nan => exact iff_of_false (by decide) nofun

theorem finiteLibs_documented : finiteLibs.Documented where
  apart c hc := by
    refine decide_eq_false fun hspace => ?_
    have hdigit : (Tables.ascii.decimal c).isSome = true := hc
    simp only [List.mem_cons, List.not_mem_nil, or_false] at hspace
    rcases hspace with rfl | rfl | rfl | rfl | rfl | rfl | rfl | rfl | rfl | rfl <;>
      revert hdigit <;> decide
  rational x := by
    change Returns (finiteValue _) ↔ _
    rw [returns_finiteValue, not_mem_repr_iff]
  realVal x hx := by
    change Returns (finiteValue _)
    rwa [returns_finiteValue, not_mem_repr_iff]
  zero := by
    change Returns (finiteValue "0")
    rw [returns_finiteValue]
    decide

def stalled : Moment := ⟨0, fun _ => .unknown⟩

/-- A fee within the total of the order. -/
theorem runVerification_returns_fee :
    ∃ result, Guardrails.runVerification finiteLibs {} stalled "A fee of $5.00 applies."
      [("order_total", .float 7999 (-2))] none none none = .ok result := by
  have hamounts : Claims.amountTexts finiteLibs.tables "A fee of $5.00 applies." =
      ["5.00".toList] := by decide +kernel
  refine (runVerification_returns_iff finiteLibs_documented {} stalled "A fee of $5.00 applies."
    [("order_total", .float 7999 (-2))] none none none).2 ⟨fun hp => ?_, fun _ =>
      ⟨fun _ _ => ⟨Json.not_overflows fun n hn => ?_, fun x hx => ?_⟩, ?_⟩⟩
  · obtain ⟨_, hp, -⟩ := hp
    cases hp
  · have hfloat : Json.float 7999 (-2) = .int n := hn
    cases hfloat
  · obtain rfl : PyFloat.finite 7999 (-2) = x := Except.ok.inj hx
    refine ⟨rfl, fun a ha => ⟨.finite 5 0, ?_, rfl⟩⟩
    rw [hamounts, List.mem_singleton] at ha
    subst ha
    decide +kernel
  · rintro (h | h | h) <;> exact absurd h (by decide)

/-- Of what the verification takes for a number only the order total may be there, and is one. -/
structure NumericState (libs : ReasoningLibs) (state : Fields) : Prop where
  orderTotal : state.get? "order_total" = none ∨
    ∃ v x, state.get? "order_total" = some v ∧ v.toPyFloat libs.tables = .ok x
  dispute : state.get? "dispute_data" = none ∧ state.get? "dispute_eligibility" = none ∧
    state.get? "provisional_credit" = none

/-- A currency sign before a comma. -/
theorem runVerification_raises_comma :
    ¬ ∀ text state, NumericState finiteLibs state →
      ∃ result, Guardrails.runVerification finiteLibs {} stalled text state none none none =
        .ok result := by
  intro h
  obtain ⟨result, hresult⟩ := h "We refund in $, not in points." [("order_total", .float 7999 (-2))]
    ⟨.inr ⟨_, _, rfl, rfl⟩, rfl, rfl, rfl⟩
  have herror : Guardrails.runVerification finiteLibs {} stalled "We refund in $, not in points."
      [("order_total", .float 7999 (-2))] none none none =
        .error (.valueError "could not convert string to float: ''") := by
    decide +kernel
  rw [herror] at hresult
  cases hresult

end

end WorkflowEngine
