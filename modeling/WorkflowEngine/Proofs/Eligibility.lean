import Mathlib.Data.List.ReduceOption
import WorkflowEngine.Fallible.Loops
import WorkflowEngine.Spec.Domains
import WorkflowEngine.Spec.Reasoning

/-! The two deciders of a refund: the rules of a procedure, solved with the order's values, and
the refund decision service. -/

namespace WorkflowEngine

/-- The solver answers that constraints are satisfiable where they are, and only there. -/
def Moment.Decides (moment : Moment) : Prop :=
  ∀ cs, moment.check cs = .sat ↔ ∃ a, ∀ c ∈ cs, c a = true

namespace ReasoningPolicy

variable {libs : ReasoningLibs}

/-- The check_eligibility step has the condition of 30 days that leads to process_refund. -/
def LeadsToRefund (libs : ReasoningLibs) (procedure : Json) : Prop :=
  ∃ steps step conditions cond text,
    procedure.getOr "steps" (.list []) = .ok (.list steps) ∧ step ∈ steps ∧
    step.getOr "id" (.str "") = .ok (.str "check_eligibility") ∧
    step.getOr "conditions" (.list []) = .ok (.list conditions) ∧ cond ∈ conditions ∧
    cond.getOr "if" (.str "") = .ok (.str text) ∧
    mentions (libs.lower text) "within 30 days" = true ∧
    cond.getOr "next_step" (.str "") = .ok (.str "process_refund")

/-- What the conditions are translated to. -/
theorem parseConditionToZ3_cases {conditionText nextStep : Json} {constraint : Constraint}
    (h : parseConditionToZ3 libs conditionText nextStep = .ok (some constraint)) :
    constraint = withinConstraint ∨ constraint = outsideConstraint ∨
      constraint = processingConstraint := by
  unfold parseConditionToZ3 at h
  split at h
  · dsimp only at h
    split_ifs at h
    · cases h
      exact Or.inl rfl
    · cases h
      exact Or.inr (Or.inl rfl)
    · cases h
      exact Or.inr (Or.inr rfl)
    · cases h
  · cases h

theorem stepRules_constraint {procId : String} {step : Json} {rules : List ReasoningRule}
    (h : stepRules libs procId step = .ok rules) {r : ReasoningRule} (hr : r ∈ rules) :
    r.constraint = withinConstraint ∨ r.constraint = outsideConstraint ∨
      r.constraint = processingConstraint := by
  unfold stepRules at h
  obtain ⟨stepId, -, h⟩ := Fallible.bind_eq_ok.1 h
  obtain ⟨conditions, -, h⟩ := Fallible.bind_eq_ok.1 h
  split_ifs at h
  · cases h
    cases hr
  · obtain ⟨entries, -, h⟩ := Fallible.bind_eq_ok.1 h
    obtain ⟨translated, htranslated, h⟩ := Fallible.bind_eq_ok.1 h
    cases h
    obtain ⟨entry, -, hentry⟩ := Fallible.of_mem_mapM htranslated (List.reduceOption_mem_iff.1 hr)
    unfold conditionRule at hentry
    obtain ⟨text, -, hentry⟩ := Fallible.bind_eq_ok.1 hentry
    obtain ⟨next, -, hentry⟩ := Fallible.bind_eq_ok.1 hentry
    obtain ⟨parsed, hparsed, hentry⟩ := Fallible.bind_eq_ok.1 hentry
    cases parsed with
    | none => cases hentry
    | some constraint =>
      cases hentry
      exact parseConditionToZ3_cases hparsed

end ReasoningPolicy

namespace ReasoningEngine

open ReasoningPolicy

variable {libs : ReasoningLibs} {moment : Moment}

theorem eligibleRules_constraint {procedure : Json} {policy : ReasoningPolicy}
    (h : ReasoningPolicy.ofProcedure libs procedure = .ok policy) {r : ReasoningRule}
    (hr : r ∈ eligibleRules policy) :
    r.constraint = withinConstraint ∨ r.constraint = outsideConstraint ∨
      r.constraint = processingConstraint := by
  obtain ⟨hmem, hstep⟩ := List.mem_filter.1 hr
  unfold ReasoningPolicy.ofProcedure at h
  obtain ⟨procId, -, h⟩ := Fallible.bind_eq_ok.1 h
  obtain ⟨steps, -, h⟩ := Fallible.bind_eq_ok.1 h
  obtain ⟨entries, -, h⟩ := Fallible.bind_eq_ok.1 h
  obtain ⟨rules, hrules, h⟩ := Fallible.bind_eq_ok.1 h
  cases h
  rcases List.mem_append.1 hmem with hmem | hmem
  · obtain ⟨ofStep, hof, hin⟩ := List.mem_flatten.1 hmem
    obtain ⟨step, -, hstepRules⟩ := Fallible.of_mem_mapM hrules hof
    exact stepRules_constraint hstepRules hin
  · -- the universal rules belong to no step
    simp only [universalRules, List.mem_cons, List.not_mem_nil, or_false] at hmem
    rcases hmem with rfl | rfl | rfl <;> exact absurd hstep (by simp [Json.pyEq])

theorem mentions_last (first part : String) : mentions (first ++ part) part = true :=
  decide_eq_true ⟨first.toList, [], by simp⟩

/-- The condition of 30 days becomes an eligible rule. -/
theorem exists_within {procedure : Json} {policy : ReasoningPolicy}
    (h : ReasoningPolicy.ofProcedure libs procedure = .ok policy)
    (hwithin : LeadsToRefund libs procedure) :
    ∃ r ∈ eligibleRules policy, r.constraint = withinConstraint := by
  obtain ⟨steps, step, conditions, cond, text, hsteps, hstep, hid, hconditions, hcond, hif,
    htext, hnext⟩ := hwithin
  unfold ReasoningPolicy.ofProcedure at h
  obtain ⟨procId, -, h⟩ := Fallible.bind_eq_ok.1 h
  rw [hsteps] at h
  obtain ⟨_, ⟨⟩, h⟩ := Fallible.bind_eq_ok.1 h
  obtain ⟨_, ⟨⟩, h⟩ := Fallible.bind_eq_ok.1 h
  obtain ⟨rules, hrules, h⟩ := Fallible.bind_eq_ok.1 h
  cases h
  obtain ⟨ofStep, hof, hofStep⟩ := Fallible.mem_of_mapM hrules hstep
  unfold stepRules at hofStep
  rw [hid, hconditions] at hofStep
  obtain ⟨_, ⟨⟩, hofStep⟩ := Fallible.bind_eq_ok.1 hofStep
  obtain ⟨_, ⟨⟩, hofStep⟩ := Fallible.bind_eq_ok.1 hofStep
  have htruthy : ¬ (!(Json.list conditions).truthy) = true := by
    obtain ⟨c, cs, rfl⟩ := List.exists_cons_of_ne_nil (List.ne_nil_of_mem hcond)
    simp [Json.truthy]
  rw [if_neg htruthy] at hofStep
  obtain ⟨_, ⟨⟩, hofStep⟩ := Fallible.bind_eq_ok.1 hofStep
  obtain ⟨translated, htranslated, hofStep⟩ := Fallible.bind_eq_ok.1 hofStep
  cases hofStep
  obtain ⟨i, hi⟩ := List.mem_iff_getElem?.1 hcond
  obtain ⟨rule, hrule, hentry⟩ :=
    Fallible.mem_of_mapM htranslated (List.mk_mem_zipIdx_iff_getElem?.2 hi)
  have hparse : parseConditionToZ3 libs (.str text) (.str "process_refund") =
      .ok (some withinConstraint) := by
    unfold parseConditionToZ3
    dsimp only
    rw [htext]
    rfl
  unfold conditionRule at hentry
  rw [hif, hnext] at hentry
  obtain ⟨_, ⟨⟩, hentry⟩ := Fallible.bind_eq_ok.1 hentry
  obtain ⟨_, ⟨⟩, hentry⟩ := Fallible.bind_eq_ok.1 hentry
  rw [hparse] at hentry
  obtain ⟨_, ⟨⟩, hentry⟩ := Fallible.bind_eq_ok.1 hentry
  cases hentry
  refine ⟨_, List.mem_filter.2 ⟨List.mem_append_left _ (List.mem_flatten.2 ⟨_, hof,
    List.reduceOption_mem_iff.2 hrule⟩), ?_⟩, rfl⟩
  have hdescription := mentions_last ("Condition: " ++ text ++ " -> ") "process_refund"
  rw [Bool.and_eq_true]
  exact ⟨by simp [Json.pyEq], hdescription⟩

/-- The constraints that ground the variables of an order. -/
def groundedBy (age : ℤ) (reading : String) : List Constraint := [fun a => a.orderAgeDays = age,
  fun a => a.orderStatus = reading, fun a => a.isRefundableCategory == true]

/-- What is grounded leaves one value for each variable that a condition reads. -/
theorem check_grounded (hsolver : moment.Decides) {age : ℤ} {reading : String}
    {constraint : Constraint} (hconstraint : constraint = withinConstraint ∨
      constraint = outsideConstraint ∨ constraint = processingConstraint) :
    moment.check (groundedBy age reading ++ [constraint]) = .sat ↔
      constraint ⟨age, 0, 0, reading, true⟩ = true := by
  rw [hsolver]
  constructor
  · rintro ⟨a, ha⟩
    obtain ⟨hage, ha⟩ := List.forall_mem_cons.1 ha
    obtain ⟨hstatus, ha⟩ := List.forall_mem_cons.1 ha
    obtain ⟨hcategory, ha⟩ := List.forall_mem_cons.1 ha
    have hholds := ha constraint List.mem_cons_self
    have hage : a.orderAgeDays = age := of_decide_eq_true hage
    have hstatus : a.orderStatus = reading := of_decide_eq_true hstatus
    rcases hconstraint with rfl | rfl | rfl <;>
      simpa [withinConstraint, outsideConstraint, processingConstraint, hage, hstatus,
        beq_iff_eq.1 hcategory] using hholds
  · intro h
    refine ⟨⟨age, 0, 0, reading, true⟩, fun c hc => ?_⟩
    simp only [groundedBy, List.cons_append, List.nil_append, List.mem_cons, List.not_mem_nil,
      or_false] at hc
    rcases hc with rfl | rfl | rfl | rfl
    · exact decide_eq_true rfl
    · exact decide_eq_true rfl
    · rfl
    · exact h

/-- An error that contradicts the claim. -/
def Reports (claim : String) (findings : List Finding) : Prop :=
  ∃ f ∈ findings, f.severity = .error ∧
    ∃ rule age status, f = eligibilityFinding rule age status claim

theorem claims_differ (facts facts' : String) : approvedClaim ++ facts ≠ deniedClaim ++ facts' := by
  intro h
  have htake := congrArg (fun s : String => s.toList.take 24) h
  rw [String.toList_append, String.toList_append, List.take_append_of_le_length (by decide),
    List.take_append_of_le_length (by decide)] at htake
  exact absurd htake (by decide)

section
variable {claims : Claims} {age : ℤ} {status : Json} {grounded : List Constraint}
  {rules : List ReasoningRule}

theorem reports_approved :
    Reports approvedClaim (rules.flatMap (ruleFindings moment claims age status grounded)) ↔
      claims.refundApproved = true ∧
        ∃ r ∈ rules, moment.check (grounded ++ [r.constraint]) ≠ .sat := by
  constructor
  · rintro ⟨f, hf, -, rule, age', status', rfl⟩
    obtain ⟨r, hr, hf⟩ := List.mem_flatMap.1 hf
    rcases List.mem_append.1 hf with hf | hf
    · split_ifs at hf with h
      · rw [Bool.and_eq_true, Bool.not_eq_true', decide_eq_false_iff_not] at h
        exact ⟨h.1, r, hr, h.2⟩
      · cases hf
    · split_ifs at hf with h
      · exact absurd (congrArg Finding.description (List.mem_singleton.1 hf)) (claims_differ _ _)
      · cases hf
  · rintro ⟨hclaims, r, hr, hcheck⟩
    refine ⟨eligibilityFinding r age status approvedClaim,
      List.mem_flatMap.2 ⟨r, hr, List.mem_append_left _ ?_⟩, rfl, r, age, status, rfl⟩
    rw [if_pos (by simp [hclaims, hcheck])]
    exact List.mem_singleton_self _

theorem reports_denied :
    Reports deniedClaim (rules.flatMap (ruleFindings moment claims age status grounded)) ↔
      claims.refundDenied = true ∧
        ∃ r ∈ rules, moment.check (grounded ++ [r.constraint]) = .sat := by
  constructor
  · rintro ⟨f, hf, -, rule, age', status', rfl⟩
    obtain ⟨r, hr, hf⟩ := List.mem_flatMap.1 hf
    rcases List.mem_append.1 hf with hf | hf
    · split_ifs at hf with h
      · exact absurd (congrArg Finding.description (List.mem_singleton.1 hf)).symm
          (claims_differ _ _)
      · cases hf
    · split_ifs at hf with h
      · rw [Bool.and_eq_true, decide_eq_true_eq] at h
        exact ⟨h.1, r, hr, h.2⟩
      · cases hf
  · rintro ⟨hclaims, r, hr, hcheck⟩
    refine ⟨eligibilityFinding r age status deniedClaim,
      List.mem_flatMap.2 ⟨r, hr, List.mem_append_right _ ?_⟩, rfl, r, age, status, rfl⟩
    rw [if_pos (by simp [hclaims, hcheck])]
    exact List.mem_singleton_self _

end

/-- On a response that claims an approval an error is reported exactly when the order is not
eligible, and on one that claims a denial exactly when it is. -/
def VerdictsAgree (libs : ReasoningLibs) (moment : Moment) (policy : ReasoningPolicy)
    (state : Fields) (decision : RefundDecision) : Prop :=
  ∀ claims, ∃ findings cited,
    verifyEligibilityClaims libs moment claims policy state = .ok (findings, cited) ∧
    (claims.refundApproved = true → (Reports approvedClaim findings ↔ decision.eligible = false)) ∧
    (claims.refundDenied = true → (Reports deniedClaim findings ↔ decision.eligible = true))

/-- The session has what the rules ask for, and Z3 takes it. -/
structure Grounded (libs : ReasoningLibs) (moment : Moment) (state : Fields) (age : ℤ)
    (status reading : String) : Prop where
  hasAge : getOrderAgeDays libs moment state = some age
  hasStatus : state.get? "order_status" = some (.str status)
  refundable : (state.get? "is_refundable_category").getD (.bool true) = .bool true
  read : libs.stringVal (.str status) = .ok reading
  boolEq : libs.boolEq (.bool true) = .ok (· == true)

section
variable {state : Fields} {age : ℤ} {status reading : String} {policy : ReasoningPolicy}
  {decision : RefundDecision}

theorem verifyEligibilityClaims_empty (h : Grounded libs moment state age "" reading)
    (claims : Claims) : verifyEligibilityClaims libs moment claims policy state = .ok ([], []) := by
  unfold verifyEligibilityClaims
  rw [h.hasAge, h.hasStatus]
  split_ifs <;> rfl

theorem verifyEligibilityClaims_grounded (h : Grounded libs moment state age status reading)
    (hstatus : status ≠ "") {claims : Claims}
    (hclaims : claims.refundApproved = true ∨ claims.refundDenied = true) :
    verifyEligibilityClaims libs moment claims policy state =
      .ok ((eligibleRules policy).flatMap (ruleFindings moment claims age (.str status)
        (groundedBy age reading)),
        (eligibleRules policy).map ReasoningRule.ruleId) := by
  unfold verifyEligibilityClaims
  rw [if_neg (by rcases hclaims with h | h <;> simp [h]), h.hasAge, h.hasStatus, h.refundable]
  dsimp only [Option.getD_some]
  rw [if_neg (by simp [Json.truthy, hstatus]), h.read, h.boolEq]
  rfl

/-- The verdicts agree where every rule decides as the service does. -/
theorem verdictsAgree_iff (hsolver : moment.Decides)
    (h : Grounded libs moment state age status reading)
    (hne : eligibleRules policy ≠ [])
    (hconstraint : ∀ r ∈ eligibleRules policy, r.constraint = withinConstraint ∨
      r.constraint = outsideConstraint ∨ r.constraint = processingConstraint)
    (hempty : status = "" → decision.eligible = false) :
    VerdictsAgree libs moment policy state decision ↔ status ≠ "" ∧
      ∀ r ∈ eligibleRules policy,
        (r.constraint ⟨age, 0, 0, reading, true⟩ = true ↔ decision.eligible = true) := by
  have hcheck : ∀ r ∈ eligibleRules policy,
      moment.check (groundedBy age reading ++ [r.constraint]) = .sat ↔
      r.constraint ⟨age, 0, 0, reading, true⟩ = true :=
    fun r hr => check_grounded hsolver (hconstraint r hr)
  constructor
  · intro hagree
    by_cases hs : status = ""
    · subst hs
      obtain ⟨findings, cited, hverify, happroved, -⟩ := hagree { refundApproved := true }
      rw [verifyEligibilityClaims_empty h] at hverify
      cases hverify
      obtain ⟨f, hf, -⟩ := (happroved rfl).2 (hempty rfl)
      cases hf
    · refine ⟨hs, fun r hr => ⟨fun hr' => ?_, fun heligible => ?_⟩⟩
      · obtain ⟨findings, cited, hverify, -, hdenied⟩ := hagree { refundDenied := true }
        rw [verifyEligibilityClaims_grounded h hs (Or.inr rfl)] at hverify
        cases hverify
        exact (hdenied rfl).1 (reports_denied.2 ⟨rfl, r, hr, (hcheck r hr).2 hr'⟩)
      · by_contra hr'
        obtain ⟨findings, cited, hverify, happroved, -⟩ := hagree { refundApproved := true }
        rw [verifyEligibilityClaims_grounded h hs (Or.inl rfl)] at hverify
        cases hverify
        have hineligible := (happroved rfl).1
          (reports_approved.2 ⟨rfl, r, hr, fun hsat => hr' ((hcheck r hr).1 hsat)⟩)
        rw [heligible] at hineligible
        cases hineligible
  · rintro ⟨hs, hall⟩ claims
    by_cases hclaims : claims.refundApproved = true ∨ claims.refundDenied = true
    · obtain ⟨r₀, hr₀⟩ := List.exists_mem_of_ne_nil _ hne
      refine ⟨_, _, verifyEligibilityClaims_grounded h hs hclaims, fun happroved => ?_,
        fun hdenied => ?_⟩
      · rw [reports_approved, ← Bool.not_eq_true]
        constructor
        · rintro ⟨-, r, hr, hunsat⟩ heligible
          exact hunsat ((hcheck r hr).2 ((hall r hr).2 heligible))
        · exact fun hineligible => ⟨happroved, r₀, hr₀, fun hsat =>
            hineligible ((hall r₀ hr₀).1 ((hcheck r₀ hr₀).1 hsat))⟩
      · rw [reports_denied]
        constructor
        · rintro ⟨-, r, hr, hsat⟩
          exact (hall r hr).1 ((hcheck r hr).1 hsat)
        · exact fun heligible => ⟨hdenied, r₀, hr₀, (hcheck r₀ hr₀).2 ((hall r₀ hr₀).2 heligible)⟩
    · rw [not_or] at hclaims
      refine ⟨[], [], ?_, fun h => absurd h hclaims.1, fun h => absurd h hclaims.2⟩
      unfold verifyEligibilityClaims
      rw [if_pos (by simp [hclaims])]

end

end ReasoningEngine

/-- Whom the service finds eligible, of owners who ask a positive amount. -/
theorem RefundDecisionService.evaluate_eligible {customerId ownerId : Json} {status : String}
    {age : ℤ} {amount : ℤ × ℤ} (orderId : String) (howner : customerId.pyEq ownerId = true)
    (hamount : 0 < amount.1) :
    (evaluate {} orderId customerId ownerId status age amount).eligible = true ↔
      status ∈ ["delivered", "completed"] ∧ age ≤ 30 := by
  unfold evaluate
  dsimp only
  rw [howner, if_neg (by simp)]
  split_ifs with hstatus hage hpositive
  · exact ⟨nofun, fun h => absurd h.2 (not_le.2 hage)⟩
  · omega
  · exact ⟨fun _ => ⟨hstatus, not_lt.1 hage⟩, fun _ => rfl⟩
  · exact ⟨nofun, fun h => absurd h.1 hstatus⟩

/-- The conditions of the refund procedure, as far as rules are made of them. -/
def refundConditions : Json := .dict [("id", .str "cs_refund"), ("steps", .list [.dict [
  ("id", .str "check_eligibility"), ("conditions", .list [
    .dict [("if", .str ("order_date within 30 days AND order_status in [delivered, shipped] " ++
        "AND category not in non_refundable_list")), ("next_step", .str "process_refund")],
    .dict [("if", .str "order_date outside 30 days"), ("next_step", .str "deny_refund_window")],
    .dict [("if", .str "order_status == processing"), ("next_step", .str "cancel_order")]])]])]

/-- A solver that never runs out of time, on the eleventh of January. -/
noncomputable def idealMoment : Moment where
  now := seconds (24 * 60 * 60 * daysFromCivil 2024 1 11)
  check := fun cs => open Classical in if ∃ a, ∀ c ∈ cs, c a = true then .sat else .unsat

theorem idealMoment_decides : idealMoment.Decides := by
  intro cs
  unfold idealMoment
  dsimp only
  split_ifs with h
  · exact ⟨fun _ => h, fun _ => rfl⟩
  · exact ⟨nofun, fun h' => absurd h' h⟩

/-- Ten days before. -/
def orderState (status : String) : Fields :=
  [("order_date", .str "2024-01-01"), ("order_status", .str status)]

theorem refundConditions_policy :
    ∃ policy, ReasoningPolicy.ofProcedure .ascii refundConditions = .ok policy := by
  have hok : (ReasoningPolicy.ofProcedure .ascii refundConditions).isOk = true := by decide +kernel
  cases h : ReasoningPolicy.ofProcedure .ascii refundConditions with
  | ok policy => exact ⟨policy, rfl⟩
  | error e =>
    rw [h] at hok
    cases hok

theorem refundConditions_leadsToRefund : ReasoningPolicy.LeadsToRefund .ascii refundConditions := by
  refine ⟨_, _, _, _, _, rfl, List.mem_cons_self, rfl, rfl, List.mem_cons_self, rfl, ?_, rfl⟩
  decide +kernel

theorem orderState_grounded (status : String) :
    ReasoningEngine.Grounded .ascii idealMoment (orderState status) 10 status status where
  hasAge := by
    have hdate : (ReasoningEngine.dateFormats.findSome?
        ((ReasoningLibs.ascii).strptime "2024-01-01")).map
          (fun t => (seconds (24 * 60 * 60 * daysFromCivil 2024 1 11) - t) /
            seconds (24 * 60 * 60)) = some 10 := by decide +kernel
    exact hdate
  hasStatus := rfl
  refundable := rfl
  read := rfl
  boolEq := rfl

open ReasoningEngine in
/-- The deciders agree, on every response, exactly when each eligible rule is true of the order
where the service finds it eligible: for the condition of 30 days the status must not be one that
only one of them takes; the other conditions must not stand in its way. -/
theorem verdictsAgree_iff_rules {libs : ReasoningLibs} {moment : Moment} (hsolver : moment.Decides)
    {procedure : Json} {policy : ReasoningPolicy}
    (hpolicy : ReasoningPolicy.ofProcedure libs procedure = .ok policy)
    (hwithin : ReasoningPolicy.LeadsToRefund libs procedure) {state : Fields} {age : ℤ}
    {status reading : String} (hgrounded : Grounded libs moment state age status reading)
    (orderId : String) {customerId ownerId : Json} (howner : customerId.pyEq ownerId = true)
    {amount : ℤ × ℤ} (hamount : 0 < amount.1) :
    VerdictsAgree libs moment policy state
        (RefundDecisionService.evaluate {} orderId customerId ownerId status age amount) ↔
      status ≠ "" ∧
      (age ≤ 30 → (reading ∈ ["delivered", "shipped"] ↔ status ∈ ["delivered", "completed"])) ∧
      ∀ r ∈ eligibleRules policy,
        (r.constraint = ReasoningPolicy.outsideConstraint →
          age ≤ 30 ∧ status ∉ ["delivered", "completed"]) ∧
        (r.constraint = ReasoningPolicy.processingConstraint →
          (reading = "processing" ↔ age ≤ 30 ∧ status ∈ ["delivered", "completed"])) := by
  have heligible := @RefundDecisionService.evaluate_eligible customerId ownerId status age amount
    orderId howner hamount
  obtain ⟨r₀, hr₀, hr₀within⟩ := exists_within hpolicy hwithin
  have hkinds : ∀ r ∈ eligibleRules policy, r.constraint = ReasoningPolicy.withinConstraint ∨
      r.constraint = ReasoningPolicy.outsideConstraint ∨
      r.constraint = ReasoningPolicy.processingConstraint :=
    fun r hr => eligibleRules_constraint hpolicy hr
  have hempty : status = "" → (RefundDecisionService.evaluate {} orderId customerId ownerId status
      age amount).eligible = false := by
    rintro rfl
    rw [← Bool.not_eq_true, heligible]
    simp
  rw [verdictsAgree_iff hsolver hgrounded (List.ne_nil_of_mem hr₀) hkinds hempty]
  simp only [heligible]
  have hholds : (ReasoningPolicy.withinConstraint ⟨age, 0, 0, reading, true⟩ = true ↔
      age ≤ 30 ∧ reading ∈ ["delivered", "shipped"]) ∧
      (ReasoningPolicy.outsideConstraint ⟨age, 0, 0, reading, true⟩ = true ↔ 30 < age) ∧
      (ReasoningPolicy.processingConstraint ⟨age, 0, 0, reading, true⟩ = true ↔
        reading = "processing") := by
    simp [ReasoningPolicy.withinConstraint, ReasoningPolicy.outsideConstraint,
      ReasoningPolicy.processingConstraint]
  obtain ⟨hwithin', houtside, hprocessing⟩ := hholds
  refine and_congr_right fun _ => ⟨fun hall => ⟨fun hage => ?_, fun r hr => ⟨fun hr' => ?_,
    fun hr' => ?_⟩⟩, fun ⟨hthirty, hothers⟩ r hr => ?_⟩
  · have hr₀' := hall r₀ hr₀
    rw [hr₀within, hwithin'] at hr₀'
    exact ⟨fun h => (hr₀'.1 ⟨hage, h⟩).1, fun h => (hr₀'.2 ⟨h, hage⟩).2⟩
  · have hr'' := hall r hr
    rw [hr', houtside] at hr''
    have hage : age ≤ 30 := not_lt.1 fun h => absurd (hr''.1 h).2 (not_le.2 h)
    exact ⟨hage, fun h => absurd (hr''.2 ⟨h, hage⟩) (not_lt.2 hage)⟩
  · have hr'' := hall r hr
    rw [hr', hprocessing] at hr''
    exact hr''.trans and_comm
  · rcases hkinds r hr with hr' | hr' | hr'
    · rw [hr', hwithin']
      exact ⟨fun h => ⟨(hthirty h.1).1 h.2, h.1⟩, fun h => ⟨h.2, (hthirty h.2).2 h.1⟩⟩
    · rw [hr', houtside]
      obtain ⟨hage, hstatus⟩ := (hothers r hr).1 hr'
      exact ⟨fun h => absurd hage (not_le.2 h), fun h => absurd h.1 hstatus⟩
    · rw [hr', hprocessing]
      exact ((hothers r hr).2 hr').trans and_comm

open ReasoningEngine in
theorem verdictsAgree_iff_rules_delivered :
    ∃ policy, ReasoningPolicy.ofProcedure .ascii refundConditions = .ok policy ∧
      (VerdictsAgree .ascii idealMoment policy (orderState "delivered")
        (RefundDecisionService.evaluate {} "ORD-1" (.str "CUST-1") (.str "CUST-1") "delivered" 10
          (7999, -2)) ↔
      "delivered" ≠ "" ∧
      ((10 : ℤ) ≤ 30 →
        ("delivered" ∈ ["delivered", "shipped"] ↔ "delivered" ∈ ["delivered", "completed"])) ∧
      ∀ r ∈ eligibleRules policy,
        (r.constraint = ReasoningPolicy.outsideConstraint →
          (10 : ℤ) ≤ 30 ∧ "delivered" ∉ ["delivered", "completed"]) ∧
        (r.constraint = ReasoningPolicy.processingConstraint →
          ("delivered" = "processing" ↔
            (10 : ℤ) ≤ 30 ∧ "delivered" ∈ ["delivered", "completed"]))) := by
  obtain ⟨policy, hpolicy⟩ := refundConditions_policy
  exact ⟨policy, hpolicy, verdictsAgree_iff_rules idealMoment_decides hpolicy
    refundConditions_leadsToRefund (orderState_grounded "delivered") "ORD-1"
    (by decide +kernel) (by decide)⟩

open ReasoningEngine in
/-- A shipped order: the rules take it, and a correct denial is reported as an error. -/
theorem shipped_denial_reported :
    idealMoment.Decides ∧ ReasoningPolicy.LeadsToRefund .ascii refundConditions ∧
    Grounded .ascii idealMoment (orderState "shipped") 10 "shipped" "shipped" ∧
    ∃ policy findings cited, ReasoningPolicy.ofProcedure .ascii refundConditions = .ok policy ∧
      verifyEligibilityClaims .ascii idealMoment { refundDenied := true } policy
        (orderState "shipped") = .ok (findings, cited) ∧
      Reports deniedClaim findings ∧
      (RefundDecisionService.evaluate {} "ORD-1" (.str "CUST-1") (.str "CUST-1") "shipped" 10
        (7999, -2)).eligible = false := by
  obtain ⟨policy, hpolicy⟩ := refundConditions_policy
  obtain ⟨r, hr, hwithin⟩ := exists_within hpolicy refundConditions_leadsToRefund
  refine ⟨idealMoment_decides, refundConditions_leadsToRefund,
    orderState_grounded "shipped", policy,
    _, _, hpolicy, verifyEligibilityClaims_grounded (orderState_grounded "shipped") (by decide)
    (Or.inr rfl), reports_denied.2 ⟨rfl, r, hr, ?_⟩, by decide +kernel⟩
  rw [check_grounded idealMoment_decides (Or.inl hwithin), hwithin]
  decide

end WorkflowEngine
