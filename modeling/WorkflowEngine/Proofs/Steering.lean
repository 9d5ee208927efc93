import WorkflowEngine.Fallible.Loops
import WorkflowEngine.Interleave.Trail
import WorkflowEngine.Spec.Steering

/-! What behaviour steering releases. Every exit of its loop pairs the text with the verdict on
it, or leaves a verdict that calls for the fallback. -/

namespace WorkflowEngine

open Interleave

namespace Guardrails

/-- A verdict on findings. -/
def Refuted (result : VerificationResult) : Prop :=
  result.findings.any (·.severity = .error) = true

theorem resultOf_refuted (hint : List Finding → String) (valid : String) (findings : List Finding)
    (citedRules : List String) :
    (ReasoningEngine.resultOf hint valid findings citedRules).findings = findings ∧
    ((ReasoningEngine.resultOf hint valid findings citedRules).verdict = .INVALID ↔
      findings.any (·.severity = .error) = true) ∧
    ((ReasoningEngine.resultOf hint valid findings citedRules).rewriteHint ≠ none →
      (ReasoningEngine.resultOf hint valid findings citedRules).verdict = .INVALID) := by
  have herrors : (!(findings.filter fun f => f.severity = .error).isEmpty) = true ↔
      findings.any (·.severity = .error) = true := by
    rw [Bool.not_eq_true', List.isEmpty_eq_false_iff, Ne, List.filter_eq_nil_iff, List.any_eq_true]
    simp only [not_forall, not_not, exists_prop]
  unfold ReasoningEngine.resultOf
  dsimp only
  split_ifs with h1 h2
  · exact ⟨rfl, ⟨fun _ => herrors.1 h1, fun _ => rfl⟩, fun _ => rfl⟩
  · exact ⟨rfl, ⟨nofun, fun h => absurd (herrors.2 h) h1⟩, fun h => absurd rfl h⟩
  · exact ⟨rfl, ⟨nofun, fun h => absurd (herrors.2 h) h1⟩, fun h => absurd rfl h⟩

variable {libs : ReasoningLibs} {settings : GuardrailSettings}

/-- A verdict is INVALID exactly when there is an error; only then is there a hint. -/
theorem runVerification_refuted {moment : Moment} {text : String} {state : Fields}
    {procedureId currentStep : Option String} {policy : Option ReasoningPolicy}
    {result : VerificationResult}
    (h : runVerification libs settings moment text state procedureId currentStep policy =
      .ok result) :
    (result.verdict = .INVALID ↔ Refuted result) ∧
      (result.rewriteHint ≠ none → result.verdict = .INVALID) := by
  unfold runVerification at h
  obtain ⟨⟨findings, cited⟩, -, h⟩ := Fallible.bind_eq_ok.1 h
  obtain ⟨violations, -, h⟩ := Fallible.bind_eq_ok.1 h
  dsimp only at h
  split_ifs at h with hempty
  · cases h
    exact ⟨⟨nofun, nofun⟩, fun h => absurd rfl h⟩
  · cases h
    obtain ⟨hfindings, hinvalid, hhint⟩ := resultOf_refuted ReasoningEngine.hintLines
      "All claims verified." (findings ++ violations.map findingOf)
      (cited ++ violations.map ComplianceViolation.ruleId)
    refine ⟨?_, hhint⟩
    rw [Refuted, hfindings]
    exact hinvalid

/-! Paths. -/

def isGenerate (e : Event steerSig) : Bool :=
  match e.1 with
  | .generate _ => true
  | _ => false

/-- Neither a verification nor a new response. -/
def Quiet (path : List (Event steerSig)) : Prop := ∀ e ∈ path, ∃ entry, e.1 = .audit entry

theorem Quiet.generates {path : List (Event steerSig)} (h : Quiet path) :
    path.countP isGenerate = 0 := by
  refine List.countP_eq_zero.2 fun e he => ?_
  obtain ⟨entry, hentry⟩ := h e he
  simp [isGenerate, hentry]

theorem auditLog_quiet {entry : SteeringAudit} {path : List (Event steerSig)}
    (h : Follows (auditLog entry) path (.ret ())) : Quiet path := by
  obtain ⟨r, ys, rfl, hrest⟩ := h.of_perform_ret
  cases r with
  | error e => cases hrest.of_raise.2
  | ok u =>
    obtain ⟨rfl, -⟩ := hrest.of_ret
    rintro e he
    obtain rfl := List.mem_singleton.1 he
    exact ⟨entry, rfl⟩

/-- The text is the filtered form of the first one or of one that was generated. -/
def Filtered (libs : ReasoningLibs) (first : String) (path : List (Event steerSig)) (out : String) :
    Prop :=
  out = first ∨ ∃ prompt generated,
    (⟨.generate prompt, .ok generated⟩ : Event steerSig) ∈ path ∧
      out = (filterResponse libs.tables generated).1

theorem Filtered.mono {first out : String} {path path' : List (Event steerSig)}
    (h : Filtered libs first path out) (hsub : path ⊆ path') : Filtered libs first path' out := by
  rcases h with h | ⟨prompt, generated, hmem, h⟩
  · exact Or.inl h
  · exact Or.inr ⟨prompt, generated, hsub hmem, h⟩

/-- One new response is asked for; the verdict stays that of the text before it. -/
theorem rewrite_path {run run' : Steering} {prompt : String} {iteration : ℕ} {again : Bool}
    {path : List (Event steerSig)}
    (h : Follows (rewrite libs run prompt iteration) path (.ret (run', again))) :
    run'.verification = run.verification ∧ path.countP isGenerate = 1 ∧
      Filtered libs run.text path run'.text := by
  obtain ⟨r, ys, rfl, hrest⟩ := h.of_perform_ret
  cases r with
  | error e =>
    obtain ⟨rfl, hret⟩ := hrest.of_ret
    cases hret
    exact ⟨rfl, rfl, Or.inl rfl⟩
  | ok generated =>
    obtain ⟨r', zs, rfl, hlogged⟩ := hrest.of_perform_ret
    have hfiltered : Filtered libs run.text
        ((⟨.generate prompt, .ok generated⟩ : Event steerSig) ::
          ⟨.audit (.rewrite (iteration + 1)), r'⟩ :: zs)
        (filterResponse libs.tables generated).1 :=
      Or.inr ⟨prompt, generated, List.mem_cons_self, rfl⟩
    cases r' with
    | error e =>
      obtain ⟨rfl, hret⟩ := hlogged.of_ret
      cases hret
      exact ⟨rfl, rfl, hfiltered⟩
    | ok u =>
      obtain ⟨rfl, hret⟩ := hlogged.of_ret
      cases hret
      exact ⟨rfl, rfl, hfiltered⟩

/-- How the loop leaves its text: refuted, or verified by the last verification of the path. -/
def Ends (libs : ReasoningLibs) (settings : GuardrailSettings) (call : SteerCall)
    (path : List (Event steerSig)) (run : Steering) : Prop :=
  ∃ result, run.verification = some result ∧
    (result.verdict = .INVALID ∧ Refuted result ∨
      ∃ before moment after, path = before ++ ⟨.moment, moment⟩ :: after ∧ Quiet after ∧
        runVerification libs settings moment run.text call.state call.procedureId call.currentStep
          call.policy = .ok result ∧ ¬ Refuted result)

theorem Ends.append {call : SteerCall} {path : List (Event steerSig)} {run : Steering}
    (h : Ends libs settings call path run) (first : List (Event steerSig)) :
    Ends libs settings call (first ++ path) run := by
  obtain ⟨result, hresult, h⟩ := h
  refine ⟨result, hresult, h.imp_right ?_⟩
  rintro ⟨before, moment, after, rfl, hafter⟩
  exact ⟨first ++ before, moment, after, (List.append_assoc ..).symm, hafter⟩

/-- One round: the loop is left, with at most one new response asked for, or it goes on. -/
theorem steerFrom_round {call : SteerCall} {rounds iteration : ℕ} {run run' : Steering}
    {path : List (Event steerSig)}
    (h : Follows (steerFrom libs settings call (rounds + 1) iteration run) path (.ret run')) :
    (Ends libs settings call path run' ∧ Filtered libs run.text path run'.text ∧
      (path.countP isGenerate = 0 ∨
        (iteration : ℤ) < call.maxIterations ∧ path.countP isGenerate = 1)) ∨
    ((iteration : ℤ) < call.maxIterations ∧ ∃ xs ys again, path = xs ++ ys ∧
      xs.countP isGenerate = 1 ∧ Filtered libs run.text xs again.text ∧
      Follows (steerFrom libs settings call rounds (iteration + 1) again) ys (.ret run')) := by
  unfold steerFrom at h
  obtain ⟨moment, rest, rfl, hrest⟩ := h.of_perform_ret
  obtain ⟨pre, post, result, rfl, hpre, hpost⟩ := hrest.of_bind_ret
  obtain ⟨rfl, hresult⟩ := Follows.of_ofExcept_ret hpre
  obtain ⟨hinvalid, hhint⟩ := runVerification_refuted hresult
  -- the exits that keep the text with the verdict on it
  have hquiet : ∀ after : List (Event steerSig), Quiet after →
      Ends libs settings call (⟨.moment, moment⟩ :: after)
          { run with verification := some result } ∧
        (⟨.moment, moment⟩ :: after).countP isGenerate = 0 := by
    intro after hafter
    refine ⟨⟨result, rfl, ?_⟩, ?_⟩
    · by_cases hrefuted : Refuted result
      · exact Or.inl ⟨hinvalid.2 hrefuted, hrefuted⟩
      · exact Or.inr ⟨[], moment, after, rfl, hafter, hresult, hrefuted⟩
    · rw [List.countP_cons_of_neg (by simp [isGenerate]), hafter.generates]
  have hnone : Quiet [] := fun e he => absurd he List.not_mem_nil
  dsimp only at hpost
  split_ifs at hpost with hvalid happlicable
  · obtain ⟨log, tail, u, rfl, hlog, htail⟩ := hpost.of_bind_ret
    obtain ⟨rfl, hret⟩ := htail.of_ret
    cases hret
    obtain ⟨hends, hcount⟩ := hquiet (log ++ []) (by simpa using auditLog_quiet hlog)
    exact Or.inl ⟨hends, Or.inl rfl, Or.inl hcount⟩
  · obtain ⟨rfl, hret⟩ := hpost.of_ret
    cases hret
    obtain ⟨hends, hcount⟩ := hquiet [] hnone
    exact Or.inl ⟨hends, Or.inl rfl, Or.inl hcount⟩
  · obtain ⟨log, tail, u, rfl, hlog, htail⟩ := hpost.of_bind_ret
    have hlogged := auditLog_quiet hlog
    cases hgiven : result.rewriteHint with
    | none =>
      rw [hgiven] at htail
      obtain ⟨rfl, hret⟩ := htail.of_ret
      cases hret
      obtain ⟨hends, hcount⟩ := hquiet (log ++ []) (by simpa using hlogged)
      exact Or.inl ⟨hends, Or.inl rfl, Or.inl hcount⟩
    | some hint =>
      rw [hgiven] at htail
      dsimp only at htail
      split_ifs at htail with hagain
      · obtain ⟨xs, ys, ⟨again, more⟩, rfl, hxs, hys⟩ := htail.of_bind_ret
        obtain ⟨hverification, hcount, hfiltered⟩ := rewrite_path hxs
        have hrefuted : result.verdict = .INVALID := hhint (by rw [hgiven]; nofun)
        have hcount' : ∀ zs, ((⟨.moment, moment⟩ : Event steerSig) :: (log ++ (xs ++ zs))).countP
            isGenerate = 1 + zs.countP isGenerate := by
          intro zs
          rw [List.countP_cons_of_neg (by simp [isGenerate]), List.countP_append,
            List.countP_append, hlogged.generates, hcount]
          omega
        dsimp only at hys
        split_ifs at hys with hmore
        · refine Or.inr
            ⟨hagain.1, ⟨.moment, moment⟩ :: (log ++ xs), ys, again, by simp, ?_, ?_, hys⟩
          · simpa using hcount' []
          · exact hfiltered.mono (by simp)
        · obtain ⟨rfl, hret⟩ := hys.of_ret
          cases hret
          refine Or.inl ⟨⟨result, hverification, Or.inl ⟨hrefuted, hinvalid.1 hrefuted⟩⟩, ?_,
            Or.inr ⟨hagain.1, by simpa using hcount' []⟩⟩
          exact hfiltered.mono (by simp)
      · obtain ⟨rfl, hret⟩ := htail.of_ret
        cases hret
        obtain ⟨hends, hcount⟩ := hquiet (log ++ []) (by simpa using hlogged)
        exact Or.inl ⟨hends, Or.inl rfl, Or.inl hcount⟩

/-- The loop, with one round more than the iterations that are left. -/
theorem steerFrom_path {call : SteerCall} {rounds iteration : ℕ} {run run' : Steering}
    {path : List (Event steerSig)}
    (hrounds : (iteration : ℤ) + rounds = call.maxIterations)
    (h : Follows (steerFrom libs settings call (rounds + 1) iteration run) path (.ret run')) :
    Ends libs settings call path run' ∧ path.countP isGenerate ≤ rounds ∧
      Filtered libs run.text path run'.text := by
  induction rounds generalizing iteration run path with
  | zero =>
    rcases steerFrom_round h with ⟨hends, hfiltered, hcount⟩ | ⟨hmore, -⟩
    · exact ⟨hends, by omega, hfiltered⟩
    · omega
  | succ rounds ih =>
    rcases steerFrom_round h with ⟨hends, hfiltered, hcount⟩ |
      ⟨-, xs, ys, again, rfl, hcount, hfiltered, hrest⟩
    · exact ⟨hends, by omega, hfiltered⟩
    · obtain ⟨hends, hcount', hfiltered'⟩ := ih (by push_cast at hrounds ⊢; omega) hrest
      refine ⟨hends.append xs, ?_, ?_⟩
      · rw [List.countP_append]
        omega
      · rcases hfiltered' with heq | ⟨prompt, generated, hmem, heq⟩
        · rw [heq]
          exact hfiltered.mono (by simp)
        · exact Or.inr ⟨prompt, generated, List.mem_append_right _ hmem, heq⟩

theorem released_of_refuted {run : Steering} {result : VerificationResult}
    (h : run.verification = some result) (hrefuted : result.verdict = .INVALID ∧ Refuted result) :
    released run = safeFallback := by
  rw [released, h]
  exact if_pos hrefuted

theorem released_of_clean {run : Steering} {result : VerificationResult}
    (h : run.verification = some result) (hclean : ¬ Refuted result) : released run = run.text := by
  rw [released, h]
  exact if_neg fun hboth => hclean hboth.2

end Guardrails

open Guardrails in
/-- A steered response that is not the fallback was verified as it is, after all that was
generated, and without an error; it is the filtered form of the given text or of one that was
generated. No more texts are generated than iterations are allowed. -/
theorem steerResponse_verified (libs : ReasoningLibs) (settings : GuardrailSettings)
    (text : String) (state : Fields) (procedureId currentStep : Option String)
    (procedureDef : Option Json) (hasGenerateFn : Bool) (maxIterations : Option ℤ)
    (henabled : settings.reasoningEnabled = true)
    (hmax : 0 ≤ maxIterations.getD settings.reasoningMaxIterations)
    {path : List (Event steerSig)}
    {out : String × List GuardrailViolation × Option VerificationResult}
    (h : Follows (steerResponse libs settings text state procedureId currentStep procedureDef
      hasGenerateFn maxIterations) path (.ret out)) :
    (path.countP isGenerate : ℤ) ≤ maxIterations.getD settings.reasoningMaxIterations ∧
    (out.1 = safeFallback ∨
      (∃ policy before moment after result, policyOf libs procedureDef = .ok policy ∧
        path = before ++ ⟨.moment, moment⟩ :: after ∧ after.countP isGenerate = 0 ∧
        runVerification libs settings moment out.1 state procedureId currentStep policy =
          .ok result ∧ ∀ f ∈ result.findings, f.severity ≠ .error) ∧
      ∃ source, (source = text ∨
          ∃ prompt, (⟨.generate prompt, .ok source⟩ : Event steerSig) ∈ path) ∧
        out.1 = (filterResponse libs.tables source).1) := by
  unfold steerResponse at h
  dsimp only at h
  rw [henabled, if_neg (by decide)] at h
  obtain ⟨pre, rest, policy, rfl, hpre, hrest⟩ := h.of_bind_ret
  obtain ⟨rfl, hpolicy⟩ := Follows.of_ofExcept_ret hpre
  obtain ⟨loop, tail, run, rfl, hloop, htail⟩ := hrest.of_bind_ret
  obtain ⟨rfl, hret⟩ := htail.of_ret
  cases hret
  obtain ⟨n, hn⟩ := Int.eq_ofNat_of_zero_le hmax
  have hsucc : (maxIterations.getD settings.reasoningMaxIterations + 1).toNat = n + 1 := by omega
  rw [hsucc] at hloop
  obtain ⟨⟨result, hresult, hends⟩, hcount, hfiltered⟩ :=
    steerFrom_path (by rw [hn]; simp) hloop
  rw [List.nil_append, List.append_nil]
  refine ⟨by omega, ?_⟩
  rcases hends with hrefuted | ⟨before, moment, after, rfl, hquiet, hverified, hclean⟩
  · exact Or.inl (released_of_refuted hresult hrefuted)
  · rw [released_of_clean hresult hclean]
    refine Or.inr ⟨⟨policy, before, moment, after, result, hpolicy, rfl, hquiet.generates,
      hverified, fun f hf hseverity => ?_⟩, ?_⟩
    · exact hclean (List.any_eq_true.2 ⟨f, hf, decide_eq_true hseverity⟩)
    · rcases hfiltered with heq | ⟨prompt, generated, hmem, heq⟩
      · exact ⟨text, Or.inl rfl, heq⟩
      · exact ⟨generated, Or.inr ⟨prompt, hmem⟩, heq⟩

/-- The verdict on a response that gives legal advice. -/
def legalAdvice : VerificationResult where
  verdict := .INVALID
  findings := [⟨"prohibited:no_legal_advice", "Response contains legal advice", .error, none, none⟩]
  citedRules := ["prohibited:no_legal_advice"]
  explanation := "Found 1 error(s): Response contains legal advice"
  rewriteHint := some "- Response contains legal advice"

def openOrder : Fields := [("order_id", .str "ORD-1")]

open Guardrails in
theorem steerResponse_verified_regenerated : ∃ path out,
    Follows (steerResponse .ascii {} "You could sue." openOrder none none none true none) path
      (.ret out) ∧
    path.countP isGenerate = 1 ∧ (path.countP isGenerate : ℤ) ≤ 2 ∧ out.1 = "Hello." ∧
    (∃ policy before moment after result, policyOf .ascii none = .ok policy ∧
      path = before ++ ⟨.moment, moment⟩ :: after ∧ after.countP isGenerate = 0 ∧
      runVerification .ascii {} moment out.1 openOrder none none policy = .ok result ∧
      ∀ f ∈ result.findings, f.severity ≠ .error) ∧
    ∃ source, (source = "You could sue." ∨
        ∃ prompt, (⟨.generate prompt, .ok source⟩ : Event steerSig) ∈ path) ∧
      out.1 = (filterResponse (ReasoningLibs.ascii).tables source).1 := by
  let moment : Moment := ⟨0, fun _ => .unknown⟩
  let greeting : VerificationResult :=
    { verdict := .NOT_APPLICABLE, explanation := "No verifiable claims or applicable rules." }
  let call : SteerCall := ⟨openOrder, none, none, none, true, 2⟩
  let prompt := rewritePrompt legalAdvice "- Response contains legal advice" openOrder none none
  have hadvice : filterResponse (ReasoningLibs.ascii).tables "You could sue." =
      ("You could sue.", []) := by
    decide +kernel
  have hgreeting : filterResponse (ReasoningLibs.ascii).tables "Hello." = ("Hello.", []) := by
    decide +kernel
  have hrefuted : runVerification .ascii {} moment "You could sue." openOrder none none none =
      .ok legalAdvice := by
    decide +kernel
  have hverified : runVerification .ascii {} moment "Hello." openOrder none none none =
      .ok greeting := by
    decide +kernel
  have hlast : Follows (steerFrom .ascii {} call 2 1 ⟨"Hello.", [], some legalAdvice⟩)
      [⟨.moment, moment⟩] (.ret ⟨"Hello.", [], some greeting⟩) := by
    unfold steerFrom
    refine .cons ?_
    dsimp only [Prog.bind]
    rw [hverified]
    exact .nil _
  have hrewrite : Follows (rewrite .ascii ⟨"You could sue.", [], some legalAdvice⟩ prompt 0)
      [⟨.generate prompt, .ok "Hello."⟩, ⟨.audit (.rewrite 1), .ok ()⟩]
      (.ret (⟨"Hello.", [], some legalAdvice⟩, true)) := by
    refine .cons ?_
    dsimp only [Prog.bind]
    rw [hgreeting]
    exact .cons (.nil _)
  have haudit : Follows (auditLog (.violation legalAdvice 0))
      [⟨.audit (.violation legalAdvice 0), .ok ()⟩] (.ret ()) :=
    .cons (.nil _)
  let path : List (Event steerSig) :=
    [⟨.moment, moment⟩, ⟨.audit (.violation legalAdvice 0), .ok ()⟩,
      ⟨.generate prompt, .ok "Hello."⟩, ⟨.audit (.rewrite 1), .ok ()⟩, ⟨.moment, moment⟩]
  have hloop : Follows (steerFrom .ascii {} call 3 0 ⟨"You could sue.", [], none⟩) path
      (.ret ⟨"Hello.", [], some greeting⟩) := by
    unfold steerFrom
    refine .cons ?_
    dsimp only [Prog.bind]
    rw [hrefuted]
    exact haudit.seq (hrewrite.seq hlast)
  have hpath : Follows (steerResponse .ascii {} "You could sue." openOrder none none none true none)
      path (.ret ("Hello.", [], some greeting)) := by
    unfold steerResponse
    rw [hadvice]
    exact Follows.seq hloop (.nil _)
  have hmain := steerResponse_verified .ascii {} "You could sue." openOrder none none none true none
    rfl (by decide) hpath
  refine ⟨path, _, hpath, rfl, hmain.1, rfl, ?_⟩
  rcases hmain.2 with hfallback | hverdict
  · exact absurd hfallback (by decide +kernel)
  · exact hverdict

end WorkflowEngine
