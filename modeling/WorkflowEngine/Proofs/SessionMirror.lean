import WorkflowEngine.Proofs.ProcedureStatus

/-! What the session state shows of a procedure is what the executor reports, unless the
procedure ends by a transition, or is closed before a step was entered and the session state is
another procedure's. -/

namespace WorkflowEngine

open Fallible ProcedureExecutor

namespace ExecutorState

variable {procedure : Json} {s : ExecutorState}

/-- The session state, as `get_workflow_progress` reads it, agrees with `get_progress`. -/
structure Mirrored (s : ExecutorState) : Prop where
  currentStep : (getWorkflowProgress s.session).get? "current_step" =
    s.executor.getProgress.get? "current_step"
  status : (getWorkflowProgress s.session).get? "workflow_status" =
    s.executor.getProgress.get? "status"
  stepsCompleted : (getWorkflowProgress s.session).get? "steps_completed" =
    s.executor.getProgress.get? "steps_completed"

/-- What a call asks of the state before it: no transition to the end, and where no step has been
entered yet, a session state that shows none. -/
def Shows (s : ExecutorState) (call : ExecutorCall) : Prop :=
  match call with
  | .start => True
  | .transition target _ => s.executor.Accepts target → target ≠ .str "end"
  | .complete _ => s.executor.stepExecutions = [] →
      (getWorkflowProgress s.session).get? "steps_completed" = some (.list [])
  | .escalate _ => s.executor.stepExecutions = [] →
      (getWorkflowProgress s.session).get? "steps_completed" = some (.list []) ∧
        (getWorkflowProgress s.session).get? "current_step" = some .null

theorem shown_step (session : Fields) : (getWorkflowProgress session).get? "current_step" =
    some ((session.get? "current_step").getD .null) := rfl

theorem shown_status (session : Fields) : (getWorkflowProgress session).get? "workflow_status" =
    some ((session.get? "workflow_status").getD .null) := rfl

theorem shown_steps (session : Fields) : (getWorkflowProgress session).get? "steps_completed" =
    some ((session.get? "steps_completed").getD (.list [])) := rfl

theorem progress_step (x : ProcedureExecutor) :
    x.getProgress.get? "current_step" = some x.currentStepId := rfl

theorem progress_status (x : ProcedureExecutor) :
    x.getProgress.get? "status" = some (.str x.status.value) := rfl

theorem progress_steps (x : ProcedureExecutor) :
    x.getProgress.get? "steps_completed" = some (.list x.completedSteps) := rfl

/-- Once a step has been entered, the session state shows it and the completed steps. -/
structure Tracked (procedure : Json) (s : ExecutorState) : Prop where
  steady : Steady procedure s.executor
  currentStep : s.executor.stepExecutions ≠ [] →
    (getWorkflowProgress s.session).get? "current_step" =
    s.executor.getProgress.get? "current_step"
  stepsCompleted : s.executor.stepExecutions ≠ [] →
    (getWorkflowProgress s.session).get? "steps_completed" =
      s.executor.getProgress.get? "steps_completed"

theorem Mirrored.tracked (hm : Mirrored s) (hs : Steady procedure s.executor) :
    Tracked procedure s := ⟨hs, fun _ => hm.currentStep, fun _ => hm.stepsCompleted⟩

/-- Entering a step writes all of it. -/
theorem mirrored_entering (stepId id definition : Json) (now : String) (s : ExecutorState) :
    Mirrored (entering stepId id definition now s) := by
  constructor
  · rw [shown_step, progress_step]
    simp only [entering, updateSessionState, addExecution]
    rw [Fields.get?_set _ (by decide), Fields.get?_set _ (by decide), Fields.get?_set _ (by decide),
      Fields.get?_set_self]
    rfl
  · rw [shown_status, progress_status]
    simp only [entering, updateSessionState, addExecution]
    rw [Fields.get?_set _ (by decide), Fields.get?_set_self]
    rfl
  · rw [shown_steps, progress_steps]
    simp only [entering, updateSessionState, addExecution]
    rw [Fields.get?_set _ (by decide), Fields.get?_set _ (by decide), Fields.get?_set_self]
    rfl

theorem mirrored_complete_iff (resolution now : String) (s : ExecutorState) :
    Mirrored ((complete resolution now).run.run s).2 ↔
      (getWorkflowProgress s.session).get? "steps_completed" =
        s.executor.getProgress.get? "steps_completed" := by
  have hsteps : (getWorkflowProgress ((complete resolution now).run.run s).2.session).get?
      "steps_completed" = (getWorkflowProgress s.session).get? "steps_completed" := by
    change (getWorkflowProgress ((((s.session.set "workflow_status" (.str "completed")).set
      "workflow_resolution" (.str resolution)).set "workflow_completed_at" (.str now)).set
        "current_step" .null)).get? _ = _
    rw [shown_steps, shown_steps, Fields.get?_set _ (by decide), Fields.get?_set _ (by decide),
      Fields.get?_set _ (by decide), Fields.get?_set _ (by decide)]
  refine ⟨fun hm => hsteps.symm.trans hm.stepsCompleted, fun h => ⟨?_, ?_, hsteps.trans h⟩⟩
  · change (getWorkflowProgress (Fields.set _ "current_step" .null)).get? _ = some .null
    rw [shown_step, Fields.get?_set_self]
    rfl
  · change (getWorkflowProgress ((((s.session.set "workflow_status" (.str "completed")).set
      "workflow_resolution" (.str resolution)).set "workflow_completed_at" (.str now)).set
        "current_step" .null)).get? _ = some (.str "completed")
    rw [shown_status, Fields.get?_set _ (by decide), Fields.get?_set _ (by decide),
      Fields.get?_set _ (by decide), Fields.get?_set_self]
    rfl

theorem mirrored_escalate_iff (reason now : String) (s : ExecutorState) :
    Mirrored ((escalate reason now).run.run s).2 ↔
      (getWorkflowProgress s.session).get? "steps_completed" =
        s.executor.getProgress.get? "steps_completed" ∧
      (getWorkflowProgress s.session).get? "current_step" =
        s.executor.getProgress.get? "current_step" := by
  have hread : ∀ key, key ≠ "workflow_status" → key ≠ "escalation_reason" → key ≠ "escalated_at" →
      Fields.get? ((escalate reason now).run.run s).2.session key = s.session.get? key := by
    intro key h1 h2 h3
    change Fields.get? (((s.session.set "workflow_status" (.str "escalated")).set
      "escalation_reason" (.str reason)).set "escalated_at" (.str now)) key = _
    rw [Fields.get?_set _ h3, Fields.get?_set _ h2, Fields.get?_set _ h1]
  have hsteps : (getWorkflowProgress ((escalate reason now).run.run s).2.session).get?
      "steps_completed" = (getWorkflowProgress s.session).get? "steps_completed" := by
    rw [shown_steps, shown_steps, hread _ (by decide) (by decide) (by decide)]
  have hstep : (getWorkflowProgress ((escalate reason now).run.run s).2.session).get?
      "current_step" = (getWorkflowProgress s.session).get? "current_step" := by
    rw [shown_step, shown_step, hread _ (by decide) (by decide) (by decide)]
  refine ⟨fun hm => ⟨hsteps.symm.trans hm.stepsCompleted, hstep.symm.trans hm.currentStep⟩,
    fun h => ⟨hstep.trans h.2, ?_, hsteps.trans h.1⟩⟩
  change (getWorkflowProgress (((s.session.set "workflow_status" (.str "escalated")).set
    "escalation_reason" (.str reason)).set "escalated_at" (.str now))).get? _ =
      some (.str "escalated")
  rw [shown_status, Fields.get?_set _ (by decide), Fields.get?_set _ (by decide),
    Fields.get?_set_self]
  rfl

/-- The step that a transition to the end completes is not among the completed steps before. -/
theorem completedSteps_ne {x : ProcedureExecutor} (hd : x.stepExecutions.Distinct)
    (hactive : x.ActiveAt x.currentStepId) (hh : x.currentStepId.hashable = true)
    {execution : StepExecution} (hc : execution.status = .completed) :
    x.completedSteps ≠ completedSteps
      { x with stepExecutions := x.stepExecutions.set x.currentStepId execution } := by
  intro he
  obtain ⟨key, hkey, hk⟩ := PyDict.get?_eq_some
    (((PyDict.get?_set hd.hashable hh execution _).trans (if_pos (Json.pyEq_self hh))))
  have hmem : key ∈ x.completedSteps := by
    rw [he]
    exact List.mem_map.2 ⟨(key, execution), List.mem_filter.2 ⟨hkey, decide_eq_true hc⟩, rfl⟩
  obtain ⟨⟨key', execution'⟩, hold, rfl⟩ := List.mem_map.1 hmem
  obtain ⟨hold, hc'⟩ := List.mem_filter.1 hold
  obtain ⟨current, hget, ha⟩ := hactive
  rw [hd.get?_of_mem hold hk] at hget
  obtain rfl := Option.some.inj hget
  rw [ha] at hc'
  cases of_decide_eq_true hc'

theorem Tracked.completedSteps_nil (ht : Tracked procedure s) (h : s.executor.stepExecutions = []) :
    s.executor.completedSteps = [] ∧ s.executor.currentStepId = .null := by
  refine ⟨by rw [completedSteps, h]; rfl, ?_⟩
  by_contra hne
  obtain ⟨-, execution, hget, -⟩ := ht.steady.held hne
  rw [h] at hget
  cases hget

/-- What a call shows, and what it leaves. -/
theorem tracked_call (ht : Tracked procedure s) (call : ExecutorCall) (now : ℕ → String) :
    ((∀ r, (s.call call now).1 = .ok r → Mirrored (s.call call now).2) ↔ Shows s call) ∧
      (Shows s call → Tracked procedure (s.call call now).2) := by
  have hsteady := steady_invoke ht.steady ⟨call, s.session, now⟩
  have heffect := effect ht.steady.graph ⟨call, s.session, now⟩
  unfold ExecutorState.call
  generalize s.executor.invoke ⟨call, s.session, now⟩ = r at heffect hsteady
  cases heffect with
  | underWay err hi h =>
    cases hi
    exact ⟨⟨fun _ => trivial, fun _ => nofun⟩, fun _ =>
      ⟨hsteady, ht.currentStep, ht.stepsCompleted⟩⟩
  | stepless hi h order =>
    cases hi
    exact ⟨⟨fun _ => trivial, fun _ => nofun⟩, fun _ =>
      ⟨hsteady, ht.currentStep, ht.stepsCompleted⟩⟩
  | started hi h first rest order hashable id definition =>
    cases hi
    have hm := mirrored_entering first id definition (now 1) (updateSessionState first
      { s with
        executor := { s.executor with status := .inProgress, startedAt := some (now 0) }
        entered := [] })
    exact ⟨⟨fun _ => trivial, fun _ _ _ => hm⟩, fun _ => hm.tracked hsteady⟩
  | refused err target reason hi h =>
    cases hi
    exact ⟨⟨fun _ ha => absurd ha h, fun _ => nofun⟩,
      fun _ => ⟨hsteady, ht.currentStep, ht.stepsCompleted⟩⟩
  | ended reason hi h =>
    cases hi
    obtain ⟨hh, hactive⟩ := ht.steady.held h.1
    obtain ⟨execution, hexecution, heq⟩ := completeStep_eq hactive reason (now 0) s.session
    refine ⟨⟨fun hmirrored => ?_, fun hshows => absurd rfl (hshows h)⟩, fun hshows =>
      absurd rfl (hshows h)⟩
    have hsteps := (mirrored_complete_iff _ _ _).1 (hmirrored _ rfl)
    have hne : s.executor.stepExecutions ≠ [] := by
      obtain ⟨current, hget, -⟩ := hactive
      intro hnil
      rw [hnil] at hget
      cases hget
    rw [heq] at hsteps
    have hsame := (ht.stepsCompleted hne).symm.trans hsteps
    rw [progress_steps, progress_steps] at hsame
    exact absurd (Json.list.inj (Option.some.inj hsame))
      (completedSteps_ne ht.steady.distinct hactive hh hexecution)
  | moved target reason hi h hne hashable id definition =>
    cases hi
    have hm := mirrored_entering target id definition (now 1) (completeStep s.executor.currentStepId
      reason (now 0) { executor := s.executor, session := s.session })
    exact ⟨⟨fun _ _ => hne, fun _ _ _ => hm⟩, fun _ => hm.tracked hsteady⟩
  | completed resolution hi =>
    cases hi
    have hiff : Mirrored ((complete resolution (now 0)).run.run
        { executor := s.executor, session := s.session }).2 ↔ Shows s (.complete resolution) := by
      refine (mirrored_complete_iff _ _ _).trans ⟨fun hsteps hnil => ?_, fun hshows => ?_⟩
      · rw [hsteps, progress_steps, (ht.completedSteps_nil hnil).1]
      · by_cases hnil : s.executor.stepExecutions = []
        · rw [progress_steps, (ht.completedSteps_nil hnil).1]
          exact hshows hnil
        · exact ht.stepsCompleted hnil
    exact ⟨⟨fun hm => hiff.1 (hm _ rfl), fun hshows _ _ => hiff.2 hshows⟩,
      fun hshows => (hiff.2 hshows).tracked hsteady⟩
  | escalated reason hi =>
    cases hi
    have hiff : Mirrored ((escalate reason (now 0)).run.run
        { executor := s.executor, session := s.session }).2 ↔ Shows s (.escalate reason) := by
      refine (mirrored_escalate_iff _ _ _).trans ⟨fun hsteps hnil => ?_, fun hshows => ?_⟩
      · obtain ⟨hnone, hnull⟩ := ht.completedSteps_nil hnil
        rw [hsteps.1, hsteps.2, progress_steps, progress_step, hnone, hnull]
        exact ⟨rfl, rfl⟩
      · by_cases hnil : s.executor.stepExecutions = []
        · obtain ⟨hnone, hnull⟩ := ht.completedSteps_nil hnil
          rw [progress_steps, progress_step, hnone, hnull]
          exact hshows hnil
        · exact ⟨ht.stepsCompleted hnil, ht.currentStep hnil⟩
    exact ⟨⟨fun hm => hiff.1 (hm _ rfl), fun hshows _ _ => hiff.2 hshows⟩,
      fun hshows => (hiff.2 hshows).tracked hsteady⟩

theorem tracked_after (ht : Tracked procedure s) (calls : List (ExecutorCall × (ℕ → String)))
    (h : ∀ before c, before ++ [c] <+: calls → Shows (s.after before) c.1) :
    Tracked procedure (s.after calls) := by
  induction calls using List.reverseRecOn with
  | nil => exact ht
  | append_singleton calls c ih =>
    have hbefore := ih fun before c' hpre => h before c' (hpre.trans (List.prefix_append _ _))
    rw [ExecutorState.after, List.foldl_append]
    exact (tracked_call hbefore c.1 c.2).2 (h calls c List.prefix_rfl)

/-- Each call that returns leaves the session state in step with the executor exactly if each
call finds a state that it can show. -/
theorem mirrored_iff_shows (procedure : Json) (x : ProcedureExecutor)
    (hv : ProcedureLoader.validateProcedure procedure = .ok true)
    (hi : ProcedureExecutor.init procedure = .ok x) (session : Fields)
    (calls : List (ExecutorCall × (ℕ → String))) :
    (∀ before c, before ++ [c] <+: calls → ∀ r,
      ((ExecutorState.after { executor := x, session } before).call c.1 c.2).1 = .ok r →
        Mirrored ((ExecutorState.after { executor := x, session } before).call c.1 c.2).2) ↔
      ∀ before c, before ++ [c] <+: calls →
        Shows (ExecutorState.after { executor := x, session } before) c.1 := by
  have ht : Tracked procedure { executor := x, session } :=
    ⟨steady_init hv hi, fun hne => absurd (init_fresh hi).1 hne, fun hne =>
      absurd (init_fresh hi).1 hne⟩
  exact forall_steps_iff fun before c hbefore =>
    (tracked_call (tracked_after ht before hbefore) c.1 c.2).1

/-- The calls that take a refund to its end. -/
def refundSteps : List (ExecutorCall × (ℕ → String)) :=
  [(.start, fun _ => "t"), (.transition (.str "pay") "eligible", fun _ => "t"),
    (.transition (.str "end") "paid", fun _ => "t")]

theorem end_not_mirrored : ¬ ∀ (procedure : Json) (x : ProcedureExecutor),
    ProcedureLoader.validateProcedure procedure = .ok true →
    ProcedureExecutor.init procedure = .ok x →
    ∀ (session : Fields) (calls : List (ExecutorCall × (ℕ → String))) before c,
      before ++ [c] <+: calls → ∀ r,
        ((ExecutorState.after { executor := x, session } before).call c.1 c.2).1 = .ok r →
          Mirrored ((ExecutorState.after { executor := x, session } before).call c.1 c.2).2 := by
  intro h
  have hm := h refundProcedure refundExecutor rfl rfl [] refundSteps (refundSteps.take 2)
    (.transition (.str "end") "paid", fun _ => "t") List.prefix_rfl (.str "end") rfl
  exact absurd hm.stepsCompleted (by decide +kernel)

theorem mirrored_iff_shows_refund :
    Mirrored ((ExecutorState.after { executor := refundExecutor, session := [] }
      (refundSteps.take 1)).call (.transition (.str "pay") "eligible") fun _ => "t").2 := by
  refine (mirrored_iff_shows refundProcedure refundExecutor rfl rfl [] (refundSteps.take 2)).2
    (fun before c hpre => ?_) _ (.transition (.str "pay") "eligible", fun _ => "t")
      List.prefix_rfl (.str "pay") rfl
  have hmem := hpre.subset (List.mem_append_right before (List.mem_singleton_self c))
  rcases List.mem_pair.1 hmem with rfl | rfl
  · trivial
  · exact fun _ => by decide

end ExecutorState

end WorkflowEngine
