import WorkflowEngine.Proofs.ProcedureGraph

/-! The status of an executor, its current step and the records of its steps say the same,
except where a call closes a procedure that is under way, enters a step whose id is null or
starts a procedure without steps. -/

namespace WorkflowEngine

open Fallible ProcedureExecutor

namespace ProcedureExecutor

variable {procedure : Json} {x : ProcedureExecutor}

/-- The record under a step id is ACTIVE. -/
def ActiveAt (x : ProcedureExecutor) (id : Json) : Prop :=
  ∃ execution, x.stepExecutions.get? id = some execution ∧ execution.status = .active

structure Coherent (x : ProcedureExecutor) : Prop where
  one : (x.stepExecutions.filter fun kv => decide (kv.2.status = .active)).length ≤ 1
  active : ∀ id, id.hashable = true →
    (x.ActiveAt id ↔ x.status = .inProgress ∧ id.pyEq x.currentStepId = true)
  current : x.currentStepId = .null ↔ x.status ≠ .inProgress
  closed : x.status = .completed ∨ x.status = .escalated → x.getAllowedTools = .ok [] ∧
    ∀ target reason session now, ∃ err, x.invoke ⟨.transition target reason, session, now⟩ =
      (.error err, { executor := x, session })

/-- A transition to the target is valid. -/
def Accepts (x : ProcedureExecutor) (target : Json) : Prop :=
  x.currentStepId ≠ .null ∧
    target.memberOf ((x.validTransitions.get? x.currentStepId).getD []) = .ok true

/-- What a call asks of the state before it: a step with an id to enter, and nothing under way
where the procedure is closed by hand. -/
def Orderly (x : ProcedureExecutor) (i : Invocation) : Prop :=
  match i.call with
  | .start => x.status ≠ .inProgress → ∃ first rest, x.stepOrder = first :: rest ∧ first ≠ .null
  | .transition target _ => x.Accepts target → target ≠ .null
  | .complete _ | .escalate _ => x.status ≠ .inProgress

/-- What every call keeps. -/
structure Steady (procedure : Json) (x : ProcedureExecutor) : Prop where
  graph : OnGraph procedure x ∨ x.stepOrder = [] ∧ x.validTransitions = []
  distinct : x.stepExecutions.Distinct
  held : x.currentStepId ≠ .null → x.currentStepId.hashable = true ∧ x.ActiveAt x.currentStepId

/-- The record of a step that is entered, and the session state. -/
def entering (stepId id definition : Json) (now : String) (s : ExecutorState) : ExecutorState :=
  updateSessionState stepId
    (addExecution stepId (StepExecution.enter { stepId := id, definition } now) s)

/-- All that a call does, and what it has found. -/
inductive Effect (x : ProcedureExecutor) (i : Invocation) :
    Except ProcedureErr Json × ExecutorState → Prop
  | underWay (err : ProcedureErr) (hi : i.call = .start) (h : x.status = .inProgress) :
      Effect x i (.error err, { executor := x, session := i.session })
  | stepless (hi : i.call = .start) (h : x.status ≠ .inProgress) (order : x.stepOrder = []) :
      Effect x i (.error .indexError,
        { executor := { x with status := .inProgress, startedAt := some (i.now 0) },
          session := i.session })
  | started (hi : i.call = .start) (h : x.status ≠ .inProgress) (first : Json) (rest : List Json)
      (order : x.stepOrder = first :: rest) (hashable : first.hashable = true)
      (id definition : Json) :
      Effect x i (.ok first, entering first id definition (i.now 1) (updateSessionState first
        { executor := { x with status := .inProgress, startedAt := some (i.now 0) },
          session := i.session }))
  | refused (err : ProcedureErr) (target : Json) (reason : String)
      (hi : i.call = .transition target reason) (h : ¬ x.Accepts target) :
      Effect x i (.error err, { executor := x, session := i.session })
  | ended (reason : String) (hi : i.call = .transition (.str "end") reason)
    (h : x.Accepts (.str "end")) :
      Effect x i ((complete reason (i.now 1)).run.run
        (completeStep x.currentStepId reason (i.now 0) { executor := x, session := i.session }))
  | moved (target : Json) (reason : String) (hi : i.call = .transition target reason)
      (h : x.Accepts target) (hne : target ≠ .str "end") (hashable : target.hashable = true)
      (id definition : Json) :
      Effect x i (.ok target, entering target id definition (i.now 1)
        (completeStep x.currentStepId reason (i.now 0) { executor := x, session := i.session }))
  | completed (resolution : String) (hi : i.call = .complete resolution) :
      Effect x i ((complete resolution (i.now 0)).run.run { executor := x, session := i.session })
  | escalated (reason : String) (hi : i.call = .escalate reason) :
      Effect x i ((escalate reason (i.now 0)).run.run { executor := x, session := i.session })

theorem enterStep_entering (hg : OnGraph procedure x) {s : ExecutorState}
    (hsame : SameGraph x s.executor)
    {stepId : Json} (hm : stepId.memberOf (x.steps.map Prod.fst) = .ok true) (now : String) :
    ∃ id definition, (enterStep stepId now).run.run s =
    (.ok stepId, entering stepId id definition now s) := by
  obtain ⟨definition, hget⟩ := PyDict.exists_get? (Json.memberOf_ok.1 hm).2
  obtain ⟨key, hkey, -⟩ := PyDict.get?_eq_some hget
  obtain ⟨id, hid⟩ := hg.known _ hkey
  exact ⟨id, definition, enterStep_run (hsame.steps ▸ hm) (hsame.steps ▸ hget) hid⟩

theorem effect_start (hg : OnGraph procedure x ∨ x.stepOrder = [] ∧ x.validTransitions = [])
    {i : Invocation} (hi : i.call = .start) : Effect x i (x.invoke i) := by
  obtain ⟨call, session, now⟩ := i
  cases hi
  by_cases h : x.status = .inProgress
  · obtain ⟨err, herr⟩ : ∃ err, x.invoke ⟨.start, session, now⟩ =
        (.error err, { executor := x, session }) := start_inProgress h
    rw [herr]
    exact .underWay err rfl h
  · have hnone : x.stepOrder = [] → x.invoke ⟨.start, session, now⟩ =
        (.error .indexError,
          { executor := { x with status := .inProgress, startedAt := some (now 0) },
            session }) := by
      intro horder
      change (ProcedureExecutor.start now).run.run { executor := x, session } = _
      unfold ProcedureExecutor.start
      rw [run_bind_ok run_get, if_neg h, run_bind_ok run_modify]
      dsimp only
      rw [horder]
      rfl
    have hstart : ∀ first rest, x.stepOrder = first :: rest → x.invoke ⟨.start, session, now⟩ =
        (do modify (updateSessionState first)
            enterStep first (now 1) : ExecutorM Json).run.run
          { executor := { x with status := .inProgress, startedAt := some (now 0) }, session } := by
      intro first rest horder
      change (ProcedureExecutor.start now).run.run { executor := x, session } = _
      unfold ProcedureExecutor.start
      rw [run_bind_ok run_get, if_neg h, run_bind_ok run_modify]
      dsimp only
      rw [horder]
    rcases hg with hg | ⟨horder, -⟩
    · obtain ⟨first, rest, -, -, horder, -, -, hm⟩ := hg.first
      obtain ⟨id, definition, hrun⟩ := @enterStep_entering _ _ hg (updateSessionState first
        { executor := { x with status := .inProgress, startedAt := some (now 0) }, session })
        ⟨rfl, rfl, rfl⟩ _ hm (now 1)
      rw [hstart first rest horder, run_bind_ok run_modify, hrun]
      exact .started rfl h first rest horder (Json.memberOf_ok.1 hm).1 id definition
    · rw [hnone horder]
      exact .stepless rfl h horder

theorem effect_transition (hg : OnGraph procedure x ∨ x.stepOrder = [] ∧ x.validTransitions = [])
    {i : Invocation} {target : Json} {reason : String} (hi : i.call = .transition target reason) :
    Effect x i (x.invoke i) := by
  obtain ⟨call, session, now⟩ := i
  cases hi
  by_cases h : x.Accepts target
  · obtain ⟨hne, hm⟩ := h
    obtain ⟨hh, hany⟩ := Json.memberOf_ok.1 hm
    obtain ⟨t, htmem, het⟩ := List.any_eq_true.1 hany
    rcases hg with hg | ⟨-, hnone⟩
    · obtain ⟨targets, hget⟩ : ∃ targets, x.validTransitions.get? x.currentStepId =
        some targets := by
        cases hget : x.validTransitions.get? x.currentStepId with
        | none =>
          rw [hget] at htmem
          cases htmem
        | some targets => exact ⟨targets, rfl⟩
      obtain ⟨-, hcase⟩ := hg.edges _ _ hget t (by simpa [hget] using htmem)
      have hrun : x.invoke ⟨.transition target reason, session, now⟩ =
          (if target.pyEq (.str "end") then complete reason (now 1) else enterStep target
            (now 1)).run.run
            (completeStep x.currentStepId reason (now 0) { executor := x, session }) := by
        change (ProcedureExecutor.transition target reason now).run.run
          { executor := x, session } = _
        unfold ProcedureExecutor.transition
        rw [run_bind_ok run_get]
        dsimp only
        rw [if_neg hne, hm, run_bind_ok run_lift]
        rfl
      by_cases hend : target.pyEq (.str "end") = true
      · obtain rfl := Json.eq_of_pyEq_str hend
        rw [hrun, if_pos hend]
        exact .ended reason rfl ⟨hne, hm⟩
      · obtain ⟨hknown, -⟩ : (x.steps.map Prod.fst).any (fun id => id.pyEq t) = true ∧ _ := by
          rcases hcase with rfl | ⟨-, hcase⟩
          · exact absurd (Json.pyEq_symm rfl het) hend
          · exact hcase
        have hsame : SameGraph x
            (completeStep x.currentStepId reason (now 0) { executor := x, session }).executor :=
          sameGraph_completeStep (s := { executor := x, session }) _ _ _
        obtain ⟨id, definition, henter⟩ :=
          enterStep_entering hg hsame (memberOf_keys hg hh hknown het) (now 1)
        rw [hrun, if_neg hend, henter]
        exact .moved target reason rfl ⟨hne, hm⟩ (fun he => hend (by rw [he]; rfl)) hh id definition
    · rw [hnone] at htmem
      cases htmem
  · by_cases hnull : x.currentStepId = .null
    · obtain ⟨err, herr⟩ : ∃ err, x.invoke ⟨.transition target reason, session, now⟩ =
          (.error err, { executor := x, session }) := transition_idle hnull
      rw [herr]
      exact .refused err target reason rfl h
    · obtain ⟨err, herr⟩ : ∃ err, x.invoke ⟨.transition target reason, session, now⟩ =
          (.error err, { executor := x, session }) :=
          transition_refused hnull fun hm => h ⟨hnull, hm⟩
      rw [herr]
      exact .refused err target reason rfl h

theorem effect (hg : OnGraph procedure x ∨ x.stepOrder = [] ∧ x.validTransitions = [])
    (i : Invocation) : Effect x i (x.invoke i) := by
  cases hi : i.call with
  | start => exact effect_start hg hi
  | transition target reason => exact effect_transition hg hi
  | complete resolution =>
    have hrun : x.invoke i =
        (complete resolution (i.now 0)).run.run { executor := x, session := i.session } := by
      unfold invoke Invocation.body
      rw [hi]
    exact hrun ▸ .completed resolution hi
  | escalate reason =>
    have hrun :
        x.invoke i =
        (escalate reason (i.now 0)).run.run { executor := x, session := i.session } := by
      unfold invoke Invocation.body
      rw [hi]
    exact hrun ▸ .escalated reason hi

section Records

variable {id : Json} {execution : StepExecution}

theorem activeAt_entered (hd : x.stepExecutions.Distinct) {stepId : Json}
    (hh : stepId.hashable = true)
    (ha : execution.status = .active) :
    ActiveAt { x with
        stepExecutions := x.stepExecutions.set stepId execution
        currentStepId := stepId } id ↔
      stepId.pyEq id = true ∨ x.ActiveAt id := by
  unfold ActiveAt
  rw [PyDict.get?_set hd.hashable hh]
  split_ifs with he
  · exact ⟨fun _ => Or.inl he, fun _ => ⟨_, rfl, ha⟩⟩
  · simp [he]

/-- The record of the current step, which is there, is completed. -/
theorem completeStep_eq (hcurrent : x.ActiveAt x.currentStepId) (reason now : String)
    (session : Fields) : ∃ execution, execution.status = .completed ∧
    completeStep x.currentStepId reason now { executor := x, session } =
      { executor := { x with stepExecutions := x.stepExecutions.set x.currentStepId execution },
        session } := by
  obtain ⟨execution, hget, -⟩ := hcurrent
  refine ⟨execution.complete reason now, rfl, ?_⟩
  unfold completeStep
  rw [hget]

theorem activeAt_completed (hd : x.stepExecutions.Distinct) (hh : x.currentStepId.hashable = true)
    (hc : execution.status = .completed) :
    ActiveAt { x with stepExecutions := x.stepExecutions.set x.currentStepId execution } id ↔
      x.currentStepId.pyEq id = false ∧ x.ActiveAt id := by
  unfold ActiveAt
  rw [PyDict.get?_set hd.hashable hh]
  split_ifs with he
  · simp [he, hc]
  · simp [he]

theorem coherent_of (hd : x.stepExecutions.Distinct)
    (hactive : ∀ id, id.hashable = true →
      (x.ActiveAt id ↔ x.status = .inProgress ∧ id.pyEq x.currentStepId = true))
    (hcurrent : x.currentStepId = .null ↔ x.status ≠ .inProgress) : x.Coherent where
  one := hd.length_filter_le fun kv hkv ha => by
    have hh := hd.hashable kv hkv
    exact ((hactive kv.1 hh).1
      ⟨kv.2, hd.get?_of_mem hkv (Json.pyEq_self hh), of_decide_eq_true ha⟩).2
  active := hactive
  current := hcurrent
  closed h := by
    have hnull : x.currentStepId = .null := hcurrent.2 (by rcases h with h | h <;> rw [h] <;> nofun)
    refine ⟨?_, fun target reason session now => transition_idle hnull⟩
    unfold getAllowedTools getCurrentStep
    rw [hnull]
    rfl

end Records

theorem init_fresh (hi : init procedure = .ok x) :
    x.stepExecutions = [] ∧ x.currentStepId = .null ∧ x.status = .notStarted ∧
      (declaredSteps procedure = [] → x.stepOrder = [] ∧ x.validTransitions = []) := by
  unfold init at hi
  obtain ⟨procedureId, -, hi⟩ := bind_eq_ok.1 hi
  obtain ⟨procedureName, -, hi⟩ := bind_eq_ok.1 hi
  obtain ⟨steps, hsteps, hi⟩ := bind_eq_ok.1 hi
  obtain ⟨xs, hxs, hi⟩ := bind_eq_ok.1 hi
  obtain ⟨byId, -, hi⟩ := bind_eq_ok.1 hi
  obtain ⟨stepOrder, horder, hi⟩ := bind_eq_ok.1 hi
  obtain ⟨validTransitions, htrans, hi⟩ := bind_eq_ok.1 hi
  cases hi
  refine ⟨rfl, rfl, rfl, fun hnone => ?_⟩
  obtain rfl : xs = [] := (declaredSteps_eq hsteps hxs).symm.trans hnone
  cases horder
  cases htrans
  exact ⟨rfl, rfl⟩

theorem steady_init (hv : ProcedureLoader.validateProcedure procedure = .ok true)
    (hi : init procedure = .ok x) : Steady procedure x := by
  obtain ⟨hnone, hnull, -, hempty⟩ := init_fresh hi
  refine ⟨?_, hnone ▸ PyDict.Distinct.nil, fun hne => absurd hnull hne⟩
  by_cases hsteps : declaredSteps procedure = []
  · exact Or.inr (hempty hsteps)
  · exact Or.inl (onGraph_init hv hsteps hi)

theorem coherent_init (hi : init procedure = .ok x) : x.Coherent := by
  obtain ⟨hnone, hnull, hstatus, -⟩ := init_fresh hi
  refine coherent_of (hnone ▸ PyDict.Distinct.nil) (fun id _ => ?_) ?_
  · unfold ActiveAt
    rw [hnone, hstatus]
    exact ⟨fun ⟨_, hget, _⟩ => by injection hget, fun h => by cases h.1⟩
  · rw [hstatus]
    exact ⟨fun _ => nofun, fun _ => hnull⟩

theorem Steady.same (hs : Steady procedure x) {x' : ProcedureExecutor} (h : SameGraph x x') :
    OnGraph procedure x' ∨ x'.stepOrder = [] ∧ x'.validTransitions = [] :=
  hs.graph.imp (fun hg => hg.same h) fun hnone =>
    ⟨h.stepOrder.trans hnone.1, h.validTransitions.trans hnone.2⟩

theorem steady_entered (hs : Steady procedure x) {x' : ProcedureExecutor} (hsame : SameGraph x x')
    (hd : x'.stepExecutions.Distinct) {stepId : Json} (hh : stepId.hashable = true)
    (execution : StepExecution) (ha : execution.status = .active) :
    Steady procedure
      { x' with
        stepExecutions := x'.stepExecutions.set stepId execution
        currentStepId := stepId } := by
  refine ⟨hs.same ⟨hsame.steps, hsame.stepOrder, hsame.validTransitions⟩, hd.set hh _,
    fun _ => ⟨hh, ?_⟩⟩
  exact (activeAt_entered hd hh ha).2 (Or.inl (Json.pyEq_self hh))

theorem steady_invoke (hs : Steady procedure x) (i : Invocation) :
    Steady procedure (x.invoke i).2.executor := by
  have heffect := effect hs.graph i
  generalize x.invoke i = r at heffect
  cases heffect with
  | underWay | refused => exact hs
  | stepless hi h order => exact ⟨hs.same ⟨rfl, rfl, rfl⟩, hs.distinct, hs.held⟩
  | started hi h first rest order hashable id definition =>
    exact @steady_entered _ _ hs { x with status := .inProgress, startedAt := some (i.now 0) }
      ⟨rfl, rfl, rfl⟩ hs.distinct _ hashable _ rfl
  | ended reason hi h =>
    obtain ⟨hh, hactive⟩ := hs.held h.1
    obtain ⟨execution, -, heq⟩ := completeStep_eq hactive reason (i.now 0) i.session
    rw [heq]
    exact ⟨hs.same ⟨rfl, rfl, rfl⟩, hs.distinct.set hh _, fun hne => absurd rfl hne⟩
  | moved target reason hi h hne hashable id definition =>
    obtain ⟨hh, hactive⟩ := hs.held h.1
    obtain ⟨execution, -, heq⟩ := completeStep_eq hactive reason (i.now 0) i.session
    rw [heq]
    exact @steady_entered _ _ hs
      { x with stepExecutions := x.stepExecutions.set x.currentStepId execution }
      ⟨rfl, rfl, rfl⟩ (hs.distinct.set hh _) _ hashable _ rfl
  | completed resolution hi =>
    exact ⟨hs.same ⟨rfl, rfl, rfl⟩, hs.distinct, fun hne => absurd rfl hne⟩
  | escalated reason hi => exact ⟨hs.same ⟨rfl, rfl, rfl⟩, hs.distinct, hs.held⟩

theorem steady_after (hv : ProcedureLoader.validateProcedure procedure = .ok true)
    (hi : init procedure = .ok x) (calls : List Invocation) :
    Steady procedure (x.after calls).executor := by
  induction calls using List.reverseRecOn with
  | nil => exact steady_init hv hi
  | append_singleton calls i ih =>
    rw [ProcedureExecutor.after, List.foldl_append]
    exact steady_invoke ih i

theorem Coherent.idle (hx : x.Coherent) (h : x.status ≠ .inProgress) (id : Json)
    (hh : id.hashable = true) : ¬ x.ActiveAt id :=
  fun ha => h ((hx.active id hh).1 ha).1

theorem Coherent.inProgress (hx : x.Coherent) (h : x.currentStepId ≠ .null) :
    x.status = .inProgress :=
  not_not.1 fun hne => h (hx.current.2 hne)

/-- An executor that is under way in a step with an id. -/
theorem coherent_entered_iff (hd : x.stepExecutions.Distinct) {stepId : Json}
    (hh : stepId.hashable = true) {execution : StepExecution} (ha : execution.status = .active)
    (hstatus : x.status = .inProgress)
    (hother : ∀ id, id.hashable = true → stepId.pyEq id = false → ¬ x.ActiveAt id) :
    Coherent { x with
        stepExecutions := x.stepExecutions.set stepId execution
        currentStepId := stepId } ↔
      stepId ≠ .null := by
  constructor
  · intro hx hnull
    exact hx.current.1 hnull hstatus
  · intro hne
    refine coherent_of (hd.set hh _) (fun id hid => ?_)
      ⟨fun h => absurd h hne, fun h => absurd hstatus h⟩
    rw [activeAt_entered hd hh ha]
    constructor
    · rintro (he | hactive)
      · exact ⟨hstatus, Json.pyEq_symm hh he⟩
      · refine ⟨hstatus, Json.pyEq_symm hh ?_⟩
        by_contra hne
        exact hother id hid (by simpa using hne) hactive
    · exact fun h => Or.inl (Json.pyEq_symm hid h.2)

theorem coherent_invoke_iff (hs : Steady procedure x) (hx : x.Coherent) (i : Invocation) :
    (x.invoke i).2.executor.Coherent ↔ x.Orderly i := by
  have heffect := effect hs.graph i
  generalize x.invoke i = r at heffect
  unfold Orderly
  cases heffect with
  | underWay err hi h =>
    rw [hi]
    exact ⟨fun _ hne => absurd h hne, fun _ => hx⟩
  | stepless hi h order =>
    rw [hi]
    refine ⟨fun hx' => absurd rfl (hx'.current.1 (hx.current.2 h)), fun horderly => ?_⟩
    obtain ⟨first, rest, horder, -⟩ := horderly h
    cases order.symm.trans horder
  | started hi h first rest order hashable id definition =>
    rw [hi]
    refine (@coherent_entered_iff { x with status := .inProgress, startedAt := some (i.now 0) }
      hs.distinct _ hashable _ rfl rfl fun id hid _ => hx.idle h id hid).trans ?_
    constructor
    · exact fun hne _ => ⟨first, rest, order, hne⟩
    · intro horderly
      obtain ⟨first', rest', horder, hne⟩ := horderly h
      cases order.symm.trans horder
      exact hne
  | refused err target reason hi h =>
    rw [hi]
    exact ⟨fun _ ha => absurd ha h, fun _ => hx⟩
  | ended reason hi h =>
    rw [hi]
    refine ⟨fun _ _ => nofun, fun _ => ?_⟩
    obtain ⟨hh, hactive⟩ := hs.held h.1
    obtain ⟨execution, hexecution, heq⟩ := completeStep_eq hactive reason (i.now 0) i.session
    rw [heq]
    refine coherent_of (hs.distinct.set hh _) (fun id hid => ?_) ⟨fun _ => nofun, fun _ => rfl⟩
    refine ⟨fun ha => ?_, fun h => by cases h.1⟩
    obtain ⟨hne, ha⟩ := (activeAt_completed hs.distinct hh hexecution).1 ha
    rw [Json.pyEq_symm hid ((hx.active id hid).1 ha).2] at hne
    cases hne
  | moved target reason hi h hne hashable id definition =>
    rw [hi]
    obtain ⟨hh, hactive⟩ := hs.held h.1
    obtain ⟨execution, hexecution, heq⟩ := completeStep_eq hactive reason (i.now 0) i.session
    rw [heq]
    refine (@coherent_entered_iff
      { x with stepExecutions := x.stepExecutions.set x.currentStepId execution }
      (hs.distinct.set hh _) _ hashable _ rfl (hx.inProgress h.1) fun id hid _ ha => ?_).trans
      ⟨fun hne _ => hne, fun horderly => horderly h⟩
    obtain ⟨hne, ha⟩ := (activeAt_completed hs.distinct hh hexecution).1 ha
    rw [Json.pyEq_symm hid ((hx.active id hid).1 ha).2] at hne
    cases hne
  | completed resolution hi =>
    rw [hi]
    constructor
    · intro hx' hprogress
      obtain ⟨hh, ha⟩ := hs.held fun hnull => hx.current.1 hnull hprogress
      cases ((hx'.active _ hh).1 ha).1
    · intro h
      exact coherent_of hs.distinct
        (fun id hid => ⟨fun ha => absurd ha (hx.idle h id hid), fun h => by cases h.1⟩)
        ⟨fun _ => nofun, fun _ => rfl⟩
  | escalated reason hi =>
    rw [hi]
    constructor
    · intro hx' hprogress
      exact absurd hprogress (hx.current.1 (hx'.current.2 nofun))
    · intro h
      exact coherent_of hs.distinct
        (fun id hid => ⟨fun ha => absurd ha (hx.idle h id hid), fun h => by cases h.1⟩)
        ⟨fun _ => nofun, fun _ => hx.current.2 h⟩

/-- A run is coherent in every state exactly if each of its calls is orderly. -/
theorem coherent_iff_orderly (procedure : Json) (x : ProcedureExecutor)
    (hv : ProcedureLoader.validateProcedure procedure = .ok true) (hi : init procedure = .ok x)
    (calls : List Invocation) :
    (∀ before, before <+: calls → (x.after before).executor.Coherent) ↔
      ∀ before i, before ++ [i] <+: calls → (x.after before).executor.Orderly i := by
  have hcoherent : ∀ calls : List Invocation,
      (∀ b c, b ++ [c] <+: calls → (x.after b).executor.Orderly c) →
      (x.after calls).executor.Coherent := by
    intro calls
    induction calls using List.reverseRecOn with
    | nil => exact fun _ => coherent_init hi
    | append_singleton calls i ih =>
      intro horderly
      have hx := ih fun b c hpre => horderly b c (hpre.trans (List.prefix_append _ _))
      rw [ProcedureExecutor.after, List.foldl_append]
      exact (coherent_invoke_iff (steady_after hv hi calls) hx i).2
        (horderly calls i List.prefix_rfl)
  constructor
  · intro hall before i hpre
    have hx := hall before ((List.prefix_append _ _).trans hpre)
    have hx' := hall _ hpre
    rw [ProcedureExecutor.after, List.foldl_append] at hx'
    exact (coherent_invoke_iff (steady_after hv hi before) hx i).1 hx'
  · intro horderly before hpre
    exact hcoherent before fun b c hbc => horderly b c (hbc.trans hpre)

theorem refund_coherent : (refundExecutor.after [⟨.start, [], fun _ => "t"⟩,
    ⟨.transition (.str "pay") "eligible", [], fun _ => "t"⟩,
    ⟨.transition (.str "end") "paid", [], fun _ => "t"⟩]).executor.Coherent := by
  refine (coherent_iff_orderly refundProcedure refundExecutor rfl rfl _).2
    (fun before i hpre => ?_) _ List.prefix_rfl
  cases before with
  | nil =>
    obtain rfl := (List.cons_prefix_cons.1 hpre).1
    exact fun _ => ⟨.str "check", [.str "pay"], rfl, nofun⟩
  | cons a before =>
    obtain ⟨-, hpre⟩ := List.cons_prefix_cons.1 hpre
    have hmem := hpre.subset (List.mem_append_right before (List.mem_singleton_self i))
    rcases List.mem_pair.1 hmem with rfl | rfl <;> exact fun _ => nofun

/-- An escalated procedure that goes on. -/
theorem escalated_not_coherent : ¬ ∀ (procedure : Json) (x : ProcedureExecutor),
    ProcedureLoader.validateProcedure procedure = .ok true → init procedure = .ok x →
      ∀ calls : List Invocation, (x.after calls).executor.Coherent := by
  intro h
  have hv : ProcedureLoader.validateProcedure refundProcedure = .ok true := by rfl
  have hi : init refundProcedure = .ok refundExecutor := by rfl
  have hx := h refundProcedure refundExecutor hv hi
    [⟨.start, [], fun _ => "t"⟩, ⟨.escalate "supervisor", [], fun _ => "t"⟩]
  obtain ⟨err, herr⟩ := (hx.closed (Or.inr (by rfl))).2 (.str "pay") "eligible" [] fun _ => "t"
  have hok : ((refundExecutor.after [⟨.start, [], fun _ => "t"⟩,
      ⟨.escalate "supervisor", [], fun _ => "t"⟩]).executor.invoke
        ⟨.transition (.str "pay") "eligible", [], fun _ => "t"⟩).1 = .ok (.str "pay") := by rfl
  rw [herr] at hok
  cases hok

end ProcedureExecutor

end WorkflowEngine
