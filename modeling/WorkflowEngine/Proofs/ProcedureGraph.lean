import Mathlib.Data.List.Chain
import WorkflowEngine.Sanity.Keys

/-! The executor of a validated procedure stays on the declared graph: the graph builder and
the validator read the same fields, so what the executor offers is there to be entered, and a
call that raises has changed nothing. -/

namespace WorkflowEngine

open Fallible

/-- The steps of a procedure. -/
def declaredSteps (procedure : Json) : List Json :=
  match procedure.item "steps" >>= Json.iterate with
  | .ok steps => steps
  | .error _ => []

/-- A step, or one of its conditions or options, names a target. -/
inductive Names (step t : Json) : Prop where
  | reference (field : String) (hfield : field ∈ refFields) (ht : step.item field = .ok t)
  | entry (field : String) (hfield : field ∈ ["conditions", "options"]) (entries : List Json)
      (he : step.item field = .ok (.list entries)) (entry : Json) (hmem : entry ∈ entries)
      (ht : entry.item "next_step" = .ok t)

def DeclaredEdge (procedure a b : Json) : Prop :=
  ∃ step ∈ declaredSteps procedure, ∃ id t, step.item "id" = .ok id ∧ id.pyEq a = true ∧
    Names step t ∧ t.pyEq b = true

namespace Json

theorem contains_of_item {v w : Json} {key : String} (h : v.item key = .ok w) :
    v.contains key = .ok true := by
  cases v with
  | dict kvs =>
    simp only [item] at h
    cases hg : Fields.get? kvs key with
    | none =>
      rw [hg] at h
      cases h
    | some w => simp [contains, Fields.has, hg]
  | _ => cases h

/-- A truthy answer of `get` is an item. -/
theorem item_of_getOrNone {v w : Json} {key : String} (h : v.getOrNone key = .ok w)
    (hw : w.truthy = true) : v.item key = .ok w := by
  cases v with
  | dict kvs =>
    cases hg : Fields.get? kvs key with
    | none =>
      simp only [getOrNone, hg] at h
      cases h
      cases hw
    | some w' =>
      simp only [getOrNone, hg] at h
      cases h
      simp [item, hg]
  | _ => cases h

/-- Only the entries of a list have items. -/
theorem eq_list_of_iterate {v entry w : Json} {xs : List Json} {key : String}
    (h : v.iterate = .ok xs) (hmem : entry ∈ xs) (hw : entry.item key = .ok w) : v = .list xs := by
  cases v with
  | list ys =>
    cases h
    rfl
  | dict kvs =>
    cases h
    obtain ⟨kv, -, rfl⟩ := List.mem_map.1 hmem
    cases hw
  | str s =>
    cases h
    obtain ⟨c, -, rfl⟩ := List.mem_map.1 hmem
    cases hw
  | _ => cases h

end Json

section Graph

variable {step : Json}

/-- A target that the graph builder has collected. -/
def Collected (step t : Json) : Prop :=
  t.hashable = true ∧ t.pyEq (.str "end") = false ∧ Names step t

theorem collected_reference {field : String} (hfield : field ∈ refFields)
    {targets targets' : List Json}
    (h : ProcedureExecutor.addReference step targets field = .ok targets')
    (ht : ∀ t ∈ targets, Collected step t) : ∀ t ∈ targets', Collected step t := by
  unfold ProcedureExecutor.addReference at h
  obtain ⟨c, -, h⟩ := bind_eq_ok.1 h
  cases c with
  | false =>
    cases h
    exact ht
  | true =>
    obtain ⟨t, hitem, h⟩ := bind_eq_ok.1 h
    cases he : t.pyEq (.str "end") with
    | true =>
      rw [he] at h
      cases h
      exact ht
    | false =>
      rw [he] at h
      intro t' ht'
      rcases Json.mem_addTo h ht' with ht' | rfl
      · exact ht t' ht'
      · exact ⟨(Json.addTo_ok.1 h).1, he, .reference field hfield hitem⟩

theorem collected_entries {field : String} (hfield : field ∈ ["conditions", "options"])
    {targets targets' : List Json}
    (h : ProcedureExecutor.addEntryTargets step field targets = .ok targets')
    (ht : ∀ t ∈ targets, Collected step t) : ∀ t ∈ targets', Collected step t := by
  unfold ProcedureExecutor.addEntryTargets at h
  obtain ⟨c, -, h⟩ := bind_eq_ok.1 h
  cases c with
  | false =>
    cases h
    exact ht
  | true =>
    obtain ⟨entries, hitem, h⟩ := bind_eq_ok.1 h
    cases htruthy : entries.truthy with
    | false =>
      rw [htruthy] at h
      cases h
      exact ht
    | true =>
      rw [htruthy] at h
      obtain ⟨xs, hiter, h⟩ := bind_eq_ok.1 h
      refine foldlM_induction (P := fun targets => ∀ t ∈ targets, Collected step t) h ht ?_
      intro entry hmem targets targets' htargets hstep t' ht'
      obtain ⟨t, hget, hstep⟩ := bind_eq_ok.1 hstep
      cases hcond : t.truthy && !t.pyEq (.str "end") with
      | false =>
        rw [hcond] at hstep
        cases hstep
        exact htargets t' ht'
      | true =>
        rw [hcond] at hstep
        obtain ⟨htt, he⟩ := Bool.and_eq_true_iff.1 hcond
        have hitem' := Json.item_of_getOrNone hget htt
        rw [Json.eq_list_of_iterate hiter hmem hitem'] at hitem
        rcases Json.mem_addTo hstep ht' with ht' | rfl
        · exact htargets t' ht'
        · exact ⟨(Json.addTo_ok.1 hstep).1, by simpa using he,
            .entry field hfield xs hitem entry hmem hitem'⟩

theorem mem_stepTargets {targets : List Json}
    (h : ProcedureExecutor.stepTargets step = .ok targets) :
    ∀ t ∈ targets, t = .str "end" ∨ Collected step t := by
  unfold ProcedureExecutor.stepTargets at h
  obtain ⟨refs, hrefs, h⟩ := bind_eq_ok.1 h
  obtain ⟨conds, hconds, h⟩ := bind_eq_ok.1 h
  obtain ⟨opts, hopts, h⟩ := bind_eq_ok.1 h
  have h1 : ∀ t ∈ refs, Collected step t :=
    foldlM_induction (P := fun targets => ∀ t ∈ targets, Collected step t) hrefs nofun
      fun field hfield targets targets' ht hstep => collected_reference hfield hstep ht
  have h2 := collected_entries (by simp) hconds h1
  have h3 := collected_entries (by simp) hopts h2
  intro t ht
  rcases Json.mem_addTo h ht with ht | rfl
  · exact Or.inr (h3 t ht)
  · exact Or.inl rfl

variable {validTargets : List Json}

theorem valid_reference {field : String} {t : Json}
    (h : ProcedureLoader.checkReference validTargets step field = .ok ())
    (ht : step.item field = .ok t) : t.memberOf validTargets = .ok true := by
  unfold ProcedureLoader.checkReference at h
  rw [Json.contains_of_item ht] at h
  obtain ⟨-, ⟨⟩, h⟩ := bind_eq_ok.1 h
  obtain ⟨t', ht', h⟩ := bind_eq_ok.1 h
  cases ht.symm.trans ht'
  obtain ⟨b, hb, h⟩ := bind_eq_ok.1 h
  cases b with
  | true => exact hb
  | false =>
    obtain ⟨id, -, h⟩ := bind_eq_ok.1 h
    cases h

theorem valid_entry {field label : String} {entries : List Json} {entry t : Json}
    (h : ProcedureLoader.checkTargets validTargets step field label = .ok ())
    (he : step.item field = .ok (.list entries)) (hmem : entry ∈ entries)
    (ht : entry.item "next_step" = .ok t) : t.memberOf validTargets = .ok true := by
  have htruthy : (Json.list entries).truthy = true := by
    cases entries with
    | nil => cases hmem
    | cons e es => rfl
  unfold ProcedureLoader.checkTargets at h
  rw [Json.contains_of_item he] at h
  obtain ⟨-, ⟨⟩, h⟩ := bind_eq_ok.1 h
  obtain ⟨entries', he', h⟩ := bind_eq_ok.1 h
  cases he.symm.trans he'
  rw [htruthy] at h
  obtain ⟨es, hes, h⟩ := bind_eq_ok.1 h
  cases hes
  have hentry := of_forM h entry hmem
  rw [Json.contains_of_item ht] at hentry
  obtain ⟨-, ⟨⟩, hentry⟩ := bind_eq_ok.1 hentry
  obtain ⟨t', ht', hentry⟩ := bind_eq_ok.1 hentry
  cases ht.symm.trans ht'
  obtain ⟨b, hb, hentry⟩ := bind_eq_ok.1 hentry
  cases b with
  | true => exact hb
  | false =>
    obtain ⟨id, -, hentry⟩ := bind_eq_ok.1 hentry
    cases hentry

/-- The validator has found every target that the step names. -/
theorem valid_of_names {t : Json} (h : ProcedureLoader.validateStep validTargets step = .ok ())
    (hn : Names step t) : t.memberOf validTargets = .ok true := by
  unfold ProcedureLoader.validateStep at h
  obtain ⟨-, -, h⟩ := bind_eq_ok.1 h
  obtain ⟨⟨⟩, hrefs, h⟩ := bind_eq_ok.1 h
  obtain ⟨⟨⟩, hconds, hopts⟩ := bind_eq_ok.1 h
  cases hn with
  | reference field hfield ht => exact valid_reference (of_forM hrefs field hfield) ht
  | entry field hfield entries he entry hmem ht =>
    rcases List.mem_pair.1 hfield with rfl | rfl
    · exact valid_entry hconds he hmem ht
    · exact valid_entry hopts he hmem ht

/-- The graph of an executor of a validated procedure. -/
structure OnGraph (procedure : Json) (x : ProcedureExecutor) : Prop where
  edges : ∀ a targets, x.validTransitions.get? a = some targets → ∀ t ∈ targets,
    t.hashable = true ∧ (t = .str "end" ∨ t.pyEq (.str "end") = false ∧
      (x.steps.map Prod.fst).any (fun id => id.pyEq t) = true ∧
      ∀ b, t.pyEq b = true → DeclaredEdge procedure a b)
  keys : ∀ id ∈ x.steps.map Prod.fst, id.hashable = true
  known : ∀ kv ∈ x.steps, ∃ id, kv.2.item "id" = .ok id
  first : ∃ first rest step steps, x.stepOrder = first :: rest ∧
    declaredSteps procedure = step :: steps ∧ step.item "id" = .ok first ∧
    first.memberOf (x.steps.map Prod.fst) = .ok true

theorem declaredSteps_eq {procedure steps : Json} {xs : List Json}
    (hs : procedure.item "steps" = .ok steps) (hx : steps.iterate = .ok xs) :
    declaredSteps procedure = xs := by
  unfold declaredSteps
  rw [hs]
  change (match steps.iterate with | .ok steps => steps | .error _ => []) = xs
  rw [hx]

theorem onGraph_init {procedure : Json} {x : ProcedureExecutor}
    (hv : ProcedureLoader.validateProcedure procedure = .ok true)
    (hne : declaredSteps procedure ≠ []) (hi : ProcedureExecutor.init procedure = .ok x) :
    OnGraph procedure x := by
  unfold ProcedureLoader.validateProcedure at hv
  obtain ⟨steps, hsteps, hv⟩ := bind_eq_ok.1 hv
  obtain ⟨xs, hxs, hv⟩ := bind_eq_ok.1 hv
  obtain ⟨ids, hids, hv⟩ := bind_eq_ok.1 hv
  obtain ⟨validTargets, htargets, hv⟩ := bind_eq_ok.1 hv
  obtain ⟨⟨⟩, hvalid, -⟩ := bind_eq_ok.1 hv
  have hdecl := declaredSteps_eq hsteps hxs
  unfold ProcedureExecutor.init at hi
  obtain ⟨procedureId, -, hi⟩ := bind_eq_ok.1 hi
  obtain ⟨procedureName, -, hi⟩ := bind_eq_ok.1 hi
  obtain ⟨steps', hsteps', hi⟩ := bind_eq_ok.1 hi
  cases hsteps.symm.trans hsteps'
  obtain ⟨xs', hxs', hi⟩ := bind_eq_ok.1 hi
  cases hxs.symm.trans hxs'
  obtain ⟨byId, hbyId, hi⟩ := bind_eq_ok.1 hi
  obtain ⟨stepOrder, horder, hi⟩ := bind_eq_ok.1 hi
  obtain ⟨validTransitions, htrans, hi⟩ := bind_eq_ok.1 hi
  cases hi
  have hkeys : byId.map Prod.fst = ids := by
    refine foldlM_induction₂ (R := fun (d : PyDict Json) (s : List Json) => d.map Prod.fst = s)
      hbyId hids rfl ?_
    intro step _ d d' s s' hR hd hs
    obtain ⟨id, hid, hd⟩ := bind_eq_ok.1 hd
    obtain ⟨id', hid', hs⟩ := bind_eq_ok.1 hs
    cases hid.symm.trans hid'
    have hstore := PyDict.keys_store hd
    rw [hR, hs] at hstore
    exact (Except.ok.inj hstore).symm
  have hmem : ∀ kv ∈ byId, kv.1.hashable = true ∧ ∃ id, kv.2.item "id" = .ok id := by
    intro kv hkv
    obtain ⟨hh, step, -, id, hid, hstep, -⟩ :=
      @PyDict.mem_of_fold _ _ _ (·.item "id") .ok _ hbyId kv hkv
    cases hstep
    exact ⟨hh, id, hid⟩
  refine ⟨fun a targets hget t ht => ?_, fun id hid => ?_, fun kv hkv => (hmem kv hkv).2, ?_⟩
  · obtain ⟨key, hkey, hka⟩ := PyDict.get?_eq_some hget
    obtain ⟨-, step, hstep, id, hid, hval, hik⟩ := PyDict.mem_of_fold htrans _ hkey
    have hih : id.hashable = true := by
      obtain ⟨v, hv, hvm⟩ := (Json.memberOf_fold hids).2 step hstep
      cases hid.symm.trans hv
      exact (Json.memberOf_ok.1 hvm).1
    rcases mem_stepTargets hval t ht with rfl | ⟨hh, he, hn⟩
    · exact ⟨rfl, Or.inl rfl⟩
    · refine ⟨hh, Or.inr ⟨he, ?_, fun b hb => ?_⟩⟩
      · obtain ⟨-, hany⟩ := Json.memberOf_ok.1 (valid_of_names (of_forM hvalid step hstep) hn)
        obtain ⟨w, hw, hwt⟩ := List.any_eq_true.1 hany
        rcases Json.mem_addTo htargets hw with hw | rfl
        · exact List.any_eq_true.2 ⟨w, hkeys ▸ hw, hwt⟩
        · rw [Json.pyEq_symm rfl hwt] at he
          cases he
      · exact ⟨step, hdecl ▸ hstep, id, t, hid, Json.pyEq_trans hih hik hka, hn, hb⟩
  · obtain ⟨kv, hkv, rfl⟩ := List.mem_map.1 hid
    exact (hmem kv hkv).1
  · rcases head_of_mapM horder with ⟨rfl, -⟩ | ⟨step, rest, first, order, rfl, rfl, hfirst⟩
    · exact absurd hdecl hne
    · obtain ⟨v, hv, hvm⟩ := (Json.memberOf_fold hids).2 step List.mem_cons_self
      cases hfirst.symm.trans hv
      exact ⟨first, order, step, rest, rfl, hdecl, hfirst, hkeys ▸ hvm⟩

theorem init_idle {procedure : Json} {x : ProcedureExecutor}
    (hi : ProcedureExecutor.init procedure = .ok x) : x.currentStepId = .null := by
  unfold ProcedureExecutor.init at hi
  obtain ⟨procedureId, -, hi⟩ := bind_eq_ok.1 hi
  obtain ⟨procedureName, -, hi⟩ := bind_eq_ok.1 hi
  obtain ⟨steps, -, hi⟩ := bind_eq_ok.1 hi
  obtain ⟨xs, -, hi⟩ := bind_eq_ok.1 hi
  obtain ⟨byId, -, hi⟩ := bind_eq_ok.1 hi
  obtain ⟨stepOrder, -, hi⟩ := bind_eq_ok.1 hi
  obtain ⟨validTransitions, -, hi⟩ := bind_eq_ok.1 hi
  cases hi
  rfl

end Graph

section Methods

open ProcedureExecutor

variable {procedure : Json} {s : ExecutorState} {now : ℕ → String}

structure SameGraph (x x' : ProcedureExecutor) : Prop where
  steps : x'.steps = x.steps
  stepOrder : x'.stepOrder = x.stepOrder
  validTransitions : x'.validTransitions = x.validTransitions

theorem OnGraph.same {x x' : ProcedureExecutor} (hg : OnGraph procedure x) (h : SameGraph x x') :
    OnGraph procedure x' := by
  refine ⟨?_, ?_, ?_, ?_⟩
  · rw [h.validTransitions, h.steps]
    exact hg.edges
  · rw [h.steps]
    exact hg.keys
  · rw [h.steps]
    exact hg.known
  · rw [h.stepOrder, h.steps]
    exact hg.first

theorem sameGraph_completeStep (current : Json) (reason now : String) :
    SameGraph s.executor (completeStep current reason now s).executor := by
  unfold completeStep
  cases s.executor.stepExecutions.get? current <;> exact ⟨rfl, rfl, rfl⟩

theorem enterStep_run {stepId definition id : Json} {now : String}
    (hm : stepId.memberOf (s.executor.steps.map Prod.fst) = .ok true)
    (hget : s.executor.steps.get? stepId = some definition) (hid : definition.item "id" = .ok id) :
    (enterStep stepId now).run.run s = (.ok stepId, updateSessionState stepId
      (addExecution stepId (StepExecution.enter { stepId := id, definition } now) s)) := by
  unfold enterStep
  rw [run_bind_ok run_get, hm, run_bind_ok run_lift, hget]
  change ((liftM (definition.item "id") >>= fun _ => _ : ExecutorM Json)).run.run s = _
  rw [hid]
  rfl

/-- A step that is there is entered. -/
theorem enterStep_ok (hg : OnGraph procedure s.executor) {stepId : Json} (now : String)
    (hm : stepId.memberOf (s.executor.steps.map Prod.fst) = .ok true) :
    ∃ s', (enterStep stepId now).run.run s = (.ok stepId, s') ∧
      SameGraph s.executor s'.executor ∧ s'.entered = s.entered ++ [stepId] ∧
      s'.executor.currentStepId = stepId := by
  obtain ⟨definition, hget⟩ := PyDict.exists_get? (Json.memberOf_ok.1 hm).2
  obtain ⟨key, hkey, -⟩ := PyDict.get?_eq_some hget
  obtain ⟨id, hid⟩ := hg.known _ hkey
  exact ⟨_, enterStep_run hm hget hid, ⟨rfl, rfl, rfl⟩, rfl, rfl⟩

theorem start_inProgress (h : s.executor.status = .inProgress) :
    ∃ err, (start now).run.run s = (.error err, s) := by
  unfold start
  rw [run_bind_ok run_get, if_pos h]
  exact ⟨_, run_throw⟩

theorem start_ok (hg : OnGraph procedure s.executor) (h : s.executor.status ≠ .inProgress)
    (now : ℕ → String) :
    ∃ first rest s', s.executor.stepOrder = first :: rest ∧
      (start now).run.run s = (.ok first, s') ∧ SameGraph s.executor s'.executor ∧
      s'.entered = s.entered ++ [first] ∧ s'.executor.currentStepId = first := by
  obtain ⟨first, rest, -, -, horder, -, -, hm⟩ := hg.first
  unfold start
  rw [run_bind_ok run_get, if_neg h, run_bind_ok run_modify, horder]
  dsimp only
  rw [run_bind_ok run_modify]
  obtain ⟨s', hrun, hsame, hentered, hcurrent⟩ := enterStep_ok
    (s := updateSessionState first { s with executor := { s.executor with
      status := .inProgress, startedAt := some (now 0) } })
    (hg.same ⟨rfl, rfl, rfl⟩) (now 1) hm
  exact ⟨first, rest, s', rfl, hrun, ⟨hsame.steps, hsame.stepOrder, hsame.validTransitions⟩,
    hentered, hcurrent⟩

theorem transition_idle {target : Json} {reason : String} (h : s.executor.currentStepId = .null) :
    ∃ err, (transition target reason now).run.run s = (.error err, s) := by
  unfold transition
  rw [run_bind_ok run_get]
  dsimp only
  rw [if_pos h]
  exact ⟨_, run_throw⟩

theorem transition_refused {target : Json} {reason : String}
    (h : s.executor.currentStepId ≠ .null)
    (ht : target.memberOf ((s.executor.validTransitions.get? s.executor.currentStepId).getD []) ≠
      .ok true) :
    ∃ err, (transition target reason now).run.run s = (.error err, s) := by
  unfold transition
  rw [run_bind_ok run_get]
  dsimp only
  rw [if_neg h]
  cases hm : target.memberOf
      ((s.executor.validTransitions.get? s.executor.currentStepId).getD []) with
  | error err => exact ⟨err, run_bind_error run_lift⟩
  | ok b =>
    cases b with
    | true => exact absurd hm ht
    | false =>
      rw [run_bind_ok run_lift]
      cases hsorted : sortedTargets
          ((s.executor.validTransitions.get? s.executor.currentStepId).getD []) with
      | error err => exact ⟨err, run_bind_error run_lift⟩
      | ok names => exact ⟨_, run_bind_ok run_lift⟩

theorem memberOf_keys {x : ProcedureExecutor} (hg : OnGraph procedure x) {t target : Json}
    (ht : target.hashable = true) (hany : (x.steps.map Prod.fst).any (fun id => id.pyEq t) = true)
    (he : t.pyEq target = true) : target.memberOf (x.steps.map Prod.fst) = .ok true := by
  obtain ⟨id, hid, hidt⟩ := List.any_eq_true.1 hany
  refine Json.memberOf_ok.2 ⟨ht, List.any_eq_true.2 ⟨id, hid, ?_⟩⟩
  exact Json.pyEq_trans (hg.keys id hid) hidt he

/-- Whatever equals an offered target can be taken. -/
theorem transition_ok (hg : OnGraph procedure s.executor) {target : Json} {reason : String}
    (h : s.executor.currentStepId ≠ .null) (now : ℕ → String)
    (ht : target.memberOf ((s.executor.validTransitions.get? s.executor.currentStepId).getD []) =
      .ok true) :
    ∃ r s', (transition target reason now).run.run s = (.ok r, s') ∧
      SameGraph s.executor s'.executor ∧
      (s'.entered = s.entered ∧ s'.executor.currentStepId = .null ∨
        s'.entered = s.entered ++ [target] ∧ s'.executor.currentStepId = target ∧
          DeclaredEdge procedure s.executor.currentStepId target) := by
  obtain ⟨hh, hany⟩ := Json.memberOf_ok.1 ht
  obtain ⟨t, htmem, het⟩ := List.any_eq_true.1 hany
  obtain ⟨targets, hget⟩ : ∃ targets,
      s.executor.validTransitions.get? s.executor.currentStepId = some targets := by
    cases hg' : s.executor.validTransitions.get? s.executor.currentStepId with
    | none =>
      rw [hg'] at htmem
      cases htmem
    | some targets => exact ⟨targets, rfl⟩
  rw [hget] at htmem
  obtain ⟨hth, hcase⟩ := hg.edges _ _ hget t htmem
  have hsame := sameGraph_completeStep (s := s) s.executor.currentStepId reason (now 0)
  have hentered : (completeStep s.executor.currentStepId reason (now 0) s).entered = s.entered := by
    unfold completeStep
    cases s.executor.stepExecutions.get? s.executor.currentStepId <;> rfl
  unfold transition
  rw [run_bind_ok run_get]
  dsimp only
  rw [if_neg h, ht, run_bind_ok run_lift]
  change ∃ r s', (modify _ >>= fun _ => _ : ExecutorM Json).run.run s = _ ∧ _
  rw [run_bind_ok run_modify]
  by_cases hend : target.pyEq (.str "end") = true
  · rw [if_pos hend]
    exact ⟨_, _, rfl, ⟨hsame.steps, hsame.stepOrder, hsame.validTransitions⟩,
      Or.inl ⟨hentered, rfl⟩⟩
  · rw [if_neg hend]
    rcases hcase with rfl | ⟨-, hknown, hedge⟩
    · exact absurd (Json.pyEq_symm rfl het) hend
    · have hg' := hg.same hsame
      obtain ⟨s', hrun, hsame', hent, hcur⟩ := enterStep_ok hg' (now 1)
        (memberOf_keys hg' hh (by rw [hsame.steps]; exact hknown) het)
      exact ⟨target, s', hrun, ⟨hsame'.steps.trans hsame.steps, hsame'.stepOrder.trans
        hsame.stepOrder, hsame'.validTransitions.trans hsame.validTransitions⟩,
        Or.inr ⟨hent.trans (by rw [hentered]), hcur, hedge target het⟩⟩

end Methods

/-- All that a call does to an executor. -/
inductive Invoked (procedure : Json) (x : ProcedureExecutor) (i : Invocation) : Prop where
  | raised (err : ProcedureErr)
      (h : x.invoke i = (.error err, { executor := x, session := i.session }))
  | left (r : Json) (h : (x.invoke i).1 = .ok r) (same : SameGraph x (x.invoke i).2.executor)
      (entered : (x.invoke i).2.entered = [])
      (current : (x.invoke i).2.executor.currentStepId = .null ∨
        (x.invoke i).2.executor.currentStepId = x.currentStepId)
  | started (hi : i.call = .start) (first : Json) (rest : List Json)
      (order : x.stepOrder = first :: rest) (h : (x.invoke i).1 = .ok first)
      (same : SameGraph x (x.invoke i).2.executor) (entered : (x.invoke i).2.entered = [first])
      (current : (x.invoke i).2.executor.currentStepId = first)
  | moved (target : Json) (reason : String) (hi : i.call = .transition target reason) (r : Json)
      (h : (x.invoke i).1 = .ok r) (same : SameGraph x (x.invoke i).2.executor)
      (entered : (x.invoke i).2.entered = [target]) (source : x.currentStepId ≠ .null)
      (edge : DeclaredEdge procedure x.currentStepId target)
      (current : (x.invoke i).2.executor.currentStepId = target)

theorem invoked {procedure : Json} {x : ProcedureExecutor} (hg : OnGraph procedure x)
    (i : Invocation) : Invoked procedure x i := by
  obtain ⟨call, session, now⟩ := i
  cases call with
  | start =>
    by_cases h : x.status = .inProgress
    · obtain ⟨err, herr⟩ : ∃ err, x.invoke ⟨.start, session, now⟩ =
          (.error err, { executor := x, session }) := start_inProgress h
      exact .raised err herr
    · obtain ⟨first, rest, s', horder, hrun, hsame, hent, hcur⟩ :=
        start_ok (s := { executor := x, session }) hg h now
      have hinv : x.invoke ⟨.start, session, now⟩ = (.ok first, s') := hrun
      exact .started rfl first rest horder (by rw [hinv]) (by rw [hinv]; exact hsame)
        (by rw [hinv]; exact hent) (by rw [hinv]; exact hcur)
  | transition target reason =>
    by_cases h : x.currentStepId = .null
    · obtain ⟨err, herr⟩ : ∃ err, x.invoke ⟨.transition target reason, session, now⟩ =
          (.error err, { executor := x, session }) := transition_idle h
      exact .raised err herr
    · by_cases ht : target.memberOf ((x.validTransitions.get? x.currentStepId).getD []) = .ok true
      · obtain ⟨r, s', hinv, hsame, hcase⟩ : ∃ r s',
            x.invoke ⟨.transition target reason, session, now⟩ = (.ok r, s') ∧ _ :=
          transition_ok (s := { executor := x, session }) hg h now ht
        rcases hcase with ⟨hent, hcur⟩ | ⟨hent, hcur, hedge⟩
        · exact .left r (by rw [hinv]) (by rw [hinv]; exact hsame) (by rw [hinv]; exact hent)
            (Or.inl (by rw [hinv]; exact hcur))
        · exact .moved target reason rfl r (by rw [hinv]) (by rw [hinv]; exact hsame)
            (by rw [hinv]; exact hent) h hedge (by rw [hinv]; exact hcur)
      · obtain ⟨err, herr⟩ : ∃ err, x.invoke ⟨.transition target reason, session, now⟩ =
            (.error err, { executor := x, session }) := transition_refused h ht
        exact .raised err herr
  | complete resolution => exact .left _ rfl ⟨rfl, rfl, rfl⟩ rfl (Or.inl rfl)
  | escalate reason => exact .left _ rfl ⟨rfl, rfl, rfl⟩ rfl (Or.inr rfl)

/-- A walk along the declared edges, from the first declared step at a start. -/
def IsWalk (procedure : Json) (w : List EnteredStep) : Prop :=
  ∃ first rest step, w = ⟨true, first⟩ :: rest ∧ (declaredSteps procedure).head? = some step ∧
    step.item "id" = .ok first ∧ (∀ x ∈ rest, x.byStart = false) ∧
    w.IsChain fun x y => DeclaredEdge procedure x.step y.step

/-- The steps entered so far are walks, and the last of them ends in the active step. -/
structure Walks (procedure : Json) (r : ExecutorRun) (walks : List (List EnteredStep)) : Prop where
  log : r.log = walks.flatten
  walk : ∀ w ∈ walks, IsWalk procedure w
  active : r.executor.currentStepId ≠ .null → ∃ ws w x, walks = ws ++ [w] ∧
    w.getLast? = some x ∧ x.step = r.executor.currentStepId

theorem isWalk_snoc {procedure : Json} {w : List EnteredStep} {x : EnteredStep} {b : Json}
    (hw : IsWalk procedure w) (hx : w.getLast? = some x) (he : DeclaredEdge procedure x.step b) :
    IsWalk procedure (w ++ [⟨false, b⟩]) := by
  obtain ⟨first, rest, step, rfl, hstep, hfirst, hrest, hchain⟩ := hw
  refine ⟨first, rest ++ [⟨false, b⟩], step, rfl, hstep, hfirst, fun y hy => ?_, ?_⟩
  · rcases List.mem_append.1 hy with hy | hy
    · exact hrest y hy
    · exact List.mem_singleton.1 hy ▸ rfl
  · refine List.isChain_append.2 ⟨hchain, List.isChain_singleton _, fun y hy z hz => ?_⟩
    rw [hx] at hy
    cases hy
    cases hz
    exact he

theorem walks_next {procedure : Json} {r : ExecutorRun} (hg : OnGraph procedure r.executor)
    (i : Invocation) (h : ∃ walks, Walks procedure r walks) :
    OnGraph procedure (r.next i).executor ∧ ∃ walks, Walks procedure (r.next i) walks := by
  obtain ⟨walks, hlog, hwalk, hactive⟩ := h
  cases invoked hg i with
  | raised err h =>
    have hx : (r.next i).executor = r.executor := by
      rw [ExecutorRun.next, h]
    have hl : (r.next i).log = r.log := by
      simp only [ExecutorRun.next, h, List.map_nil, List.append_nil]
    exact ⟨hx ▸ hg, walks, hl.trans hlog, hwalk, by rw [hx]; exact hactive⟩
  | left _ _ same entered current =>
    have hl : (r.next i).log = r.log := by
      simp only [ExecutorRun.next, entered, List.map_nil, List.append_nil]
    refine ⟨hg.same same, walks, hl.trans hlog, hwalk, fun hne => ?_⟩
    rcases current with hc | hc
    · exact absurd hc hne
    · obtain ⟨ws, w, x, hws, hx, hcur⟩ := hactive (hc ▸ hne)
      exact ⟨ws, w, x, hws, hx, hcur.trans hc.symm⟩
  | started hi first rest order _ same entered current =>
    obtain ⟨first', rest', step, steps, horder, hdecl, hfirst, -⟩ := hg.first
    cases order.symm.trans horder
    refine ⟨hg.same same, walks ++ [[⟨true, first⟩]], ?_, fun w hw => ?_, fun _ => ?_⟩
    · simp only [ExecutorRun.next, entered, hi, hlog, List.map_cons, List.map_nil,
        List.flatten_append, List.flatten_cons, List.flatten_nil, List.append_nil]
    · rcases List.mem_append.1 hw with hw | hw
      · exact hwalk w hw
      · rw [List.mem_singleton.1 hw]
        exact ⟨first, [], step, rfl, by rw [hdecl]; rfl, hfirst, nofun, List.isChain_singleton _⟩
    · exact ⟨walks, [⟨true, first⟩], ⟨true, first⟩, rfl, rfl, current.symm⟩
  | moved target reason hi _ _ same entered source edge current =>
    obtain ⟨ws, w, x, rfl, hx, hcur⟩ := hactive source
    refine ⟨hg.same same, ws ++ [w ++ [⟨false, target⟩]], ?_, fun w' hw' => ?_, fun _ => ?_⟩
    · simp only [ExecutorRun.next, entered, hi, hlog, List.map_cons, List.map_nil,
        List.flatten_append, List.flatten_cons, List.flatten_nil, List.append_nil,
        List.append_assoc]
    · rcases List.mem_append.1 hw' with hw' | hw'
      · exact hwalk w' (List.mem_append_left _ hw')
      · rw [List.mem_singleton.1 hw']
        exact isWalk_snoc (hwalk w (by simp)) hx (hcur ▸ edge)
    · exact ⟨ws, w ++ [⟨false, target⟩], ⟨false, target⟩, rfl, by simp, current.symm⟩

theorem executor_run {procedure : Json} {x : ProcedureExecutor} (hg : OnGraph procedure x)
    (hx : x.currentStepId = .null) (calls : List Invocation) :
    OnGraph procedure (x.after calls).executor ∧
      ∃ walks, Walks procedure (x.after calls) walks := by
  induction calls using List.reverseRecOn with
  | nil => exact ⟨hg, [], rfl, nofun, fun h => absurd hx h⟩
  | append_singleton calls i ih =>
    rw [ProcedureExecutor.after, List.foldl_append]
    exact walks_next ih.1 i ih.2

/-- Every offered target can be taken. -/
theorem offered_taken {procedure : Json} {x : ProcedureExecutor} (hg : OnGraph procedure x)
    {t : Json} (ht : t ∈ x.getValidTransitions) (reason : String) (session : Fields)
    (now : ℕ → String) : ∃ r, (x.invoke ⟨.transition t reason, session, now⟩).1 = .ok r := by
  unfold ProcedureExecutor.getValidTransitions at ht
  split_ifs at ht with htruthy
  · have hne : x.currentStepId ≠ .null := by
      intro he
      rw [he] at htruthy
      cases htruthy
    obtain ⟨targets, hget, hmem⟩ : ∃ targets,
        x.validTransitions.get? x.currentStepId = some targets ∧ t ∈ targets := by
      cases hget : x.validTransitions.get? x.currentStepId with
      | none =>
        rw [hget] at ht
        cases ht
      | some targets => exact ⟨targets, rfl, by rw [hget] at ht; exact ht⟩
    have hh := (hg.edges _ _ hget t hmem).1
    have hm : t.memberOf ((x.validTransitions.get? x.currentStepId).getD []) = .ok true := by
      rw [hget]
      exact Json.memberOf_ok.2 ⟨hh, List.any_eq_true.2 ⟨t, hmem, Json.pyEq_self hh⟩⟩
    obtain ⟨r, s', hrun, -⟩ := transition_ok (s := { executor := x, session }) hg hne now hm
    exact ⟨r, congrArg Prod.fst hrun⟩
  · cases ht

theorem executor_enforces_graph (procedure : Json) (x : ProcedureExecutor)
    (hv : ProcedureLoader.validateProcedure procedure = .ok true)
    (hne : declaredSteps procedure ≠ []) (hi : ProcedureExecutor.init procedure = .ok x)
    (calls : List Invocation) :
    (∃ walks : List (List EnteredStep), (x.after calls).log = walks.flatten ∧
      ∀ w ∈ walks, IsWalk procedure w) ∧
    (∀ t ∈ (x.after calls).executor.getValidTransitions, ∀ reason session now,
      ∃ r, ((x.after calls).executor.invoke ⟨.transition t reason, session, now⟩).1 = .ok r) ∧
    ∀ i err, ((x.after calls).executor.invoke i).1 = .error err →
      ((x.after calls).executor.invoke i).2 =
        { executor := (x.after calls).executor, session := i.session } := by
  obtain ⟨hg, walks, hw⟩ := executor_run (onGraph_init hv hne hi) (init_idle hi) calls
  refine ⟨⟨walks, hw.log, hw.walk⟩, fun t ht reason session now =>
    offered_taken hg ht reason session now,
    fun i err herr => ?_⟩
  cases invoked hg i with
  | raised err' h => rw [h]
  | left r h _ _ _ => cases h.symm.trans herr
  | started _ first _ _ h _ _ _ => cases h.symm.trans herr
  | moved _ _ _ r h _ _ _ _ _ => cases h.symm.trans herr

/-- An order is checked, and refunded or not. -/
def refundProcedure : Json := .dict [("id", .str "refund"), ("name", .str "Refund"),
  ("steps", .list [
    .dict [("id", .str "check"), ("instruction", .str "Look it up"), ("action", .str "evaluate"),
      ("conditions", .list [.dict [("if", .str "eligible"), ("next_step", .str "pay")],
        .dict [("if", .str "not eligible"), ("next_step", .str "end")]])],
    .dict [("id", .str "pay"), ("instruction", .str "Refund it"), ("action", .str "tool_call"),
      ("tool", .str "issue_refund"), ("on_success", .str "end"), ("on_failure", .str "check")]])]

def refundExecutor : ProcedureExecutor where
  procedureId := .str "refund"
  procedureName := .str "Refund"
  steps := (declaredSteps refundProcedure).zipWith (fun step id => (id, step))
    [.str "check", .str "pay"]
  stepOrder := [.str "check", .str "pay"]
  validTransitions :=
    [(.str "check", [.str "pay", .str "end"]), (.str "pay", [.str "check", .str "end"])]

theorem executor_enforces_graph_refund :
    (refundExecutor.after [⟨.start, [], fun _ => "t"⟩,
      ⟨.transition (.str "check") "x", [], fun _ => "t"⟩,
      ⟨.transition (.str "pay") "eligible", [], fun _ => "t"⟩]).log.map EnteredStep.step =
        [.str "check", .str "pay"] ∧
    ∀ t ∈ (refundExecutor.after [⟨.start, [], fun _ => "t"⟩]).executor.getValidTransitions,
      ∀ reason session now, ∃ r,
      ((refundExecutor.after [⟨.start, [], fun _ => "t"⟩]).executor.invoke
        ⟨.transition t reason, session, now⟩).1 = .ok r := by
  have hv : ProcedureLoader.validateProcedure refundProcedure = .ok true := by rfl
  have hi : ProcedureExecutor.init refundProcedure = .ok refundExecutor := by rfl
  refine ⟨by decide +kernel,
    (executor_enforces_graph refundProcedure refundExecutor hv ?_ hi _).2.1⟩
  exact List.cons_ne_nil _ _

end WorkflowEngine
