import WorkflowEngine.Fallible.Checks
import WorkflowEngine.Proofs.ProcedureGraph

/-! What `validate_procedure` accepts, and where it raises something else than a `ValueError`. -/

namespace WorkflowEngine

open Fallible ProcedureLoader

namespace Json

/-- A dict of any fields. -/
def IsDict (v : Json) : Prop := ∃ kvs, v = .dict kvs

def HasItem (v : Json) (key : String) : Prop := ∃ w, v.item key = .ok w

theorem IsDict.item_cases {v : Json} (h : v.IsDict) (key : String) :
    (∃ w, v.item key = .ok w ∧ v.contains key = .ok true) ∨
      ¬ v.HasItem key ∧ v.item key = .error (.keyError key) ∧ v.contains key = .ok false := by
  obtain ⟨kvs, rfl⟩ := h
  cases hget : Fields.get? kvs key with
  | some w => exact .inl ⟨w, by simp [item, hget], by simp [contains, Fields.has, hget]⟩
  | none =>
    have hitem : (Json.dict kvs).item key = .error (.keyError key) := by simp [item, hget]
    refine .inr ⟨?_, hitem, by simp [contains, Fields.has, hget]⟩
    rintro ⟨w, hw⟩
    rw [hitem] at hw
    cases hw

end Json

/-- A step with any subset of the fields: its id and the targets it names are scalars, and its
conditions and options, where they are not empty, are lists of dicts. -/
structure PartialStep (step : Json) : Prop where
  dict : step.IsDict
  scalar : ∀ field ∈ "id" :: refFields, ∀ v, step.item field = .ok v → v.hashable = true
  entries : ∀ field ∈ ["conditions", "options"], ∀ v, step.item field = .ok v → v.truthy = true →
    ∃ entries, v = .list entries ∧ ∀ entry ∈ entries, entry.IsDict ∧
      ∀ t, entry.item "next_step" = .ok t → t.hashable = true

def IsTarget (steps : List Json) (t : Json) : Prop :=
  t.pyEq (.str "end") = true ∨ ∃ step ∈ steps, ∃ id, step.item "id" = .ok id ∧ id.pyEq t = true

/-- All that a well-formed procedure asks for but that no two steps have the same id. -/
structure StepsChecked (steps : List Json) : Prop where
  fields : ∀ step ∈ steps, ∀ field ∈ ["id", "instruction", "action"], step.HasItem field
  tools : ∀ step ∈ steps, ∀ action, step.item "action" = .ok action →
    action.pyEq (.str "tool_call") = true → step.HasItem "tool"
  targets : ∀ step ∈ steps, ∀ t, Names step t → IsTarget steps t

def DistinctIds (steps : List Json) : Prop :=
  steps.Pairwise fun a b => ∀ i j, a.item "id" = .ok i → b.item "id" = .ok j → i.pyEq j = false

structure WellFormed (steps : List Json) : Prop extends StepsChecked steps where
  distinct : DistinctIds steps

def IsValueError (e : ProcedureErr) : Prop := ∃ message, e = .valueError message

section Step
variable {step : Json}

theorem checkFields_decides (h : step.IsDict) : Decides IsValueError (checkFields step)
    ((∀ field ∈ ["id", "instruction", "action"], step.HasItem field) ∧
      ∀ action, step.item "action" = .ok action → action.pyEq (.str "tool_call") = true →
        step.HasItem "tool") := by
  unfold checkFields
  rcases h.item_cases "id" with ⟨id, hid, hin⟩ | ⟨hno, -, hin⟩ <;> rw [hin]
  · rcases h.item_cases "instruction" with ⟨i, hi, hin⟩ | ⟨hno, -, hin⟩ <;> rw [hin, hid]
    · rcases h.item_cases "action" with ⟨a, ha, hin⟩ | ⟨hno, -, hin⟩ <;> rw [hin]
      · have hfields : ∀ field ∈ ["id", "instruction", "action"], step.HasItem field := by
          simp only [List.forall_mem_cons]
          exact ⟨⟨id, hid⟩, ⟨i, hi⟩, ⟨a, ha⟩, nofun⟩
        rw [ha]
        change Decides IsValueError (if a.pyEq (.str "tool_call") = true then _ else pure ()) _
        split
        next htool =>
          rcases h.item_cases "tool" with ⟨t, ht, hin⟩ | ⟨hno, -, hin⟩ <;> rw [hin]
          · exact .trivially ⟨hfields, fun _ _ _ => ⟨t, ht⟩⟩
          · exact .refused ⟨_, rfl⟩ fun hp => hno (hp.2 a rfl htool)
        next htool =>
          refine .trivially ⟨hfields, fun action haction htrue => absurd htrue ?_⟩
          cases haction
          exact htool
      · exact Decides.refused ⟨_, rfl⟩ fun hp => hno (hp.1 "action" (by simp))
    · exact Decides.refused ⟨_, rfl⟩ fun hp => hno (hp.1 "instruction" (by simp))
  · exact Decides.refused ⟨_, rfl⟩ fun hp => hno (hp.1 "id" (by simp))

/-- The check of one target, of the step itself or of an entry of it. -/
theorem target_decides (validTargets : List Json) {v : Json} {key : String} (h : v.IsDict)
    (hid : step.HasItem "id")
    (hscalar : ∀ t, v.item key = .ok t → t.hashable = true) (text : Json → Json → String) :
    Decides IsValueError (do
      if ← v.contains key then
        let target ← v.item key
        if !(← target.memberOf validTargets) then
          throw (.valueError (text (← step.item "id") target)))
      (∀ t, v.item key = .ok t → validTargets.any (fun w => w.pyEq t) = true) := by
  obtain ⟨id, hid⟩ := hid
  rcases h.item_cases key with ⟨t, ht, hin⟩ | ⟨hno, -, hin⟩ <;> rw [hin]
  · rw [ht]
    change Decides IsValueError (t.memberOf validTargets >>= fun b => _) _
    rw [Json.memberOf, if_pos (hscalar t ht)]
    change Decides IsValueError (if (!validTargets.any fun w => w.pyEq t) = true then _ else _) _
    split
    next hany =>
      rw [hid]
      refine .refused ⟨_, rfl⟩ fun hp => ?_
      rw [hp t rfl] at hany
      cases hany
    next hany =>
      refine .trivially fun t' ht' => ?_
      cases ht'
      simpa using hany
  · exact .trivially fun t ht => absurd ⟨t, ht⟩ hno

variable {validTargets : List Json}

theorem checkReference_decides (h : step.IsDict) (hid : step.HasItem "id") {field : String}
    (hscalar : ∀ t, step.item field = .ok t → t.hashable = true) :
    Decides IsValueError (checkReference validTargets step field)
      (∀ t, step.item field = .ok t → validTargets.any (fun w => w.pyEq t) = true) :=
  target_decides _ h hid hscalar fun id target => "Step '" ++ id.pyStr ++ "' has " ++
    field ++ "='" ++
    target.pyStr ++ "' which is not a valid step ID or 'end'"

theorem checkTargets_decides (h : step.IsDict) (hid : step.HasItem "id") {field : String}
    (label : String) (hentries : ∀ v, step.item field = .ok v → v.truthy = true →
      ∃ entries, v = .list entries ∧ ∀ entry ∈ entries, entry.IsDict ∧
        ∀ t, entry.item "next_step" = .ok t → t.hashable = true) :
    Decides IsValueError (checkTargets validTargets step field label)
      (∀ entries, step.item field = .ok (.list entries) → ∀ entry ∈ entries, ∀ t,
        entry.item "next_step" = .ok t → validTargets.any (fun w => w.pyEq t) = true) := by
  obtain ⟨id, hid⟩ := hid
  unfold checkTargets
  rcases h.item_cases field with ⟨v, hv, hin⟩ | ⟨hno, -, hin⟩ <;> rw [hin]
  · rw [hv]
    change Decides IsValueError (if v.truthy = true then _ else _) _
    split
    next htruthy =>
      obtain ⟨entries, rfl, hentry⟩ := hentries v hv htruthy
      have hloop := Decides.forM fun entry hmem => target_decides validTargets
        (hentry entry hmem).1 ⟨id, hid⟩ (hentry entry hmem).2 fun id target => "Step '" ++
          id.pyStr ++ "' has " ++ label ++ " with next_step='" ++ target.pyStr ++
          "' which is not a valid step ID or 'end'"
      refine hloop.congr ⟨fun hall entries' he => ?_, fun hall => hall entries rfl⟩
      cases he
      exact hall
    next htruthy =>
      refine .trivially fun entries he entry hmem => ?_
      cases he
      cases entries with
      | nil => cases hmem
      | cons e es => exact absurd rfl htruthy
  · exact .trivially fun entries he => absurd ⟨_, he⟩ hno

theorem validateStep_decides (h : PartialStep step) :
    Decides IsValueError (validateStep validTargets step)
      (((∀ field ∈ ["id", "instruction", "action"], step.HasItem field) ∧
        ∀ action, step.item "action" = .ok action → action.pyEq (.str "tool_call") = true →
          step.HasItem "tool") ∧
        ∀ t, Names step t → validTargets.any (fun w => w.pyEq t) = true) := by
  refine (checkFields_decides h.dict).seq fun hfields => ?_
  have hid := hfields.1 "id" (by simp)
  have hrefs := Decides.forM fun field hfield => @checkReference_decides _ validTargets h.dict hid
    field (h.scalar field (List.mem_cons_of_mem _ hfield))
  have hconditions := @checkTargets_decides _ validTargets h.dict hid _ "condition"
    (h.entries "conditions" (by simp))
  have hoptions := @checkTargets_decides _ validTargets h.dict hid _ "option"
    (h.entries "options" (by simp))
  refine (hrefs.seq fun _ => hconditions.seq fun _ => hoptions).congr ⟨?_, fun hall => ?_⟩
  · rintro ⟨hr, hc, ho⟩ t hn
    cases hn with
    | reference field hfield ht => exact hr field hfield t ht
    | entry field hfield entries he entry hmem ht =>
      rcases List.mem_pair.1 hfield with rfl | rfl
      · exact hc entries he entry hmem t ht
      · exact ho entries he entry hmem t ht
  · refine ⟨fun field hfield t ht => hall t (.reference field hfield ht), ?_, ?_⟩
    · exact fun entries he entry hmem t ht => hall t (.entry _ (by simp) entries he entry hmem ht)
    · exact fun entries he entry hmem t ht => hall t (.entry _ (by simp) entries he entry hmem ht)

end Step

section Procedure
variable {steps : List Json}

theorem names_hashable {step t : Json} (h : PartialStep step) (hn : Names step t) :
    t.hashable = true := by
  cases hn with
  | reference field hfield ht => exact h.scalar field (List.mem_cons_of_mem _ hfield) t ht
  | entry field hfield entries he entry hmem ht =>
    have htruthy : (Json.list entries).truthy = true := by
      cases entries with
      | nil => cases hmem
      | cons e es => rfl
    obtain ⟨es, hes, hentry⟩ := h.entries field hfield _ he htruthy
    cases hes
    exact (hentry entry hmem).2 t ht

/-- The set of the ids; a step without one ends it with a `KeyError`. -/
theorem foldlM_ids (hrecords : ∀ step ∈ steps, PartialStep step) (ids : List Json) :
    ((∀ step ∈ steps, step.HasItem "id") → ∃ ids', steps.foldlM (fun ids step => do
      Json.addTo ids (← step.item "id")) ids = .ok ids') ∧
    ((¬ ∀ step ∈ steps, step.HasItem "id") → steps.foldlM (fun ids step => do
      Json.addTo ids (← step.item "id")) ids = .error (.keyError "id")) := by
  induction steps generalizing ids with
  | nil => exact ⟨fun _ => ⟨ids, rfl⟩, fun h => absurd nofun h⟩
  | cons step steps ih =>
    have hstep := hrecords step List.mem_cons_self
    have ih := ih fun s hs => hrecords s (List.mem_cons_of_mem _ hs)
    rw [List.foldlM_cons, List.forall_mem_cons]
    rcases hstep.dict.item_cases "id" with ⟨id, hid, -⟩ | ⟨hno, hid, -⟩ <;> rw [hid]
    · change (_ → ∃ ids', (Json.addTo ids id >>= _) = .ok ids') ∧
        (_ → (Json.addTo ids id >>= _) = .error _)
      rw [Json.addTo, if_pos (hstep.scalar "id" (by simp) id hid)]
      refine ⟨fun h => (ih _).1 h.2, fun h => (ih _).2 fun hall => h ⟨⟨id, hid⟩, hall⟩⟩
    · exact ⟨fun h => absurd h.1 hno, fun _ => rfl⟩

theorem mem_stepIds {ids : List Json} (h : stepIds steps = .ok ids) :
    ∀ w ∈ ids, ∃ step ∈ steps, step.item "id" = .ok w := by
  refine foldlM_induction (P := fun ids => ∀ w ∈ ids, ∃ step ∈ steps, step.item "id" = .ok w) h
    nofun ?_
  intro step hstep ids ids' hall hadd w hw
  obtain ⟨id, hid, hadd⟩ := bind_eq_ok.1 hadd
  rcases Json.mem_addTo hadd hw with hw | rfl
  · exact hall w hw
  · exact ⟨step, hstep, hid⟩

theorem isTarget_iff (hrecords : ∀ step ∈ steps, PartialStep step) {ids validTargets : List Json}
    (h : stepIds steps = .ok ids) (hend : Json.addTo ids (.str "end") = .ok validTargets)
    {t : Json} (ht : t.hashable = true) :
    validTargets.any (fun w => w.pyEq t) = true ↔ IsTarget steps t := by
  have hids := mem_stepIds h
  obtain ⟨hsub, hmember⟩ := Json.memberOf_addTo hend
  constructor
  · intro hany
    obtain ⟨w, hw, hwt⟩ := List.any_eq_true.1 hany
    rcases Json.mem_addTo hend hw with hw | rfl
    · obtain ⟨step, hstep, hid⟩ := hids w hw
      exact .inr ⟨step, hstep, w, hid, hwt⟩
    · exact .inl (Json.pyEq_symm rfl hwt)
  · rintro (he | ⟨step, hstep, id, hid, hidt⟩)
    · obtain ⟨w, hw, hwe⟩ := List.any_eq_true.1 (Json.memberOf_ok.1 hmember).2
      have hwh : w.hashable = true := by
        rcases Json.mem_addTo hend hw with hw | rfl
        · obtain ⟨step, hstep, hid⟩ := hids w hw
          exact (hrecords step hstep).scalar "id" (by simp) w hid
        · rfl
      exact List.any_eq_true.2 ⟨w, hw, Json.pyEq_trans hwh hwe (Json.pyEq_symm ht he)⟩
    · obtain ⟨v, hv, hvm⟩ := (Json.memberOf_fold h).2 step hstep
      cases hid.symm.trans hv
      obtain ⟨w, hw, hwid⟩ := List.any_eq_true.1 (Json.memberOf_ok.1 hvm).2
      obtain ⟨step', hstep', hid'⟩ := hids w hw
      have hwh := (hrecords step' hstep').scalar "id" (by simp) w hid'
      exact List.any_eq_true.2 ⟨w, hsub w hw, Json.pyEq_trans hwh hwid hidt⟩

theorem validateProcedure_eq {procedure : Json}
    (hsteps : procedure.item "steps" = .ok (.list steps)) : validateProcedure procedure =
      (stepIds steps >>= fun ids => Json.addTo ids (.str "end") >>= fun validTargets =>
        steps.forM (validateStep validTargets) >>= fun _ => .ok true) := by
  unfold validateProcedure
  rw [hsteps]
  rfl

/-- With an id in every step, the validator decides all but that the ids are distinct. -/
theorem validateProcedure_decides {procedure : Json}
    (hsteps : procedure.item "steps" = .ok (.list steps))
    (hrecords : ∀ step ∈ steps, PartialStep step) (hids : ∀ step ∈ steps, step.HasItem "id") :
    (validateProcedure procedure = .ok true ↔ StepsChecked steps) ∧
      (¬ StepsChecked steps → ∃ e, IsValueError e ∧ validateProcedure procedure = .error e) := by
  obtain ⟨ids, hstepIds⟩ := (foldlM_ids hrecords []).1 hids
  have hend := (Json.addTo_ok (v := .str "end") (s := ids)).2 ⟨rfl, rfl⟩
  have hloop := Decides.forM fun step hstep => @validateStep_decides step
    (if (ids.any fun w => w.pyEq (.str "end")) = true then ids else ids ++ [.str "end"])
    (hrecords step hstep)
  have hchecked := hloop.congr (q := StepsChecked steps) ⟨fun hall => ⟨fun step hstep =>
    (hall step hstep).1.1, fun step hstep => (hall step hstep).1.2, fun step hstep t hn =>
      (isTarget_iff hrecords hstepIds hend (names_hashable (hrecords step hstep) hn)).1
        ((hall step hstep).2 t hn)⟩, fun hall step hstep => ⟨⟨hall.fields step hstep,
          hall.tools step hstep⟩, fun t hn => (isTarget_iff hrecords hstepIds hend
            (names_hashable (hrecords step hstep) hn)).2 (hall.targets step hstep t hn)⟩⟩
  have hvalidate : validateProcedure procedure = (steps.forM (validateStep
      (if (ids.any fun w => w.pyEq (.str "end")) = true then ids else ids ++ [.str "end"])) >>=
        fun _ => .ok true) := by
    rw [validateProcedure_eq hsteps, stepIds, hstepIds]
    change (Json.addTo ids (.str "end") >>= fun validTargets => _) = _
    rw [hend]
    rfl
  rw [hvalidate]
  constructor
  · rw [bind_eq_ok, ← hchecked.ok_iff]
    exact ⟨fun ⟨_, h, _⟩ => h, fun h => ⟨(), h, rfl⟩⟩
  · intro hno
    obtain ⟨e, he, herr⟩ := hchecked.refuses hno
    exact ⟨e, he, by rw [herr]; rfl⟩

/-- The validator accepts exactly the well-formed procedures and refuses the others with a
`ValueError` where every step has an id and no two steps of an else well-formed one share theirs. -/
theorem validateProcedure_exact_iff (procedure : Json) (steps : List Json)
    (hsteps : procedure.item "steps" = .ok (.list steps))
    (hrecords : ∀ step ∈ steps, PartialStep step) :
    ((validateProcedure procedure = .ok true ↔ WellFormed steps) ∧
      (¬ WellFormed steps →
        ∃ message, validateProcedure procedure = .error (.valueError message))) ↔
    (∀ step ∈ steps, step.HasItem "id") ∧ (StepsChecked steps → DistinctIds steps) := by
  by_cases hids : ∀ step ∈ steps, step.HasItem "id"
  · obtain ⟨haccept, hrefuse⟩ := validateProcedure_decides hsteps hrecords hids
    rw [haccept, and_iff_right hids]
    constructor
    · exact fun h hchecked => (h.1.1 hchecked).distinct
    · intro hdistinct
      have hiff : StepsChecked steps ↔ WellFormed steps :=
        ⟨fun h => ⟨h, hdistinct h⟩, (·.toStepsChecked)⟩
      refine ⟨hiff, fun hno => ?_⟩
      obtain ⟨e, ⟨message, rfl⟩, herr⟩ := hrefuse fun h => hno (hiff.1 h)
      exact ⟨message, herr⟩
  · refine iff_of_false (fun h => ?_) fun h => hids h.1
    obtain ⟨message, hmessage⟩ := h.2 fun hwell => hids fun step hstep =>
      hwell.fields step hstep "id" (by simp)
    have hkey := (foldlM_ids hrecords []).2 hids
    rw [validateProcedure_eq hsteps, stepIds, hkey] at hmessage
    cases hmessage

end Procedure

/-- An inform step with an id. -/
def informStep (id : String) : Json :=
  .dict [("id", .str id), ("instruction", .str "Tell the customer."), ("action", .str "inform")]

theorem partialStep_inform (id : String) : PartialStep (informStep id) where
  dict := ⟨_, rfl⟩
  scalar := by
    simp only [refFields, List.forall_mem_cons]
    refine ⟨fun v hv => ?_, ?_, ?_, ?_, nofun⟩
    · cases hv
      rfl
    · exact nofun
    · exact nofun
    · exact nofun
  entries := by
    simp only [List.forall_mem_cons]
    exact ⟨nofun, nofun, nofun⟩

/-- Two steps with one id are accepted, and a step without an id is a `KeyError`. -/
theorem validateProcedure_not_exact :
    (¬ ∀ procedure steps, procedure.item "steps" = .ok (.list steps) →
      (∀ step ∈ steps, PartialStep step) →
        (validateProcedure procedure = .ok true ↔ WellFormed steps)) ∧
    ¬ ∀ procedure steps, procedure.item "steps" = .ok (.list steps) →
      (∀ step ∈ steps, PartialStep step) → ¬ WellFormed steps →
        ∃ message, validateProcedure procedure = .error (.valueError message) := by
  constructor
  · intro h
    have hwell := (h (.dict [("steps", .list [informStep "a", informStep "a"])]) _ rfl
      (by simp [partialStep_inform])).1 (by rfl)
    have hne := List.pairwise_cons.1 hwell.distinct
    exact absurd (hne.1 _ List.mem_cons_self (.str "a") (.str "a") rfl rfl) (by decide)
  · intro h
    have hstep : PartialStep (.dict []) := by
      refine ⟨⟨_, rfl⟩, fun field _ v hv => ?_, fun field _ v hv => ?_⟩ <;> cases hv
    obtain ⟨message, hm⟩ := h (.dict [("steps", .list [.dict []])]) _ rfl (by simpa using hstep)
      fun hwell => by
        obtain ⟨w, hw⟩ := hwell.fields _ List.mem_cons_self "id" (by simp)
        cases hw
    cases hm

theorem validateProcedure_exact_two :
    validateProcedure (.dict [("steps", .list [informStep "a", informStep "b"])]) = .ok true ↔
      WellFormed [informStep "a", informStep "b"] := by
  refine ((validateProcedure_exact_iff _ _ rfl (by simp [partialStep_inform])).2 ⟨?_, ?_⟩).1
  · simp only [List.forall_mem_cons]
    exact ⟨⟨_, rfl⟩, ⟨_, rfl⟩, nofun⟩
  · refine fun _ => List.pairwise_pair.2 fun i j hi hj => ?_
    cases hi
    cases hj
    decide

end WorkflowEngine
