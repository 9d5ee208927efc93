import WorkflowEngine.Proofs.Validation
import WorkflowEngine.Spec.Instructions

/-! The instructions of an agent and the graph of the executor read the same fields of a step; where
they do not read them alike, the two disagree. -/

namespace WorkflowEngine

open Fallible ProcedureLoader

/-- A field of a step names a target. -/
inductive NamesBy (step : Json) (field : String) (t : Json) : Prop where
  | reference (hfield : field ∈ refFields) (ht : step.item field = .ok t)
  | entry (hfield : field ∈ ["conditions", "options"]) (entries : List Json)
      (he : step.item field = .ok (.list entries)) (entry : Json) (hmem : entry ∈ entries)
      (ht : entry.item "next_step" = .ok t)

/-- The fields that the instructions read of a step with an action. -/
def readFields (action : Json) : List String :=
  (if action.pyEq (.str "tool_call") then ["on_success", "on_failure"] else []) ++
    (if action.pyEq (.str "evaluate") then ["conditions"] else []) ++ ["options"] ++
      if action.pyEq (.str "tool_call") || action.pyEq (.str "evaluate") then [] else ["next_step"]

def targetsOf (lines : List InstructionLine) : List Json := lines.filterMap (·.target)

@[simp] theorem targetsOf_nil : targetsOf [] = [] := rfl

@[simp] theorem targetsOf_append (xs ys : List InstructionLine) :
    targetsOf (xs ++ ys) = targetsOf xs ++ targetsOf ys := List.filterMap_append

@[simp] theorem targetsOf_text (text : String) (lines : List InstructionLine) :
    targetsOf (⟨text, none⟩ :: lines) = targetsOf lines := rfl

@[simp] theorem targetsOf_goTo (text : String) (t : Json) (lines : List InstructionLine) :
    targetsOf (goTo text t :: lines) = t :: targetsOf lines := rfl

section Lines
variable {step : Json} {lines : List InstructionLine}

theorem not_item_of_contains {v w : Json} {key : String} (h : v.contains key = .ok false) :
    v.item key ≠ .ok w := by
  intro hw
  rw [Json.contains_of_item hw] at h
  cases h

theorem targetsOf_referenceLine {field text : String}
    (h : referenceLine step field text = .ok lines) (t : Json) :
    t ∈ targetsOf lines ↔ step.item field = .ok t := by
  unfold referenceLine at h
  obtain ⟨c, hc, h⟩ := bind_eq_ok.1 h
  cases c with
  | false =>
    cases h
    exact iff_of_false (by simp) (not_item_of_contains hc)
  | true =>
    obtain ⟨t', ht', h⟩ := bind_eq_ok.1 h
    cases h
    rw [ht']
    simp [eq_comm]

theorem targetsOf_toolGuidance {action : Json} (ha : step.item "action" = .ok action)
    (htool : action.pyEq (.str "tool_call") = true → step.HasItem "tool")
    (h : toolGuidance step = .ok lines) (t : Json) : t ∈ targetsOf lines ↔
      action.pyEq (.str "tool_call") = true ∧
        (step.item "on_success" = .ok t ∨ step.item "on_failure" = .ok t) := by
  unfold toolGuidance at h
  obtain ⟨action', haction, h⟩ := bind_eq_ok.1 h
  obtain rfl : action' = action := Except.ok.inj (haction.symm.trans ha)
  by_cases hcall : action'.pyEq (.str "tool_call") = true
  · obtain ⟨tool, htool⟩ := htool hcall
    rw [if_pos hcall, Json.contains_of_item htool, htool] at h
    obtain ⟨_, ⟨⟩, h⟩ := bind_eq_ok.1 h
    obtain ⟨_, ⟨⟩, h⟩ := bind_eq_ok.1 h
    obtain ⟨success, hsuccess, h⟩ := bind_eq_ok.1 h
    obtain ⟨failure, hfailure, h⟩ := bind_eq_ok.1 h
    cases h
    rw [and_iff_right hcall, ← targetsOf_referenceLine hsuccess, ← targetsOf_referenceLine hfailure]
    simp
  · rw [if_neg hcall] at h
    cases h
    simp [hcall]

theorem targetsOf_collectionGuidance (h : collectionGuidance step = .ok lines) :
    targetsOf lines = [] := by
  unfold collectionGuidance at h
  obtain ⟨action, -, h⟩ := bind_eq_ok.1 h
  split at h
  · obtain ⟨c, -, h⟩ := bind_eq_ok.1 h
    cases c with
    | false =>
      cases h
      rfl
    | true =>
      obtain ⟨info, -, h⟩ := bind_eq_ok.1 h
      obtain ⟨infos, -, h⟩ := bind_eq_ok.1 h
      obtain ⟨texts, -, h⟩ := bind_eq_ok.1 h
      cases h
      rfl
  · cases h
    rfl

theorem targetsOf_cons {line : InstructionLine} {t : Json} (h : line.target = some t)
    (rest : List InstructionLine) : targetsOf (line :: rest) = t :: targetsOf rest := by
  simp [targetsOf, h]

/-- One line for each entry, with its target, or "end". -/
theorem targetsOf_mapM {line : Json → Except ProcedureErr InstructionLine} {entries : List Json}
    (hline : ∀ entry ∈ entries, ∀ l, line entry = .ok l →
      ∃ t, l.target = some t ∧ entry.getDefault "next_step" (.str "end") = .ok t)
    (h : entries.mapM line = .ok lines) (t : Json) : t ∈ targetsOf lines ↔
      ∃ entry ∈ entries, entry.getDefault "next_step" (.str "end") = .ok t := by
  induction entries generalizing lines with
  | nil =>
    rw [List.mapM_nil] at h
    cases h
    simp
  | cons entry entries ih =>
    rw [List.mapM_cons] at h
    obtain ⟨l, hl, h⟩ := bind_eq_ok.1 h
    obtain ⟨rest, hrest, h⟩ := bind_eq_ok.1 h
    cases h
    obtain ⟨t', htarget, ht'⟩ := hline entry List.mem_cons_self l hl
    rw [targetsOf_cons htarget, List.mem_cons, List.exists_mem_cons_iff, ht',
      ih (fun e he => hline e (List.mem_cons_of_mem _ he)) hrest, Except.ok.injEq, eq_comm]

theorem target_conditionLine {cond : Json} {l : InstructionLine} (h : conditionLine cond = .ok l) :
    ∃ t, l.target = some t ∧ cond.getDefault "next_step" (.str "end") = .ok t := by
  unfold conditionLine at h
  obtain ⟨inner, -, h⟩ := bind_eq_ok.1 h
  obtain ⟨text, -, h⟩ := bind_eq_ok.1 h
  obtain ⟨t, ht, h⟩ := bind_eq_ok.1 h
  cases h
  exact ⟨t, rfl, ht⟩

theorem target_optionLine {opt : Json} {l : InstructionLine} (h : optionLine opt = .ok l) :
    ∃ t, l.target = some t ∧ opt.getDefault "next_step" (.str "end") = .ok t := by
  unfold optionLine at h
  obtain ⟨label, -, h⟩ := bind_eq_ok.1 h
  obtain ⟨t, ht, h⟩ := bind_eq_ok.1 h
  cases h
  exact ⟨t, rfl, ht⟩

/-- Only the entries of a list can be asked with `get`. -/
theorem eq_list_of_getDefault {v entry w : Json} {entries : List Json} {key : String}
    {default : Json}
    (h : v.iterate = .ok entries) (hmem : entry ∈ entries)
    (hw : entry.getDefault key default = .ok w) :
    v = .list entries := by
  cases v with
  | list ys =>
    cases h
    rfl
  | dict kvs =>
    cases h
    obtain ⟨kv, -, rfl⟩ := List.mem_map.1 hmem
    cases hw
  | str s =>
    cases h
    obtain ⟨c, -, rfl⟩ := List.mem_map.1 hmem
    cases hw
  | _ => cases h

theorem targetsOf_entryGuidance {field headline : String}
    {line : Json → Except ProcedureErr InstructionLine}
    (hline : ∀ entry l, line entry = .ok l →
      ∃ t, l.target = some t ∧ entry.getDefault "next_step" (.str "end") = .ok t)
    (h : entryGuidance step field headline line = .ok lines) (t : Json) : t ∈ targetsOf lines ↔
      ∃ entries, step.item field = .ok (.list entries) ∧
        ∃ entry ∈ entries, entry.getDefault "next_step" (.str "end") = .ok t := by
  unfold entryGuidance at h
  obtain ⟨c, hc, h⟩ := bind_eq_ok.1 h
  cases c with
  | false =>
    cases h
    refine iff_of_false (by simp) ?_
    rintro ⟨entries, he, -⟩
    exact not_item_of_contains hc he
  | true =>
    obtain ⟨v, hv, h⟩ := bind_eq_ok.1 h
    rw [hv]
    cases htruthy : v.truthy with
    | false =>
      rw [htruthy] at h
      cases h
      refine iff_of_false (by simp) ?_
      rintro ⟨entries, he, entry, hmem, -⟩
      cases he
      cases entries with
      | nil => cases hmem
      | cons e es => cases htruthy
    | true =>
      rw [htruthy] at h
      obtain ⟨entries, hiter, h⟩ := bind_eq_ok.1 h
      obtain ⟨rest, hrest, h⟩ := bind_eq_ok.1 h
      cases h
      rw [targetsOf_text, targetsOf_mapM (fun entry _ l => hline entry l) hrest]
      constructor
      · rintro ⟨entry, hmem, ht⟩
        obtain rfl := eq_list_of_getDefault hiter hmem ht
        exact ⟨entries, rfl, entry, hmem, ht⟩
      · rintro ⟨entries', he, entry, hmem, ht⟩
        cases he
        cases hiter
        exact ⟨entry, hmem, ht⟩

theorem targetsOf_branchingGuidance {action : Json} (ha : step.item "action" = .ok action)
    (h : branchingGuidance step = .ok lines) (t : Json) : t ∈ targetsOf lines ↔
      action.pyEq (.str "evaluate") = true ∧ ∃ entries,
        step.item "conditions" = .ok (.list entries) ∧
          ∃ entry ∈ entries, entry.getDefault "next_step" (.str "end") = .ok t := by
  unfold branchingGuidance at h
  obtain ⟨action', haction, h⟩ := bind_eq_ok.1 h
  obtain rfl : action' = action := Except.ok.inj (haction.symm.trans ha)
  by_cases hread : action'.pyEq (.str "evaluate") = true
  · rw [if_pos hread] at h
    rw [and_iff_right hread]
    exact targetsOf_entryGuidance (fun _ _ => target_conditionLine) h t
  · rw [if_neg hread] at h
    cases h
    simp [hread]

theorem targetsOf_linearGuidance {action : Json} (ha : step.item "action" = .ok action)
    (h : linearGuidance step = .ok lines) (t : Json) : t ∈ targetsOf lines ↔
      (action.pyEq (.str "tool_call") || action.pyEq (.str "evaluate")) = false ∧
        step.item "next_step" = .ok t ∧ t.pyEq (.str "end") = false := by
  unfold linearGuidance at h
  obtain ⟨c, hc, h⟩ := bind_eq_ok.1 h
  cases c with
  | false =>
    cases h
    exact iff_of_false (by simp) fun hp => not_item_of_contains hc hp.2.1
  | true =>
    obtain ⟨action', haction, h⟩ := bind_eq_ok.1 h
    obtain rfl : action' = action := Except.ok.inj (haction.symm.trans ha)
    cases hread : action'.pyEq (.str "tool_call") || action'.pyEq (.str "evaluate") with
    | true =>
      rw [hread] at h
      cases h
      simp
    | false =>
      rw [hread] at h
      obtain ⟨t', ht', h⟩ := bind_eq_ok.1 h
      rw [ht', and_iff_right rfl]
      cases hend : t'.pyEq (.str "end") with
      | true =>
        rw [hend] at h
        cases h
        refine iff_of_false (by simp) ?_
        rintro ⟨heq, hno⟩
        cases heq
        rw [hend] at hno
        cases hno
      | false =>
        rw [hend] at h
        cases h
        simp only [targetsOf_goTo, targetsOf_nil, List.mem_singleton, Except.ok.injEq]
        constructor
        · rintro rfl
          exact ⟨rfl, hend⟩
        · exact fun hp => hp.1.symm

theorem item_of_getDefault {entry t : Json}
    (h : entry.getDefault "next_step" (.str "end") = .ok t) :
    t = .str "end" ∨ entry.item "next_step" = .ok t := by
  cases entry with
  | dict kvs =>
    cases hget : Fields.get? kvs "next_step" with
    | none =>
      simp only [Json.getDefault, hget] at h
      cases h
      exact .inl rfl
    | some w =>
      simp only [Json.getDefault, hget] at h
      cases h
      exact .inr (by simp [Json.item, hget])
  | _ => cases h

theorem getDefault_of_item {entry t default : Json} {key : String} (h : entry.item key = .ok t) :
    entry.getDefault key default = .ok t := by
  cases entry with
  | dict kvs =>
    cases hget : Fields.get? kvs key with
    | none =>
      simp only [Json.item, hget] at h
      cases h
    | some w =>
      simp only [Json.item, hget] at h
      cases h
      simp [Json.getDefault, hget]
  | _ => cases h

/-- What an entry line names is what the field names, or "end". -/
theorem namesBy_of_guidance {field : String} (hfield : field ∈ ["conditions", "options"]) {t : Json}
    (h : ∃ entries, step.item field = .ok (.list entries) ∧
      ∃ entry ∈ entries, entry.getDefault "next_step" (.str "end") = .ok t) :
    t = .str "end" ∨ NamesBy step field t := by
  obtain ⟨entries, he, entry, hmem, ht⟩ := h
  exact (item_of_getDefault ht).imp_right fun hitem => .entry hfield entries he entry hmem hitem

theorem guidance_of_namesBy {field : String} (hfield : field ∈ ["conditions", "options"]) {t : Json}
    (h : NamesBy step field t) : ∃ entries, step.item field = .ok (.list entries) ∧
      ∃ entry ∈ entries, entry.getDefault "next_step" (.str "end") = .ok t := by
  cases h with
  | reference href ht =>
    rcases List.mem_pair.1 hfield with rfl | rfl <;> exact absurd href (by decide)
  | entry _ entries he entry hmem ht => exact ⟨entries, he, entry, hmem, getDefault_of_item ht⟩

theorem item_of_namesBy {field : String} (hfield : field ∈ refFields) {t : Json}
    (h : NamesBy step field t) : step.item field = .ok t := by
  cases h with
  | reference _ ht => exact ht
  | entry hentry entries he entry hmem ht =>
    rcases List.mem_pair.1 hentry with rfl | rfl <;> exact absurd hfield (by decide)

theorem mem_readFields {action : Json} {field : String} : field ∈ readFields action ↔
    action.pyEq (.str "tool_call") = true ∧ (field = "on_success" ∨ field = "on_failure") ∨
    action.pyEq (.str "evaluate") = true ∧ field = "conditions" ∨ field = "options" ∨
    (action.pyEq (.str "tool_call") || action.pyEq (.str "evaluate")) = false ∧
      field = "next_step" := by
  unfold readFields
  cases action.pyEq (.str "tool_call") <;> cases action.pyEq (.str "evaluate") <;>
    simp [or_assoc]

theorem targetsOf_stepSection {strip : String → String} {i : ℕ} {action : Json}
    (ha : step.item "action" = .ok action)
    (htool : action.pyEq (.str "tool_call") = true → step.HasItem "tool")
    (h : stepSection strip i step = .ok lines) :
    (∀ t ∈ targetsOf lines, t = .str "end" ∨ ∃ field ∈ readFields action, NamesBy step field t) ∧
    ∀ field ∈ readFields action, ∀ t, NamesBy step field t → t.pyEq (.str "end") = false →
      t ∈ targetsOf lines := by
  unfold stepSection at h
  obtain ⟨id, -, h⟩ := bind_eq_ok.1 h
  obtain ⟨instruction, -, h⟩ := bind_eq_ok.1 h
  cases instruction with
  | str instruction =>
    obtain ⟨tool, h1, h⟩ := bind_eq_ok.1 h
    obtain ⟨collection, h2, h⟩ := bind_eq_ok.1 h
    obtain ⟨branching, h3, h⟩ := bind_eq_ok.1 h
    obtain ⟨options, h4, h⟩ := bind_eq_ok.1 h
    obtain ⟨linear, h5, h⟩ := bind_eq_ok.1 h
    cases h
    have hoptions := targetsOf_entryGuidance (fun _ _ => target_optionLine) h4
    simp only [targetsOf_text, targetsOf_append, targetsOf_collectionGuidance h2, targetsOf_nil,
      List.append_nil, List.mem_append, targetsOf_toolGuidance ha htool h1, hoptions,
      targetsOf_branchingGuidance ha h3, targetsOf_linearGuidance ha h5]
    constructor
    · rintro t (((⟨hcall, ht⟩ | ⟨hread, ht⟩) | ht) | ⟨hread, ht, -⟩)
      · rcases ht with ht | ht
        · exact .inr ⟨_, mem_readFields.2 (.inl ⟨hcall, .inl rfl⟩), .reference (by decide) ht⟩
        · exact .inr ⟨_, mem_readFields.2 (.inl ⟨hcall, .inr rfl⟩), .reference (by decide) ht⟩
      · exact (namesBy_of_guidance (by simp) ht).imp_right fun hn =>
          ⟨_, mem_readFields.2 (.inr (.inl ⟨hread, rfl⟩)), hn⟩
      · exact (namesBy_of_guidance (by simp) ht).imp_right fun hn =>
          ⟨_, mem_readFields.2 (.inr (.inr (.inl rfl))), hn⟩
      · exact .inr ⟨_, mem_readFields.2 (.inr (.inr (.inr ⟨hread, rfl⟩))),
          .reference (by decide) ht⟩
    · intro field hfield t hn hend
      rcases mem_readFields.1 hfield with ⟨hcall, rfl | rfl⟩ | ⟨hread, rfl⟩ | rfl | ⟨hread, rfl⟩
      · exact .inl (.inl (.inl ⟨hcall, .inl (item_of_namesBy (by decide) hn)⟩))
      · exact .inl (.inl (.inl ⟨hcall, .inr (item_of_namesBy (by decide) hn)⟩))
      · exact .inl (.inl (.inr ⟨hread, guidance_of_namesBy (by simp) hn⟩))
      · exact .inl (.inr (guidance_of_namesBy (by simp) hn))
      · exact .inr ⟨hread, item_of_namesBy (by decide) hn, hend⟩
  | _ => cases h

end Lines

theorem getOrNone_of_item {v w : Json} {key : String} (h : v.item key = .ok w) :
    v.getOrNone key = .ok w := by
  cases v with
  | dict kvs =>
    cases hget : Fields.get? kvs key with
    | none =>
      simp only [Json.item, hget] at h
      cases h
    | some w' =>
      simp only [Json.item, hget] at h
      cases h
      simp [Json.getOrNone, hget]
  | _ => cases h

section Graph
variable {step : Json} {s s' s'' : List Json} {p q : Json → Prop}

/-- What a part of the graph builder adds to the targets of a step. -/
structure Adds (s s' : List Json) (p : Json → Prop) : Prop where
  kept : ∀ w ∈ s, w ∈ s'
  sound : ∀ w ∈ s', w ∈ s ∨ p w
  complete : ∀ t, p t → t.pyEq (.str "end") = false → t.memberOf s' = .ok true

namespace Adds

theorem refl (hp : ∀ t, p t → t.pyEq (.str "end") = true) : Adds s s p :=
  ⟨fun _ h => h, fun _ h => .inl h, fun t ht he => by
    rw [hp t ht] at he
    cases he⟩

theorem trans (h : Adds s s' p) (h' : Adds s' s'' q) : Adds s s'' fun t => p t ∨ q t where
  kept w hw := h'.kept w (h.kept w hw)
  sound w hw := by
    rcases h'.sound w hw with hw | hw
    · exact (h.sound w hw).imp_right .inl
    · exact .inr (.inr hw)
  complete t ht he := by
    rcases ht with ht | ht
    · exact Json.memberOf_mono h'.kept (h.complete t ht he)
    · exact h'.complete t ht he

theorem congr (h : Adds s s' p) (hpq : ∀ t, p t ↔ q t) : Adds s s' q where
  kept := h.kept
  sound w hw := (h.sound w hw).imp_right (hpq w).1
  complete t ht := h.complete t ((hpq t).2 ht)

theorem addTo {t : Json} (h : Json.addTo s t = .ok s') : Adds s s' (· = t) where
  kept := (Json.memberOf_addTo h).1
  sound _ hw := Json.mem_addTo h hw
  complete t' ht' _ := by
    rw [ht']
    exact (Json.memberOf_addTo h).2

theorem foldlM {β : Type} {xs : List β} {f : List Json → β → Except ProcedureErr (List Json)}
    {p : β → Json → Prop} (h : xs.foldlM f s = .ok s')
    (hstep : ∀ x ∈ xs, ∀ s s', f s x = .ok s' → Adds s s' (p x)) :
    Adds s s' fun t => ∃ x ∈ xs, p x t := by
  induction xs generalizing s with
  | nil =>
    cases h
    exact refl fun t ht => by simp at ht
  | cons x xs ih =>
    rw [List.foldlM_cons] at h
    obtain ⟨s1, hx, hxs⟩ := bind_eq_ok.1 h
    have hrest := ih hxs fun y hy => hstep y (List.mem_cons_of_mem _ hy)
    exact ((hstep x List.mem_cons_self s s1 hx).trans hrest).congr fun t => by simp

end Adds

theorem adds_reference {field : String} (h : ProcedureExecutor.addReference step s field = .ok s') :
    Adds s s' fun t => step.item field = .ok t := by
  unfold ProcedureExecutor.addReference at h
  obtain ⟨c, hc, h⟩ := bind_eq_ok.1 h
  cases c with
  | false =>
    cases h
    exact .refl fun t ht => absurd ht (not_item_of_contains hc)
  | true =>
    obtain ⟨t, ht, h⟩ := bind_eq_ok.1 h
    rw [ht]
    cases hend : t.pyEq (.str "end") with
    | true =>
      rw [hend] at h
      cases h
      refine .refl fun t' ht' => ?_
      cases ht'
      exact hend
    | false =>
      rw [hend] at h
      exact (Adds.addTo h).congr fun t' => by rw [Except.ok.injEq, eq_comm]

theorem adds_entry {entry : Json} (h : (do
      let t ← entry.getOrNone "next_step"
      if t.truthy && !t.pyEq (.str "end") then Json.addTo s t else return s) = .ok s') :
    Adds s s' fun t => entry.item "next_step" = .ok t ∧ t.truthy = true := by
  obtain ⟨t, ht, h⟩ := bind_eq_ok.1 h
  have hitem : ∀ t', entry.item "next_step" = .ok t' → t' = t := by
    intro t' ht'
    have hget := getOrNone_of_item ht'
    exact Except.ok.inj (hget.symm.trans ht)
  cases hcond : t.truthy && !t.pyEq (.str "end") with
  | false =>
    rw [hcond] at h
    cases h
    refine .refl fun t' ht' => ?_
    obtain rfl := hitem t' ht'.1
    rw [ht'.2] at hcond
    simpa using hcond
  | true =>
    rw [hcond] at h
    obtain ⟨htruthy, -⟩ := Bool.and_eq_true_iff.1 hcond
    refine (Adds.addTo h).congr fun t' => ⟨?_, fun ht' => hitem t' ht'.1⟩
    rintro rfl
    exact ⟨Json.item_of_getOrNone ht htruthy, htruthy⟩

theorem adds_entries {field : String} (hfield : field ∈ ["conditions", "options"])
    (h : ProcedureExecutor.addEntryTargets step field s = .ok s') :
    Adds s s' fun t => NamesBy step field t ∧ t.truthy = true := by
  have hlist : ∀ t, NamesBy step field t → ∃ entries, step.item field = .ok (.list entries) ∧
      ∃ entry ∈ entries, entry.item "next_step" = .ok t := by
    rintro t (⟨href, -⟩ | ⟨-, entries, he, entry, hmem, ht⟩)
    · rcases List.mem_pair.1 hfield with rfl | rfl <;> exact absurd href (by decide)
    · exact ⟨entries, he, entry, hmem, ht⟩
  unfold ProcedureExecutor.addEntryTargets at h
  obtain ⟨c, hc, h⟩ := bind_eq_ok.1 h
  cases c with
  | false =>
    cases h
    refine .refl fun t ht => ?_
    obtain ⟨entries, he, -⟩ := hlist t ht.1
    exact absurd he (not_item_of_contains hc)
  | true =>
    obtain ⟨v, hv, h⟩ := bind_eq_ok.1 h
    cases htruthy : v.truthy with
    | false =>
      rw [htruthy] at h
      cases h
      refine .refl fun t ht => ?_
      obtain ⟨entries, he, entry, hmem, -⟩ := hlist t ht.1
      cases hv.symm.trans he
      cases entries with
      | nil => cases hmem
      | cons e es => cases htruthy
    | true =>
      rw [htruthy] at h
      obtain ⟨entries, hiter, h⟩ := bind_eq_ok.1 h
      refine (Adds.foldlM h fun entry _ s s' hadd => adds_entry hadd).congr fun t => ⟨?_, ?_⟩
      · rintro ⟨entry, hmem, ht, htt⟩
        obtain rfl := Json.eq_list_of_iterate hiter hmem ht
        exact ⟨.entry hfield entries hv entry hmem ht, htt⟩
      · rintro ⟨hn, htt⟩
        obtain ⟨entries', he, entry, hmem, ht⟩ := hlist t hn
        cases hv.symm.trans he
        cases hiter
        exact ⟨entry, hmem, ht, htt⟩

/-- The targets of a step that the executor allows, "end" apart. -/
def Allowed (step t : Json) : Prop :=
  ∃ field, NamesBy step field t ∧ (field ∈ refFields ∨ t.truthy = true)

theorem adds_stepTargets {targets : List Json}
    (h : ProcedureExecutor.stepTargets step = .ok targets) :
    Adds [] targets fun t => Allowed step t ∨ t = .str "end" := by
  unfold ProcedureExecutor.stepTargets at h
  obtain ⟨refs, hrefs, h⟩ := bind_eq_ok.1 h
  obtain ⟨conditions, hconditions, h⟩ := bind_eq_ok.1 h
  obtain ⟨options, hoptions, h⟩ := bind_eq_ok.1 h
  refine ((((Adds.foldlM hrefs fun field _ s s' hadd => adds_reference hadd).trans
    (adds_entries (by simp) hconditions)).trans (adds_entries (by simp) hoptions)).trans
      (Adds.addTo h)).congr fun t => or_congr_left ⟨?_, ?_⟩
  · rintro ((⟨field, hfield, ht⟩ | ⟨hn, htt⟩) | ⟨hn, htt⟩)
    · exact ⟨field, .reference hfield ht, .inl hfield⟩
    · exact ⟨_, hn, .inr htt⟩
    · exact ⟨_, hn, .inr htt⟩
  · rintro ⟨field, hn, hor⟩
    cases hn with
    | reference hfield ht => exact .inl (.inl ⟨field, hfield, ht⟩)
    | entry hfield entries he entry hmem ht =>
      rcases List.mem_pair.1 hfield with rfl | rfl
      · exact .inl (.inr ⟨.entry hfield entries he entry hmem ht, hor.resolve_left (by decide)⟩)
      · exact .inr ⟨.entry hfield entries he entry hmem ht, hor.resolve_left (by decide)⟩

theorem end_mem_stepTargets {targets : List Json}
    (h : ProcedureExecutor.stepTargets step = .ok targets) :
    ∃ t ∈ targets, t.pyEq (.str "end") = true := by
  unfold ProcedureExecutor.stepTargets at h
  obtain ⟨refs, -, h⟩ := bind_eq_ok.1 h
  obtain ⟨conditions, -, h⟩ := bind_eq_ok.1 h
  obtain ⟨options, -, h⟩ := bind_eq_ok.1 h
  exact List.any_eq_true.1 (Json.memberOf_ok.1 (Json.memberOf_addTo h).2).2

end Graph

/-- What a step must be for its instructions and its part of the graph to agree. -/
structure GuidedAlike (step action : Json) : Prop where
  unread : ∀ field ∉ readFields action, ∀ t, NamesBy step field t →
    (field ∈ refFields ∨ t.truthy = true) → t.pyEq (.str "end") = false →
      ∃ read ∈ readFields action, ∃ t', NamesBy step read t' ∧ t'.pyEq t = true
  falsy : ∀ field ∈ readFields action, field ∈ ["conditions", "options"] → ∀ t,
    NamesBy step field t → t.truthy = false →
      ∃ ref ∈ refFields, ∃ t', NamesBy step ref t' ∧ t'.pyEq t = true

/-- The section of a step and the targets that the executor allows from it name the same steps. -/
structure SameTargets (lines : List InstructionLine) (targets : List Json) : Prop where
  named : ∀ t ∈ targets, t.pyEq (.str "end") = false →
    ∃ line ∈ lines, ∃ t', line.target = some t' ∧ t'.pyEq t = true
  allowed : ∀ line ∈ lines, ∀ t, line.target = some t → ∃ t' ∈ targets, t'.pyEq t = true

theorem pyEq_congr {v w : Json} (hv : v.hashable = true) (h : v.pyEq w = true) (u : Json) :
    v.pyEq u = w.pyEq u := by
  have hw := Json.hashable_of_pyEq hv h
  rw [Bool.eq_iff_iff, Json.pyEq_iff_key hv, Json.pyEq_iff_key hw, (Json.pyEq_iff_key hv).1 h]

theorem truthy_iff_key {v : Json} (hv : v.hashable = true) : v.truthy = true ↔
    v.key ≠ (some 0, .null) ∧ v.key ≠ (none, .null) ∧ v.key ≠ (none, .str "") := by
  cases v with
  | list xs => cases hv
  | dict kvs => cases hv
  | bool b => cases b <;> simp [Json.truthy, Json.key, Json.number?, Json.value]
  | float m e =>
    have hden : (floatFraction m e).2 ≠ 0 := (floatFraction_pos m e).ne'
    simp [Json.truthy, Json.key, Json.number?, Json.value, hden]
  | _ => simp [Json.truthy, Json.key, Json.number?, Json.value]

theorem truthy_congr {v w : Json} (hv : v.hashable = true) (h : v.pyEq w = true) :
    v.truthy = w.truthy := by
  rw [Bool.eq_iff_iff, truthy_iff_key hv, truthy_iff_key (Json.hashable_of_pyEq hv h),
    (Json.pyEq_iff_key hv).1 h]

theorem mem_targetsOf {lines : List InstructionLine} {t : Json} :
    t ∈ targetsOf lines ↔ ∃ line ∈ lines, line.target = some t := List.mem_filterMap

theorem NamesBy.names {step t : Json} {field : String} (h : NamesBy step field t) :
    Names step t := by
  cases h with
  | reference hfield ht => exact .reference field hfield ht
  | entry hfield entries he entry hmem ht => exact .entry field hfield entries he entry hmem ht

/-- One step: the executor and the instructions agree exactly where the fields do. -/
theorem sameTargets_iff {strip : String → String} {step action : Json} {i : ℕ}
    {lines : List InstructionLine} {targets : List Json}
    (ha : step.item "action" = .ok action)
    (htool : action.pyEq (.str "tool_call") = true → step.HasItem "tool")
    (hhash : ∀ t, Names step t → t.hashable = true)
    (hlines : stepSection strip i step = .ok lines)
    (htargets : ProcedureExecutor.stepTargets step = .ok targets) :
    SameTargets lines targets ↔ GuidedAlike step action := by
  obtain ⟨hsound, hcomplete⟩ := targetsOf_stepSection ha htool hlines
  have hadds := adds_stepTargets htargets
  have hallowed : ∀ t ∈ targets, Allowed step t ∨ t = .str "end" := fun t ht =>
    (hadds.sound t ht).resolve_left (by simp)
  have hhashed : ∀ t ∈ targets, t.hashable = true := by
    intro t ht
    rcases hallowed t ht with ⟨field, hn, -⟩ | rfl
    · exact hhash t hn.names
    · rfl
  constructor
  · intro h
    constructor
    · intro field hfield t hn hor hend
      obtain ⟨-, hany⟩ := Json.memberOf_ok.1 (hadds.complete t (.inl ⟨field, hn, hor⟩) hend)
      obtain ⟨w, hw, hwt⟩ := List.any_eq_true.1 hany
      have hwend : w.pyEq (.str "end") = false := by rwa [pyEq_congr (hhashed w hw) hwt]
      obtain ⟨line, hline, t', htarget, htw⟩ := h.named w hw hwend
      rcases hsound t' (mem_targetsOf.2 ⟨line, hline, htarget⟩) with rfl | ⟨read, hread, hn'⟩
      · rw [Json.pyEq_symm rfl htw] at hwend
        cases hwend
      · exact ⟨read, hread, t', hn', Json.pyEq_trans (hhash t' hn'.names) htw hwt⟩
    · intro field hfield _ t hn hfalsy
      have hend : t.pyEq (.str "end") = false := by
        cases he : t.pyEq (.str "end") with
        | false => rfl
        | true =>
          rw [truthy_congr (hhash t hn.names) he] at hfalsy
          cases hfalsy
      obtain ⟨line, hline, htarget⟩ := mem_targetsOf.1 (hcomplete field hfield t hn hend)
      obtain ⟨w, hw, hwt⟩ := h.allowed line hline t htarget
      have hwfalsy := truthy_congr (hhashed w hw) hwt
      rcases hallowed w hw with ⟨ref, hn', href | htruthy⟩ | rfl
      · exact ⟨ref, href, w, hn', hwt⟩
      · rw [htruthy, hfalsy] at hwfalsy
        cases hwfalsy
      · rw [hfalsy] at hwfalsy
        cases hwfalsy
  · intro h
    constructor
    · intro t ht hend
      rcases hallowed t ht with ⟨field, hn, hor⟩ | rfl
      · by_cases hread : field ∈ readFields action
        · obtain ⟨line, hline, htarget⟩ := mem_targetsOf.1 (hcomplete field hread t hn hend)
          exact ⟨line, hline, t, htarget, Json.pyEq_self (hhashed t ht)⟩
        · obtain ⟨read, hread, t', hn', htt⟩ := h.unread field hread t hn hor hend
          have hend' : t'.pyEq (.str "end") = false := by
            rwa [pyEq_congr (hhash t' hn'.names) htt]
          obtain ⟨line, hline, htarget⟩ := mem_targetsOf.1 (hcomplete read hread t' hn' hend')
          exact ⟨line, hline, t', htarget, htt⟩
      · cases hend
    · intro line hline t htarget
      have hfind : ∀ t', Allowed step t' → t'.pyEq (.str "end") = false →
          ∃ w ∈ targets, w.pyEq t' = true := fun t' ht' hend =>
        List.any_eq_true.1 (Json.memberOf_ok.1 (hadds.complete t' (.inl ht') hend)).2
      obtain ⟨e, he, hee⟩ := end_mem_stepTargets htargets
      rcases hsound t (mem_targetsOf.2 ⟨line, hline, htarget⟩) with rfl | ⟨read, hread, hn⟩
      · exact ⟨e, he, hee⟩
      have hth := hhash t hn.names
      cases hend : t.pyEq (.str "end") with
      | true => exact ⟨e, he, Json.pyEq_trans (hhashed e he) hee (Json.pyEq_symm hth hend)⟩
      | false =>
        by_cases hor : read ∈ refFields ∨ t.truthy = true
        · exact hfind t ⟨read, hn, hor⟩ hend
        · obtain ⟨href, hfalsy⟩ := not_or.1 hor
          have hentry : read ∈ ["conditions", "options"] := by
            cases hn with
            | reference hfield _ => exact absurd hfield href
            | entry hfield _ _ _ _ _ => exact hfield
          obtain ⟨ref, hfield, t', hn', htt⟩ :=
            h.falsy read hread hentry t hn (by simpa using hfalsy)
          have hend' : t'.pyEq (.str "end") = false := by
            rwa [pyEq_congr (hhash t' hn'.names) htt]
          obtain ⟨w, hw, hwt⟩ := hfind t' ⟨ref, hn', .inl hfield⟩ hend'
          exact ⟨w, hw, Json.pyEq_trans (hhashed w hw) hwt htt⟩

theorem isDict_of_item {v w : Json} {key : String} (h : v.item key = .ok w) : v.IsDict := by
  cases v with
  | dict kvs => exact ⟨kvs, rfl⟩
  | _ => cases h

section Procedure
variable {procedure : Json} {x : ProcedureExecutor}

theorem DistinctIds.eq {steps : List Json} (h : DistinctIds steps)
    (hhash : ∀ step ∈ steps, ∀ id, step.item "id" = .ok id → id.hashable = true)
    {a b i j : Json} (ha : a ∈ steps) (hb : b ∈ steps) (hi : a.item "id" = .ok i)
    (hj : b.item "id" = .ok j) (hij : i.pyEq j = true) : a = b := by
  obtain ⟨m, hm, rfl⟩ := List.getElem_of_mem ha
  obtain ⟨n, hn, rfl⟩ := List.getElem_of_mem hb
  rcases lt_trichotomy m n with hlt | rfl | hlt
  · have hne := List.pairwise_iff_getElem.1 h m n hm hn hlt i j hi hj
    rw [hij] at hne
    cases hne
  · rfl
  · have hne := List.pairwise_iff_getElem.1 h n m hn hm hlt j i hj hi
    rw [Json.pyEq_symm (hhash _ ha i hi) hij] at hne
    cases hne

/-- What the checks of a validated procedure leave of a step. -/
theorem validated_step (hv : validateProcedure procedure = .ok true) {step : Json}
    (hstep : step ∈ declaredSteps procedure) :
    (∃ id, step.item "id" = .ok id ∧ id.hashable = true) ∧
    (∀ t, Names step t → t.hashable = true) ∧
    ∃ action, step.item "action" = .ok action ∧
      (action.pyEq (.str "tool_call") = true → step.HasItem "tool") := by
  unfold validateProcedure at hv
  obtain ⟨steps, hsteps, hv⟩ := bind_eq_ok.1 hv
  obtain ⟨xs, hxs, hv⟩ := bind_eq_ok.1 hv
  obtain ⟨ids, hids, hv⟩ := bind_eq_ok.1 hv
  obtain ⟨validTargets, -, hv⟩ := bind_eq_ok.1 hv
  obtain ⟨⟨⟩, hvalid, -⟩ := bind_eq_ok.1 hv
  rw [declaredSteps_eq hsteps hxs] at hstep
  have hcheck := of_forM hvalid step hstep
  obtain ⟨id, hid, hmember⟩ := (Json.memberOf_fold hids).2 step hstep
  obtain ⟨⟨⟩, hfields, -⟩ := bind_eq_ok.1 hcheck
  obtain ⟨hhas, htool⟩ := (checkFields_decides (isDict_of_item hid)).ok_iff.1 hfields
  obtain ⟨action, ha⟩ := hhas "action" (by simp)
  exact ⟨⟨id, hid, (Json.memberOf_ok.1 hmember).1⟩,
    fun t hn => (Json.memberOf_ok.1 (valid_of_names hcheck hn)).1, action, ha, htool action ha⟩

/-- With distinct ids, the executor has the targets of each step under its id. -/
theorem targets_of_step (hv : validateProcedure procedure = .ok true)
    (hdistinct : DistinctIds (declaredSteps procedure))
    (hi : ProcedureExecutor.init procedure = .ok x) {step : Json}
    (hstep : step ∈ declaredSteps procedure) : ∃ id targets, step.item "id" = .ok id ∧
      ProcedureExecutor.stepTargets step = .ok targets ∧
      x.validTransitions.get? id = some targets := by
  have hhash : ∀ step ∈ declaredSteps procedure, ∀ id, step.item "id" = .ok id →
      id.hashable = true := by
    intro step hstep id hid
    obtain ⟨⟨id', hid', hh⟩, -⟩ := validated_step hv hstep
    cases hid.symm.trans hid'
    exact hh
  unfold ProcedureExecutor.init at hi
  obtain ⟨procedureId, -, hi⟩ := bind_eq_ok.1 hi
  obtain ⟨procedureName, -, hi⟩ := bind_eq_ok.1 hi
  obtain ⟨steps, hsteps, hi⟩ := bind_eq_ok.1 hi
  obtain ⟨xs, hxs, hi⟩ := bind_eq_ok.1 hi
  obtain ⟨byId, -, hi⟩ := bind_eq_ok.1 hi
  obtain ⟨stepOrder, -, hi⟩ := bind_eq_ok.1 hi
  obtain ⟨validTransitions, htrans, hi⟩ := bind_eq_ok.1 hi
  cases hi
  rw [declaredSteps_eq hsteps hxs] at hdistinct hhash hstep
  obtain ⟨id, hid, hkey⟩ := PyDict.key_of_fold htrans step hstep
  obtain ⟨targets, hget⟩ := PyDict.exists_get? hkey
  obtain ⟨key, hmem, hkid⟩ := PyDict.get?_eq_some hget
  obtain ⟨-, step', hstep', id', hid', htargets, hik⟩ := PyDict.mem_of_fold htrans _ hmem
  have heq := hdistinct.eq hhash hstep' hstep hid' hid
    (Json.pyEq_trans (hhash step' hstep' id' hid') hik hkid)
  rw [heq] at htargets
  exact ⟨id, targets, hid, htargets, hget⟩

theorem section_of_step {strip : String → String} {persona : String} {instructions : Instructions}
    (h : instructionLines strip procedure persona = .ok instructions) {n : ℕ} {step : Json}
    (hstep : (declaredSteps procedure)[n]? = some step) :
    ∃ lines, instructions.sections[n]? = some lines ∧
      stepSection strip (n + 1) step = .ok lines := by
  unfold instructionLines at h
  obtain ⟨name, -, h⟩ := bind_eq_ok.1 h
  obtain ⟨description, -, h⟩ := bind_eq_ok.1 h
  obtain ⟨steps, hsteps, h⟩ := bind_eq_ok.1 h
  obtain ⟨xs, hxs, h⟩ := bind_eq_ok.1 h
  obtain ⟨sections, hsections, h⟩ := bind_eq_ok.1 h
  cases h
  rw [declaredSteps_eq hsteps hxs] at hstep
  have hzip : (xs.zipIdx 1)[n]? = some (step, n + 1) := by
    rw [List.getElem?_zipIdx, hstep, Nat.add_comm]
    rfl
  exact getElem?_mapM hsections hzip

/-- The instructions and the graph agree exactly where each step is read alike by both. -/
theorem instructions_agree_iff (strip : String → String) (procedure : Json) (persona : String)
    (x : ProcedureExecutor) (instructions : Instructions)
    (hv : validateProcedure procedure = .ok true)
    (hdistinct : DistinctIds (declaredSteps procedure))
    (hi : ProcedureExecutor.init procedure = .ok x)
    (hr : instructionLines strip procedure persona = .ok instructions) :
    (∀ (n : ℕ) (step : Json), (declaredSteps procedure)[n]? = some step →
      ∃ lines id targets, instructions.sections[n]? = some lines ∧ step.item "id" = .ok id ∧
        x.validTransitions.get? id = some targets ∧ SameTargets lines targets) ↔
    ∀ step ∈ declaredSteps procedure, ∀ action, step.item "action" = .ok action →
      GuidedAlike step action := by
  have hstep : ∀ (n : ℕ) (step : Json), (declaredSteps procedure)[n]? = some step →
      ((∃ lines id targets, instructions.sections[n]? = some lines ∧ step.item "id" = .ok id ∧
        x.validTransitions.get? id = some targets ∧ SameTargets lines targets) ↔
      ∀ action, step.item "action" = .ok action → GuidedAlike step action) := by
    intro n step hn
    have hmem := List.mem_of_getElem? hn
    obtain ⟨-, hhash, action, ha, htool⟩ := validated_step hv hmem
    obtain ⟨id, targets, hid, htargets, hget⟩ := targets_of_step hv hdistinct hi hmem
    obtain ⟨lines, hsection, hlines⟩ := section_of_step hr hn
    have hiff := sameTargets_iff ha htool hhash hlines htargets
    constructor
    · rintro ⟨lines', id', targets', hsection', hid', hget', hsame⟩ action' ha'
      cases hsection.symm.trans hsection'
      cases hid.symm.trans hid'
      cases hget.symm.trans hget'
      cases ha.symm.trans ha'
      exact hiff.1 hsame
    · intro h
      exact ⟨lines, id, targets, hsection, hid, hget, hiff.2 (h action ha)⟩
  constructor
  · intro h step hmem
    obtain ⟨n, hn⟩ := List.getElem?_of_mem hmem
    exact (hstep n step hn).1 (h n step hn)
  · intro h n step hn
    exact (hstep n step hn).2 (h step (List.mem_of_getElem? hn))

end Procedure

/-- The step of the EFT dispute procedure that is assessed with a tool and branches on conditions,
with an action. -/
def assessEligibility (action : String) : Json :=
  .dict [("id", .str "assess_eligibility"), ("instruction", .str "Evaluate the dispute."),
    ("action", .str action), ("tool", .str "check_dispute_eligibility"),
    ("conditions", .list [.dict [("if", .str "dispute is eligible under Reg E"),
      ("next_step", .str "file_dispute")]])]

def disputeProcedure (action : String) : Json :=
  .dict [("id", .str "cs_eft_dispute"), ("name", .str "EFT Dispute"),
    ("description", .str "Regulation E disputes"), ("steps", .list [assessEligibility action,
      .dict [("id", .str "file_dispute"), ("instruction", .str "File the dispute."),
        ("action", .str "inform"), ("next_step", .str "end")]])]

def disputeExecutor (action : String) : ProcedureExecutor where
  procedureId := .str "cs_eft_dispute"
  procedureName := .str "EFT Dispute"
  steps := (declaredSteps (disputeProcedure action)).zipWith (fun step id => (id, step))
    [.str "assess_eligibility", .str "file_dispute"]
  stepOrder := [.str "assess_eligibility", .str "file_dispute"]
  validTransitions := [(.str "assess_eligibility", [.str "file_dispute", .str "end"]),
    (.str "file_dispute", [.str "end"])]

theorem distinctIds_dispute (action : String) :
    DistinctIds (declaredSteps (disputeProcedure action)) := by
  refine List.pairwise_pair.2 fun i j hi hj => ?_
  cases hi
  cases hj
  decide

/-- The agent is told of no step to go to, and the executor lets it file the dispute. -/
theorem dispute_not_guided : ¬ ∀ (procedure : Json) (x : ProcedureExecutor)
    (instructions : Instructions), validateProcedure procedure = .ok true →
    DistinctIds (declaredSteps procedure) → ProcedureExecutor.init procedure = .ok x →
    instructionLines id procedure "" = .ok instructions →
    ∀ (n : ℕ) (step : Json), (declaredSteps procedure)[n]? = some step →
      ∃ lines id targets, instructions.sections[n]? = some lines ∧ step.item "id" = .ok id ∧
        x.validTransitions.get? id = some targets ∧ SameTargets lines targets := by
  intro h
  cases hr : instructionLines id (disputeProcedure "tool_call") "" with
  | error e => cases hr
  | ok instructions =>
    have hsections : instructions.sections[0]? = some [
        ⟨"### Step 1: assess_eligibility", none⟩, ⟨"Evaluate the dispute.", none⟩,
        ⟨"  → Use the `check_dispute_eligibility` tool to complete this step.", none⟩,
          ⟨"", none⟩] := by
      cases hr
      rfl
    obtain ⟨lines, id, targets, hlines, hid, hget, hsame⟩ := h (disputeProcedure "tool_call")
      (disputeExecutor "tool_call") instructions rfl (distinctIds_dispute _) rfl hr 0
      (assessEligibility "tool_call") rfl
    cases hsections.symm.trans hlines
    cases hid
    cases hget
    obtain ⟨line, hline, t, htarget, -⟩ :=
      hsame.named (.str "file_dispute") List.mem_cons_self (by decide)
    simp only [List.mem_cons, List.not_mem_nil, or_false] at hline
    rcases hline with rfl | rfl | rfl | rfl <;> cases htarget

theorem namesBy_assess {action field : String} {t : Json}
    (h : NamesBy (assessEligibility action) field t) :
    field = "conditions" ∧ t = .str "file_dispute" := by
  cases h with
  | reference hfield ht =>
    simp only [refFields, List.mem_cons, List.not_mem_nil, or_false] at hfield
    rcases hfield with rfl | rfl | rfl <;> cases ht
  | entry hfield entries he entry hmem ht =>
    rcases List.mem_pair.1 hfield with rfl | rfl
    · cases he
      obtain rfl := List.mem_singleton.1 hmem
      cases ht
      exact ⟨rfl, rfl⟩
    · cases he

/-- With the action "evaluate" the two agree. -/
theorem instructions_agree_dispute : ∃ instructions lines,
    instructionLines id (disputeProcedure "evaluate") "" = .ok instructions ∧
    instructions.sections[0]? = some lines ∧
    SameTargets lines [.str "file_dispute", .str "end"] := by
  cases hr : instructionLines id (disputeProcedure "evaluate") "" with
  | error e => cases hr
  | ok instructions =>
    have hagree := (instructions_agree_iff id (disputeProcedure "evaluate") ""
      (disputeExecutor "evaluate") instructions rfl (distinctIds_dispute _) rfl hr).2 ?_ 0
        (assessEligibility "evaluate") rfl
    · obtain ⟨lines, id, targets, hlines, hid, hget, hsame⟩ := hagree
      cases hid
      cases hget
      exact ⟨instructions, lines, rfl, hlines, hsame⟩
    · have hsteps : declaredSteps (disputeProcedure "evaluate") = [assessEligibility "evaluate",
          .dict [("id", .str "file_dispute"), ("instruction", .str "File the dispute."),
            ("action", .str "inform"), ("next_step", .str "end")]] := rfl
      rw [hsteps, List.forall_mem_cons, List.forall_mem_singleton]
      refine ⟨fun action ha => ?_, fun action ha => ?_⟩
      · cases ha
        constructor
        · intro field hread t hn
          obtain ⟨rfl, -⟩ := namesBy_assess hn
          exact absurd (by decide) hread
        · intro field _ _ t hn hfalsy
          obtain ⟨-, rfl⟩ := namesBy_assess hn
          cases hfalsy
      · cases ha
        constructor
        · rintro field hread t (⟨hfield, ht⟩ | ⟨hfield, entries, he, -⟩)
          · simp only [refFields, List.mem_cons, List.not_mem_nil, or_false] at hfield
            rcases hfield with rfl | rfl | rfl
            · exact absurd (by decide) hread
            · cases ht
            · cases ht
          · rcases List.mem_pair.1 hfield with rfl | rfl <;> cases he
        · rintro field - hfield t (⟨href, -⟩ | ⟨-, entries, he, -⟩)
          · rcases List.mem_pair.1 hfield with rfl | rfl <;> exact absurd href (by decide)
          · rcases List.mem_pair.1 hfield with rfl | rfl <;> cases he

end WorkflowEngine
