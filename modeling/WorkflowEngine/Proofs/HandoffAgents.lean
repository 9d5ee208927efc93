import WorkflowEngine.Proofs.Handoffs

/-! Every transition of a handoff writes the agent column, with no agent where the callback
named none. The accepting agent stays on record exactly in the runs whose acceptances name an
agent and whose later callbacks name that agent again. -/

namespace WorkflowEngine

open Interleave Relational

/-- The agent given by the last step into ACCEPTED. -/
def HandoffLog.accepter (h : HandoffLog) (id : String) : Option String :=
  ((h.steps id).filter fun s => s.target = .accepted).getLast?.bind HandoffStep.agentId

def HandoffStatus.withAgent : HandoffStatus → Bool
  | .accepted | .connected | .resolved => true
  | _ => false

def AgentOnRecord (h : HandoffLog) : Prop :=
  ∀ id r, h.row id = some r → r.status.withAgent = true →
    ∃ agent, r.assignedAgentId = some agent ∧ h.accepter id = some agent

/-- A compare-and-set about to win names the agent that is on record, or an agent when it
accepts. -/
def NamesAgent (c : handoffSystem.Config) (a : handoffSystem.Move) : Prop :=
  ∀ id source target agentId now r,
    handoffSystem.performs c a = some (.transition id source target agentId now) →
    HandoffLog.row c.hist id = some r → r.status = source → target.withAgent = true →
    if target = .accepted then agentId.isSome else agentId = r.assignedAgentId

theorem accepter_snoc {h h' : HandoffLog} {id : String} {s : HandoffStep}
    (hs : h'.steps id = h.steps id ++ [s]) :
    h'.accepter id = if s.target = .accepted then s.agentId else h.accepter id := by
  unfold HandoffLog.accepter
  rw [hs, List.filter_append]
  split_ifs with ht
  · simp [ht]
  · simp [ht]

theorem accepter_congr {h h' : HandoffLog} {id : String} (hs : h'.steps id = h.steps id) :
    h'.accepter id = h.accepter id := by
  unfold HandoffLog.accepter
  rw [hs]

/-- Only an accepted or connected handoff comes to a status with an agent otherwise. -/
theorem HandoffStatus.withAgent_allowed {source target : HandoffStatus} :
    target ∈ source.allowed → target.withAgent = true → target ≠ .accepted →
    source.withAgent = true := by
  cases source <;> cases target <;> decide

section
variable {acts : List handoffSystem.Move} {a : handoffSystem.Move} {id : String}

/-- A compare-and-set that finds the status it expects wins. -/
theorem stepped_of_performs {source target : HandoffStatus} {agentId : Option String} {now : Time}
    {r : HandoffRecord}
    (hp : handoffSystem.performs (handoffRun acts) a =
      some (.transition id source target agentId now))
    (hr : (handoffLog acts).row id = some r) (hs : r.status = source) :
    target ∈ source.allowed ∧
    (handoffLog (acts ++ [a])).row id =
      some { r with status := target, assignedAgentId := agentId, updatedAt := now } ∧
    ∃ τ, (handoffLog (acts ++ [a])).steps id =
      (handoffLog acts).steps id ++ [⟨τ, source, target, agentId⟩] := by
  obtain ⟨τ, e, k, rfl, hready⟩ := System.ready_of_performs hp
  have hnext : handoffLog (acts ++ [.run τ e]) =
      handoffSystem.after (handoffLog acts) τ (.transition id source target agentId now) e :=
    congrArg System.Config.hist ((handoffRun_snoc ..).trans (System.next_run hready e))
  have hcount : (handoffLog acts).state.handoffs.count
      (fun r => decide (r.handoffId = id) && decide (r.status = source)) = 1 :=
    Table.count_eq_one.2 ⟨r, hr, decide_eq_true hs⟩
  have hok : (SQLiteCoreStore.compareAndSet (handoffLog acts).state id source target agentId
      now).1 = .ok () := by
    simp only [SQLiteCoreStore.compareAndSet, hcount, if_true]
  obtain ⟨r', hr', -, hrow⟩ := compareAndSet_ok hok
  cases hr.symm.trans hr'
  refine ⟨(handoffLogic_sound.good_run trivial acts).pre handoffLogic_sound hready, ?_, τ, ?_⟩
  · rw [hnext]
    exact (hrow id).trans (if_pos rfl)
  · rw [hnext]
    have hx : handoffStep? id ⟨τ, .transition id source target agentId now, .ok ()⟩ =
        some ⟨τ, source, target, agentId⟩ := if_pos rfl
    refine (List.filterMap_append ..).trans (congrArg _ ?_)
    have hres : (handoffSystem.exec e (handoffLog acts).state
      (.transition id source target agentId now)).1 = Except.ok () := hok
    rw [hres, List.filterMap_cons_some hx, List.filterMap_nil]

theorem transition_of_step {x : Entry handoffSig} {s : HandoffStep}
    (h : handoffStep? id x = some s) :
    ∃ now, x.op = .transition id s.source s.target s.agentId now := by
  obtain ⟨tid, o, res⟩ := x
  cases o with
  | transition id' source target agentId now =>
    cases res with
    | error err => cases h
    | ok u =>
      simp only [handoffStep?] at h
      split_ifs at h with he
      subst he
      cases h
      exact ⟨now, rfl⟩
  | _ => cases h

theorem performs_of_stepped {s : HandoffStep}
    (hs : (handoffLog (acts ++ [a])).steps id = (handoffLog acts).steps id ++ [s]) :
    ∃ now, handoffSystem.performs (handoffRun acts) a =
      some (.transition id s.source s.target s.agentId now) := by
  have hne : ∀ l : List HandoffStep, l ≠ l ++ [s] := fun l hl => by
    simpa using congrArg List.length hl
  rw [handoffLog, handoffRun_snoc] at hs
  rcases System.next_cases (handoffRun acts) a with h | ⟨call, -, -, h⟩ | ⟨τ, e, o, k, rfl, hr, h⟩ |
      ⟨τ, -, h⟩ | ⟨e, -, h⟩ <;> rw [h] at hs
  · exact absurd hs (hne _)
  · exact absurd hs (hne _)
  · have hx := List.append_cancel_left ((List.filterMap_append ..).symm.trans hs)
    obtain ⟨now, ho⟩ : ∃ now, o = .transition id s.source s.target s.agentId now := by
      cases hstep : handoffStep? id ⟨τ, o, (handoffSystem.exec e (handoffLog acts).state o).1⟩ with
      | none =>
        rw [List.filterMap_cons_none hstep] at hx
        cases hx
      | some s' =>
        rw [List.filterMap_cons_some hstep] at hx
        cases hx
        exact transition_of_step hstep
    exact ⟨now, (System.performs_of_ready hr e).trans (congrArg some ho)⟩
  · exact absurd hs (hne _)
  · exact absurd hs (hne _)

theorem agentOnRecord_next (h : AgentOnRecord (handoffLog acts)) :
    AgentOnRecord (handoffLog (acts ++ [a])) ↔ NamesAgent (handoffRun acts) a := by
  constructor
  · intro h' id source target agentId now r hp hr hs ht
    obtain ⟨hallowed, hrow, τ, hsteps⟩ := stepped_of_performs hp hr hs
    obtain ⟨agent, hagent, hacc⟩ := h' id _ hrow ht
    rw [accepter_snoc hsteps] at hacc
    split_ifs at hacc ⊢ with hta
    · exact Option.isSome_iff_exists.2 ⟨agent, hacc⟩
    · have hold := HandoffStatus.withAgent_allowed hallowed ht hta
      obtain ⟨agent', hagent', hacc'⟩ := h id r hr (hs ▸ hold)
      calc agentId = some agent := hagent
        _ = some agent' := hacc.symm.trans hacc'
        _ = r.assignedAgentId := hagent'.symm
  · intro hn id r hr ht
    cases handoffMoves_next acts a id with
    | still row steps => rw [accepter_congr steps]; exact h id r (row ▸ hr) ht
    | opened r' row row' status steps =>
      cases row'.symm.trans hr
      rw [status] at ht
      cases ht
    | stepped r' s now row source allowed row' steps =>
      cases row'.symm.trans hr
      obtain ⟨now', hp⟩ := performs_of_stepped steps
      have hnames := hn id _ _ _ _ r' hp row source ht
      rw [accepter_snoc steps]
      split_ifs at hnames ⊢ with hta
      · exact (Option.isSome_iff_exists.1 hnames).imp fun agent ha => ⟨ha, ha⟩
      · obtain ⟨agent, hagent, hacc⟩ := h id r' row
          (source ▸ HandoffStatus.withAgent_allowed allowed ht hta)
        exact ⟨agent, hnames.trans hagent, hacc⟩

end

theorem agent_on_record (acts : List handoffSystem.Move) :
    (∀ pre, pre <+: acts → AgentOnRecord (handoffLog pre)) ↔
      System.Guarded NamesAgent (handoffSystem.init ⟨.empty, []⟩) acts := by
  induction acts using List.reverseRecOn with
  | nil =>
    refine iff_of_true (fun pre hpre => ?_) trivial
    cases List.prefix_nil.1 hpre
    exact nofun
  | append_singleton acts a ih =>
    rw [System.guarded_snoc, ← ih]
    constructor
    · intro h
      exact ⟨fun pre hpre => h pre (hpre.trans (List.prefix_append _ _)),
        (agentOnRecord_next (h acts (List.prefix_append _ _))).1 (h _ (List.prefix_refl _))⟩
    · rintro ⟨h, ha⟩ pre hpre
      rcases List.prefix_concat_iff.1 hpre with rfl | hpre
      · exact (agentOnRecord_next (h acts (List.prefix_refl _))).2 ha
      · exact h pre hpre

/-- Agent 7 accepts a handoff, and the platform reports it connected. -/
def connectedRun : List handoffSystem.Move :=
  .drift ⟨0, "", "CASE-1"⟩ :: .spawn (.request "CONV-1" "CASE-1" []) ::
    List.replicate 3 (.run 0 ⟨0, "1", ""⟩) ++ .spawn (.accept "HO-1" "agent-7") ::
    List.replicate 4 (.run 1 ⟨1, "", ""⟩) ++ .spawn (.transition "HO-1" .connected none) ::
    List.replicate 4 (.run 2 ⟨2, "", ""⟩)

theorem agent_not_on_record : ¬ AgentOnRecord (handoffLog connectedRun) := by
  intro h
  have hrow : (handoffLog connectedRun).row "HO-1" = some {
      handoffId := "HO-1", conversationId := "CONV-1", caseId := "CASE-1", context := []
      status := .connected, assignedAgentId := none, createdAt := 0, updatedAt := 2 } := by
    decide +kernel
  obtain ⟨agent, hagent, -⟩ := h _ _ hrow rfl
  cases hagent

end WorkflowEngine
