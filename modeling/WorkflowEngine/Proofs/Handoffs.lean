import Mathlib.Data.List.Chain
import WorkflowEngine.Interleave.Logic
import WorkflowEngine.Interleave.Trail
import WorkflowEngine.Spec.Handoff

/-! Any calls on a handoff move it along the allowed transitions, one step for every call that
returns: the compare-and-set finds the status that the call was checked against, however often
that status has come and gone since. -/

namespace WorkflowEngine

open Interleave Relational

/-- A compare-and-set that changed a handoff. -/
structure HandoffStep where
  tid : ℕ
  source : HandoffStatus
  target : HandoffStatus
  agentId : Option String
  deriving DecidableEq

def handoffStep? (id : String) (x : Entry handoffSig) : Option HandoffStep :=
  match x with
  | ⟨tid, .transition id' source target agentId _, .ok ()⟩ =>
    if id' = id then some ⟨tid, source, target, agentId⟩ else none
  | _ => none

/-- An entry that changed the table. -/
def handoffWrite (x : Entry handoffSig) : Bool :=
  match x with
  | ⟨_, .create _, .ok ()⟩ => true
  | ⟨_, .transition .., .ok ()⟩ => true
  | _ => false

namespace HandoffLog

def row (h : HandoffLog) (id : String) : Option HandoffRecord := h.state.handoffs.get? () id

/-- What was done to the handoff, in the order in which the store did it. -/
def steps (h : HandoffLog) (id : String) : List HandoffStep := h.trace.filterMap (handoffStep? id)

def stepsBy (h : HandoffLog) (τ : ℕ) (id : String) : List HandoffStep :=
  (h.steps id).filter fun s => s.tid = τ

def walk (h : HandoffLog) (id : String) : List HandoffStatus :=
  .requested :: (h.steps id).map HandoffStep.target

def writes (h : HandoffLog) (τ : ℕ) : List (Entry handoffSig) := (h.own τ).filter handoffWrite

end HandoffLog

abbrev handoffLog (acts : List handoffSystem.Move) : HandoffLog := (handoffRun acts).hist

/-- All that one move can do to a handoff. -/
inductive HandoffMoves (h h' : HandoffLog) (id : String) : Prop where
  | still (row : h'.row id = h.row id) (steps : h'.steps id = h.steps id)
  | opened (r : HandoffRecord) (row : h.row id = none) (row' : h'.row id = some r)
      (status : r.status = .requested) (steps : h'.steps id = h.steps id)
  | stepped (r : HandoffRecord) (s : HandoffStep) (now : Time) (row : h.row id = some r)
      (source : r.status = s.source) (allowed : s.target ∈ s.source.allowed)
      (row' : h'.row id =
        some { r with status := s.target, assignedAgentId := s.agentId, updatedAt := now })
      (steps : h'.steps id = h.steps id ++ [s])

section Writes

variable {h h' : HandoffLog} {τ : ℕ} {id : String}

/-- The steps of a task are read from its own writes. -/
theorem stepsBy_eq : h.stepsBy τ id = (h.writes τ).filterMap (handoffStep? id) := by
  simp only [HandoffLog.stepsBy, HandoffLog.steps, HandoffLog.writes, Hist.own,
    List.filter_filterMap, List.filterMap_filter]
  refine List.filterMap_congr fun x _ => ?_
  obtain ⟨tid, o, res⟩ := x
  cases o with
  | transition id' source target agentId now =>
    cases res with
    | error e => simp [handoffStep?]
    | ok u =>
      by_cases hid : id' = id <;> by_cases ht : tid = τ <;>
        simp [handoffStep?, handoffWrite, hid, ht, Option.filter]
  | _ => simp [handoffStep?]

theorem writes_after (o : handoffSig.Op) (e : HandoffChoice) :
    HandoffLog.writes (handoffSystem.after h τ o e) τ = h.writes τ ++
      [⟨τ, o, (handoffSystem.exec e h.state o).1⟩].filter handoffWrite := by
  rw [HandoffLog.writes, System.own_after, List.filter_append]
  rfl

theorem writes_quiet (q : Quiet τ h h') : h'.writes τ = h.writes τ := by
  rw [HandoffLog.writes, q.own]
  rfl

end Writes

/-- The operations that the calls issue. -/
def Permitted : handoffSig.Op → Prop
  | .create record => record.status = .requested
  | .transition _ source target _ _ => target ∈ source.allowed
  | _ => True

/-- A row is there for good. -/
def handoffLogic : Logic handoffSystem where
  Inv _ := True
  Rely (h h' : HandoffLog) := ∀ id, h'.row id = none → h.row id = none
  Pre _ o _ := Permitted o

theorem compareAndSet_ok {s : HandoffState} {id : String} {source target : HandoffStatus}
    {agentId : Option String} {now : Time}
    (h : (SQLiteCoreStore.compareAndSet s id source target agentId now).1 = .ok ()) :
    ∃ r, s.handoffs.get? () id = some r ∧ r.status = source ∧ ∀ id',
      (SQLiteCoreStore.compareAndSet s id source target agentId now).2.handoffs.get? () id' =
        if id' = id then some { r with
          status := target
          assignedAgentId := agentId
          updatedAt := now }
        else s.handoffs.get? () id' := by
  simp only [SQLiteCoreStore.compareAndSet] at h ⊢
  split_ifs at h ⊢ with hc
  obtain ⟨r, hr, hs⟩ := Table.count_eq_one.1 hc
  have hid := (Table.get?_eq_some.1 hr).2
  refine ⟨r, hr, by simpa using hs, fun id' => ?_⟩
  rw [Table.get?_updateWhere]
  split_ifs with he
  · subst he
    simp only [hr, Option.map_some, hid, decide_true, hs, Bool.and_self, if_true]
  · cases hg : s.handoffs.get? () id' with
    | none => rfl
    | some r' =>
      have hne : r'.handoffId ≠ id := (Table.get?_eq_some.1 hg).2.trans_ne he
      simp [hne]

theorem compareAndSet_error {s : HandoffState} {id : String} {source target : HandoffStatus}
    {agentId : Option String} {now : Time} {err : PyErr}
    (h : (SQLiteCoreStore.compareAndSet s id source target agentId now).1 = .error err) :
    (SQLiteCoreStore.compareAndSet s id source target agentId now).2 = s := by
  simp only [SQLiteCoreStore.compareAndSet] at h ⊢
  split_ifs at h ⊢ with hc
  rfl

theorem createHandoff_cases (s : HandoffState) (record : HandoffRecord) :
    ((∃ err, (SQLiteCoreStore.createHandoff s record).1 = .error err) ∧
      (SQLiteCoreStore.createHandoff s record).2 = s) ∨
    (SQLiteCoreStore.createHandoff s record).1 = .ok () ∧
      s.handoffs.get? () record.handoffId = none ∧
      ∀ id, (SQLiteCoreStore.createHandoff s record).2.handoffs.get? () id =
        if id = record.handoffId then some { record with assignedAgentId := none }
        else s.handoffs.get? () id := by
  unfold SQLiteCoreStore.createHandoff
  split_ifs with hc
  · cases hi : s.handoffs.insert? { record with assignedAgentId := none } with
    | none => exact Or.inl ⟨⟨_, rfl⟩, rfl⟩
    | some handoffs =>
      exact Or.inr ⟨rfl, (Table.rows_of_insert? hi).2 (), Table.get?_insert? hi ()⟩
  · exact Or.inl ⟨⟨_, rfl⟩, rfl⟩

/-- What performing an operation does to a handoff. -/
theorem handoffMoves_after {h : HandoffLog} {τ : ℕ} {o : handoffSig.Op} (e : HandoffChoice)
    (ho : Permitted o) (id : String) : HandoffMoves h (handoffSystem.after h τ o e) id := by
  have hsteps : ∀ o : handoffSig.Op, HandoffLog.steps (handoffSystem.after h τ o e) id =
      h.steps id ++ [⟨τ, o, (handoffSystem.exec e h.state o).1⟩].filterMap (handoffStep? id) :=
    fun o => List.filterMap_append ..
  cases o with
  | now => exact .still rfl ((hsteps _).trans (List.append_nil _))
  | uuid => exact .still rfl ((hsteps _).trans (List.append_nil _))
  | get id' => exact .still rfl ((hsteps _).trans (List.append_nil _))
  | create record =>
    have hs := (hsteps (.create record)).trans (List.append_nil _)
    rcases createHandoff_cases h.state record with ⟨-, hst⟩ | ⟨-, hnone, hrow⟩
    · exact .still (congrArg (fun s : HandoffState => s.handoffs.get? () id) hst) hs
    · by_cases he : id = record.handoffId
      · exact .opened { record with assignedAgentId := none } (he ▸ hnone)
          ((hrow id).trans (if_pos he)) ho hs
      · exact .still ((hrow id).trans (if_neg he)) hs
  | transition id' source target agentId now =>
    have hs : HandoffLog.steps _ id = h.steps id ++
        [(⟨τ, HandoffOp.transition id' source target agentId now,
          (SQLiteCoreStore.compareAndSet h.state id' source target agentId now).1⟩ :
            Entry handoffSig)].filterMap (handoffStep? id) := hsteps _
    cases hres : (SQLiteCoreStore.compareAndSet h.state id' source target agentId now).1 with
    | error err =>
      rw [hres] at hs
      exact .still (congrArg (fun s : HandoffState => s.handoffs.get? () id)
        (compareAndSet_error hres)) (hs.trans (List.append_nil _))
    | ok u =>
      obtain ⟨r, hr, hsource, hrow⟩ := compareAndSet_ok hres
      rw [hres] at hs
      by_cases he : id = id'
      · subst he
        have hstep : handoffStep? id ⟨τ, .transition id source target agentId now, .ok ()⟩ =
            some ⟨τ, source, target, agentId⟩ := if_pos rfl
        rw [List.filterMap_cons_some hstep] at hs
        exact .stepped r ⟨τ, source, target, agentId⟩ now hr hsource ho
          ((hrow id).trans (if_pos rfl)) hs
      · have hstep : handoffStep? id ⟨τ, .transition id' source target agentId now, .ok ()⟩ =
            none := if_neg (Ne.symm he)
        rw [List.filterMap_cons_none hstep] at hs
        exact .still ((hrow id).trans (if_neg he)) (hs.trans (List.append_nil _))

section Returns

variable {h : HandoffLog} {τ : ℕ}

theorem wp_getHandoff (id : String) : handoffLogic.wp τ (ConversationRuntime.getHandoff id)
    (fun _ h' => HandoffLog.writes h' τ = h.writes τ) h := by
  intro h1 _ q1 _
  refine ⟨trivial, fun e => ?_⟩
  have hw : HandoffLog.writes (handoffSystem.after h1 τ (.get id) e) τ = h.writes τ :=
    (writes_after _ e).trans ((List.append_nil _).trans (writes_quiet q1))
  cases hg : (handoffSystem.exec e h1.state (.get id)).1 with
  | none => exact hw
  | some r => exact hw

/-- The row is read back after it was changed, so the assertion never fails. -/
theorem wp_transitionHandoff {source target : HandoffStatus} (hst : target ∈ source.allowed)
    (id : String) (agentId : Option String) :
    handoffLogic.wp τ (SQLiteCoreStore.transitionHandoff id source target agentId)
      (fun r h' => match r with
        | .ok _ => ∃ now, HandoffLog.writes h' τ = h.writes τ ++
            [⟨τ, .transition id source target agentId now, .ok ()⟩]
        | .error _ => HandoffLog.writes h' τ = h.writes τ) h := by
  intro h1 _ q1 _
  refine ⟨trivial, fun e1 h2 _ q2 _ => ⟨hst, fun e2 => ?_⟩⟩
  generalize hnow : (handoffSystem.exec e1 h1.state .now).1 = now
  have hw2 : HandoffLog.writes h2 τ = h.writes τ :=
    (writes_quiet q2).trans ((writes_after _ e1).trans ((List.append_nil _).trans
      (writes_quiet q1)))
  have hw3 : HandoffLog.writes (handoffSystem.after h2 τ _ e2) τ = _ ++
      [(⟨τ, HandoffOp.transition id source target agentId now,
        (SQLiteCoreStore.compareAndSet h2.state id source target agentId now).1⟩ :
          Entry handoffSig)].filter handoffWrite :=
    (writes_after (.transition id source target agentId now) e2).trans (congrArg (· ++ _) hw2)
  cases hres : (SQLiteCoreStore.compareAndSet h2.state id source target agentId now).1 with
  | error err =>
    rw [hres] at hw3
    have hr : (handoffSystem.exec e2 h2.state (.transition id source target agentId now)).1 =
        Except.error err := hres
    rw [hr]
    exact hw3.trans (List.append_nil _)
  | ok u =>
    rw [hres] at hw3
    have hr : (handoffSystem.exec e2 h2.state (.transition id source target agentId now)).1 =
        Except.ok () := hres
    rw [hr]
    obtain ⟨r, -, -, hrow⟩ := compareAndSet_ok hres
    intro h4 hrely q4 _
    refine ⟨trivial, fun e4 => ?_⟩
    have hw4 : HandoffLog.writes (handoffSystem.after h4 τ (.get id) e4) τ = h.writes τ ++
        [⟨τ, .transition id source target agentId now, .ok ()⟩] :=
      (writes_after _ e4).trans ((List.append_nil _).trans ((writes_quiet q4).trans hw3))
    cases hg : (handoffSystem.exec e4 h4.state (.get id)).1 with
    | none =>
      have hsome := (hrow id).trans (if_pos rfl)
      cases hsome.symm.trans (hrely id hg)
    | some r' => exact ⟨now, hw4⟩

/-- The one write of a call that returns. -/
def HandoffCall.Made (τ : ℕ) (x : Entry handoffSig) : HandoffCall → Prop
  | .request .. => ∃ record, x = ⟨τ, .create record, .ok ()⟩
  | .accept id agentId =>
    ∃ now, x = ⟨τ, .transition id .requested .accepted (some agentId) now, .ok ()⟩
  | .transition id status agentId =>
    ∃ source now, x = ⟨τ, .transition id source status agentId now, .ok ()⟩

def Settles (τ : ℕ) (call : HandoffCall) (r : Except PyErr HandoffRecord) (h : HandoffLog) : Prop :=
  match r with
  | .ok _ => ∃ x, h.writes τ = [x] ∧ call.Made τ x
  | .error _ => h.writes τ = []

theorem wp_createHandoff {record : HandoffRecord} (hrec : record.status = .requested) :
    handoffLogic.wp τ (.call (.create record) fun created =>
        (Prog.ofExcept created).bind fun _ => .ret record)
      (fun r h' => match r with
        | .ok _ => HandoffLog.writes h' τ = h.writes τ ++ [⟨τ, .create record, .ok ()⟩]
        | .error _ => HandoffLog.writes h' τ = h.writes τ) h := by
  intro h1 _ q1 _
  refine ⟨hrec, fun e => ?_⟩
  have hw : HandoffLog.writes (handoffSystem.after h1 τ _ e) τ = h.writes τ ++
      [(⟨τ, HandoffOp.create record, (SQLiteCoreStore.createHandoff h1.state record).1⟩ :
        Entry handoffSig)].filter handoffWrite :=
    (writes_after (.create record) e).trans (congrArg (· ++ _) (writes_quiet q1))
  rcases createHandoff_cases h1.state record with ⟨⟨err, hres⟩, -⟩ | ⟨hres, -⟩
  · rw [hres] at hw
    have hr : (handoffSystem.exec e h1.state (.create record)).1 = Except.error err := hres
    rw [hr]
    exact hw.trans (List.append_nil _)
  · rw [hres] at hw
    have hr : (handoffSystem.exec e h1.state (.create record)).1 = Except.ok () := hres
    rw [hr]
    exact hw

theorem wp_requestHandoff (conversationId caseId : String) (context : Fields)
    (hnil : h.writes τ = []) :
    handoffLogic.wp τ (ConversationRuntime.requestHandoff conversationId caseId context)
      (Settles τ (.request conversationId caseId context)) h := by
  intro h1 _ q1 _
  refine ⟨trivial, fun e1 h2 _ q2 _ => ⟨trivial, fun e2 => ?_⟩⟩
  have hw : HandoffLog.writes (handoffSystem.after h2 τ .uuid e2) τ = [] :=
    (writes_after _ e2).trans ((List.append_nil _).trans ((writes_quiet q2).trans
      ((writes_after _ e1).trans ((List.append_nil _).trans ((writes_quiet q1).trans hnil)))))
  refine Logic.wp_mono (fun r h3 hr => ?_) (wp_createHandoff rfl)
  rw [hw] at hr
  cases r with
  | error err => exact hr
  | ok record => exact ⟨_, hr, _, rfl⟩

theorem wp_handoffCall (call : HandoffCall) (hnil : h.writes τ = []) :
    handoffLogic.wp τ call.body (Settles τ call) h := by
  cases call with
  | request conversationId caseId context => exact wp_requestHandoff _ _ _ hnil
  | accept id agentId =>
    refine Logic.wp_bind.2 (Logic.wp_mono (fun r h1 hw => ?_) (wp_getHandoff id))
    rw [hnil] at hw
    cases r with
    | error err => exact hw
    | ok current =>
      by_cases hs : current.status ≠ .requested
      · change handoffLogic.wp τ (ite ..) _ _
        rw [if_pos hs]
        exact hw
      · change handoffLogic.wp τ (ite ..) _ _
        rw [if_neg hs]
        refine Logic.wp_mono (fun r h2 hr => ?_)
          (wp_transitionHandoff (by decide) id (some agentId))
        rw [hw] at hr
        cases r with
        | error err => exact hr
        | ok record =>
          obtain ⟨now, hr⟩ := hr
          exact ⟨_, hr, now, rfl⟩
  | transition id status agentId =>
    refine Logic.wp_bind.2 (Logic.wp_mono (fun r h1 hw => ?_) (wp_getHandoff id))
    rw [hnil] at hw
    cases r with
    | error err => exact hw
    | ok current =>
      by_cases hs : status ∉ current.status.allowed
      · change handoffLogic.wp τ (ite ..) _ _
        rw [if_pos hs]
        exact hw
      · change handoffLogic.wp τ (ite ..) _ _
        rw [if_neg hs]
        refine Logic.wp_mono (fun r h2 hr => ?_)
          (wp_transitionHandoff (not_not.1 hs) id agentId)
        rw [hw] at hr
        cases r with
        | error err => exact hr
        | ok record =>
          obtain ⟨now, hr⟩ := hr
          exact ⟨_, hr, current.status, now, rfl⟩

end Returns

theorem row_of_moves {h h' : HandoffLog} {id : String} (hm : HandoffMoves h h' id)
    (hn : h'.row id = none) : h.row id = none := by
  cases hm with
  | still row _ => exact row.symm.trans hn
  | opened _ row _ _ _ => exact row
  | stepped _ _ _ _ _ _ row' _ => cases row'.symm.trans hn

theorem writes_nil {h : HandoffLog} {τ : ℕ} (hown : ∀ x ∈ h.trace, x.tid ≠ τ) :
    h.writes τ = [] := by
  have hnil : h.own τ = [] := List.filter_eq_nil_iff.2 fun x hx => by simpa using hown x hx
  rw [HandoffLog.writes, hnil]
  rfl

theorem handoffLogic_sound : handoffLogic.Sound where
  refl _ _ h := h
  trans _ _ _ h1 h2 id hn := h1 id (h2 id hn)
  step _ _ e _ _ ho := ⟨trivial, fun id => row_of_moves (handoffMoves_after e ho id)⟩
  spawn _ _ _ _ := ⟨trivial, fun _ h => h⟩
  crash _ _ _ := ⟨trivial, fun _ h => h⟩
  drift _ _ _ := ⟨trivial, fun _ h => h⟩
  body _ _ _ _ hown := Logic.wp_mono (fun _ _ _ => trivial) (wp_handoffCall _ (writes_nil hown))

theorem handoffLogic_ends : handoffLogic.Ends Settles where
  body _ call _ _ hown := wp_handoffCall call (writes_nil hown)
  stable τ call r h h' hs _ q := by
    have hw : HandoffLog.writes h' τ = HandoffLog.writes h τ := writes_quiet q
    cases r with
    | ok a =>
      obtain ⟨x, hx, hm⟩ := hs
      exact ⟨x, hw.trans hx, hm⟩
    | error err => exact hw.trans hs

theorem handoffRun_snoc (acts : List handoffSystem.Move) (a : handoffSystem.Move) :
    handoffRun (acts ++ [a]) = handoffSystem.next (handoffRun acts) a := System.run_snoc ..

theorem handoffMoves_next (acts : List handoffSystem.Move) (a : handoffSystem.Move) (id : String) :
    HandoffMoves (handoffLog acts) (handoffLog (acts ++ [a])) id := by
  rw [handoffLog, handoffLog, handoffRun_snoc]
  rcases System.next_cases (handoffRun acts) a with h | ⟨call, -, -, h⟩ | ⟨τ, e, o, k, -, hr, h⟩ |
      ⟨τ, -, h⟩ | ⟨e, -, h⟩ <;> rw [h]
  · exact .still rfl rfl
  · exact .still rfl rfl
  · exact handoffMoves_after e
      ((handoffLogic_sound.good_run trivial acts).pre handoffLogic_sound hr) id
  · exact .still rfl rfl
  · exact .still rfl rfl

structure Walked (h : HandoffLog) (id : String) : Prop where
  unborn : h.row id = none → h.steps id = []
  chain : (h.walk id).IsChain fun a b => b ∈ a.allowed
  last : ∀ r, h.row id = some r → (h.walk id).getLast? = some r.status

theorem Walked.moves {h h' : HandoffLog} {id : String} (hw : Walked h id)
    (hm : HandoffMoves h h' id) : Walked h' id := by
  cases hm with
  | still row steps => exact ⟨by rw [row, steps]; exact hw.unborn,
      by rw [HandoffLog.walk, steps]; exact hw.chain,
      by rw [HandoffLog.walk, row, steps]; exact hw.last⟩
  | opened r row row' status steps =>
    have hnil := hw.unborn row
    refine ⟨fun hn => ?_, ?_, fun r' hr' => ?_⟩
    · rw [row'] at hn
      cases hn
    · rw [HandoffLog.walk, steps]
      exact hw.chain
    · rw [row'] at hr'
      cases hr'
      simp [HandoffLog.walk, steps, hnil, status]
  | stepped r s now row source allowed row' steps =>
    have hwalk : h'.walk id = h.walk id ++ [s.target] := by simp [HandoffLog.walk, steps]
    refine ⟨fun hn => ?_, ?_, fun r' hr' => ?_⟩
    · rw [row'] at hn
      cases hn
    · rw [hwalk, List.isChain_append]
      refine ⟨hw.chain, List.isChain_singleton _, fun x hx y hy => ?_⟩
      rw [hw.last r row] at hx
      cases hx
      cases hy
      exact source ▸ allowed
    · rw [row'] at hr'
      cases hr'
      simp [hwalk]

theorem walked_run (acts : List handoffSystem.Move) (id : String) :
    Walked (handoffLog acts) id := by
  induction acts using List.reverseRecOn with
  | nil => exact ⟨fun _ => rfl, List.isChain_singleton _, nofun⟩
  | append_singleton acts a ih => exact ih.moves (handoffMoves_next acts a id)

/-- From an acceptance on, until the handoff is reassigned. -/
def HandoffStatus.taken : HandoffStatus → Bool
  | .accepted | .connected | .resolved | .failed | .botReentry => true
  | _ => false

theorem HandoffStatus.taken_allowed {a b : HandoffStatus} :
    a.taken = true → b ∈ a.allowed → b ≠ .accepted ∧ (b = .reassigned ∨ b.taken = true) := by
  cases a <;> cases b <;> decide

theorem reassigned_of_chain {mid : List HandoffStatus} {a : HandoffStatus} (ha : a.taken = true)
    (h : (a :: (mid ++ [.accepted])).IsChain fun a b => b ∈ a.allowed) :
    HandoffStatus.reassigned ∈ mid := by
  induction mid generalizing a with
  | nil => exact absurd rfl (HandoffStatus.taken_allowed ha (List.isChain_cons_cons.1 h).1).1
  | cons b mid ih =>
    obtain ⟨hb, hrest⟩ := List.isChain_cons_cons.1 h
    rcases (HandoffStatus.taken_allowed ha hb).2 with rfl | hb
    · exact List.mem_cons_self
    · exact List.mem_cons_of_mem _ (ih hb hrest)

theorem reassigned_between {h : HandoffLog} {id : String} (hw : Walked h id)
    {pre mid post : List HandoffStep} {s t : HandoffStep}
    (hst : h.steps id = pre ++ s :: mid ++ t :: post) (hs : s.target = .accepted)
    (ht : t.target = .accepted) : ∃ u ∈ mid, u.target = .reassigned := by
  have hinfix : (s.target :: (mid.map HandoffStep.target ++ [t.target])) <:+: h.walk id := by
    refine ⟨.requested :: pre.map HandoffStep.target, post.map HandoffStep.target, ?_⟩
    simp [HandoffLog.walk, hst]
  have hchain := hw.chain.infix hinfix
  rw [hs, ht] at hchain
  exact List.mem_map.1 (reassigned_of_chain rfl hchain)

/-- A handoff that went back to the bot stays as it is. -/
theorem botReentry_final {acts : List handoffSystem.Move} {id : String} {r : HandoffRecord}
    (hr : (handoffLog acts).row id = some r) (hs : r.status = .botReentry)
    (acts' : List handoffSystem.Move) : (handoffLog (acts ++ acts')).row id = some r := by
  induction acts' using List.reverseRecOn with
  | nil => rw [List.append_nil, hr]
  | append_singleton acts' a ih =>
    rw [← List.append_assoc]
    cases handoffMoves_next (acts ++ acts') a id with
    | still row _ => exact row.trans ih
    | opened _ row _ _ _ => cases row.symm.trans ih
    | stepped r' s _ row source allowed _ _ =>
      cases row.symm.trans ih
      rw [← source, hs] at allowed
      cases allowed

theorem handoffs_of_not_write {h : HandoffLog} {τ : ℕ} {o : handoffSig.Op} {e : HandoffChoice}
    (hw : handoffWrite ⟨τ, o, (handoffSystem.exec e h.state o).1⟩ = false) :
    (handoffSystem.exec e h.state o).2.handoffs = h.state.handoffs := by
  cases o with
  | create record =>
    rcases createHandoff_cases h.state record with ⟨-, hs⟩ | ⟨hres, -⟩
    · exact congrArg HandoffState.handoffs hs
    · have hr : (handoffSystem.exec e h.state (.create record)).1 = Except.ok () := hres
      rw [hr] at hw
      cases hw
  | transition id source target agentId now =>
    cases hres : (SQLiteCoreStore.compareAndSet h.state id source target agentId now).1 with
    | error err => exact congrArg HandoffState.handoffs (compareAndSet_error hres)
    | ok u =>
      have hr : (handoffSystem.exec e h.state (.transition id source target agentId now)).1 =
        Except.ok () := hres
      rw [hr] at hw
      cases hw
  | _ => rfl

/-- No move of a task without writes changes the table. -/
theorem handoffs_of_writes {pre post : List handoffSystem.Move} {τ : ℕ} {e : HandoffChoice}
    (hw : (handoffLog (pre ++ .run τ e :: post)).writes τ = []) :
    (handoffLog (pre ++ [.run τ e])).state.handoffs = (handoffLog pre).state.handoffs := by
  have happ : handoffRun (pre ++ .run τ e :: post) =
      handoffSystem.run (handoffRun (pre ++ [.run τ e])) post := by
    rw [← List.singleton_append, ← List.append_assoc]
    exact System.run_append ..
  have hpre : (handoffLog (pre ++ [.run τ e])).trace <+:
      (handoffLog (pre ++ .run τ e :: post)).trace := by
    rw [handoffLog, handoffLog, happ]
    exact System.trace_run ..
  rw [handoffLog, handoffRun_snoc] at hpre ⊢
  rcases System.next_cases (handoffRun pre) (.run τ e) with h | ⟨call, hcall, -⟩ |
      ⟨τ', e', o, k, hmove, -, h⟩ | ⟨τ', hmove, -⟩ | ⟨e', hmove, -⟩
  · rw [h]
  · cases hcall
  · cases hmove
    rw [h] at hpre ⊢
    refine @handoffs_of_not_write _ τ _ _ ?_
    by_contra hne
    have hown : ∀ x ∈ (handoffLog (pre ++ .run τ e :: post)).trace, handoffWrite x = true →
        x.tid ≠ τ := by
      simpa [HandoffLog.writes, Hist.own, List.filter_eq_nil_iff] using hw
    exact hown _ (hpre.subset (List.mem_append_right _ (List.mem_singleton_self _)))
      (Bool.eq_true_of_not_eq_false hne) rfl
  · cases hmove
  · cases hmove

/-- The steps that a returned call has made. -/
def HandoffCall.Took (τ : ℕ) (id : String) (steps : List HandoffStep) : HandoffCall → Prop
  | .request .. => steps = []
  | .accept id' agentId =>
    steps = if id' = id then [⟨τ, .requested, .accepted, some agentId⟩] else []
  | .transition id' status agentId =>
    if id' = id then ∃ source, steps = [⟨τ, source, status, agentId⟩] else steps = []

theorem took_of_settles {h : HandoffLog} {τ : ℕ} {call : HandoffCall} {r : HandoffRecord}
    (hs : Settles τ call (.ok r) h) (id : String) : call.Took τ id (h.stepsBy τ id) := by
  obtain ⟨x, hx, hm⟩ := hs
  rw [stepsBy_eq, hx]
  cases call with
  | request conversationId caseId context =>
    obtain ⟨record, rfl⟩ := hm
    rfl
  | accept id' agentId =>
    obtain ⟨now, rfl⟩ := hm
    by_cases he : id' = id <;> simp [HandoffCall.Took, handoffStep?, he]
  | transition id' status agentId =>
    obtain ⟨source, now, rfl⟩ := hm
    by_cases he : id' = id <;> simp [HandoffCall.Took, handoffStep?, he]

theorem handoff_protocol (acts : List handoffSystem.Move) (id : String) :
    ((handoffLog acts).walk id).IsChain (fun a b => b ∈ a.allowed) ∧
    (∀ r, (handoffLog acts).row id = some r →
      ((handoffLog acts).walk id).getLast? = some r.status) ∧
    (∀ a, HandoffMoves (handoffLog acts) (handoffLog (acts ++ [a])) id) ∧
    (∀ (τ : ℕ) (r : HandoffRecord) (call : HandoffCall),
      (handoffRun acts).tasks[τ]? = some (.ret r) →
      (handoffLog acts).calls[τ]? = some call →
      call.Took τ id ((handoffLog acts).stepsBy τ id)) ∧
    (∀ (τ : ℕ) (err : PyErr), (handoffRun acts).tasks[τ]? = some (.raise err) →
      (handoffLog acts).stepsBy τ id = [] ∧
      ∀ pre e post, acts = pre ++ .run τ e :: post →
        (handoffLog (pre ++ [.run τ e])).state.handoffs = (handoffLog pre).state.handoffs) ∧
    (∀ r, (handoffLog acts).row id = some r → r.status = .botReentry →
      ∀ acts', (handoffLog (acts ++ acts')).row id = some r) ∧
    ∀ pre mid post s t, (handoffLog acts).steps id = pre ++ s :: mid ++ t :: post →
      s.target = .accepted → t.target = .accepted → ∃ u ∈ mid, u.target = .reassigned := by
  have hw := walked_run acts id
  refine ⟨hw.chain, hw.last, fun a => handoffMoves_next acts a id, fun τ r call hp hcall => ?_,
    fun τ err hp => ?_, fun r hr hs acts' => botReentry_final hr hs acts',
    fun pre mid post s t => reassigned_between hw⟩
  · exact took_of_settles
      ((handoffLogic_sound.ends_run handoffLogic_ends trivial acts hp hcall).1 r rfl) id
  · obtain ⟨call, hcall, -⟩ := System.follows_run _ acts hp
    have hwrites : (handoffLog acts).writes τ = [] :=
      (handoffLogic_sound.ends_run handoffLogic_ends trivial acts hp hcall).2 err rfl
    refine ⟨by rw [stepsBy_eq, hwrites]; rfl, ?_⟩
    rintro pre e post rfl
    exact handoffs_of_writes hwrites

end WorkflowEngine
