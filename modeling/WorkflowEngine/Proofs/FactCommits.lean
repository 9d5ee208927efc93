import WorkflowEngine.Interleave.Trail
import WorkflowEngine.Sanity.Footprint
import WorkflowEngine.Sanity.Transactions

/-! The version that a fact commit returns. `append_fact` commits under the expected version and
reads the case again in another transaction, and `submit` threads what it read. -/

namespace WorkflowEngine

open Interleave Engine SQLiteCoreStore ConsequentialActionService

/-- Whoever works on cases: `append_fact` by itself, `submit`, or any other program. -/
inductive CaseCall (X : Sig) where
  | appendFact (caseId : String) (proposal : FactProposal) (expectedVersion : ℤ)
  | submit (request : ConsequentialActionRequest) (actorId : String)
  | other (p : Task X Unit)

inductive CaseReply where
  | case (record : CaseRecord)
  | action (record : ActionRecord)
  | done

section
variable {X : Sig}

/-- The engine, open to anyone. -/
abbrev Engine.writers (engine : Engine X) (W : World X) : System (sig X) PyErr CaseReply where
  State := EngineState W
  Choice := EngineChoice W
  Call := CaseCall X
  exec := exec W
  drift e s := { s with clock := s.clock + e.elapsed, ext := W.drift e.ext s.ext }
  admits _ _ := true
  body
    | .appendFact caseId proposal v =>
      return .case (← SQLiteCoreStore.appendFact caseId proposal v)
    | .submit request actorId => return .action (← engine.service.submit request actorId)
    | .other p => do
      p
      return .done

/-- A transaction that has moved the case from version `v` to the next. -/
inductive Moves (caseId : String) (v : ℤ) : Event (sig X) → Prop where
  | appended {proposal : FactProposal} :
    Moves caseId v ⟨.tx (.appendFact caseId proposal v), .ok ()⟩
  | inserted {record : ActionRecord} (h : record.command.caseId = caseId) :
    Moves caseId v ⟨.tx (.insertAction record v), .ok ()⟩

def movesCase (caseId : String) : Event (sig X) → Bool
  | ⟨.tx (.appendFact id _ _), .ok _⟩ => decide (id = caseId)
  | ⟨.tx (.insertAction record _), .ok _⟩ => decide (record.command.caseId = caseId)
  | _ => false

theorem movesCase_iff {caseId : String} {x : Event (sig X)} :
    movesCase caseId x = true ↔ ∃ v, Moves caseId v x := by
  constructor
  · intro h
    unfold movesCase at h
    split at h
    · obtain rfl := of_decide_eq_true h
      exact ⟨_, .appended⟩
    · exact ⟨_, .inserted (of_decide_eq_true h)⟩
    · cases h
  · rintro ⟨v, hx⟩
    cases hx with
    | appended => exact decide_eq_true rfl
    | inserted h => exact decide_eq_true h

theorem Moves.eq {caseId : String} {v w : ℤ} {x : Event (sig X)} (h : Moves caseId v x)
    (h' : Moves caseId w x) : v = w := by
  cases h <;> cases h' <;> rfl

/-- A commit and the transaction after it, in a count. -/
theorem countP_commit {caseId : String} {v : ℤ} {x y : Event (sig X)} (hx : Moves caseId v x)
    (hy : ∀ w, ¬ Moves caseId w y) (xs : List (Event (sig X))) :
    ((x :: y :: xs).countP (movesCase caseId) : ℤ) = 1 + xs.countP (movesCase caseId) := by
  have hm : movesCase caseId x = true := movesCase_iff.2 ⟨v, hx⟩
  have hn : ¬ movesCase caseId y = true := fun h => (movesCase_iff.1 h).elim hy
  rw [List.countP_cons_of_pos hm, List.countP_cons_of_neg hn, Int.natCast_add]
  exact Int.add_comm ..

/-! The version of a case is the number of transactions that have moved it. -/

theorem version_exec {now : Time} {ids : ℕ → String} {db db' : Db} {o : Tx} {r : o.Res}
    (h : o.exec now ids db = (r, db')) {caseId : String} {case : CaseRecord}
    (hc : db.case? caseId = some case) :
    ∃ case', db'.case? caseId = some case' ∧ case'.version =
      case.version + if movesCase caseId (⟨.tx o, r⟩ : Event (sig X)) = true then 1 else 0 := by
  have hbump : ∀ {id : String}, (∀ k, db'.case? k =
      if k = id then (db.case? k).map Txn.bumped else db.case? k) →
      ∃ case', db'.case? caseId = some case' ∧
        case'.version = case.version + if id = caseId then 1 else 0 := by
    intro id hcases
    rw [hcases, hc]
    by_cases hid : id = caseId
    · rw [if_pos hid, if_pos hid.symm]
      exact ⟨_, rfl, rfl⟩
    · rw [if_neg hid, if_neg (Ne.symm hid)]
      exact ⟨_, rfl, (Int.add_zero _).symm⟩
  cases Tx.effect_of_exec h with
  | nothing hno =>
    refine ⟨case, hc, ?_⟩
    rw [if_neg, Int.add_zero]
    intro hm
    obtain ⟨v, hv⟩ := movesCase_iff.1 hm
    cases hv <;> cases hno
  | created hi => exact ⟨case, Relational.Table.get?_of_insert? hi hc, (Int.add_zero _).symm⟩
  | appended ha => simpa [movesCase] using hbump ha.cases
  | inserted hi => simpa [movesCase] using hbump hi.cases
  | initialized hm he hf => exact ⟨case, by rw [hf]; exact hc, (Int.add_zero _).symm⟩
  | moved hmoved => exact ⟨case, by rw [hmoved.frame]; exact hc, (Int.add_zero _).symm⟩
  | claimed hmoved => exact ⟨case, by rw [hmoved.frame]; exact hc, (Int.add_zero _).symm⟩
  | decided hd => exact ⟨case, by rw [hd.frame]; exact hc, (Int.add_zero _).symm⟩
  | _ => exact ⟨case, hc, (Int.add_zero _).symm⟩

section
variable {W : World X} {engine : Engine X}

theorem version_next {caseId : String} {case : CaseRecord} (c : (engine.writers W).Config)
    (a : (engine.writers W).Move) (hc : c.hist.state.db.case? caseId = some case) :
    ∃ case' zs, (System.next _ c a).hist.trace = c.hist.trace ++ zs ∧
      (System.next _ c a).hist.state.db.case? caseId = some case' ∧
      case'.version = case.version + (zs.countP fun z => movesCase caseId z.event) := by
  rcases System.next_cases c a with hn | ⟨call, -, -, hn⟩ | ⟨τ, e, o, k, -, hr, hn⟩ |
      ⟨τ, -, hn⟩ | ⟨e, -, hn⟩ <;> rw [hn]
  · exact ⟨case, [], by simp, hc, by simp⟩
  · exact ⟨case, [], by simp [System.spawned], hc, by simp⟩
  · cases o with
    | tx o =>
      obtain ⟨case', hcase', hv⟩ := @version_exec X c.hist.state.clock e.ids _ _ o _ rfl _ _ hc
      refine ⟨case', _, rfl, hcase', hv.trans ?_⟩
      rw [List.countP_singleton]
      refine congrArg (case.version + ·) ?_
      split_ifs with h1 h2 h2 <;> first | rfl | exact absurd h1 h2 | exact absurd h2 h1
    | _ => exact ⟨case, _, rfl, hc, (Int.add_zero _).symm⟩
  · exact ⟨case, [], by simp [System.lost], hc, by simp⟩
  · exact ⟨case, [], by simp [System.drifted], hc, by simp⟩

theorem version_run {caseId : String} {case : CaseRecord} (c : (engine.writers W).Config)
    (acts : List (engine.writers W).Move) (hc : c.hist.state.db.case? caseId = some case) :
    ∃ case' zs, (System.run _ c acts).hist.trace = c.hist.trace ++ zs ∧
      (System.run _ c acts).hist.state.db.case? caseId = some case' ∧
      case'.version = case.version + (zs.countP fun z => movesCase caseId z.event) := by
  induction acts generalizing c case with
  | nil => exact ⟨case, [], by simp, hc, by simp⟩
  | cons a acts ih =>
    obtain ⟨case1, zs1, htrace1, hc1, hv1⟩ := version_next c a hc
    obtain ⟨case2, zs2, htrace2, hc2, hv2⟩ := ih (System.next _ c a) hc1
    refine ⟨case2, zs1 ++ zs2, ?_, hc2, ?_⟩
    · rw [← List.append_assoc, ← htrace1]
      exact htrace2
    · rw [hv2, hv1, List.countP_append, Int.natCast_add, Int.add_assoc]

/-- The transaction has found the case at version `v`. -/
inductive Sees (caseId : String) (v : ℤ) : Event (sig X) → Prop where
  | read {case : CaseRecord} (h : case.version = v) :
    Sees caseId v ⟨.tx (.getCase caseId), some case⟩
  | moved {x : Event (sig X)} (h : Moves caseId v x) : Sees caseId v x

theorem sees_exec {e : EngineChoice W} {s : EngineState W} {x : Entry (sig X)} {caseId : String}
    {v : ℤ} (hres : x.res = (exec W e s x.op).1) (h : Sees caseId v x.event) :
    ∃ case, s.db.case? caseId = some case ∧ case.version = v := by
  obtain ⟨τ, o, r⟩ := x
  obtain rfl : r = (exec W e s o).1 := hres
  generalize hx : Entry.event _ = x at h
  cases h with
  | @read case hv =>
    obtain ⟨rfl, hres⟩ := Sigma.mk.inj hx
    exact ⟨case, eq_of_heq hres, hv⟩
  | moved hmoves =>
    cases hmoves with
    | appended =>
      obtain ⟨rfl, hres⟩ := Sigma.mk.inj hx
      exact (appended_of_ok (Prod.ext (eq_of_heq hres) rfl)).found
    | inserted hid =>
      obtain ⟨rfl, hres⟩ := Sigma.mk.inj hx
      rw [← hid]
      exact (inserted_of_ok (Prod.ext (eq_of_heq hres) rfl)).found

/-- Between a move of the case and what a later transaction has found, each move counts. -/
theorem version_between (s : EngineState W) (acts : List (engine.writers W).Move)
    {caseId : String} {v w : ℤ} {pre mid post : List (Entry (sig X))} {x y : Entry (sig X)}
    (h : (System.run (engine.writers W) (System.init _ s) acts).hist.trace =
      pre ++ x :: (mid ++ y :: post)) (hx : Moves caseId v x.event) (hy : Sees caseId w y.event) :
    w = v + 1 + (mid.countP fun z => movesCase caseId z.event) := by
  obtain ⟨c0, a, between, b, -, hc0, ha, hbetween, hb⟩ := System.run_between acts h (Nat.zero_le _)
  obtain ⟨e, k, -, hres, -⟩ := System.exec_of_next (ha.trans (by rw [hc0]))
  obtain ⟨case, hcase, rfl⟩ := sees_exec hres (.moved hx)
  -- after the move
  obtain ⟨case1, zs, htrace, hcase1, hv1⟩ := version_next _ a hcase
  obtain rfl : zs = [x] := by
    rw [hc0] at htrace
    exact List.append_cancel_left (htrace.symm.trans ha)
  rw [List.countP_singleton, if_pos (movesCase_iff.2 ⟨_, hx⟩)] at hv1
  -- up to the later transaction
  obtain ⟨case2, zs, htrace2, hcase2, hv2⟩ := version_run _ between hcase1
  obtain rfl : zs = mid := by
    rw [hbetween, ha] at htrace2
    exact (List.append_cancel_left htrace2).symm
  obtain ⟨e', k', -, hres', -⟩ := System.exec_of_next (hb.trans (by rw [hbetween]))
  obtain ⟨case3, hcase3, rfl⟩ := sees_exec hres' hy
  obtain rfl := Option.some.inj (hcase3.symm.trans hcase2)
  rw [hv2, hv1]
  rfl

/-- The case is found at the next version exactly when nobody has moved it in between. -/
theorem next_version_iff (s : EngineState W) (acts : List (engine.writers W).Move)
    {caseId : String} {v w : ℤ} {pre mid post : List (Entry (sig X))} {x y : Entry (sig X)}
    (h : (System.run (engine.writers W) (System.init _ s) acts).hist.trace =
      pre ++ x :: (mid ++ y :: post)) (hx : Moves caseId v x.event) (hy : Sees caseId w y.event) :
    w = v + 1 ↔ ∀ z ∈ mid, movesCase caseId z.event = false := by
  have hcount := version_between s acts h hx hy
  have hzero : (∀ z ∈ mid, movesCase caseId z.event = false) ↔
      (mid.countP fun z => movesCase caseId z.event) = 0 := by simp [List.countP_eq_zero]
  rw [hzero]
  omega

end

/-! What the tasks do. -/

/-- `append_fact` that returns has committed, and has read the case. -/
theorem path_appendFact_ret {caseId : String} {proposal : FactProposal} {v : ℤ}
    {record : CaseRecord}
    {xs : List (Event (sig X))}
    (h : Follows (SQLiteCoreStore.appendFact caseId proposal v) xs (.ret record)) :
    xs = [⟨.tx (.appendFact caseId proposal v), .ok ()⟩, ⟨.tx (.getCase caseId), some record⟩] := by
  cases h with
  | @cons _ _ r ys _ h =>
    cases r with
    | error e => cases h.of_raise.2
    | ok u =>
      cases h with
      | @cons _ _ found zs _ h =>
        cases found with
        | none => cases h.of_raise.2
        | some case =>
          obtain ⟨rfl, hr⟩ := h.of_ret
          cases hr
          rfl

/-- `append_fact` moves the case with its first transaction. -/
theorem path_appendFact {caseId : String} {proposal : FactProposal} {v w : ℤ}
    {xs before after : List (Event (sig X))} {x : Event (sig X)} {q : Task X CaseRecord}
    (h : Follows (SQLiteCoreStore.appendFact caseId proposal v) xs q)
    (hxs : xs = before ++ x :: after) (hx : Moves caseId w x) : before = [] ∧ w = v := by
  cases h with
  | nil => simp at hxs
  | @cons _ _ r ys _ h =>
    cases before with
    | nil =>
      obtain ⟨rfl, -⟩ := List.cons.inj hxs
      cases hx
      exact ⟨rfl, rfl⟩
    | cons y before =>
      obtain ⟨rfl, htail⟩ := List.cons.inj hxs
      cases r with
      | error e => simp [h.of_raise.1] at htail
      | ok u =>
        cases h with
        | nil => simp at htail
        | @cons _ _ found zs _ h =>
          have hnil : zs = [] := by
            cases found with
            | none => exact h.of_raise.1
            | some case => exact h.of_ret.1
          subst hnil
          cases before with
          | nil =>
            obtain ⟨rfl, -⟩ := List.cons.inj htail
            cases hx
          | cons z before => simp at htail

/-- What `append_fact` has read after its commit is the version that it made. -/
def Threads (caseId : String) (xs : List (Event (sig X))) : Prop :=
  ∀ before proposal v record after, xs = before ++ ⟨.tx (.appendFact caseId proposal v), .ok ()⟩ ::
    ⟨.tx (.getCase caseId), some record⟩ :: after → record.version = v + 1

/-- Each commit of `submit` expects the version that the previous ones have made. -/
theorem path_commitFacts {action caseId evidenceRef : String} {upstream : Fields}
    {parameters : List String} {case : CaseRecord} {xs : List (Event (sig X))}
    {q : Task X CaseRecord}
    (h : Follows (commitFacts action caseId upstream evidenceRef parameters case) xs q)
    (hthreads : Threads caseId xs) :
    (∀ before x after w, xs = before ++ x :: after → Moves caseId w x →
      w = case.version + before.countP (movesCase caseId)) ∧
    ∀ case', q = .ret case' → case'.version = case.version + xs.countP (movesCase caseId) := by
  induction parameters generalizing case xs with
  | nil =>
    obtain ⟨rfl, rfl⟩ := h.of_ret
    refine ⟨fun before x after w hxs => ?_, fun case' hq => ?_⟩
    · simp at hxs
    · cases hq
      exact (Int.add_zero _).symm
  | cons parameter rest ih =>
    unfold commitFacts at h
    cases hvalue : upstream.get? parameter with
    | none =>
      simp only [hvalue] at h
      obtain ⟨rfl, rfl⟩ := h.of_raise
      exact ⟨fun before x after w hxs => by simp at hxs, fun _ hq => by cases hq⟩
    | some value =>
      simp only [hvalue] at h
      have hrest : ∀ {ys zs case1}, xs = ys ++ zs →
          Follows (CaseKernel.commitFact caseId {
            name := factName action parameter, value, authority := .verified,
            source := "authoritative_resource_adapter", evidenceRef } case.version) ys
              (.ret case1) →
          Follows (commitFacts action caseId upstream evidenceRef rest case1) zs q →
          ∃ x y, ys = [x, y] ∧ Moves caseId case.version x ∧ (∀ w, ¬ Moves caseId w y) ∧
            case1.version = case.version + 1 ∧ Threads caseId zs := by
        rintro ys zs case1 rfl hy -
        obtain rfl := path_appendFact_ret hy
        refine ⟨_, _, rfl, .appended, fun w hw => (by cases hw), hthreads [] _ _ _ _ rfl, ?_⟩
        rintro before proposal v record after rfl
        exact hthreads (_ :: _ :: before) proposal v record after rfl
      refine ⟨fun before x after w hxs hx => ?_, fun case' hq => ?_⟩
      · rcases h.of_bind with ⟨p, hp, -⟩ | ⟨ys, zs, case1, hsplit, hy, hz⟩
        · obtain ⟨rfl, rfl⟩ := path_appendFact hp hxs hx
          exact (Int.add_zero _).symm
        · obtain ⟨x1, y1, rfl, hx1, hy1, hv, hzs⟩ := hrest hsplit hy hz
          have hxs := hxs.symm.trans hsplit
          rcases before with _ | ⟨b, _ | ⟨b', before⟩⟩
          · obtain ⟨rfl, -⟩ := List.cons.inj hxs
            exact (hx.eq hx1).trans (Int.add_zero _).symm
          · obtain ⟨-, htail⟩ := List.cons.inj hxs
            obtain ⟨rfl, -⟩ := List.cons.inj htail
            exact absurd hx (hy1 w)
          · -- past the two operations of the first commit
            obtain ⟨rfl, htail⟩ := List.cons.inj hxs
            obtain ⟨rfl, hlast⟩ := List.cons.inj htail
            rw [(ih hz hzs).1 before x after w hlast.symm hx, hv, countP_commit hx1 hy1]
            exact Int.add_assoc ..
      · subst hq
        obtain ⟨ys, zs, case1, hsplit, hy, hz⟩ := h.of_bind_ret
        obtain ⟨x1, y1, rfl, hx1, hy1, hv, hzs⟩ := hrest hsplit hy hz
        rw [(ih hz hzs).2 _ rfl, hv, hsplit, List.cons_append, List.cons_append, List.nil_append,
          countP_commit hx1 hy1]
        exact Int.add_assoc ..

/-- The operations that move no case. -/
def Op.movesNone : Op X → Prop
  | .tx (.appendFact ..) => False
  | .tx (.insertAction ..) => False
  | _ => True

theorem not_movesNone {caseId : String} {v : ℤ} {x : Event (sig X)} (h : Moves caseId v x) :
    ¬ Op.movesNone x.1 := by
  cases h <;> exact id

theorem once_authorizeAction {command : ActionCommand} (v : ℤ) :
    (CaseKernel.authorizeAction command v : Task X ActionRecord).Once Op.movesNone
      fun o : Op X => ∃ record, o = .tx (.insertAction record v) := by
  refine Prog.once_bind_right (issues_tx trivial) fun (found : Option ActionRecord) => ?_
  cases found with
  | some duplicate =>
    dsimp only
    split_ifs <;> trivial
  | none =>
    refine Prog.once_bind_right (Prog.issues_ofExcept _) fun _ => ?_
    refine Prog.once_bind_right (issues_verifyFacts (fun _ _ => trivial) _) fun _ => ?_
    refine Prog.once_bind_right ((Prog.issues_perform _).2 trivial) fun _ => ?_
    refine Prog.once_bind_right ((Prog.issues_perform _).2 trivial) fun _ => ?_
    exact Or.inr ⟨⟨_, rfl⟩, fun r => Prog.issues_bind (Prog.issues_ofExcept _) fun _ => trivial⟩

theorem once_authorize (gateway : ActionGateway X) (command : ActionCommand) (v : ℤ) :
    (gateway.authorize command v).Once Op.movesNone
      fun o : Op X => ∃ record, o = .tx (.insertAction record v) := by
  refine Prog.once_bind_right (Prog.issues_ofExcept _) fun resolved => ?_
  cases gateway.policy with
  | none => exact once_authorizeAction v
  | some policy =>
    refine Prog.once_bind_right (issues_ext (fun _ => trivial) _) fun package => ?_
    refine Prog.once_bind_right (issues_tx trivial) fun (found : Option CaseRecord) => ?_
    cases found with
    | none => trivial
    | some case =>
      simp only [Prog.bind_eq, Prog.throw_eq, Prog.bind_raise]
      split_ifs
      · trivial
      · exact Prog.once_bind_right (Prog.issues_ofExcept _) fun _ => once_authorizeAction v

theorem movesNone_dispatch (gateway : ActionGateway X) (action : ActionRecord) :
    (gateway.dispatch action).Issues Op.movesNone :=
  gateway.issues_dispatch_of (gateway.policyIssues_of_ext fun _ => trivial)
    (fun _ _ => (Prog.issues_true _).mono fun _ _ => trivial) trivial (fun _ => trivial)
    (fun _ _ _ _ => trivial) trivial fun _ => trivial

theorem caseId_of_insert {service : ConsequentialActionService X}
    {command : ActionCommand} {v : ℤ} :
    ((service.gateway.authorize command v).bind service.gateway.dispatch).Issues
      fun o : Op X => ∀ record v', o = .tx (.insertAction record v') →
        record.command.caseId = command.caseId := by
  refine Prog.issues_bind (service.gateway.issues_authorize
    (service.gateway.policyIssues_of_ext fun _ _ _ => nofun) (fun _ _ _ => nofun)
    (fun _ _ _ => nofun)
    (fun _ _ _ _ => nofun) (fun _ _ => nofun) (fun _ _ => nofun) ?_ v) fun action => ?_
  · rintro record v' hstamp _ _ ⟨⟩
    exact hstamp.caseId
  · refine (movesNone_dispatch _ action).mono ?_
    rintro _ ho record v' rfl
    exact absurd ho id

/-- A `submit` that has moved a case by an insertion: its commits come before, and what it has
read after the last of them is the version that the insertion expects. -/
theorem path_submit_commits {service : ConsequentialActionService X}
    {request : ConsequentialActionRequest}
    {actorId : String} {xs : List (Event (sig X))} {q : Task X ActionRecord}
    (h : Follows (service.submit request actorId) xs q) {record : ActionRecord} {v : ℤ}
    {res : Except PyErr Unit} (hx : (⟨.tx (.insertAction record v), res⟩ : Event (sig X)) ∈ xs) :
    ∃ us vs ws upstream evidenceRef parameters case case', xs = us ++ (vs ++ ws) ∧
      (∀ y ∈ us, Op.movesNone y.1) ∧
      Follows (commitFacts request.payload.action request.caseId upstream evidenceRef parameters
        case : Task X CaseRecord) vs (.ret case') ∧
      (⟨.tx (.insertAction record v), res⟩ : Event (sig X)) ∈ ws ∧
      record.command.caseId = request.caseId ∧
      ∀ before x after, ws = before ++ x :: after → ¬ Op.movesNone x.1 →
        (∃ record', x.1 = .tx (.insertAction record' case'.version)) ∧
          ∀ y ∈ before, Op.movesNone y.1 := by
  obtain ⟨found, ys, rfl, hrest⟩ := h.of_perform hx
  replace hx := (List.mem_cons.1 hx).resolve_left nofun
  cases found with
  | some duplicate =>
    have hreplay : (service.replay request duplicate).Issues Op.movesNone :=
      issues_replay service request (fun _ => trivial) (movesNone_dispatch _ duplicate)
    exact absurd ((hrest.issues hreplay).1 _ hx) id
  | none =>
    dsimp only [authorizeNew] at hrest
    cases hs : specification? request.payload.action with
    | none =>
      simp only [hs] at hrest
      rw [hrest.of_raise.1] at hx
      cases hx
    | some specification =>
      simp only [hs, Prog.bind_eq, Prog.bind_assoc] at hrest
      obtain ⟨u1, zs, ⟨upstream, evidenceRef⟩, rfl, hload, hrest, hx⟩ := hrest.beyond
        (P := Op.movesNone) (issues_loadResource service request (fun _ => trivial) _) hx id
      obtain ⟨u2, zs, case, rfl, hopen, hrest, hx⟩ := hrest.beyond
        (P := Op.movesNone) (issues_openCase request (fun _ => trivial) fun _ => trivial) hx id
      obtain ⟨vs, ws, case', rfl, hcommit, hend, hx⟩ := hrest.beyond
        (P := fun o => ∀ record v, o ≠ Op.tx (.insertAction record v)) (issues_commitFacts
          (fun _ _ _ => nofun) (fun _ _ _ _ _ => nofun) _ _ _) hx fun hn => hn _ _ rfl
      refine ⟨⟨.tx (.getActionByKey request.idempotencyKey), none⟩ :: (u1 ++ u2), vs, ws, upstream,
        evidenceRef, _, case, case', ?_, ?_, hcommit,
        hx, (hend.issues caseId_of_insert).1 _ hx _ _ rfl, fun before x after hws hx => ?_⟩
      · simp only [List.cons_append, List.append_assoc]
      · rintro y hy
        rcases List.mem_cons.1 hy with rfl | hy
        · trivial
        · rcases List.mem_append.1 hy with hy | hy
          · exact (hload.issues (issues_loadResource service request (fun _ => trivial) _)).1 y hy
          · refine (hopen.issues ?_).1 y hy
            exact issues_openCase request (fun _ => trivial) fun _ => trivial
      · exact hend.once (Prog.once_bind_left (once_authorize ..) fun a => movesNone_dispatch _ a)
          hws hx

theorem countP_movesNone {caseId : String} {xs : List (Event (sig X))}
    (h : ∀ y ∈ xs, Op.movesNone y.1) : xs.countP (movesCase caseId) = 0 := by
  refine List.countP_eq_zero.2 fun y hy hm => ?_
  obtain ⟨v, hv⟩ := movesCase_iff.1 hm
  exact not_movesNone hv (h y hy)

theorem Threads.infix {caseId : String} {us vs ws : List (Event (sig X))}
    (h : Threads caseId (us ++ (vs ++ ws))) : Threads caseId vs := by
  rintro before proposal v record after rfl
  refine h (us ++ before) proposal v record (after ++ ws) ?_
  simp only [List.append_assoc, List.cons_append]

/-- The versions that a `submit` expects, up to its insertion of an action. -/
theorem path_levels {service : ConsequentialActionService X} {request : ConsequentialActionRequest}
    {actorId : String} {xs : List (Event (sig X))} {q : Task X ActionRecord}
    (h : Follows (service.submit request actorId) xs q) (hthreads : Threads request.caseId xs)
    {record : ActionRecord} {v : ℤ} {res : Except PyErr Unit}
    (hx : (⟨.tx (.insertAction record v), res⟩ : Event (sig X)) ∈ xs) :
    record.command.caseId = request.caseId ∧
    ∃ base : ℤ, ∀ before x after w, xs = before ++ x :: after → Moves request.caseId w x →
      w = base + before.countP (movesCase request.caseId) := by
  obtain ⟨us, vs, ws, upstream, evidenceRef, parameters, case, case', rfl, hus, hvs, hin, hid,
    hws⟩ := path_submit_commits h hx
  obtain ⟨hlevel, hlast⟩ := path_commitFacts hvs hthreads.infix
  refine ⟨hid, case.version, fun before x after w hxs hm => ?_⟩
  rcases split_append hxs with ⟨after', rfl, -⟩ | ⟨before', rfl, hrest⟩
  · exact absurd (hus x (by simp)) (not_movesNone hm)
  rw [List.countP_append, countP_movesNone hus, Nat.zero_add]
  rcases split_append hrest with ⟨after', rfl, rfl⟩ | ⟨before', rfl, rfl⟩
  · exact hlevel before' x after' w rfl hm
  · obtain ⟨⟨record', hop⟩, hbefore⟩ := hws before' x after rfl (not_movesNone hm)
    rw [List.countP_append, countP_movesNone hbefore, Nat.add_zero, ← hlast _ rfl]
    cases hm <;> cases hop
    rfl

/-- Whatever `submit` commits, it commits before it inserts. -/
theorem path_commit_before {service : ConsequentialActionService X}
    {request : ConsequentialActionRequest} {actorId : String}
    {xs before after : List (Event (sig X))}
    {q : Task X ActionRecord} (h : Follows (service.submit request actorId) xs q)
    {record : ActionRecord} {v w : ℤ} {res res' : Except PyErr Unit}
    (hx : (⟨.tx (.insertAction record v), res⟩ : Event (sig X)) ∈ xs) {caseId : String}
    {proposal : FactProposal}
    (hxs : xs = before ++ ⟨.tx (.appendFact caseId proposal w), res'⟩ :: after) :
    (⟨.tx (.insertAction record v), res⟩ : Event (sig X)) ∈ after := by
  obtain ⟨us, vs, ws, upstream, evidenceRef, parameters, case, case', rfl, hus, -, hin, -, hws⟩ :=
    path_submit_commits h hx
  rcases split_append hxs with ⟨after', rfl, -⟩ | ⟨before', rfl, hrest⟩
  · exact absurd (hus _ (List.mem_append_right _ List.mem_cons_self)) id
  · rcases split_append hrest with ⟨after', -, rfl⟩ | ⟨before', rfl, rfl⟩
    · exact List.mem_append_right _ hin
    · obtain ⟨⟨record', hop⟩, -⟩ := hws before' _ after rfl id
      cases hop

end

/-! Runs. -/

section
variable {X : Sig} {W : World X}

abbrev CaseLog (W : World X) := Hist (sig X) (EngineState W) (CaseCall X)

/-- Between a commit of `append_fact` by the task and the task's next transaction, nobody moves
the case. -/
def CommitsUndisturbed (h : CaseLog W) (τ : ℕ) (caseId : String) : Prop :=
  ∀ pre mid post proposal v y,
    h.trace = pre ++ ⟨τ, .tx (.appendFact caseId proposal v), .ok ()⟩ :: (mid ++ y :: post) →
    y.tid = τ → (∀ z ∈ mid, z.tid ≠ τ) → ∀ z ∈ mid, movesCase caseId z.event = false

/-- From each commit of the task to its insertion of an action, nobody else moves the case. -/
def SoleWriter (h : CaseLog W) (τ : ℕ) (caseId : String) : Prop :=
  ∀ pre mid post proposal v record w,
    h.trace = pre ++ ⟨τ, .tx (.appendFact caseId proposal v), .ok ()⟩ ::
      (mid ++ ⟨τ, .tx (.insertAction record w), .ok ()⟩ :: post) →
    ∀ z ∈ mid, movesCase caseId z.event = true → z.tid = τ

variable {engine : Engine X} (s : EngineState W) (acts : List (engine.writers W).Move)

/-- A call of `append_fact` returns its own version exactly when it was not disturbed. -/
theorem own_version_iff {τ : ℕ} {caseId : String} {proposal : FactProposal} {v : ℤ}
    {record : CaseRecord}
    (hcall : (System.run _ (System.init (engine.writers W) s) acts).hist.calls[τ]? =
      some (.appendFact caseId proposal v))
    (hret : (System.run _ (System.init (engine.writers W) s) acts).tasks[τ]? =
      some (.ret (.case record))) :
    record.version = v + 1 ↔
      CommitsUndisturbed (System.run _ (System.init (engine.writers W) s) acts).hist τ caseId := by
  obtain ⟨call, hcall', hf⟩ := System.follows_run s acts hret
  obtain rfl := Option.some.inj (hcall'.symm.trans hcall)
  obtain ⟨xs, ys, record', hown, hpath, hwrap⟩ := hf.of_bind_ret
  obtain ⟨rfl, hrecord⟩ := hwrap.of_ret
  cases hrecord
  rw [path_appendFact_ret hpath, List.append_nil] at hown
  constructor
  · intro hv pre mid post proposal' v' y htrace hy hmid z hz
    obtain ⟨before, between, after, hsplit, rfl, -⟩ := own_split htrace rfl hy
    have hbetween : mid.filter (fun z => decide (z.tid = τ)) = [] :=
      List.filter_eq_nil_iff.2 fun z hz => by simpa using hmid z hz
    rw [hbetween] at hsplit
    have hevents := hown.symm.trans hsplit
    cases before with
    | nil =>
      obtain ⟨hx, htail⟩ := List.cons.inj hevents
      obtain ⟨hread, -⟩ := List.cons.inj htail
      cases hx
      exact (next_version_iff s acts htrace .appended (hread ▸ Sees.read hv)).1 rfl z hz
    | cons b before =>
      obtain ⟨-, htail⟩ := List.cons.inj hevents
      cases before <;> simp at htail
  · intro hundisturbed
    obtain ⟨pre, mid, post, x, y, htrace, hxt, hx, hyt, hy, hmid⟩ := @split_own _ _ _ [] _ _ _ hown
    obtain rfl := Entry.eq_of_event hxt hx
    exact (next_version_iff s acts htrace .appended (hy ▸ Sees.read rfl)).2
      (hundisturbed pre mid post _ _ y htrace hyt hmid)

theorem threads_of_undisturbed {τ : ℕ} {caseId : String}
    (h : CommitsUndisturbed (System.run _ (System.init (engine.writers W) s) acts).hist τ caseId) :
    Threads caseId (((System.run _ (System.init (engine.writers W) s) acts).hist.own τ).map
      Entry.event) := by
  intro before proposal v record after hown
  obtain ⟨pre, mid, post, x, y, htrace, hxt, hx, hyt, hy, hmid⟩ := split_own hown
  obtain rfl := Entry.eq_of_event hxt hx
  exact (next_version_iff s acts htrace .appended (hy ▸ Sees.read rfl)).2
    (h pre mid post _ _ y htrace hyt hmid)

/-- A `submit` that has inserted its action was the only writer from its commits on exactly when
it was not disturbed. -/
theorem sole_writer_iff {τ : ℕ} {request : ConsequentialActionRequest} {actorId : String}
    {record : ActionRecord} {v : ℤ}
    (hcall : (System.run _ (System.init (engine.writers W) s) acts).hist.calls[τ]? =
      some (.submit request actorId))
    (hinserted : (⟨τ, .tx (.insertAction record v), .ok ()⟩ : Entry (sig X)) ∈
      (System.run _ (System.init (engine.writers W) s) acts).hist.trace) :
    SoleWriter (System.run _ (System.init (engine.writers W) s) acts).hist τ request.caseId ↔
      CommitsUndisturbed
      (System.run _ (System.init (engine.writers W) s) acts).hist τ request.caseId := by
  obtain ⟨p, hp⟩ := System.task_of_mem s acts hinserted
  obtain ⟨call, hcall', hf⟩ := System.follows_run s acts hp
  obtain rfl := Option.some.inj (hcall'.symm.trans hcall)
  obtain ⟨q, hpath⟩ : ∃ q, Follows (engine.service.submit request actorId)
      (((System.run _ (System.init (engine.writers W) s) acts).hist.own τ).map Entry.event) q :=
    Follows.of_map hf
  constructor
  · intro hsole pre mid post proposal v' y htrace hy hmid z hz
    by_contra hmoves
    rw [Bool.not_eq_false] at hmoves
    obtain ⟨before, between, after, hown, rfl, rfl⟩ := own_split htrace rfl hy
    have hbetween : mid.filter (fun z => decide (z.tid = τ)) = [] :=
      List.filter_eq_nil_iff.2 fun z hz => by simpa using hmid z hz
    rw [hbetween] at hown
    have hlater := path_commit_before hpath (Entry.event_mem hinserted) hown
    obtain ⟨x, hx, hevent⟩ : ∃ x ∈ y :: post, x.tid = τ ∧
        x.event = ⟨.tx (.insertAction record v), .ok ()⟩ := by
      rcases List.mem_cons.1 hlater with he | hlater
      · exact ⟨y, List.mem_cons_self, hy, he.symm⟩
      · obtain ⟨x, hx, he⟩ := List.mem_map.1 hlater
        obtain ⟨hx, ht⟩ := List.mem_filter.1 hx
        exact ⟨x, List.mem_cons_of_mem _ hx, of_decide_eq_true ht, he⟩
    obtain rfl := Entry.eq_of_event hevent.1 hevent.2
    obtain ⟨post1, post2, hpost⟩ := List.append_of_mem hx
    refine hmid z hz (hsole pre (mid ++ post1) post2 proposal v' record v ?_ z
      (List.mem_append_left _ hz) hmoves)
    rw [htrace, hpost, List.append_assoc]
  · intro hundisturbed pre mid post proposal v' record' w htrace z hz hmoves
    have hinsert : (⟨τ, .tx (.insertAction record' w), .ok ()⟩ : Entry (sig X)) ∈
        (System.run _ (System.init (engine.writers W) s) acts).hist.trace := by
      rw [htrace]
      simp
    obtain ⟨hid, base, hlevels⟩ := path_levels hpath (threads_of_undisturbed s acts hundisturbed)
      (Entry.event_mem hinsert)
    obtain ⟨before, between, after, hown, rfl, -⟩ := own_split htrace rfl rfl
    have hfirst := hlevels _ _ _ v' hown .appended
    have hlast := hlevels (before ++ _ :: _) _ after w
      (hown.trans (List.append_assoc _ (_ :: _) _).symm) (.inserted hid)
    -- the moves in between are as many as the task's own
    have hall := version_between s acts htrace .appended (.moved (.inserted hid))
    have hown' : ((before ++ (⟨.tx (.appendFact request.caseId proposal v'), .ok ()⟩ ::
        (mid.filter fun z => decide (z.tid = τ)).map Entry.event)).countP
          (movesCase request.caseId)) =
        before.countP (movesCase request.caseId) + ((mid.filter fun z => decide (z.tid = τ)).countP
          (fun z => movesCase request.caseId z.event) + 1) := by
      rw [List.countP_append, List.countP_cons_of_pos (movesCase_iff.2 ⟨v', .appended⟩),
        List.countP_map]
      rfl
    have hsplit := List.countP_eq_countP_filter_add mid (fun z => movesCase request.caseId z.event)
      fun z => decide (z.tid = τ)
    have hforeign : (mid.filter fun z => !decide (z.tid = τ)).countP
        (fun z => movesCase request.caseId z.event) = 0 := by
      have hw : w = base + ((_ : ℕ) : ℤ) :=
        hlast.trans (congrArg (fun n : ℕ => base + (n : ℤ)) hown')
      omega
    by_contra hne
    exact List.countP_eq_zero.1 hforeign z (List.mem_filter.2 ⟨hz, by simpa using hne⟩) hmoves

/-- A fact commit returns its own version, and a chain of commits that `submit` threads into its
insertion is that of the only writer, exactly when no one has moved the case between a commit and
the read that follows it. -/
theorem fact_commit_returns_own_version_iff (engine : Engine X) (W : World X) (s : EngineState W)
    (acts : List (engine.writers W).Move) (τ : ℕ) :
    let c := System.run _ (System.init (engine.writers W) s) acts
    (∀ caseId proposal v record, c.hist.calls[τ]? = some (.appendFact caseId proposal v) →
      c.tasks[τ]? = some (.ret (.case record)) →
      (record.version = v + 1 ↔ CommitsUndisturbed c.hist τ caseId)) ∧
    ∀ request actorId record v, c.hist.calls[τ]? = some (.submit request actorId) →
      (⟨τ, .tx (.insertAction record v), .ok ()⟩ : Entry (sig X)) ∈ c.hist.trace →
      (SoleWriter c.hist τ request.caseId ↔ CommitsUndisturbed c.hist τ request.caseId) :=
  ⟨fun _ _ _ _ hcall hret => own_version_iff s acts hcall hret,
    fun _ _ _ _ hcall hinserted => sole_writer_iff s acts hcall hinserted⟩

end

def noteFact : FactProposal where
  name := "note"
  value := .str "called back"
  authority := .asserted
  source := "rep-1"
  evidenceRef := "turn-1"

def openStore : EngineState World.isolated where
  db := { Db.empty with
    cases := ⟨[⟨"C-1", "U-1", "cs_refund", "1", "active", 0⟩], fun _ => List.nodup_singleton _⟩ }
  clock := 0
  ext := ()

/-- Two commits to one case: the second comes before the first has read the case again. -/
def overlappingCommits : List (Engine.isolated.writers World.isolated).Move :=
  let step (τ : ℕ) : (Engine.isolated.writers World.isolated).Move := .run τ ⟨toString, 0, ()⟩
  [.spawn (.appendFact "C-1" noteFact 0), .spawn (.appendFact "C-1" noteFact 1), step 0, step 1,
    step 0]

/-- The first commit made version 1 and returns version 2. -/
theorem overlapping_commit_returns_other :
    let c := System.run _ (System.init (Engine.isolated.writers World.isolated) openStore)
      overlappingCommits
    c.hist.calls[0]? = some (.appendFact "C-1" noteFact 0) ∧
    ∃ record, c.tasks[0]? = some (.ret (.case record)) ∧ record.version ≠ 0 + 1 :=
  ⟨rfl, ⟨"C-1", "U-1", "cs_refund", "1", "active", 2⟩, rfl, by decide⟩

end WorkflowEngine
