import WorkflowEngine.Interleave.Trail
import WorkflowEngine.Proofs.Withdrawal
import WorkflowEngine.Sanity.Footprint
import WorkflowEngine.Spec.Payloads
import WorkflowEngine.Spec.Resources

/-! What a confirmation executes. It checks the version of its resource in one read, and its
submission loads the resource in another; an update between the two reads is not noticed. -/

namespace WorkflowEngine

open Interleave Engine ConsequentialActionService

variable {Y : Sig} {V : World Y}

/-- The operations of an engine over the resource table. -/
abbrev StockOp (Y : Sig) := Op (stockSig.sum Y)

abbrev StockEvent (Y : Sig) := Event (sig (stockSig.sum Y))

/-- The reference that `submit` cites. -/
def citation (ref : AuthoritativeResourceRef) (version : ℤ) : String :=
  "sandbox:" ++ ref.resourceType ++ ":" ++ ref.resourceId ++ ":v" ++ toString version

/-- Every new action has the fact references `refs`, and every fact that is committed for one of
them cites `evidenceRef`. -/
def Op.cites {X : Sig} (refs : List (String × String)) (evidenceRef : String) : Op X → Prop
  | .tx (.appendFact _ fact _) => refs ≠ [] ∧ fact.evidenceRef = evidenceRef
  | .tx (.insertAction record _) => record.command.parameterFactRefs = refs
  | _ => True

section
variable {X : Sig} {refs : List (String × String)} {evidenceRef : String}

theorem cites_of_ne {o : Op X} (hinsert : ∀ record v, o ≠ .tx (.insertAction record v))
    (happend : ∀ caseId fact v, o ≠ .tx (.appendFact caseId fact v)) :
    o.cites refs evidenceRef := by
  cases o with
  | tx o =>
    cases o with
    | insertAction => exact (hinsert _ _ rfl).elim
    | appendFact => exact (happend _ _ _ rfl).elim
    | _ => trivial
  | _ => trivial

theorem cites_dispatches {α : Type} {p : Task X α} (hp : p.Issues Op.dispatches) :
    p.Issues (Op.cites refs evidenceRef) :=
  hp.mono fun _ h => cites_of_ne (by rintro _ _ rfl; exact h) (by rintro _ _ _ rfl; exact h)

theorem cites_decides {α : Type} {p : Task X α} (hp : p.Issues Op.decides) :
    p.Issues (Op.cites refs evidenceRef) :=
  hp.mono fun _ h => cites_of_ne (by rintro _ _ rfl; exact h) (by rintro _ _ _ rfl; exact h)

/-- What `submit` does once it has loaded the resource. -/
theorem cites_loaded {α : Type} (service : ConsequentialActionService X)
    (request : ConsequentialActionRequest) (actorId : String) (upstream : Fields)
    (evidenceRef : String) (authoritative : List String) {f : ActionRecord → Task X α}
    (hf : ∀ a, (f a).Issues
      (Op.cites (command request actorId authoritative).parameterFactRefs evidenceRef)) :
    ((openCase request).bind fun case =>
      (commitFacts request.payload.action request.caseId upstream evidenceRef authoritative
        case).bind fun case =>
          (service.gateway.authorize (command request actorId authoritative) case.version).bind
            f).Issues
      (Op.cites (command request actorId authoritative).parameterFactRefs evidenceRef) := by
  refine Prog.issues_bind (issues_openCase request (fun _ => trivial) fun _ => trivial)
    fun case => ?_
  refine Prog.issues_bind ?_ fun case => Prog.issues_bind ?_ hf
  · cases authoritative with
    | nil => trivial
    | cons parameter rest =>
      exact issues_commitFacts (fun _ => trivial) (fun _ _ h => ⟨List.cons_ne_nil _ _, h⟩) ..
  · exact service.gateway.issues_authorize
      (service.gateway.policyIssues_of_ext fun _ => trivial) (fun _ => trivial)
      (fun _ => trivial) (fun _ _ => trivial) trivial trivial
      (fun _ _ h => h.parameterFactRefs) _

end

/-- The resource of a proposal. -/
def ActionProposal.resourceRef (p : ActionProposal) : Option AuthoritativeResourceRef :=
  match ActionBridge.given p.resourceType, ActionBridge.given p.resourceId with
  | some resourceType, some resourceId => some ⟨resourceType, resourceId⟩
  | _, _ => none

namespace ActionBridge

theorem path_getOwned {X : Sig} {id customerId : String} {actorId : Option String}
    {p : ActionProposal} {xs : List (Event (sig X))}
    (h : Follows (getOwned id customerId actorId) xs (.ret p)) :
    xs = [⟨.tx (.getProposal id), some p⟩] := by
  obtain ⟨found, ys, rfl, hrest⟩ := h.of_perform_ret
  cases found with
  | none => cases hrest.of_raise.2
  | some p' =>
    simp only [Prog.bind_eq, Prog.throw_eq, Prog.bind_raise, Prog.pure_eq] at hrest
    split_ifs at hrest
    · cases hrest.of_raise.2
    · cases hrest.of_raise.2
    · obtain ⟨rfl, hp⟩ := hrest.of_ret
      cases hp
      rfl

theorem path_expired {X : Sig} {expiresAt : Time} {late : Bool} {xs : List (Event (sig X))}
    (h : Follows (expired expiresAt) xs (.ret late)) : ∃ now : Time, xs = [⟨.now, now⟩] := by
  obtain ⟨now, ys, rfl, hrest⟩ := h.of_perform_ret
  obtain ⟨rfl, -⟩ := hrest.of_ret
  exact ⟨now, rfl⟩

theorem resource_of_buildRequest {X : Sig} {bridge : ActionBridge X} {p : ActionProposal}
    {context : ActionConfirmationContext} {request : ConsequentialActionRequest}
    (h : bridge.buildRequest p context = .ok request) : request.resource = p.resourceRef := by
  unfold buildRequest at h
  cases hs : specification? p.action with
  | none =>
    simp only [hs] at h
    cases h
  | some specification =>
    cases hp : bridge.validatePayload p.payload with
    | none =>
      simp only [hs, hp] at h
      split_ifs at h <;> cases h
    | some payload =>
      simp only [hs, hp] at h
      split_ifs at h <;> cases h <;> rfl

/-- The version check of a proposal with a resource has read the version of the proposal. -/
theorem path_verifyResourceVersion {engine : Engine Y} {p : ActionProposal}
    {xs : List (StockEvent Y)}
    (ht : p.resourceType ≠ none) (hid : p.resourceId ≠ none)
    (h : Follows (engine.stocked.bridge.verifyResourceVersion p) xs (.ret ())) :
    ∃ ref r, p.resourceRef = some ref ∧ xs = [⟨.ext (.inl ref), some r⟩] ∧
      p.resourceVersion = some r.version := by
  unfold verifyResourceVersion at h
  rw [if_neg (not_or.2 ⟨ht, hid⟩)] at h
  obtain ⟨ys, zs, found, rfl, hload, h⟩ := h.of_bind_ret
  unfold loadResource at hload
  cases hrt : given p.resourceType with
  | none =>
    cases hri : given p.resourceId with
    | none =>
      simp only [hrt, hri, Prog.pure_eq] at hload
      obtain ⟨rfl, hfound⟩ := hload.of_ret
      cases hfound
      cases h.of_raise.2
    | some resourceId =>
      simp only [hrt, hri, Prog.throw_eq] at hload
      cases hload.of_raise.2
  | some resourceType =>
    cases hri : given p.resourceId with
    | none =>
      simp only [hrt, hri, Prog.throw_eq] at hload
      cases hload.of_raise.2
    | some resourceId =>
      simp only [hrt, hri] at hload
      obtain ⟨loaded, ys', rfl, hrest⟩ := hload.of_perform_ret
      cases loaded with
      | none => cases hrest.of_raise.2
      | some r =>
        obtain ⟨rfl, hfound⟩ := hrest.of_ret
        cases hfound
        simp only [Prog.throw_eq, Prog.pure_eq] at h
        split_ifs at h with hversion
        · cases h.of_raise.2
        · obtain ⟨rfl, -⟩ := h.of_ret
          refine ⟨⟨resourceType, resourceId⟩, r, ?_, rfl, (not_not.1 hversion).symm⟩
          simp only [ActionProposal.resourceRef, hrt, hri]

end ActionBridge

/-- What `submit` loads before it opens the case. -/
theorem path_loadResource {engine : Engine Y} {request : ConsequentialActionRequest}
    {specification : ActionSpecification} {upstream : Fields} {evidenceRef : String}
    {xs : List (StockEvent Y)}
    (h : Follows (engine.stocked.service.loadResource request specification) xs
      (.ret (upstream, evidenceRef))) :
    specification.authoritativeParameters = [] ∧ xs = [] ∨
    ∃ ref r, request.resource = some ref ∧ xs = [⟨.ext (.inl ref), some r⟩] ∧
      evidenceRef = citation ref r.version := by
  unfold loadResource at h
  split_ifs at h with hauth
  · exact Or.inl ⟨List.isEmpty_iff.1 hauth, h.of_ret.1⟩
  · cases hr : request.resource with
    | none =>
      simp only [hr, Prog.throw_eq] at h
      cases h.of_raise.2
    | some ref =>
      simp only [hr] at h
      obtain ⟨loaded, ys, rfl, hrest⟩ := h.of_perform_ret
      cases loaded with
      | none => cases hrest.of_raise.2
      | some r =>
        obtain ⟨ys1, ys2, u, rfl, hchecked, hend⟩ := hrest.of_bind_ret
        obtain ⟨rfl, hresult⟩ := hend.of_ret
        cases hresult
        obtain ⟨rfl, -⟩ := hchecked.of_ofExcept_ret
        exact Or.inr ⟨ref, r, rfl, rfl, rfl⟩

/-- The operations of a confirmation up to its version check. -/
def checking (id : String) (p : ActionProposal) (now : Time) (ref : AuthoritativeResourceRef)
    (r : Resource) : List (StockEvent Y) :=
  [⟨.tx (.getProposal id), some p⟩, ⟨.now, now⟩, ⟨.ext (.inl ref), some r⟩]

/-- The look-up of the key, which finds no action. -/
def lookedUp (key : String) : StockEvent Y := ⟨.tx (.getActionByKey key), none⟩

def loading (ref : AuthoritativeResourceRef) (r : Resource) : StockEvent Y :=
  ⟨.ext (.inl ref), some r⟩

/-- After the look-up a submission loads its resource, unless no parameter is authoritative. -/
def Submits (resource : Option AuthoritativeResourceRef) (record : ActionRecord)
    (xs : List (StockEvent Y)) : Prop :=
  (record.command.parameterFactRefs = [] ∧ ∃ evidenceRef, ∀ x ∈ xs, Op.cites [] evidenceRef x.1) ∨
  ∃ ref r rest, resource = some ref ∧ xs = loading ref r :: rest ∧ ∀ x ∈ rest,
    Op.cites record.command.parameterFactRefs (citation ref r.version) x.1

section
variable {engine : Engine Y} {record : ActionRecord} {v : ℤ} {res : Except PyErr Unit}
  {xs : List (StockEvent Y)} {p : ActionProposal} {context : ActionConfirmationContext}
  {q : Task (stockSig.sum Y) ActionProposal}

theorem not_decides_insert : ¬ Op.decides (Op.tx (.insertAction record v) : StockOp Y) :=
  fun h => h

theorem not_submits_insert :
    ¬ Op.submits (fun _ => False) (Op.tx (.insertAction record v) : StockOp Y) :=
  fun h => h

theorem path_submit {request : ConsequentialActionRequest} {actorId : String}
    (h : Follows ((engine.stocked.service.submit request actorId).bind
      (ActionBridge.recordConfirmed p context)) xs q)
    (hx : (⟨.tx (.insertAction record v), res⟩ : StockEvent Y) ∈ xs) :
    ∃ rest, xs = lookedUp request.idempotencyKey :: rest ∧
      Submits request.resource record rest := by
  unfold submit at h
  rw [Prog.bind_eq, Prog.bind_assoc] at h
  obtain ⟨found, zs, rfl, hrest⟩ := h.of_perform hx
  replace hx := (List.mem_cons.1 hx).resolve_left nofun
  cases found with
  | some duplicate =>
    obtain ⟨-, ws, a, -, -, hend, hin⟩ := hrest.beyond (submits_replay ..) hx not_submits_insert
    exact absurd ((hend.issues (ActionBridge.issues_recordConfirmed ..)).1 _ hin)
      not_decides_insert
  | none =>
    refine ⟨zs, rfl, ?_⟩
    unfold authorizeNew at hrest
    cases hspec : specification? request.payload.action with
    | none =>
      simp only [hspec, Prog.throw_eq, Prog.bind_eq, Prog.bind_raise] at hrest
      rw [hrest.of_raise.1] at hx
      cases hx
    | some specification =>
      simp only [hspec, Prog.bind_eq, Prog.bind_assoc] at hrest
      obtain ⟨ys, ws, loaded, rfl, hload, hend, hin⟩ :=
        hrest.beyond
          (ConsequentialActionService.issues_loadResource _ request (fun _ => trivial) _) hx
          not_submits_insert
      have hcites := (hend.issues (cites_loaded _ request actorId _ _ _ fun a =>
        Prog.issues_bind (cites_dispatches (ActionGateway.issues_dispatch _ a)) fun a =>
          cites_decides (ActionBridge.issues_recordConfirmed ..))).1
      have hrefs : record.command.parameterFactRefs = _ := hcites _ hin
      rw [← hrefs] at hcites
      rcases path_loadResource hload with ⟨hauth, rfl⟩ | ⟨ref, r, href, rfl, he⟩
      · have hnil : record.command.parameterFactRefs = [] := by
          rw [hrefs, hauth]
          rfl
        exact Or.inl ⟨hnil, _, hnil ▸ hcites⟩
      · exact Or.inr ⟨ref, r, ws, href, rfl, he ▸ hcites⟩

theorem path_submitPending (ht : p.resourceType ≠ none) (hid : p.resourceId ≠ none)
    (h : Follows (engine.stocked.bridge.submitPending p context) xs q)
    (hx : (⟨.tx (.insertAction record v), res⟩ : StockEvent Y) ∈ xs) :
    ∃ ref r key rest, p.resourceRef = some ref ∧ p.resourceVersion = some r.version ∧
      xs = loading ref r :: lookedUp key :: rest ∧ Submits (some ref) record rest := by
  obtain ⟨ys, zs, u, rfl, hversion, hrest, hin⟩ :=
    h.beyond (ActionBridge.submits_verifyResourceVersion ..) hx not_submits_insert
  obtain ⟨ref, r, href, rfl, hv⟩ := ActionBridge.path_verifyResourceVersion ht hid hversion
  obtain ⟨u', -, hrest⟩ := hrest.of_ofExcept hin
  obtain ⟨request, hbuilt, hrest⟩ := hrest.of_ofExcept hin
  obtain ⟨rest, rfl, hsubmits⟩ := path_submit hrest hin
  rw [ActionBridge.resource_of_buildRequest hbuilt, href] at hsubmits
  exact ⟨ref, r, request.idempotencyKey, rest, href, hv, rfl, hsubmits⟩

/-- The path of a confirmation that has inserted an action. -/
theorem path_confirm {id : String} (h : Follows (engine.stocked.bridge.confirm id context) xs q)
    (hx : (⟨.tx (.insertAction record v), res⟩ : StockEvent Y) ∈ xs) :
    ∃ p rest, xs = ⟨.tx (.getProposal id), some p⟩ :: rest ∧
      (p.resourceType ≠ none → p.resourceId ≠ none →
        ∃ now ref r key rest', p.resourceRef = some ref ∧ p.resourceVersion = some r.version ∧
          xs = checking id p now ref r ++ lookedUp key :: rest' ∧
          Submits (some ref) record rest') := by
  obtain ⟨ys, zs, p, rfl, howned, hrest, hin⟩ :=
    h.beyond (ActionBridge.issues_getOwned ..) hx not_decides_insert
  obtain rfl := ActionBridge.path_getOwned howned
  refine ⟨p, zs, rfl, fun ht hid => ?_⟩
  cases hs : p.status with
  | pending =>
    simp only [hs] at hrest
    obtain ⟨ys, ws, late, rfl, hlate, hbranch, hin'⟩ :=
      hrest.beyond (ActionBridge.issues_expired _) hin not_decides_insert
    obtain ⟨now, rfl⟩ := ActionBridge.path_expired hlate
    split_ifs at hbranch
    · exact absurd ((hbranch.issues (ActionBridge.issues_transitionOrCurrent ..)).1 _ hin')
        not_decides_insert
    · obtain ⟨ref, r, key, rest, href, hv, rfl, hsubmits⟩ :=
        path_submitPending ht hid hbranch hin'
      exact ⟨now, ref, r, key, rest, href, hv, rfl, hsubmits⟩
  | confirmed =>
    simp only [hs, Prog.pure_eq] at hrest
    rw [hrest.of_ret.1] at hin
    cases hin
  | _ =>
    simp only [hs, Prog.throw_eq] at hrest
    rw [hrest.of_raise.1] at hin
    cases hin

end

section
variable {engine : Engine Y} {admits : Admission _ V.stocked}

/-- What a task has done. -/
def eventsOf {X : Sig} {W : World X} (h : Log W) (τ : ℕ) : List (Event (sig X)) :=
  (h.own τ).map Entry.event

def stock (h : Log V.stocked) (ref : AuthoritativeResourceRef) : Option Resource :=
  h.state.ext.1 ref.resourceType ref.resourceId

/-- `τ` is a running confirmation that has found `r` at the version of its proposal; it has yet to
look up its key, or has found no action and is about to load the resource. -/
def Between (c : (engine.stocked.system V.stocked admits).Config) (τ : ℕ)
    (ref : AuthoritativeResourceRef) (r : Resource) : Prop :=
  ∃ id p now o k, System.Ready _ c τ o k ∧ p.resourceVersion = some r.version ∧
    (eventsOf c.hist τ = checking id p now ref r ∨
      o = .ext (.inl ref) ∧ ∃ key, eventsOf c.hist τ = checking id p now ref r ++ [lookedUp key])

/-- The decision that meets the condition: no resource is put between the version check of a
confirmation and the load of its submission. -/
def LeavesChecked (c : (engine.stocked.system V.stocked admits).Config) :
    (engine.stocked.system V.stocked admits).Move → Prop
  | .drift e => ∀ ref payload, e.ext.put = some (ref, payload) → ∀ τ r, ¬ Between c τ ref r
  | _ => True

/-- The invariant of the runs whose decisions all meet the condition. -/
structure Checked (c : (engine.stocked.system V.stocked admits).Config) : Prop where
  pending : ∀ τ ref r, Between c τ ref r → stock c.hist ref = some r
  loaded : ∀ τ id p now ref r key r' rest, p.resourceVersion = some r.version →
    eventsOf c.hist τ = checking id p now ref r ++ lookedUp key :: loading ref r' :: rest → r' = r

theorem last_of_snoc {γ : Type} {xs ys : List γ} {x y : γ} (h : xs ++ [x] = ys ++ [y]) :
    xs = ys ∧ x = y := by
  obtain ⟨h1, h2⟩ := List.append_inj' h rfl
  exact ⟨h1, List.singleton_inj.1 h2⟩

theorem eventsOf_after (h : Log V.stocked) (τ : ℕ) (o : StockOp Y) (e : EngineChoice V.stocked) :
    eventsOf ((engine.stocked.system V.stocked admits).after h τ o e) τ =
      eventsOf h τ ++ [⟨o, (Engine.exec V.stocked e h.state o).1⟩] := by
  have hown := (engine.stocked.system V.stocked admits).own_after h τ o e
  rw [eventsOf, hown, List.map_append]
  rfl

theorem eventsOf_after_ne (h : Log V.stocked) {τ τ' : ℕ} (hne : τ' ≠ τ) (o : StockOp Y)
    (e : EngineChoice V.stocked) :
    eventsOf ((engine.stocked.system V.stocked admits).after h τ o e) τ' = eventsOf h τ' := by
  have hown := (engine.stocked.system V.stocked admits).own_after_ne h hne o e
  rw [eventsOf, hown]
  rfl

/-- Only others put resources. -/
theorem stock_exec (e : EngineChoice V.stocked) (s : EngineState V.stocked) (o : StockOp Y) :
    (Engine.exec V.stocked e s o).2.ext.1 = s.ext.1 := by
  cases o with
  | ext o => cases o <;> rfl
  | _ => rfl

theorem put_ne {t : ResourceTable} {ref ref' : AuthoritativeResourceRef} {payload : Fields}
    (hne : ref' ≠ ref) : t.put ref.resourceType ref.resourceId payload ref'.resourceType
      ref'.resourceId = t ref'.resourceType ref'.resourceId := by
  refine if_neg fun h => hne ?_
  cases ref
  cases ref'
  obtain ⟨rfl, rfl⟩ := h
  rfl

theorem Checked.after {c : (engine.stocked.system V.stocked admits).Config} (hi : Checked c) {τ : ℕ}
    {o : StockOp Y} {k : o.Res → Task (stockSig.sum Y) Reply}
    (hr : System.Ready _ c τ o k) (e : EngineChoice V.stocked) :
    Checked (⟨(engine.stocked.system V.stocked admits).after c.hist τ o e,
      c.tasks.set τ (k (Engine.exec V.stocked e c.hist.state o).1)⟩ :
        (engine.stocked.system V.stocked admits).Config) := by
  have hstock : ∀ ref, stock ((engine.stocked.system V.stocked admits).after c.hist τ o e) ref =
      stock c.hist ref := fun ref => congrArg (fun t : ResourceTable =>
    t ref.resourceType ref.resourceId) (stock_exec e c.hist.state o)
  refine ⟨fun τ' ref r hb => ?_, fun τ' id p now ref r key r' rest hv hs => ?_⟩
  · rw [hstock]
    obtain ⟨id, p, now, o', k', hr', hv, hs⟩ := hb
    by_cases hne : τ' = τ
    · subst hne
      rw [eventsOf_after] at hs
      rcases hs with hs | ⟨-, key, hs⟩
      · -- the load of the check itself
        have hs : _ ++ [_] = [⟨.tx (.getProposal id), some p⟩, ⟨.now, now⟩] ++ [loading ref r] := hs
        obtain ⟨rfl, hres⟩ := Sigma.mk.inj (last_of_snoc hs).2
        exact eq_of_heq hres
      · obtain ⟨hold, -⟩ := last_of_snoc hs
        exact hi.pending τ' ref r ⟨id, p, now, o, k, hr, hv, Or.inl hold⟩
    · rw [eventsOf_after_ne c.hist hne] at hs
      refine hi.pending τ' ref r ⟨id, p, now, o', k', ⟨?_, hr'.2⟩, hv, hs⟩
      exact (List.getElem?_set_ne (Ne.symm hne)).symm.trans hr'.1
  · by_cases hne : τ' = τ
    · subst hne
      rw [eventsOf_after] at hs
      have hs : _ ++ [_] = (checking id p now ref r ++ [lookedUp key]) ++ loading ref r' :: rest :=
        hs.trans (List.append_cons ..)
      rcases split_snoc hs with ⟨rest', -, hold⟩ | ⟨-, hx, hold⟩
      · exact hi.loaded τ' id p now ref r key r' rest' hv (hold.trans (List.append_cons ..).symm)
      · obtain ⟨ho, hres⟩ := Sigma.mk.inj hx
        have hheld := hi.pending τ' ref r
          ⟨id, p, now, o, k, hr, hv, Or.inr ⟨ho.symm, key, hold.symm⟩⟩
        subst ho
        have hfound : some r' = stock c.hist ref := eq_of_heq hres
        exact Option.some.inj (hfound.trans hheld)
    · rw [eventsOf_after_ne c.hist hne] at hs
      exact hi.loaded τ' id p now ref r key r' rest hv hs

theorem Checked.spawned {c : (engine.stocked.system V.stocked admits).Config} (hi : Checked c)
    (call : Call (stockSig.sum Y))
    (hb : ∀ x ∈ c.hist.trace, ∃ p, c.tasks[x.tid]? = some p) :
    Checked (⟨(engine.stocked.system V.stocked admits).spawned c.hist call,
      c.tasks ++ [engine.stocked.body call]⟩ :
        (engine.stocked.system V.stocked admits).Config) := by
  refine ⟨fun τ ref r hbetween => ?_, hi.loaded⟩
  obtain ⟨id, p, now, o, k, ⟨ht, hc⟩, hv, hs⟩ := hbetween
  refine hi.pending τ ref r ⟨id, p, now, o, k, ⟨?_, hc⟩, hv, hs⟩
  -- the task has done something, so it is not the new one
  have hne : c.hist.own τ ≠ [] := by
    intro hnil
    have hevents : eventsOf c.hist τ = [] := congrArg (List.map Entry.event) hnil
    rcases hs with hs | ⟨-, key, hs⟩ <;> cases hevents.symm.trans hs
  obtain ⟨x, hx⟩ := List.exists_mem_of_ne_nil _ hne
  obtain ⟨hmem, htid⟩ := List.mem_filter.1 hx
  obtain ⟨p', hp'⟩ := hb x hmem
  rw [of_decide_eq_true htid] at hp'
  exact (List.getElem?_append_left (List.getElem?_eq_some_iff.1 hp').1).symm.trans ht

theorem Checked.drifted {c : (engine.stocked.system V.stocked admits).Config} (hi : Checked c)
    (e : EngineChoice V.stocked) (hG : LeavesChecked c (.drift e)) :
    Checked (⟨(engine.stocked.system V.stocked admits).drifted c.hist e, c.tasks⟩ :
      (engine.stocked.system V.stocked admits).Config) := by
  refine ⟨fun τ ref r hb => ?_, hi.loaded⟩
  have hold : Between c τ ref r := hb
  have hheld := hi.pending τ ref r hold
  change (V.stocked.drift e.ext c.hist.state.ext).1 ref.resourceType ref.resourceId = some r
  cases hp : e.ext.put with
  | none =>
    simp only [World.stocked, hp]
    exact hheld
  | some put =>
    obtain ⟨ref', payload⟩ := put
    simp only [World.stocked, hp]
    have hne : ref ≠ ref' := by
      rintro rfl
      exact hG ref payload hp τ r hold
    exact (put_ne hne).trans hheld

theorem checked_run (s : EngineState V.stocked)
    (acts : List (engine.stocked.system V.stocked admits).Move)
    (hG : System.Guarded LeavesChecked ((engine.stocked.system V.stocked admits).init s) acts) :
    Checked ((engine.stocked.system V.stocked admits).run
      ((engine.stocked.system V.stocked admits).init s) acts) := by
  refine System.run_induction (J := Checked)
    ⟨fun τ ref r hb => ?_, fun τ id p now ref r key r' rest _ hs => ?_⟩
    (fun before a hi ha => ?_) acts hG
  · obtain ⟨id, p, now, o, k, hr, -⟩ := hb
    cases hr.1
  · cases hs
  · rcases System.next_cases _ a with hn | ⟨call, rfl, -, hn⟩ | ⟨τ, e, o, k, rfl, hr, hn⟩ |
        ⟨τ, -, hn⟩ | ⟨e, rfl, hn⟩ <;> rw [hn]
    · exact hi
    · exact hi.spawned call fun x hx => System.task_of_mem s before hx
    · exact hi.after hr e
    · refine ⟨fun τ' ref r hb => ?_, hi.loaded⟩
      obtain ⟨id, p, now, o, k, hr, hv, hs⟩ := hb
      exact hi.pending τ' ref r
        ⟨id, p, now, o, k, ⟨hr.1, fun hc => hr.2 (List.mem_cons_of_mem _ hc)⟩, hv, hs⟩
    · exact hi.drifted e ha

/-- The submission of a confirmation of `p` has loaded its resource at this version. -/
def LoadedAt (h : Log V.stocked) (τ : ℕ) (id : String) (p : ActionProposal)
    (ref : AuthoritativeResourceRef) (version : ℤ) : Prop :=
  ∃ now r key r' rest, r'.version = version ∧
    eventsOf h τ = checking id p now ref r ++ lookedUp key :: loading ref r' :: rest

/-- A confirmation that has inserted an action executes what was previewed: the version of its
proposal is the one that its submission has loaded and that its facts cite. -/
def ExecutesPreviewed (h : Log V.stocked) : Prop :=
  ∀ (τ : ℕ) id context p rest record v, h.calls[τ]? = some (.confirm id context) →
    eventsOf h τ = ⟨.tx (.getProposal id), some p⟩ :: rest →
    p.resourceType ≠ none → p.resourceId ≠ none →
    (⟨.tx (.insertAction record v), .ok ()⟩ : StockEvent Y) ∈ eventsOf h τ →
    ∃ ref version, p.resourceRef = some ref ∧ p.resourceVersion = some version ∧
      (record.command.parameterFactRefs ≠ [] → LoadedAt h τ id p ref version) ∧
      ∀ caseId fact v res,
        (⟨.tx (.appendFact caseId fact v), res⟩ : StockEvent Y) ∈ eventsOf h τ →
        fact.evidenceRef = citation ref version

/-- In every run whose decisions all meet the condition, confirmations execute what was
previewed. -/
theorem confirmation_executes_preview (engine : Engine Y) (V : World Y)
    (admits : Admission _ V.stocked) (s : EngineState V.stocked)
    (acts : List (engine.stocked.system V.stocked admits).Move)
    (hG : System.Guarded LeavesChecked ((engine.stocked.system V.stocked admits).init s) acts) :
    ExecutesPreviewed (engine.stocked.history V.stocked admits s acts) := by
  intro τ id context p rest record v hcall hread ht hid hx
  have hi := checked_run s acts hG
  obtain ⟨x, hmem, -⟩ := List.mem_map.1 hx
  obtain ⟨hmem, htid⟩ := List.mem_filter.1 hmem
  obtain ⟨q, hq⟩ := System.task_of_mem s acts hmem
  rw [of_decide_eq_true htid] at hq
  obtain ⟨call, hcall', hf⟩ := System.follows_run s acts hq
  obtain rfl := Option.some.inj (hcall'.symm.trans hcall)
  obtain ⟨q', hconfirm⟩ : ∃ q', Follows (engine.stocked.bridge.confirm id context)
      (eventsOf (engine.stocked.history V.stocked admits s acts) τ) q' := Follows.of_map hf
  obtain ⟨p', rest', hread', hpath⟩ := path_confirm hconfirm hx
  obtain ⟨hp, -⟩ := List.cons.inj (hread'.symm.trans hread)
  cases hp
  obtain ⟨now, ref, r, key, rest'', href, hv, hevents, hsubmits⟩ := hpath ht hid
  refine ⟨ref, r.version, href, hv, ?_⟩
  rcases hsubmits with ⟨hnil, evidenceRef, hcites⟩ | ⟨ref', r', rest''', href', rfl, hcites⟩
  · -- no parameter is authoritative, and no fact is committed
    refine ⟨fun hne => absurd hnil hne, fun caseId fact v res hfact => ?_⟩
    rw [hevents] at hfact
    simp only [checking, lookedUp, List.cons_append, List.nil_append, List.mem_cons] at hfact
    rcases hfact with hfact | hfact | hfact | hfact | hfact
    · cases hfact
    · cases hfact
    · cases hfact
    · cases hfact
    · exact absurd rfl (hcites _ hfact).1
  · obtain rfl := Option.some.inj href'
    obtain rfl := hi.loaded τ id p now ref r key r' rest''' hv hevents
    refine ⟨fun _ => ⟨now, r', key, r', rest''', rfl, hevents⟩, fun caseId fact v res hfact => ?_⟩
    rw [hevents] at hfact
    simp only [checking, lookedUp, loading, List.cons_append, List.nil_append,
      List.mem_cons] at hfact
    rcases hfact with hfact | hfact | hfact | hfact | hfact | hfact
    · cases hfact
    · cases hfact
    · cases hfact
    · cases hfact
    · cases hfact
    · exact (hcites _ hfact).2

end

section
open World

/-- Resources are put while no task runs. -/
def putsAtRest {engine : Engine Y} {admits : Admission _ V.stocked}
    (c : (engine.stocked.system V.stocked admits).Config) :
    (engine.stocked.system V.stocked admits).Move → Bool
  | .drift e => e.ext.put.isNone || (List.range c.tasks.length).all fun τ => !System.live _ c τ
  | _ => true

theorem leavesChecked_of_putsAtRest {engine : Engine Y} {admits : Admission _ V.stocked}
    (c : (engine.stocked.system V.stocked admits).Config)
    (a : (engine.stocked.system V.stocked admits).Move) (h : putsAtRest c a = true) :
    LeavesChecked c a := by
  cases a with
  | drift e =>
    rintro ref payload hp τ r ⟨id, p, now, o, k, hr, -⟩
    have hlive : System.live _ c τ = true := System.live_iff.2 ⟨o, k, hr⟩
    simp only [putsAtRest, hp, Option.isNone_some, Bool.false_or, List.all_eq_true,
      List.mem_range, Bool.not_eq_true'] at h
    exact absurd (h τ (System.lt_of_live hlive)) (by simp [hlive])
  | _ => trivial

def flagEngine : Engine ⟨Empty, Empty.elim⟩ where
  gateway := { connectors := .mapping fun _ => some noteConnector }
  resources _ _ := return none
  validatePayload := ActionPayload.validate

def accountPayload (status : String) : Fields :=
  [("account_id", .str "A-1"), ("status", .str status)]

def flagProposal : ActionProposal where
  proposalId := "PROP-1"
  action := "flag_account"
  payload := [("action", .str "flag_account"), ("account_id", .str "A-1"), ("reason", .str "r"),
    ("restriction", .str "freeze")]
  caseId := "C-1"
  customerId := "U-1"
  actorId := "agent"
  procedureId := "proc"
  procedureVersion := "1"
  policyPackageId := "P-1"
  resourceType := some "account"
  resourceId := some "A-1"
  resourceVersion := some 2
  idempotencyKey := "key-1"
  status := .pending
  createdAt := 0
  expiresAt := 900000000
  updatedAt := 0

/-- The proposal to flag the account, which is at its second version. -/
def flagProposed : EngineState isolated.stocked where
  db := { Db.empty with proposals := ⟨[flagProposal], fun _ => List.nodup_singleton _⟩ }
  clock := 0
  ext := (fun _ _ => some ⟨accountPayload "open", 2⟩, ())

abbrev FlagMove := (flagEngine.stocked.system isolated.stocked fun _ _ => true).Move

/-- Let the confirmation take its next `n` operations, with fresh identifiers. -/
def flagMoves (n : ℕ) : List FlagMove :=
  (List.range n).map fun i => .run 0 ⟨fun j => toString i ++ "." ++ toString j, 0, ⟨none, ()⟩⟩

/-- The account is closed: no parameter of the action changes. -/
def accountCloses : FlagMove :=
  .drift ⟨toString, 0, ⟨some (⟨"account", "A-1"⟩, accountPayload "closed"), ()⟩⟩

def flagConfirmed : List FlagMove :=
  [.spawn (.confirm "PROP-1" ⟨"agent", "U-1", none, some "approval-1"⟩)]

abbrev flagLog (acts : List FlagMove) : Log isolated.stocked :=
  flagEngine.stocked.history isolated.stocked (fun _ _ => true) flagProposed acts

def isInsertion : StockEvent Y → Bool
  | ⟨.tx (.insertAction ..), .ok _⟩ => true
  | _ => false

def citedBy : StockEvent Y → Option String
  | ⟨.tx (.appendFact _ fact _), _⟩ => some fact.evidenceRef
  | _ => none

/-- The proposal that a task has read first. -/
def previewed : List (StockEvent Y) → Option (String × ActionProposal)
  | ⟨.tx (.getProposal id), some p⟩ :: _ => some (id, p)
  | _ => none

theorem not_executesPreviewed {engine : Engine Y} {admits : Admission _ V.stocked}
    {s : EngineState V.stocked} {acts : List (engine.stocked.system V.stocked admits).Move}
    {τ : ℕ} {id : String} {context : ActionConfirmationContext}
    {p : ActionProposal} {ref : AuthoritativeResourceRef} {version : ℤ} (evidenceRef : String)
    (hcall : (engine.stocked.history V.stocked admits s acts).calls[τ]? =
      some (.confirm id context))
    (hread : previewed (eventsOf (engine.stocked.history V.stocked admits s acts) τ) =
      some (id, p))
    (hinserted : (eventsOf (engine.stocked.history V.stocked admits s acts) τ).any
      isInsertion = true)
    (hcited : (eventsOf (engine.stocked.history V.stocked admits s acts) τ).any
      (fun x => citedBy x == some evidenceRef) = true)
    (ht : p.resourceType ≠ none) (hid : p.resourceId ≠ none) (href : p.resourceRef = some ref)
    (hv : p.resourceVersion = some version) (hne : evidenceRef ≠ citation ref version) :
    ¬ ExecutesPreviewed (engine.stocked.history V.stocked admits s acts) := by
  intro hall
  obtain ⟨⟨o, r⟩, hx, hinsertion⟩ := List.any_eq_true.1 hinserted
  obtain ⟨⟨o', r'⟩, hy, hcites⟩ := List.any_eq_true.1 hcited
  obtain ⟨rest, hevents⟩ : ∃ rest, eventsOf (engine.stocked.history V.stocked admits s acts) τ =
      ⟨.tx (.getProposal id), some p⟩ :: rest := by
    unfold previewed at hread
    split at hread
    · rename_i hevents
      cases hread
      exact ⟨_, hevents⟩
    · cases hread
  unfold isInsertion at hinsertion
  split at hinsertion
  · rename_i record v _ he
    cases he
    obtain ⟨ref', version', href', hv', -, hall⟩ :=
      hall τ id context p rest record v hcall hevents ht hid hx
    obtain rfl := Option.some.inj (href'.symm.trans href)
    obtain rfl := Option.some.inj (hv'.symm.trans hv)
    unfold citedBy at hcites
    split at hcites
    · rename_i caseId fact v _ hfact
      cases hfact
      have hcites := Option.some.inj (eq_of_beq hcites)
      exact hne (hcites.symm.trans (hall caseId fact v _ hy))
    · cases hcites
  · cases hinsertion

/-- The account is closed after the version check, and its third version is executed. -/
theorem preview_not_executed :
    ¬ ExecutesPreviewed (flagLog (flagConfirmed ++ flagMoves 3 ++ accountCloses :: flagMoves 20)) :=
  @not_executesPreviewed _ _ _ _ _ _ 0 "PROP-1" ⟨"agent", "U-1", none, some "approval-1"⟩
    flagProposal ⟨"account", "A-1"⟩ 2 "sandbox:account:A-1:v3" (System.call_of_spawn rfl _)
    (by decide +kernel) (by decide +kernel) (by decide +kernel) nofun nofun rfl rfl
    (by decide +kernel)

/-- The account is closed when the confirmation is over. -/
def closedAfterwards : List FlagMove := flagConfirmed ++ flagMoves 30 ++ [accountCloses]

theorem preview_executed :
    System.Guarded LeavesChecked ((flagEngine.stocked.system isolated.stocked fun _ _ => true).init
      flagProposed) closedAfterwards ∧
    ExecutesPreviewed (flagLog closedAfterwards) ∧
    (eventsOf (flagLog closedAfterwards) 0).any isInsertion = true := by
  have hG : System.Guarded LeavesChecked
      ((flagEngine.stocked.system isolated.stocked fun _ _ => true).init flagProposed)
      closedAfterwards := by
    refine System.Guarded.mono leavesChecked_of_putsAtRest ?_
    decide +kernel
  exact ⟨hG, confirmation_executes_preview flagEngine isolated (fun _ _ => true) flagProposed
    closedAfterwards hG, by decide +kernel⟩

end

end WorkflowEngine
