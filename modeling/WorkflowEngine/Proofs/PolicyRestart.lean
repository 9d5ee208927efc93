import WorkflowEngine.Proofs.PolicySnapshot

/-! A restart of the policy service cannot be observed. The registry of a running process is
kept call by call: a retired package leaves the active packages, while its active version
stays in the history. A registry that is filled from the repository holds the retired version
instead. Both show what the repository holds. -/

namespace WorkflowEngine

open Interleave PolicyPackages

/-- What the caller of `require_authorization_snapshot` reads. -/
def PolicyPackage.snapshot (p : PolicyPackage) : Fields × String × Option String :=
  (p.rules, p.procedureId, p.activationSignature)

/-- No lookup tells the registries apart. -/
structure PolicyRegistry.Equivalent (hmac : Hmac) (a b : PolicyRegistry) : Prop where
  active : ∀ packageId, a.requireActive packageId = b.requireActive packageId
  snapshot : ∀ packageId activationSignature,
    (a.requireAuthorizationSnapshot hmac packageId activationSignature).map PolicyPackage.snapshot =
      (b.requireAuthorizationSnapshot hmac packageId activationSignature).map
        PolicyPackage.snapshot

namespace PolicyPackages

def active (t : PolicyPackages) (packageId : String) : Option PolicyPackage :=
  (SQLitePolicyRepository.get t packageId).filter fun p => p.lifecycle = .active

/-- The packages that `hydrate` loads. -/
def history (t : PolicyPackages) (packageId : String) : Option PolicyPackage :=
  (SQLitePolicyRepository.get t packageId).filter fun p => p.lifecycle ∈ [.active, .retired]

theorem get_put {t t' : PolicyPackages} {p : PolicyPackage} (h : t.Put p t') (k : String) :
    SQLitePolicyRepository.get t' k =
      if k = p.packageId then some p else SQLitePolicyRepository.get t k := by
  change (t'.row? k).map PolicyRow.packageJson =
    if _ then _ else (t.row? k).map PolicyRow.packageJson
  rw [h k]
  split_ifs
  · cases t.row? k <;> rfl
  · rfl

theorem active_put {t t' : PolicyPackages} {p : PolicyPackage} (h : t.Put p t') (k : String) :
    t'.active k = if k = p.packageId then if p.lifecycle = .active then some p else none
      else t.active k := by
  unfold active
  rw [get_put h]
  split_ifs with hk hl
  · simp [hl]
  · simp [hl]
  · rfl

theorem history_put {t t' : PolicyPackages} {p : PolicyPackage} (h : t.Put p t') (k : String) :
    t'.history k = if k = p.packageId then
      if p.lifecycle ∈ [.active, .retired] then some p else none else t.history k := by
  unfold history
  rw [get_put h]
  split_ifs with hk hl
  · rw [Option.filter_some, if_pos (by simpa using hl)]
  · rw [Option.filter_some, if_neg (by simpa using hl)]
  · rfl

theorem active_eq_some {t : PolicyPackages} {k : String} {p : PolicyPackage} :
    t.active k = some p ↔ SQLitePolicyRepository.get t k = some p ∧ p.lifecycle = .active := by
  simp [active, Option.filter_eq_some_iff]

theorem history_eq_some {t : PolicyPackages} {k : String} {p : PolicyPackage} :
    t.history k = some p ↔
      SQLitePolicyRepository.get t k = some p ∧ p.lifecycle ∈ [.active, .retired] := by
  simp [history, Option.filter_eq_some_iff]

end PolicyPackages

/-- The registry shows the repository. The version in the history may be an older one. -/
structure PolicyRegistry.Reflects (hmac : Hmac) (r : PolicyRegistry) (t : PolicyPackages) :
    Prop where
  active : ∀ k, r.active k = t.active k
  history : ∀ k, (r.packages k).map PolicyPackage.snapshot =
    (t.history k).map PolicyPackage.snapshot
  verified : ∀ k p, r.packages k = some p → r.signer.verify hmac p = true

namespace PolicyRegistry

variable {hmac : Hmac}

theorem snapshot_of_verified {r : PolicyRegistry} {k activationSignature : String}
    (h : ∀ p, r.packages k = some p → r.signer.verify hmac p = true) :
    (r.requireAuthorizationSnapshot hmac k activationSignature).map PolicyPackage.snapshot =
      match (r.packages k).map PolicyPackage.snapshot with
      | none => .error (.valueError ("Policy package history is unavailable: " ++ k))
      | some snapshot =>
        if snapshot.2.2 ≠ some activationSignature then
          .error (.valueError "Action policy activation snapshot does not match policy history")
        else .ok snapshot := by
  unfold requireAuthorizationSnapshot
  cases hp : r.packages k with
  | none => rfl
  | some p =>
    have hv := h p hp
    simp only [hv, Bool.not_true, Bool.false_eq_true, if_false, Option.map_some,
      PolicyPackage.snapshot]
    split_ifs <;> rfl

theorem Reflects.equivalent {a b : PolicyRegistry} {t : PolicyPackages} (ha : a.Reflects hmac t)
    (hb : b.Reflects hmac t) : a.Equivalent hmac b := by
  constructor
  · intro k
    unfold requireActive
    rw [ha.active, hb.active]
  · intro k activationSignature
    rw [snapshot_of_verified (ha.verified k), snapshot_of_verified (hb.verified k), ha.history,
      hb.history]

section Calls

variable {r : PolicyRegistry} {t t' : PolicyPackages} {p : PolicyPackage}

/-- A package that is not executable is not in the registry. -/
theorem Reflects.pending (h : r.Reflects hmac t) (hput : t.Put p t')
    (hp : p.lifecycle ∉ [.active, .retired]) (hn : t.history p.packageId = none)
    (ha : t.active p.packageId = none) : r.Reflects hmac t' := by
  have hna : p.lifecycle ≠ .active := fun he => hp (by simp [he])
  refine ⟨fun k => ?_, fun k => ?_, h.verified⟩
  · rw [h.active, active_put hput]
    split_ifs with hk
    · rw [hk, ha]
    · rfl
  · rw [h.history, history_put hput]
    split_ifs with hk
    · rw [hk, hn]
    · rfl

/-- The retired version of a package takes the place of the one in the repository. -/
theorem Reflects.retire (h : r.Reflects hmac t) (hput : t.Put p t') (hl : p.lifecycle = .retired)
    (hp : (t.history p.packageId).map PolicyPackage.snapshot = some p.snapshot) :
    (r.retire p.packageId).Reflects hmac t' := by
  refine ⟨fun k => ?_, fun k => ?_, h.verified⟩
  · rw [active_put hput]
    unfold PolicyRegistry.retire
    simp only [Function.update_apply, hl, h.active, reduceCtorEq, if_false]
  · rw [history_put hput]
    change (r.packages k).map _ = _
    rw [h.history]
    split_ifs with hk hr
    · rw [hk, hp]
      rfl
    · simp [hl] at hr
    · rfl

theorem history_retired (hput : t.Put p t') (hl : p.lifecycle = .retired) {q : PolicyPackage}
    (hp : (t.history p.packageId).map PolicyPackage.snapshot = some p.snapshot)
    (hq : (t.history q.packageId).map PolicyPackage.snapshot = some q.snapshot) :
    (t'.history q.packageId).map PolicyPackage.snapshot = some q.snapshot := by
  rw [history_put hput]
  split_ifs with hk hr
  · rw [← hq, hk, hp]
    rfl
  · simp [hl] at hr
  · exact hq

theorem Reflects.load (h : r.Reflects hmac t) (hput : t.Put p t') (hl : p.lifecycle = .active)
    (hv : r.signer.verify hmac p = true) : (r.updateAll hmac [.load p]).2.Reflects hmac t' := by
  have he : (r.updateAll hmac [.load p]).2 = { r with
      active := Function.update r.active p.packageId (some p)
      packages := Function.update r.packages p.packageId (some p) } := by
    simp [updateAll, update, PolicyRegistry.load, hl, hv]
  rw [he]
  refine ⟨fun k => ?_, fun k => ?_, fun k q hq => ?_⟩
  · rw [active_put hput]
    simp only [Function.update_apply, hl, h.active, if_true]
  · rw [history_put hput]
    simp only [Function.update_apply]
    split_ifs with hk hr
    · rfl
    · simp [hl] at hr
    · exact h.history k
  · simp only [Function.update_apply] at hq
    split_ifs at hq
    · cases hq
      exact hv
    · exact h.verified k q hq

/-- The retirements and the activation of `activate`, in the repository and in the registry. -/
theorem Reflects.replaceActive {active : PolicyPackage} {retired : List PolicyPackage}
    (h : r.Reflects hmac t) (hput : t.Puts (retired ++ [active]) t')
    (hret : ∀ p ∈ retired, p.lifecycle = .retired ∧
      (t.history p.packageId).map PolicyPackage.snapshot = some p.snapshot)
    (hl : active.lifecycle = .active) (hv : r.signer.verify hmac active = true) :
    (r.updateAll hmac (retired.map (fun existing => .retire existing.packageId) ++
      [.load active])).2.Reflects hmac t' := by
  induction retired generalizing r t with
  | nil =>
    cases hput with
    | cons hput hnil =>
      cases hnil
      exact h.load hput hl hv
  | cons p retired ih =>
    cases hput with
    | cons hput hputs =>
      obtain ⟨hpl, hps⟩ := hret p List.mem_cons_self
      refine ih (h.retire hput hpl hps) hputs (fun q hq => ?_) hv
      obtain ⟨hql, hqs⟩ := hret q (List.mem_cons_of_mem _ hq)
      exact ⟨hql, history_retired hput hpl hps hqs⟩

/-- What a lookup puts into the registry is what the repository holds. -/
theorem Reflects.loadHistory (h : r.Reflects hmac t)
    (hp : SQLitePolicyRepository.get t p.packageId = some p) :
    (r.updateAll hmac [.loadHistory p]).2.Reflects hmac t := by
  unfold updateAll
  split
  case h_2 => exact h
  case h_1 r' hr' =>
    simp only [update, PolicyRegistry.loadHistory] at hr'
    split_ifs at hr' with hl hv ha
    all_goals
      cases hr'
      have hv : r.signer.verify hmac p = true := by simpa using hv
      have hh : t.history p.packageId = some p := history_eq_some.2 ⟨hp, hl⟩
      have hverified : ∀ k q, Function.update r.packages p.packageId (some p) k = some q →
          r.signer.verify hmac q = true := by
        intro k q hq
        rw [Function.update_apply] at hq
        split_ifs at hq
        · cases hq
          exact hv
        · exact h.verified k q hq
      have hhistory : ∀ k, (Function.update r.packages p.packageId (some p) k).map
          PolicyPackage.snapshot = (t.history k).map PolicyPackage.snapshot := by
        intro k
        rw [Function.update_apply]
        split_ifs with hk
        · rw [hk, hh]
        · exact h.history k
    · refine ⟨fun k => ?_, hhistory, hverified⟩
      change Function.update r.active p.packageId (some p) k = _
      rw [Function.update_apply]
      split_ifs with hk
      · rw [hk, active_eq_some.2 ⟨hp, ha⟩]
      · exact h.active k
    · exact ⟨h.active, hhistory, hverified⟩

end Calls

/-- The registry holds the packages that were loaded, each under its id. -/
structure Filled (r : PolicyRegistry) (loaded : List PolicyPackage) : Prop where
  packages : ∀ k p, r.packages k = some p → p ∈ loaded ∧ p.packageId = k
  active : ∀ k p, r.active k = some p → p ∈ loaded ∧ p.packageId = k ∧ p.lifecycle = .active
  loaded : ∀ p ∈ loaded, (r.packages p.packageId).isSome ∧
    (p.lifecycle = .active → (r.active p.packageId).isSome)

theorem filled_nil (signer : PolicySigner) : ({ signer := signer } : PolicyRegistry).Filled [] :=
  ⟨nofun, nofun, nofun⟩

theorem Filled.loadHistory {r r' : PolicyRegistry} {loaded : List PolicyPackage}
    {p : PolicyPackage} (h : r.Filled loaded) (hp : r.loadHistory hmac p = .ok r') :
    r'.Filled (loaded ++ [p]) := by
  unfold PolicyRegistry.loadHistory at hp
  split_ifs at hp with hl hv ha
  all_goals
    cases hp
    constructor
    · intro k q hq
      simp only [Function.update_apply] at hq
      split_ifs at hq with hk
      · cases hq
        exact ⟨by simp, hk.symm⟩
      · exact ⟨List.mem_append_left _ (h.packages k q hq).1, (h.packages k q hq).2⟩
  · intro k q hq
    simp only [Function.update_apply] at hq
    split_ifs at hq with hk
    · cases hq
      exact ⟨by simp, hk.symm, ha⟩
    · exact ⟨List.mem_append_left _ (h.active k q hq).1, (h.active k q hq).2⟩
  · intro q hq
    simp only [Function.update_apply]
    rcases List.mem_append.1 hq with hq | hq
    · obtain ⟨h1, h2⟩ := h.loaded q hq
      split_ifs
      · exact ⟨rfl, fun _ => rfl⟩
      · exact ⟨h1, h2⟩
    · rw [List.mem_singleton.1 hq]
      simp
  · intro k q hq
    exact ⟨List.mem_append_left _ (h.active k q hq).1, (h.active k q hq).2⟩
  · intro q hq
    simp only [Function.update_apply]
    rcases List.mem_append.1 hq with hq | hq
    · obtain ⟨h1, h2⟩ := h.loaded q hq
      refine ⟨?_, h2⟩
      split_ifs
      · rfl
      · exact h1
    · rw [List.mem_singleton.1 hq, if_pos rfl]
      exact ⟨rfl, fun he => absurd he ha⟩

theorem loadHistory_ok {r : PolicyRegistry} {p : PolicyPackage}
    (hl : p.lifecycle ∈ [PolicyLifecycle.active, .retired])
    (hv : r.signer.verify hmac p = true) :
    ∃ r', r.loadHistory hmac p = .ok r' ∧ r'.signer = r.signer := by
  unfold PolicyRegistry.loadHistory
  simp only [hl, not_true, if_false, hv, Bool.not_true, Bool.false_eq_true]
  exact ⟨_, rfl, rfl⟩

/-- The loop of `hydrate`. -/
theorem Filled.updateAll {r : PolicyRegistry} {loaded ps : List PolicyPackage}
    (h : r.Filled loaded) (hps : ∀ p ∈ ps, p.lifecycle ∈ [PolicyLifecycle.active, .retired] ∧
      r.signer.verify hmac p = true) :
    (r.updateAll hmac (ps.map .loadHistory)).1 = .ok () ∧
      (r.updateAll hmac (ps.map .loadHistory)).2.Filled (loaded ++ ps) := by
  induction ps generalizing r loaded with
  | nil =>
    rw [List.append_nil]
    exact ⟨rfl, h⟩
  | cons p ps ih =>
    obtain ⟨r', hr', hs⟩ := loadHistory_ok (hps p List.mem_cons_self).1 (hps p List.mem_cons_self).2
    have he : r.updateAll hmac ((p :: ps).map .loadHistory) =
        r'.updateAll hmac (ps.map .loadHistory) := by
      simp only [List.map_cons, PolicyRegistry.updateAll, update, hr']
    have := ih (h.loadHistory hr') fun q hq => hs ▸ hps q (List.mem_cons_of_mem _ hq)
    rw [he]
    simpa using this

end PolicyRegistry

namespace PolicyState

variable {hmac : Hmac} {s : PolicyState}

theorem get_packageId (hs : Published hmac s) {k : String} {p : PolicyPackage}
    (h : SQLitePolicyRepository.get s.packages k = some p) : p.packageId = k := by
  obtain ⟨row, hrow, rfl⟩ := get_eq_some.1 h
  obtain ⟨hmem, hk⟩ := row?_eq_some.1 hrow
  rw [← (hs row hmem).1.fits.packageId, hk]

theorem get_of_mem (hs : Published hmac s) {row : PolicyRow} (h : row ∈ s.packages.rows) :
    SQLitePolicyRepository.get s.packages row.packageJson.packageId = some row.packageJson := by
  rw [← (hs row h).1.fits.packageId]
  exact get_eq_some.2 ⟨row, row?_of_mem h, rfl⟩

/-- A new registry that is filled with the history of the repository shows it. -/
theorem reflects_of_filled (hs : Published hmac s) {r : PolicyRegistry}
    {loaded : List PolicyPackage} (hr : r.signer = s.registry.signer) (h : r.Filled loaded)
    (hloaded : ∀ p, p ∈ loaded ↔ s.packages.history p.packageId = some p) :
    r.Reflects hmac s.packages := by
  have hmem : ∀ {k p}, p ∈ loaded ∧ p.packageId = k ↔ s.packages.history k = some p := by
    intro k p
    rw [hloaded]
    constructor
    · rintro ⟨hp, rfl⟩
      exact hp
    · intro hp
      have hk := get_packageId hs (history_eq_some.1 hp).1
      exact ⟨hk ▸ hp, hk⟩
  have hactive : ∀ {k p}, s.packages.active k = some p → s.packages.history k = some p := by
    intro k p hp
    obtain ⟨hg, hl⟩ := active_eq_some.1 hp
    exact history_eq_some.2 ⟨hg, by simp [hl]⟩
  refine ⟨fun k => Option.ext fun p => ⟨fun hp => ?_, fun hp => ?_⟩, fun k => ?_, fun k p hp => ?_⟩
  · obtain ⟨hm, hk, hl⟩ := h.active k p hp
    exact active_eq_some.2 ⟨(history_eq_some.1 (hmem.1 ⟨hm, hk⟩)).1, hl⟩
  · obtain ⟨hm, rfl⟩ := hmem.2 (hactive hp)
    obtain ⟨p', hp'⟩ := Option.isSome_iff_exists.1 ((h.loaded p hm).2 (active_eq_some.1 hp).2)
    obtain ⟨hm', hk', -⟩ := h.active _ p' hp'
    have he := (hmem.1 ⟨hm', hk'⟩).symm.trans (hactive hp)
    rw [hp', ← he]
  · congr 1
    refine Option.ext fun p => ⟨fun hp => hmem.1 (h.packages k p hp), fun hp => ?_⟩
    obtain ⟨hm, rfl⟩ := hmem.2 hp
    obtain ⟨p', hp'⟩ := Option.isSome_iff_exists.1 (h.loaded p hm).1
    have he := (hmem.1 (h.packages _ p' hp')).symm.trans hp
    rw [hp', ← he]
  · obtain ⟨hg, hl⟩ := history_eq_some.1 (hmem.1 (h.packages k p hp))
    obtain ⟨row, hrow, rfl⟩ := get_eq_some.1 hg
    rw [hr]
    refine (((hs row (row?_eq_some.1 hrow).1).2.governed) fun hd => ?_).1
    simp [hd] at hl

theorem hydrated_reflects (hs : Published hmac s) : (s.hydrated hmac).1 = .ok () ∧
    (s.hydrated hmac).2.Reflects hmac s.packages := by
  let r : PolicyRegistry := { signer := s.registry.signer }
  let ps := (SQLitePolicyRepository.list s.packages none).filter fun package =>
    package.lifecycle ∈ [PolicyLifecycle.active, .retired]
  have hps : ∀ p, p ∈ ps ↔ s.packages.history p.packageId = some p := by
    intro p
    rw [history_eq_some]
    simp only [ps, List.mem_filter, decide_eq_true_eq]
    refine and_congr_left fun _ => ⟨fun hp => ?_, fun hp => ?_⟩
    · obtain ⟨row, hrow, rfl, -⟩ := mem_list hp
      exact get_of_mem hs hrow
    · obtain ⟨row, hrow, rfl⟩ := get_eq_some.1 hp
      simp only [SQLitePolicyRepository.list, List.mem_map, List.mem_insertionSort]
      exact ⟨row, (row?_eq_some.1 hrow).1, rfl⟩
  have hv : ∀ p ∈ ps, p.lifecycle ∈ [PolicyLifecycle.active, .retired] ∧
      r.signer.verify hmac p = true := by
    intro p hp
    obtain ⟨hg, hl⟩ := history_eq_some.1 ((hps p).1 hp)
    obtain ⟨row, hrow, rfl⟩ := get_eq_some.1 hg
    refine ⟨hl, (((hs row (row?_eq_some.1 hrow).1).2.governed) fun hd => ?_).1⟩
    simp [hd] at hl
  obtain ⟨hok, hfill⟩ := (PolicyRegistry.filled_nil s.registry.signer).updateAll hv
  have h1 : (s.hydrated hmac).1 = (r.updateAll hmac (ps.map .loadHistory)).1 := by
    change ((Prog.ofExcept (r.updateAll hmac (ps.map .loadHistory)).1).alone (exec hmac) _).1 = _
    cases (r.updateAll hmac (ps.map .loadHistory)).1 <;> rfl
  have h2 : (s.hydrated hmac).2 = (r.updateAll hmac (ps.map .loadHistory)).2 := by
    change ((Prog.ofExcept (r.updateAll hmac (ps.map .loadHistory)).1).alone (exec hmac)
      { s with registry := (r.updateAll hmac (ps.map .loadHistory)).2 }).2.registry = _
    cases (r.updateAll hmac (ps.map .loadHistory)).1 <;> rfl
  rw [h1, h2]
  refine ⟨hok, reflects_of_filled hs ?_ hfill ?_⟩
  · exact PolicyRegistry.signer_updateAll hmac r _
  · simpa using hps

/-- A call that is served keeps the registry a mirror of the repository. -/
theorem Effect.reflects (hd : PolicySigner.Digest hmac) {s' : PolicyState} (h : Effect hmac s s')
    (hs : Published hmac s) (hr : s.registry.Reflects hmac s.packages) :
    s'.registry.Reflects hmac s'.packages := by
  have hself := PolicySigner.verificationKey_self s.registry.signer
  have hget : ∀ {k row}, s.packages.row? k = some row →
      SQLitePolicyRepository.get s.packages row.packageJson.packageId = some row.packageJson :=
    fun hrow => get_of_mem hs (row?_eq_some.1 hrow).1
  -- a package that is neither active nor retired is in neither dict
  have hpending : ∀ {p : PolicyPackage},
      (∀ q, SQLitePolicyRepository.get s.packages p.packageId = some q → q.lifecycle = .draft) →
      s.packages.history p.packageId = none ∧ s.packages.active p.packageId = none := by
    intro p hp
    refine ⟨Option.eq_none_iff_forall_not_mem.2 fun q hq => ?_,
      Option.eq_none_iff_forall_not_mem.2 fun q hq => ?_⟩
    · obtain ⟨hg, hl⟩ := history_eq_some.1 hq
      simp [hp q hg] at hl
    · obtain ⟨hg, hl⟩ := active_eq_some.1 hq
      simp [hp q hg] at hl
  cases h with
  | unchanged => exact hr
  | @draft p t' hl hrow hput =>
    obtain ⟨hh, ha⟩ := @hpending p fun q hq => by
      obtain ⟨row, hrow', -⟩ := get_eq_some.1 hq
      rw [hrow] at hrow'
      cases hrow'
    exact hr.pending hput (by simp [hl]) hh ha
  | @approve k approver row p t' hrow hl ha ht =>
    obtain ⟨-, hc, -, hpl, -⟩ := PolicySigner.approve_ok ha
    obtain ⟨hh, ha⟩ := @hpending p fun q hq => by
      rw [hc.packageId, hget hrow] at hq
      cases hq
      exact hl
    exact hr.pending (put_of_upsert ht) (by simp [hpl]) hh ha
  | @activate k row active retired t' hrow ha hm ht =>
    obtain ⟨-, -, -, hsig, hl, -⟩ := PolicySigner.activate_ok ha
    have hret : ∀ p ∈ retired, p.lifecycle = .retired ∧
        (s.packages.history p.packageId).map PolicyPackage.snapshot = some p.snapshot := by
      intro p hp
      obtain ⟨q, hq, hp'⟩ := Fallible.of_mem_mapM hm hp
      obtain ⟨hql, -, hc, -, hpl, -, hact⟩ := PolicySigner.retire_ok hp'
      obtain ⟨row', hrow', rfl, -⟩ := mem_list (List.mem_of_mem_filter hq)
      refine ⟨hpl, ?_⟩
      rw [hc.packageId, history_eq_some.2 ⟨get_of_mem hs hrow', by simp [hql]⟩]
      simp [PolicyPackage.snapshot, hc.rules, hc.procedureId, hact]
    refine hr.replaceActive (puts_of_replaceActive (fun p hp => ⟨(hret p hp).1, ?_⟩) ht) hret hl
      (hsig.verify hd (by simp [hl]) hself)
    obtain ⟨q, hq, -⟩ := Option.map_eq_some_iff.1 (hret p hp).2
    obtain ⟨row', hrow', -⟩ := get_eq_some.1 (history_eq_some.1 hq).1
    simp [hrow']
  | @retire k row p t' hrow hp ht =>
    obtain ⟨hql, -, hc, -, hpl, -, hact⟩ := PolicySigner.retire_ok hp
    have hk : k = p.packageId := by
      rw [hc.packageId, get_packageId hs (get_eq_some.2 ⟨row, hrow, rfl⟩)]
    rw [hk]
    refine hr.retire (put_of_upsert ht) hpl ?_
    rw [hc.packageId, history_eq_some.2 ⟨hget hrow, by simp [hql]⟩]
    simp [PolicyPackage.snapshot, hc.rules, hc.procedureId, hact]

theorem alone_reading {α : Type} (s : PolicyState) (p : Prog policySig PyErr α) :
    ((PolicyService.reading p).alone (exec hmac) s).2 = s := by
  unfold PolicyService.reading
  induction p with
  | ret a => rfl
  | raise e => rfl
  | call o k ih =>
    cases o
    exact ih _

/-- A lookup: the registry may load the package that was found. -/
theorem alone_loading (s : PolicyState) {p : Prog policySig PyErr PolicyPackage}
    (hp : ∀ q, ((PolicyService.reading p).alone (exec hmac) s).1 = .ok q →
      ∃ row ∈ s.packages.rows, row.packageJson = q) :
    ((PolicyService.loading p).alone (exec hmac) s).2 = s ∨
      ∃ row ∈ s.packages.rows, ((PolicyService.loading p).alone (exec hmac) s).2 =
        { s with registry := (s.registry.updateAll hmac [.loadHistory row.packageJson]).2 } := by
  have hstate := @alone_reading hmac _ s p
  rw [PolicyService.loading, Prog.bind_eq, Prog.alone_bind]
  rcases hr : (PolicyService.reading p).alone (exec hmac) s with ⟨r, s'⟩
  rw [hr] at hp hstate
  cases r with
  | error e => exact Or.inl hstate
  | ok q =>
    obtain ⟨row, hrow, rfl⟩ := hp q rfl
    refine Or.inr ⟨row, hrow, ?_⟩
    rw [← hstate]
    exact alone_registry s' [.loadHistory row.packageJson] row.packageJson

theorem alone_requireActive (s : PolicyState) (k : String) :
    (((PolicyService.current hmac).requireActive k).alone (exec hmac) s).2 = s ∨
      ∃ row ∈ s.packages.rows,
        (((PolicyService.current hmac).requireActive k).alone (exec hmac) s).2 =
          { s with registry := (s.registry.updateAll hmac [.loadHistory row.packageJson]).2 } := by
  refine alone_loading s (p := PolicyService.requireActive hmac s.registry.signer k) fun q hq => ?_
  obtain ⟨row, hrow, hf⟩ := reading_bind_ok hq
  refine ⟨row, hrow, ?_⟩
  by_cases hc : row.packageJson.lifecycle ≠ .active ∨
      (!s.registry.signer.verify hmac row.packageJson) = true
  · simp only [hc, if_true] at hf
    cases hf
  · simp only [hc, if_false] at hf
    exact Except.ok.inj hf

theorem alone_requireAuthorizationSnapshot (s : PolicyState) (k signature : String) :
    (((PolicyService.current hmac).requireAuthorizationSnapshot k signature).alone
      (exec hmac) s).2 = s ∨
      ∃ row ∈ s.packages.rows,
        (((PolicyService.current hmac).requireAuthorizationSnapshot k signature).alone
          (exec hmac) s).2 =
          { s with registry := (s.registry.updateAll hmac [.loadHistory row.packageJson]).2 } := by
  refine alone_loading s
    (p := PolicyService.requireAuthorizationSnapshot hmac s.registry.signer k signature)
    fun q hq => ?_
  obtain ⟨row, hrow, hf⟩ := reading_bind_ok hq
  refine ⟨row, hrow, ?_⟩
  by_cases hl : row.packageJson.lifecycle ∈ [PolicyLifecycle.active, .retired]
  · by_cases hv : s.registry.signer.verify hmac row.packageJson = true
    · by_cases ha : row.packageJson.activationSignature = some signature
      · simp only [hl, hv, ha, not_true, Bool.not_true, Bool.false_eq_true, ne_eq, if_false] at hf
        exact Except.ok.inj hf
      · simp [hl, hv, ha, PolicyService.reading] at hf
    · simp [hl, hv, PolicyService.reading] at hf
  · simp [hl, PolicyService.reading] at hf

/-- One call, whatever it answers. -/
theorem serve_reflects (hd : PolicySigner.Digest hmac) (hs : Published hmac s)
    (hr : s.registry.Reflects hmac s.packages) (call : PolicyServiceCall) :
    Published hmac (s.serve hmac [call]) ∧
      (s.serve hmac [call]).registry.Reflects hmac (s.serve hmac [call]).packages := by
  have hlookup : ∀ s' : PolicyState, (s' = s ∨ ∃ row ∈ s.packages.rows, s' =
      { s with registry := (s.registry.updateAll hmac [.loadHistory row.packageJson]).2 }) →
      Published hmac s' ∧ s'.registry.Reflects hmac s'.packages := by
    rintro s' (rfl | ⟨row, hrow, rfl⟩)
    · exact ⟨hs, hr⟩
    · refine ⟨?_, hr.loadHistory (get_of_mem hs hrow)⟩
      unfold Published
      rw [PolicyRegistry.signer_updateAll]
      exact hs
  cases call with
  | operation call =>
    exact ⟨(apply_published hd hs (.call call)).1, (perform_effect s call).reflects hd hs hr⟩
  | requireActive k => exact hlookup _ (alone_requireActive s k)
  | requireAuthorizationSnapshot k signature =>
    exact hlookup _ (alone_requireAuthorizationSnapshot s k signature)

theorem reflects_empty (signer : PolicySigner) :
    (empty signer).registry.Reflects hmac (empty signer).packages :=
  ⟨fun _ => rfl, fun _ => rfl, nofun⟩

theorem run_reflects (hd : PolicySigner.Digest hmac) (signer : PolicySigner)
    (calls : List PolicyServiceCall) :
    Published hmac ((empty signer).serve hmac calls) ∧
      ((empty signer).serve hmac calls).registry.Reflects hmac
        ((empty signer).serve hmac calls).packages := by
  induction calls using List.reverseRecOn with
  | nil => exact ⟨published_empty signer, reflects_empty signer⟩
  | append_singleton calls call ih =>
    have he : (empty signer).serve hmac (calls ++ [call]) =
        ((empty signer).serve hmac calls).serve hmac [call] := List.foldl_append
    rw [he]
    exact serve_reflects hd ih.1 ih.2 call

end PolicyState

/-- After any calls, the registry of the process answers as the one that a restart would
fill from the repository. -/
theorem restart_equivalent {hmac : Hmac} (hd : PolicySigner.Digest hmac) (signer : PolicySigner)
    (calls : List PolicyServiceCall) :
    let s := (PolicyState.empty signer).serve hmac calls
    (s.hydrated hmac).1 = .ok () ∧ s.registry.Equivalent hmac (s.hydrated hmac).2 := by
  obtain ⟨hs, hr⟩ := PolicyState.run_reflects hd signer calls
  obtain ⟨hok, hfresh⟩ := PolicyState.hydrated_reflects hs
  exact ⟨hok, hr.equivalent hfresh⟩

/-- A replaced version: the running process still has its active package in the history. -/
def succeeded : List PolicyServiceCall :=
  [.operation (.createDraft (refundDraft "refund@1")), .operation (.approve "refund@1" "bob"),
    .operation (.activate "refund@1"), .operation (.createDraft (refundDraft "refund@2")),
    .operation (.approve "refund@2" "alice"), .operation (.approve "refund@2" "bob"),
    .requireActive "refund@2", .operation (.activate "refund@2")]

theorem restart_equivalent_succeeded :
    let s := (PolicyState.empty deskSigner).serve lifecycleTag succeeded
    (s.registry.packages "refund@1").map (·.lifecycle) = some .active ∧
    ((s.hydrated lifecycleTag).2.packages "refund@1").map (·.lifecycle) = some .retired ∧
    s.registry.Equivalent lifecycleTag (s.hydrated lifecycleTag).2 :=
  ⟨by decide +kernel, by decide +kernel,
    (restart_equivalent lifecycleTag_digest deskSigner succeeded).2⟩

end WorkflowEngine
