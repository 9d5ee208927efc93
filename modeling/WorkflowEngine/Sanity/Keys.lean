import Mathlib.Algebra.Order.Field.Rat
import Mathlib.Tactic.FieldSimp
import Mathlib.Tactic.Ring
import WorkflowEngine.Fallible.Loops
import WorkflowEngine.Spec.Procedure

/-! Python's `==` is an equivalence on hashable values, so a dict is a map from their classes. -/

namespace WorkflowEngine

namespace Fields

theorem get?_set {d : Fields} {k k' : String} (v : Json) (hne : k' ≠ k) :
    (d.set k v).get? k' = d.get? k' := by
  have hbeq : (k' == k) = false := beq_eq_false_iff_ne.2 hne
  have hmap : ∀ d : Fields,
      List.lookup k' (d.map fun kv => if kv.1 = k then (k, v) else kv) = List.lookup k' d := by
    intro d
    induction d with
    | nil => rfl
    | cons kv d ih =>
      rw [List.map_cons, List.lookup_cons, List.lookup_cons, ih]
      split_ifs with hk
      · rw [hk, hbeq]
      · rfl
  unfold set get?
  split_ifs
  · exact hmap d
  · rw [List.lookup_append, List.lookup_cons, hbeq]
    exact Option.or_none

theorem get?_set_self (d : Fields) (k : String) (v : Json) : (d.set k v).get? k = some v := by
  have hmap : ∀ d : Fields, (d.get? k).isSome → List.lookup k
      (d.map fun kv => if kv.1 = k then (k, v) else kv) = some v := by
    intro d hd
    induction d with
    | nil => cases hd
    | cons kv d ih =>
      rw [List.map_cons, List.lookup_cons]
      split_ifs with hk
      · simp
      · have hbeq : (k == kv.1) = false := beq_eq_false_iff_ne.2 (Ne.symm hk)
        rw [hbeq]
        rw [get?, List.lookup_cons, hbeq] at hd
        exact ih hd
  unfold set
  split_ifs with hd
  · exact hmap d hd
  · have hnone : List.lookup k d = none := Option.not_isSome_iff_eq_none.1 hd
    simp [get?, List.lookup_append, hnone]

end Fields

namespace Json

/-- The number that a fraction stands for. -/
def value (a : ℤ × ℕ) : ℚ := a.1 / a.2

theorem sameNumber_iff {a b : ℤ × ℕ} (ha : 0 < a.2) (hb : 0 < b.2) :
    sameNumber a b = true ↔ value a = value b := by
  have ha' : (a.2 : ℚ) ≠ 0 := Nat.cast_ne_zero.2 ha.ne'
  have hb' : (b.2 : ℚ) ≠ 0 := Nat.cast_ne_zero.2 hb.ne'
  rw [sameNumber, beq_iff_eq, value, value, div_eq_div_iff ha' hb']
  exact_mod_cast Iff.rfl

/-- What a hashable value is equal to: a number, or itself. -/
def key : Json → Option ℚ × Json
  | v => match v.number? with
    | some x => (some (value x), .null)
    | none => (none, v)

theorem pyEq_iff_key {v w : Json} (hv : v.hashable = true) :
    v.pyEq w = true ↔ v.key = w.key := by
  cases v with
  | list xs => cases hv
  | dict kvs => cases hv
  | null => cases w <;> simp [pyEq, key, number?]
  | str s => cases w <;> simp [pyEq, key, number?]
  | bool b => cases w <;> simp [pyEq, key, number?, sameNumber_iff, floatFraction_pos]
  | int n => cases w <;> simp [pyEq, key, number?, sameNumber_iff, floatFraction_pos]
  | float m e => cases w <;> simp [pyEq, key, number?, sameNumber_iff, floatFraction_pos]

theorem hashable_of_pyEq {v w : Json} (hv : v.hashable = true) (h : v.pyEq w = true) :
    w.hashable = true := by
  cases w with
  | list xs => cases v <;> simp [hashable, pyEq, number?] at hv h
  | dict kvs => cases v <;> simp [hashable, pyEq, number?] at hv h
  | _ => rfl

theorem pyEq_symm {v w : Json} (hv : v.hashable = true) (h : v.pyEq w = true) : w.pyEq v = true :=
  (pyEq_iff_key (hashable_of_pyEq hv h)).2 ((pyEq_iff_key hv).1 h).symm

theorem pyEq_trans {u v w : Json} (hu : u.hashable = true) (huv : u.pyEq v = true)
    (hvw : v.pyEq w = true) : u.pyEq w = true :=
  (pyEq_iff_key hu).2 (((pyEq_iff_key hu).1 huv).trans
    ((pyEq_iff_key (hashable_of_pyEq hu huv)).1 hvw))

theorem pyEq_self {v : Json} (hv : v.hashable = true) : v.pyEq v = true := (pyEq_iff_key hv).2 rfl

theorem memberOf_ok {v : Json} {s : List Json} {b : Bool} :
    v.memberOf s = .ok b ↔ v.hashable = true ∧ (s.any fun w => w.pyEq v) = b := by
  unfold memberOf
  split_ifs with h <;> simp [h]

theorem addTo_ok {s s' : List Json} {v : Json} :
    addTo s v = .ok s' ↔
      v.hashable = true ∧ s' = if s.any fun w => w.pyEq v then s else s ++ [v] := by
  unfold addTo
  split_ifs with h <;> simp [h, eq_comm]

theorem mem_addTo {s s' : List Json} {v w : Json} (h : addTo s v = .ok s') (hw : w ∈ s') :
    w ∈ s ∨ w = v := by
  obtain ⟨-, rfl⟩ := addTo_ok.1 h
  split_ifs at hw
  · exact Or.inl hw
  · simpa using hw

theorem memberOf_addTo {s s' : List Json} {v : Json} (h : addTo s v = .ok s') :
    (∀ w ∈ s, w ∈ s') ∧ v.memberOf s' = .ok true := by
  obtain ⟨hv, rfl⟩ := addTo_ok.1 h
  split_ifs with hany
  · exact ⟨fun w hw => hw, memberOf_ok.2 ⟨hv, hany⟩⟩
  · refine ⟨fun w hw => List.mem_append_left _ hw, memberOf_ok.2 ⟨hv, List.any_eq_true.2 ?_⟩⟩
    exact ⟨v, by simp, pyEq_self hv⟩

theorem memberOf_mono {s s' : List Json} {v : Json} (hs : ∀ w ∈ s, w ∈ s')
    (h : v.memberOf s = .ok true) : v.memberOf s' = .ok true := by
  obtain ⟨hv, hany⟩ := memberOf_ok.1 h
  obtain ⟨w, hw, he⟩ := List.any_eq_true.1 hany
  exact memberOf_ok.2 ⟨hv, List.any_eq_true.2 ⟨w, hs w hw, he⟩⟩

/-- The set that a loop over `xs` builds has a member for each. -/
theorem memberOf_fold {β : Type} {xs : List β} {f : β → Except ProcedureErr Json} {s s' : List Json}
    (h : xs.foldlM (fun s x => do addTo s (← f x)) s = .ok s') :
    (∀ w ∈ s, w ∈ s') ∧ ∀ x ∈ xs, ∃ v, f x = .ok v ∧ v.memberOf s' = .ok true := by
  induction xs generalizing s with
  | nil =>
    cases h
    exact ⟨fun w hw => hw, nofun⟩
  | cons x xs ih =>
    rw [List.foldlM_cons] at h
    obtain ⟨s1, hx, hxs⟩ := Fallible.bind_eq_ok.1 h
    obtain ⟨v, hv, hadd⟩ := Fallible.bind_eq_ok.1 hx
    obtain ⟨hsub, hmem⟩ := memberOf_addTo hadd
    obtain ⟨hsub', hrest⟩ := ih hxs
    refine ⟨fun w hw => hsub' w (hsub w hw), fun y hy => ?_⟩
    rcases List.mem_cons.1 hy with rfl | hy
    · exact ⟨v, hv, memberOf_mono hsub' hmem⟩
    · exact hrest y hy

end Json

namespace PyDict

variable {α : Type} {d d' : PyDict α} {k : Json} {v : α}

theorem store_ok : d.store k v = .ok d' ↔ k.hashable = true ∧ d' = d.set k v := by
  unfold store
  split_ifs with h <;> simp [h, eq_comm]

/-- The keys of a dict are the set of the keys that it was given. -/
theorem keys_store (h : d.store k v = .ok d') :
    Json.addTo (d.map Prod.fst) k = .ok (d'.map Prod.fst) := by
  obtain ⟨hk, rfl⟩ := store_ok.1 h
  refine Json.addTo_ok.2 ⟨hk, ?_⟩
  rw [List.any_map]
  change _ = if (d.any fun kv => kv.1.pyEq k) = true then d.map Prod.fst else _
  unfold set
  split_ifs
  · rw [List.map_map]
    refine List.map_congr_left fun kv _ => ?_
    simp only [Function.comp_apply]
    split_ifs <;> rfl
  · simp

theorem mem_set {kv : Json × α} (h : kv ∈ d.set k v) :
    kv ∈ d ∨ kv = (k, v) ∨ kv.1.pyEq k = true ∧ kv.2 = v ∧ ∃ old, (kv.1, old) ∈ d := by
  unfold set at h
  split_ifs at h
  · obtain ⟨kv', hkv', rfl⟩ := List.mem_map.1 h
    split_ifs with he
    · exact Or.inr (Or.inr ⟨he, rfl, kv'.2, hkv'⟩)
    · exact Or.inl hkv'
  · rcases List.mem_append.1 h with h | h
    · exact Or.inl h
    · exact Or.inr (Or.inl (List.mem_singleton.1 h))

theorem get?_eq_some (h : d.get? k = some v) : ∃ key, (key, v) ∈ d ∧ key.pyEq k = true := by
  obtain ⟨kv, hkv, rfl⟩ := Option.map_eq_some_iff.1 h
  exact ⟨kv.1, List.mem_of_find?_eq_some hkv, by simpa using List.find?_some hkv⟩

theorem exists_get? (h : (d.map Prod.fst).any (fun key => key.pyEq k) = true) :
    ∃ v, d.get? k = some v := by
  rw [List.any_map] at h
  obtain ⟨kv, hkv⟩ := Option.isSome_iff_exists.1 (List.find?_isSome.2 (List.any_eq_true.1 h))
  exact ⟨kv.2, congrArg (Option.map Prod.snd) hkv⟩

/-- The dict that a loop over `xs` builds from a key and a value of each. -/
theorem mem_of_fold {β : Type} {xs : List β} {key : β → Except ProcedureErr Json}
    {val : β → Except ProcedureErr α} {d : PyDict α}
    (h : xs.foldlM (fun d x => do PyDict.store d (← key x) (← val x)) [] = .ok d) :
    ∀ kv ∈ d, kv.1.hashable = true ∧
      ∃ x ∈ xs, ∃ k, key x = .ok k ∧ val x = .ok kv.2 ∧ k.pyEq kv.1 = true := by
  refine Fallible.foldlM_induction (P := fun d => ∀ kv ∈ d, kv.1.hashable = true ∧
    ∃ x ∈ xs, ∃ k, key x = .ok k ∧ val x = .ok kv.2 ∧ k.pyEq kv.1 = true) h nofun ?_
  intro x hx d d' hd hstep kv hkv
  obtain ⟨k, hk, hstep⟩ := Fallible.bind_eq_ok.1 hstep
  obtain ⟨v, hv, hstep⟩ := Fallible.bind_eq_ok.1 hstep
  obtain ⟨hh, rfl⟩ := store_ok.1 hstep
  rcases mem_set hkv with hkv | rfl | ⟨he, rfl, old, hold⟩
  · exact hd kv hkv
  · exact ⟨hh, x, hx, k, hk, hv, Json.pyEq_self hh⟩
  · have hkey := (hd _ hold).1
    exact ⟨hkey, x, hx, k, hk, hv, Json.pyEq_symm hkey he⟩

/-- Every key that was stored is found. -/
theorem key_of_fold {β : Type} {xs : List β} {key : β → Except ProcedureErr Json}
    {val : β → Except ProcedureErr α} {d d' : PyDict α}
    (h : xs.foldlM (fun d x => do PyDict.store d (← key x) (← val x)) d = .ok d') :
    ∀ x ∈ xs, ∃ k, key x = .ok k ∧ (d'.map Prod.fst).any (fun k' => k'.pyEq k) = true := by
  have hkeys : xs.foldlM (fun s x => do Json.addTo s (← key x)) (d.map Prod.fst) =
      .ok (d'.map Prod.fst) := by
    induction xs generalizing d with
    | nil =>
      cases h
      rfl
    | cons x xs ih =>
      rw [List.foldlM_cons] at h ⊢
      obtain ⟨d1, hx, hxs⟩ := Fallible.bind_eq_ok.1 h
      obtain ⟨k, hk, hx⟩ := Fallible.bind_eq_ok.1 hx
      obtain ⟨v, -, hstore⟩ := Fallible.bind_eq_ok.1 hx
      exact Fallible.bind_eq_ok.2
        ⟨_, Fallible.bind_eq_ok.2 ⟨k, hk, keys_store hstore⟩, ih hxs⟩
  intro x hx
  obtain ⟨k, hk, hmember⟩ := (Json.memberOf_fold hkeys).2 x hx
  exact ⟨k, hk, (Json.memberOf_ok.1 hmember).2⟩

/-- A dict whose keys are hashable and unequal. -/
structure Distinct (d : PyDict α) : Prop where
  hashable : ∀ kv ∈ d, kv.1.hashable = true
  pairwise : d.Pairwise fun a b => a.1.pyEq b.1 = false

theorem Distinct.nil : Distinct ([] : PyDict α) := ⟨nofun, List.Pairwise.nil⟩

theorem Distinct.set (hd : d.Distinct) (hk : k.hashable = true) (v : α) : (d.set k v).Distinct := by
  refine ⟨fun kv hkv => ?_, ?_⟩
  · rcases mem_set hkv with hkv | rfl | ⟨-, -, old, hold⟩
    · exact hd.hashable kv hkv
    · exact hk
    · exact hd.hashable (kv.1, old) hold
  · unfold PyDict.set
    split_ifs with hany
    · refine List.pairwise_map.2 (hd.pairwise.imp fun {a b} hab => ?_)
      split_ifs <;> exact hab
    · refine List.pairwise_append.2 ⟨hd.pairwise, List.pairwise_singleton _ _, fun a ha b hb => ?_⟩
      obtain rfl := List.mem_singleton.1 hb
      rw [← Bool.not_eq_true]
      exact fun he => hany (List.any_eq_true.2 ⟨a, ha, he⟩)

theorem Distinct.get?_of_mem (hd : d.Distinct) {key : Json} (h : (key, v) ∈ d)
    (hk : key.pyEq k = true) : d.get? k = some v := by
  obtain ⟨before, after, rfl⟩ := List.append_of_mem h
  obtain ⟨-, -, hne⟩ := List.pairwise_append.1 hd.pairwise
  have hbefore : before.find? (fun kv => kv.1.pyEq k) = none :=
    List.find?_eq_none.2 fun a ha he => by
    have hkey := Json.pyEq_symm (hd.hashable _ h) hk
    have := Json.pyEq_trans (hd.hashable a (by simp [ha])) he hkey
    rw [hne a ha _ List.mem_cons_self] at this
    cases this
  unfold get?
  rw [List.find?_append, hbefore, Option.none_or, List.find?_cons_of_pos]
  · rfl
  · exact hk

/-- Of keys that all equal one value there is at most one. -/
theorem Distinct.length_filter_le (hd : d.Distinct) {q : Json × α → Bool}
    (h : ∀ kv ∈ d, q kv = true → kv.1.pyEq k = true) : (d.filter q).length ≤ 1 := by
  cases hf : d.filter q with
  | nil => exact Nat.zero_le _
  | cons a as =>
    cases as with
    | nil => exact le_rfl
    | cons b bs =>
      have hmem : ∀ kv ∈ a :: b :: bs, kv ∈ d ∧ q kv = true := fun kv hkv =>
        List.mem_filter.1 (hf ▸ hkv)
      obtain ⟨ha, hqa⟩ := hmem a (by simp)
      obtain ⟨hb, hqb⟩ := hmem b (by simp)
      have hne := hf ▸ hd.pairwise.filter q
      have hab : a.1.pyEq b.1 = true := Json.pyEq_trans (hd.hashable a ha) (h a ha hqa)
        (Json.pyEq_symm (hd.hashable b hb) (h b hb hqb))
      rw [(List.pairwise_cons.1 hne).1 b (by simp)] at hab
      cases hab

theorem get?_set (hd : ∀ kv ∈ d, kv.1.hashable = true) (hk : k.hashable = true)
    (v : α) (k' : Json) :
    (d.set k v).get? k' = if k.pyEq k' then some v else d.get? k' := by
  unfold set
  split_ifs with hany he he
  · obtain ⟨kv, hkv, hkk⟩ := List.any_eq_true.1 hany
    unfold get?
    rw [List.find?_map]
    cases hf : d.find? ((fun kv => kv.1.pyEq k') ∘
        fun kv => if kv.1.pyEq k = true then (kv.1, v) else kv) with
    | none =>
      refine absurd (List.find?_eq_none.1 hf kv hkv) (not_not.2 ?_)
      simp only [Function.comp_apply, hkk, if_true]
      exact Json.pyEq_trans (hd kv hkv) hkk he
    | some kv' =>
      have hmem := List.mem_of_find?_eq_some hf
      have hk' : kv'.1.pyEq k = true := by
        have := List.find?_some hf
        simp only [Function.comp_apply] at this
        split_ifs at this with hkk'
        · exact hkk'
        · exact Json.pyEq_trans (hd kv' hmem) this (Json.pyEq_symm hk he)
      simp [hk']
  · unfold get?
    rw [List.find?_map]
    have hsame : ((fun kv : Json × α => kv.1.pyEq k') ∘
        fun kv => if kv.1.pyEq k = true then (kv.1, v) else kv) = fun kv => kv.1.pyEq k' := by
      funext kv
      simp only [Function.comp_apply]
      split_ifs <;> rfl
    rw [hsame, Option.map_map]
    cases hf : d.find? (fun kv => kv.1.pyEq k') with
    | none => rfl
    | some kv' =>
      have hmem := List.mem_of_find?_eq_some hf
      have hkk' : kv'.1.pyEq k' = true := by simpa using List.find?_some hf
      have hne : ¬ kv'.1.pyEq k = true := fun h =>
        he (Json.pyEq_trans hk (Json.pyEq_symm (hd kv' hmem) h) hkk')
      simp [hne]
  · have hnone : d.find? (fun kv => kv.1.pyEq k') = none := List.find?_eq_none.2 fun kv hkv hkk' =>
      hany (List.any_eq_true.2 ⟨kv, hkv, Json.pyEq_trans (hd kv hkv) hkk' (Json.pyEq_symm hk he)⟩)
    unfold get?
    rw [List.find?_append, hnone, Option.none_or, List.find?_cons_of_pos]
    · rfl
    · exact he
  · unfold get?
    rw [List.find?_append, List.find?_cons_of_neg]
    · simp
    · exact he

end PyDict
end WorkflowEngine
