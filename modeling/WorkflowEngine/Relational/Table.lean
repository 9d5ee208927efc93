import Mathlib.Data.List.Nodup
import Mathlib.Data.List.Pairwise
import Mathlib.Data.Fintype.Basic

/-! Tables of rows in insertion order, with unique columns. A column `col i` is a
primary key or a UNIQUE constraint; a table carries the proof that no two rows
agree on one, so that a row is found by any of its columns. -/

namespace Relational

@[ext] structure Table (ι κ : Type) {α : Type} (col : ι → α → κ) where
  rows : List α
  unique : ∀ i, (rows.map (col i)).Nodup

namespace Table

variable {ι κ α : Type} {col : ι → α → κ}

def empty : Table ι κ col := ⟨[], fun _ => List.nodup_nil⟩

@[simp] theorem rows_empty : (empty : Table ι κ col).rows = [] := rfl

theorem eq_of_mem {t : Table ι κ col} {i : ι} {a b : α} (ha : a ∈ t.rows) (hb : b ∈ t.rows)
    (h : col i a = col i b) : a = b :=
  List.inj_on_of_nodup_map (t.unique i) ha hb h

/-- `UPDATE .. SET f WHERE p`; no unique column is assigned. -/
def updateWhere (t : Table ι κ col) (p : α → Bool) (f : α → α)
    (hf : ∀ i a, col i (f a) = col i a) : Table ι κ col where
  rows := t.rows.map fun a => if p a then f a else a
  unique i := by
    have : (fun a => col i (if p a then f a else a)) = col i := by
      funext a
      split_ifs
      · exact hf i a
      · rfl
    rw [List.map_map]
    exact (congrArg (fun g => (t.rows.map g).Nodup) this).mpr (t.unique i)

/-- The row count that `UPDATE .. WHERE p` reports. -/
def count (t : Table ι κ col) (p : α → Bool) : ℕ := t.rows.countP p

theorem mem_updateWhere {t : Table ι κ col} {p : α → Bool} {f : α → α}
    {hf : ∀ i a, col i (f a) = col i a} {b : α} :
    b ∈ (t.updateWhere p f hf).rows ↔ ∃ a ∈ t.rows, b = if p a then f a else a := by
  simp only [updateWhere, List.mem_map]
  exact exists_congr fun a => and_congr_right fun _ => eq_comm

theorem updateWhere_of_count {t : Table ι κ col} {p : α → Bool} {f : α → α}
    {hf : ∀ i a, col i (f a) = col i a} (h : t.count p = 0) : t.updateWhere p f hf = t := by
  ext1
  refine (List.map_congr_left fun a ha => ?_).trans (List.map_id _)
  have hpa := List.countP_eq_zero.1 h a ha
  simp [hpa]

variable [DecidableEq κ]

/-- `SELECT * WHERE col i = k`. -/
def get? (t : Table ι κ col) (i : ι) (k : κ) : Option α := t.rows.find? fun a => col i a = k

/-- `INSERT`, refused when a unique column of `a` is taken. -/
def insert? [Fintype ι] (t : Table ι κ col) (a : α) : Option (Table ι κ col) :=
  if h : ∀ i, col i a ∉ t.rows.map (col i) then
    some ⟨t.rows ++ [a], fun i => by
      rw [List.map_append, List.map_singleton, List.nodup_append]
      exact ⟨t.unique i, List.nodup_singleton _, fun x hx y hy => by
        rw [List.mem_singleton.1 hy]
        exact fun he => h i (he ▸ hx)⟩⟩
  else none

@[simp] theorem get?_empty (i : ι) (k : κ) : (empty : Table ι κ col).get? i k = none := rfl

theorem get?_eq_some {t : Table ι κ col} {i : ι} {k : κ} {a : α} :
    t.get? i k = some a ↔ a ∈ t.rows ∧ col i a = k := by
  constructor
  · intro h
    exact ⟨List.mem_of_find?_eq_some h, by simpa using List.find?_some h⟩
  · rintro ⟨ha, hk⟩
    cases h : t.get? i k with
    | none =>
      have := List.find?_eq_none.1 h a ha
      simp [hk] at this
    | some b =>
      have hb : col i b = k := by simpa using List.find?_some h
      rw [eq_of_mem (List.mem_of_find?_eq_some h) ha (hb.trans hk.symm)]

theorem get?_eq_none {t : Table ι κ col} {i : ι} {k : κ} :
    t.get? i k = none ↔ ∀ a ∈ t.rows, col i a ≠ k := by
  simp [get?, List.find?_eq_none]

theorem mem_rows {t : Table ι κ col} {a : α} (i : ι) :
    a ∈ t.rows ↔ t.get? i (col i a) = some a := by
  simp [get?_eq_some]

theorem rows_of_insert? [Fintype ι] {t t' : Table ι κ col} {a : α} (h : t.insert? a = some t') :
    t'.rows = t.rows ++ [a] ∧ ∀ i, t.get? i (col i a) = none := by
  unfold insert? at h
  split_ifs at h with hn
  cases h
  refine ⟨rfl, fun i => get?_eq_none.2 fun b hb he => hn i ?_⟩
  exact List.mem_map.2 ⟨b, hb, he⟩

theorem insert?_eq_none [Fintype ι] {t : Table ι κ col} {a : α} :
    t.insert? a = none ↔ ∃ i b, t.get? i (col i a) = some b := by
  unfold insert?
  split_ifs with hn
  · simp only [false_iff, not_exists]
    intro i b hb
    obtain ⟨hb, he⟩ := get?_eq_some.1 hb
    exact hn i (List.mem_map.2 ⟨b, hb, he⟩)
  · simp only [true_iff]
    obtain ⟨i, hi⟩ := not_forall.1 hn
    obtain ⟨b, hb, he⟩ := List.mem_map.1 (not_not.1 hi)
    exact ⟨i, b, get?_eq_some.2 ⟨hb, he⟩⟩

theorem get?_insert? [Fintype ι] {t t' : Table ι κ col} {a : α} (h : t.insert? a = some t')
    (i : ι) (k : κ) : t'.get? i k = if k = col i a then some a else t.get? i k := by
  obtain ⟨hr, hn⟩ := rows_of_insert? h
  split_ifs with hk
  · exact get?_eq_some.2 ⟨by simp [hr], hk.symm⟩
  · simp [get?, hr, List.find?_append, Ne.symm hk]

theorem get?_of_insert? [Fintype ι] {t t' : Table ι κ col} {a b : α} (h : t.insert? a = some t')
    {i : ι} {k : κ} (hk : t.get? i k = some b) : t'.get? i k = some b := by
  rw [get?_insert? h, if_neg, hk]
  rintro rfl
  rw [(rows_of_insert? h).2 i] at hk
  cases hk

theorem get?_updateWhere (t : Table ι κ col) (p : α → Bool) (f : α → α)
    (hf : ∀ i a, col i (f a) = col i a) (i : ι) (k : κ) :
    (t.updateWhere p f hf).get? i k = (t.get? i k).map fun a => if p a then f a else a := by
  have hcol : ∀ a, col i (if p a then f a else a) = col i a := by
    intro a
    split_ifs
    · exact hf i a
    · rfl
  unfold get? updateWhere
  rw [List.find?_map]
  congr 2
  funext a
  simp [hcol]

/-- A row survives an update, with whatever the update does not assign. -/
theorem exists_updateWhere {β : Type} {t : Table ι κ col} {p : α → Bool} {f : α → α}
    {hf : ∀ i a, col i (f a) = col i a} {g : α → β} (hg : ∀ a, g (f a) = g a) {i : ι} {k : κ}
    {a : α} (h : t.get? i k = some a) :
    ∃ b, (t.updateWhere p f hf).get? i k = some b ∧ g b = g a := by
  refine ⟨if p a then f a else a, by rw [get?_updateWhere, h]; rfl, ?_⟩
  split_ifs
  · exact hg a
  · rfl

theorem count_le_one (t : Table ι κ col) (i : ι) (k : κ) (q : α → Bool) :
    t.count (fun a => decide (col i a = k) && q a) ≤ 1 := by
  have h := List.nodup_iff_count_le_one.1 (t.unique i) k
  rw [List.count_eq_countP, List.countP_map] at h
  refine le_trans (List.countP_mono_left fun a _ ha => ?_) h
  simp only [Bool.and_eq_true, decide_eq_true_eq] at ha
  simp [ha.1]

/-- An update that names a unique column changed one row exactly when that row is there. -/
theorem count_eq_one {t : Table ι κ col} {i : ι} {k : κ} {q : α → Bool} :
    t.count (fun a => decide (col i a = k) && q a) = 1 ↔
      ∃ a, t.get? i k = some a ∧ q a = true := by
  have hle := t.count_le_one i k q
  have hpos : 0 < t.count (fun a => decide (col i a = k) && q a) ↔
      ∃ a, t.get? i k = some a ∧ q a = true := by
    simp only [count, List.countP_pos_iff, get?_eq_some, Bool.and_eq_true, decide_eq_true_eq]
    exact exists_congr fun a => (and_assoc).symm
  rw [← hpos]
  omega

/-- `INSERT .. ON CONFLICT DO UPDATE`; `merge old new` is the updated row. -/
def upsert {col : Unit → α → κ} (t : Table Unit κ col) (a : α) (merge : α → α → α)
    (hm : ∀ old new, col () (merge old new) = col () old) : Table Unit κ col :=
  match t.insert? a with
  | some t' => t'
  | none => t.updateWhere (fun b => col () b = col () a) (fun b => merge b a) fun _ b => hm b a

theorem get?_upsert {col : Unit → α → κ} (t : Table Unit κ col) (a : α) (merge : α → α → α)
    (hm : ∀ old new, col () (merge old new) = col () old) (k : κ) :
    (t.upsert a merge hm).get? () k =
      if k = col () a then some (((t.get? () k).map fun b => merge b a).getD a)
      else t.get? () k := by
  unfold upsert
  cases hi : t.insert? a with
  | some t' =>
    rw [get?_insert? hi]
    split_ifs with hk
    · rw [hk, (rows_of_insert? hi).2 ()]
      rfl
    · rfl
  | none =>
    obtain ⟨⟨⟩, b, hb⟩ := insert?_eq_none.1 hi
    rw [get?_updateWhere]
    split_ifs with hk
    · obtain ⟨-, hkb⟩ := get?_eq_some.1 hb
      subst hk
      simp [hb, hkb]
    · cases hg : t.get? () k with
      | none => rfl
      | some c =>
        obtain ⟨-, hc⟩ := get?_eq_some.1 hg
        simp [hc, hk]

end Table

/-- A partial function without repeated values is injective where it is defined. -/
theorem eq_of_nodup_filterMap {α β : Type} {l : List α} {f : α → Option β}
    (h : (l.filterMap f).Nodup) {a b : α} {v : β} (ha : a ∈ l) (hb : b ∈ l) (hfa : f a = some v)
    (hfb : f b = some v) : a = b := by
  by_contra hne
  have : Std.Symm fun x y => ∀ v, f x = some v → ∀ w, f y = some w → v ≠ w :=
    ⟨fun x y hxy v hv w hw he => hxy w hw v hv he.symm⟩
  exact (List.pairwise_filterMap.1 h).forall ha hb hne v hfa v hfb rfl

/-- A table with a partial unique index: the rows that `part` maps to `none` are not in it. -/
structure Indexed (ι κ ν : Type) {α : Type} (col : ι → α → κ) (part : α → Option ν) extends
    Table ι κ col where
  index : (rows.filterMap part).Nodup

namespace Indexed

variable {ι κ ν α : Type} {col : ι → α → κ} {part : α → Option ν}

def empty : Indexed ι κ ν col part := ⟨Table.empty, List.nodup_nil⟩

/-- The end of a statement, refused when it would leave two rows with one index entry. -/
def check? [DecidableEq ν] (t : Table ι κ col) : Option (Indexed ι κ ν col part) :=
  if h : (t.rows.filterMap part).Nodup then some ⟨t, h⟩ else none

theorem toTable_of_check? [DecidableEq ν] {t : Table ι κ col} {t' : Indexed ι κ ν col part}
    (h : check? t = some t') : t'.toTable = t := by
  unfold check? at h
  split_ifs at h
  cases h
  rfl

/-- Two rows with the same index entry are the same row. -/
theorem eq_of_part (t : Indexed ι κ ν col part) {a b : α} {v : ν} (ha : a ∈ t.rows)
    (hb : b ∈ t.rows) (hpa : part a = some v) (hpb : part b = some v) : a = b :=
  eq_of_nodup_filterMap t.index ha hb hpa hpb

end Indexed
end Relational
