import Mathlib.Algebra.Group.Nat.Defs
import Mathlib.Data.List.Lex
import Mathlib.Data.Set.Function
import Mathlib.Order.Interval.Set.Defs

/-! Texts made of fields of a fixed width, in lexicographic order. -/

namespace FixedWidth

theorem lt_iff_div_mod (base n m : ℕ) :
    n < m ↔ n / base < m / base ∨ n / base = m / base ∧ n % base < m % base := by
  have hn := Nat.div_add_mod n base
  have hm := Nat.div_add_mod m base
  constructor
  · intro h
    rcases (Nat.div_le_div_right h.le : n / base ≤ m / base).lt_or_eq with hlt | heq
    · exact .inl hlt
    · rw [heq] at hn
      exact .inr ⟨heq, by omega⟩
  · rintro (hlt | ⟨heq, hlt⟩)
    · exact lt_of_not_ge fun hle => absurd (Nat.div_le_div_right hle) (not_le.2 hlt)
    · rw [heq] at hn
      omega

theorem field_lt_iff {base n m x y : ℤ} (hx : 0 ≤ x ∧ x < base) (hy : 0 ≤ y ∧ y < base) :
    base * n + x < base * m + y ↔ n < m ∨ n = m ∧ x < y := by
  have hbase : 0 ≤ base := hx.1.trans hx.2.le
  rcases lt_trichotomy n m with h | rfl | h
  · have hle := Int.mul_le_mul_of_nonneg_left (Int.add_one_le_iff.2 h) hbase
    rw [Int.mul_add, Int.mul_one] at hle
    exact iff_of_true (by omega) (.inl h)
  · simp
  · have hle := Int.mul_le_mul_of_nonneg_left (Int.add_one_le_iff.2 h) hbase
    rw [Int.mul_add, Int.mul_one] at hle
    exact iff_of_false (by omega) (by omega)

theorem field_eq_iff {base n m x y : ℤ} (hx : 0 ≤ x ∧ x < base) (hy : 0 ≤ y ∧ y < base) :
    base * n + x = base * m + y ↔ n = m ∧ x = y := by
  refine ⟨fun h => ?_, fun h => by rw [h.1, h.2]⟩
  have hlt := field_lt_iff (n := n) (m := m) hx hy
  have hgt := field_lt_iff (n := m) (m := n) hy hx
  omega

section Numeral
variable {α : Type*} (base : ℕ) (digit : ℕ → α)

/-- The last digits of a number. -/
def numeral : ℕ → ℕ → List α
  | 0, _ => []
  | width + 1, n => numeral width (n / base) ++ [digit (n % base)]

variable {base digit}

@[simp] theorem length_numeral (width n : ℕ) : (numeral base digit width n).length = width := by
  induction width generalizing n with
  | zero => rfl
  | succ width ih => rw [numeral, List.length_append, ih, List.length_singleton]

theorem numeral_zero (width : ℕ) : numeral base digit width 0 = List.replicate width (digit 0) := by
  induction width with
  | zero => rfl
  | succ width ih => rw [numeral, Nat.zero_div, Nat.zero_mod, ih, List.replicate_succ']

/-- The decimal numeral, padded with zeros. -/
theorem replicate_append_toDigits {width n : ℕ} (h : n < 10 ^ (width + 1)) :
    List.replicate (width + 1 - (Nat.toDigits 10 n).length) '0' ++ Nat.toDigits 10 n =
      numeral 10 Nat.digitChar (width + 1) n := by
  induction width generalizing n with
  | zero =>
    have hlt : n < 10 := h
    rw [Nat.toDigits_of_lt_base hlt, numeral, numeral, Nat.mod_eq_of_lt hlt]
    rfl
  | succ width ih =>
    rcases Nat.lt_or_ge n 10 with hlt | hge
    · rw [Nat.toDigits_of_lt_base hlt, numeral, Nat.div_eq_of_lt hlt, numeral_zero,
        Nat.mod_eq_of_lt hlt]
      rfl
    · rw [Nat.toDigits_of_base_le (by decide) hge, List.length_append, List.length_singleton,
        Nat.add_sub_add_right, ← List.append_assoc, ih (by omega)]
      rfl

theorem flatMap_numeral {β : Type*} {digit' : ℕ → β} (f : α → List β) (hbase : 0 < base)
    (hf : ∀ d < base, f (digit d) = [digit' d]) (width n : ℕ) :
    (numeral base digit width n).flatMap f = numeral base digit' width n := by
  induction width generalizing n with
  | zero => rfl
  | succ width ih =>
    rw [numeral, List.flatMap_append, ih, List.flatMap_singleton,
      hf _ (Nat.mod_lt n hbase), numeral]

theorem numeral_inj (hbase : 0 < base) (hdigit : Set.InjOn digit (Set.Iio base)) {width n m : ℕ}
    (hn : n < base ^ width) (hm : m < base ^ width) :
    numeral base digit width n = numeral base digit width m ↔ n = m := by
  refine ⟨fun h => ?_, fun h => by rw [h]⟩
  induction width generalizing n m with
  | zero =>
    rw [Nat.pow_zero, Nat.lt_one_iff] at hn hm
    rw [hn, hm]
  | succ width ih =>
    rw [Nat.pow_succ'] at hn hm
    obtain ⟨hrest, hlast⟩ := List.append_inj' h rfl
    have hdiv := ih (Nat.div_lt_of_lt_mul hn) (Nat.div_lt_of_lt_mul hm) hrest
    have hmod := hdigit (Nat.mod_lt n hbase) (Nat.mod_lt m hbase) (List.singleton_inj.1 hlast)
    rw [← Nat.div_add_mod n base, ← Nat.div_add_mod m base, hdiv, hmod]

end Numeral

section Order
variable {α : Type*} [LinearOrder α]

theorem append_lt_append_iff {xs ys : List α} (h : xs.length = ys.length) {s t : List α} :
    xs ++ s < ys ++ t ↔ xs < ys ∨ xs = ys ∧ s < t := by
  induction xs generalizing ys with
  | nil =>
    obtain rfl := List.eq_nil_of_length_eq_zero h.symm
    simp
  | cons x xs ih =>
    cases ys with
    | nil => simp at h
    | cons y ys =>
      have h' : xs.length = ys.length := by simpa using h
      simp only [List.cons_append, List.cons_lt_cons_iff, ih h', List.cons.injEq]
      tauto

variable {base : ℕ} {digit : ℕ → α}

theorem numeral_lt_iff (hbase : 0 < base) (hdigit : StrictMonoOn digit (Set.Iio base))
    {width n m : ℕ} (hn : n < base ^ width) (hm : m < base ^ width) :
    numeral base digit width n < numeral base digit width m ↔ n < m := by
  induction width generalizing n m with
  | zero =>
    rw [Nat.pow_zero, Nat.lt_one_iff] at hn hm
    simp [hn, hm]
  | succ width ih =>
    rw [Nat.pow_succ'] at hn hm
    have hn' := Nat.div_lt_of_lt_mul hn
    have hm' := Nat.div_lt_of_lt_mul hm
    have hlast : [digit (n % base)] < [digit (m % base)] ↔ n % base < m % base := by
      rw [List.cons_lt_cons_iff]
      simpa using hdigit.lt_iff_lt (Nat.mod_lt n hbase) (Nat.mod_lt m hbase)
    rw [numeral, numeral, append_lt_append_iff (by simp), ih hn' hm',
      numeral_inj hbase hdigit.injOn hn' hm',
      hlast, ← lt_iff_div_mod]

/-- A field decides, and where two fields agree the rest does. -/
theorem numeral_append_lt_iff (hbase : 0 < base) (hdigit : StrictMonoOn digit (Set.Iio base))
    {width n m : ℕ} (hn : n < base ^ width) (hm : m < base ^ width) {s t : List α} :
    numeral base digit width n ++ s < numeral base digit width m ++ t ↔ n < m ∨ n = m ∧ s < t := by
  rw [append_lt_append_iff (by simp), numeral_lt_iff hbase hdigit hn hm,
    numeral_inj hbase hdigit.injOn hn hm]

end Order

end FixedWidth
