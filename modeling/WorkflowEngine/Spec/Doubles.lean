import Mathlib.Algebra.Group.Int.Defs
import Mathlib.Algebra.Group.Nat.Defs
import Mathlib.Data.Int.Notation

/-! The doubles that decimal digits stand for. -/

namespace WorkflowEngine

/-- The double nearest to `n / d`, ties to even, as `m * 2 ^ k`. -/
def nearestDouble (n d : ℕ) : ℕ × ℤ :=
  let e : ℤ := n.log2 - d.log2
  let top := if d * 2 ^ e.toNat ≤ n * 2 ^ (-e).toNat then e else e - 1
  let k := max (-1074) (top - 52)
  let num := n * 2 ^ (-k).toNat
  let den := d * 2 ^ k.toNat
  let twice := 2 * (num % den)
  (if den < twice ∨ den = twice ∧ num / den % 2 = 1 then num / den + 1 else num / den, k)

/-- The double `m * 2 ^ k` as a fraction. -/
def doubleFraction (x : ℕ × ℤ) : ℕ × ℕ := (x.1 * 2 ^ x.2.toNat, 2 ^ (-x.2).toNat)

/-- The double nearest to `mantissa * 10 ^ exponent`, as a fraction whose denominator is a power
of two. -/
def floatFraction (mantissa exponent : ℤ) : ℤ × ℕ :=
  let x := doubleFraction
    (nearestDouble (mantissa.natAbs * 10 ^ exponent.toNat) (10 ^ (-exponent).toNat))
  (mantissa.sign * x.1, x.2)

theorem floatFraction_pos (mantissa exponent : ℤ) : 0 < (floatFraction mantissa exponent).2 :=
  Nat.two_pow_pos _

end WorkflowEngine
