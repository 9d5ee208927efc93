import Mathlib.Data.Nat.Log
import WorkflowEngine.Spec.Records

/-! Python's `int()` and `float()` on JSON values. A conversion rounds to the nearest
double; its result is given, as every float is, by the digits of its `repr`. -/

namespace WorkflowEngine

/-- `n / d`, rounded to `digits` decimal digits. -/
def nearestDecimal (n d digits : ℕ) : ℕ × ℤ :=
  let top : ℤ := if d ≤ n then Nat.log 10 (n / d) else -Nat.clog 10 ((d + n - 1) / n)
  let e := top - (digits - 1)
  let num := n * 10 ^ (-e).toNat
  let den := d * 10 ^ e.toNat
  let twice := 2 * (num % den)
  (if den < twice ∨ den = twice ∧ num / den % 2 = 1 then num / den + 1 else num / den, e)

/-- The fewest digits that are read back as the double. -/
def shortestDigits (x : ℕ × ℤ) : ℕ × ℤ :=
  let (n, d) := doubleFraction x
  let readBack (y : ℕ × ℤ) : Bool :=
    let (n', d') := doubleFraction (nearestDouble (y.1 * 10 ^ y.2.toNat) (10 ^ (-y.2).toNat))
    n' * d == n * d'
  (((List.range 17).map fun i => nearestDecimal n d (i + 1)).find? readBack).getD
    (nearestDecimal n d 17)

/-- The float nearest to `mantissa * 10 ^ exponent`; none when it overflows. -/
def roundFloat (mantissa exponent : ℤ) : Option (ℤ × ℤ) :=
  if mantissa = 0 then some (0, 0)
  else
    let x := nearestDouble (mantissa.natAbs * 10 ^ exponent.toNat) (10 ^ (-exponent).toNat)
    if 2 ^ 1024 ≤ x.1 * 2 ^ x.2.toNat then none
    else if x.1 = 0 then some (0, 0)
    else
      let (digits, e) := shortestDigits x
      some (mantissa.sign * digits, e)

example : roundFloat 7999 (-2) = some (7999, -2) := by decide +kernel
example : roundFloat (2 ^ 60) 0 = some (1152921504606847, 3) := by decide +kernel

namespace Literal

def strip (cs : List Char) : List Char :=
  ((cs.dropWhile Char.isWhitespace).reverse.dropWhile Char.isWhitespace).reverse

def sign : List Char → ℤ × List Char
  | '-' :: cs => (-1, cs)
  | '+' :: cs => (1, cs)
  | cs => (1, cs)

def isDigitPart (c : Char) : Bool := c.isDigit || c == '_'

/-- The digits of a part; single underscores may stand between two of them. -/
def digits? (cs : List Char) : Option (List Char) :=
  let runs := cs.splitOn '_'
  if runs.all fun run => !run.isEmpty && run.all Char.isDigit then some runs.flatten else none

def ofDigits (cs : List Char) : ℕ := cs.foldl (fun n c => 10 * n + (c.toNat - '0'.toNat)) 0

def int? (cs : List Char) : Option ℤ := do
  let (s, cs) := sign cs
  let cs ← digits? cs
  return s * ofDigits cs

/-- The digits of an optional part. -/
def part? (cs : List Char) : Option (List Char) := if cs.isEmpty then some [] else digits? cs

/-- The number that a decimal literal writes. -/
def float? (cs : List Char) : Option (ℤ × ℤ) := do
  let (s, cs) := sign cs
  let (whole, cs) := cs.span isDigitPart
  let (fraction, cs) := match cs with
    | '.' :: cs => cs.span isDigitPart
    | cs => ([], cs)
  if whole.isEmpty && fraction.isEmpty then none
  let whole ← part? whole
  let fraction ← part? fraction
  let exponent ← match cs with
    | [] => some 0
    | c :: cs => if c = 'e' ∨ c = 'E' then int? cs else none
  return (s * ofDigits (whole ++ fraction), exponent - fraction.length)

example : float? "-1_0.25e1".toList = some (-1025, -1) := by decide +kernel

end Literal

namespace Json

/-- `type(v).__name__` -/
def typeName : Json → String
  | .null => "NoneType"
  | .bool _ => "bool"
  | .int _ => "int"
  | .float .. => "float"
  | .str _ => "str"
  | .list _ => "list"
  | .dict _ => "dict"

/-- `float(v)`. The literals of NaN and the infinities raise here: they are not JSON values. -/
def toFloat : Json → Except PyErr (ℤ × ℤ)
  | .float m e => .ok (m, e)
  | .bool b => .ok (if b then 1 else 0, 0)
  | .int n =>
    if n.natAbs ≤ 2 ^ 53 then .ok (n, 0)
    else match roundFloat n 0 with
      | some x => .ok x
      | none => .error (.other "OverflowError")
  | .str s => match Literal.float? (Literal.strip s.toList) with
    | none => .error (.valueError ("could not convert string to float: " ++ strRepr s))
    | some (m, e) => match roundFloat m e with
      | some x => .ok x
      | none => .error (.valueError ("could not convert string to float: " ++ strRepr s))
  | v => .error (.typeError
      ("float() argument must be a string or a real number, not '" ++ v.typeName ++ "'"))

/-- `int(v)`; a float is cut off at its point. -/
def toInt : Json → Except PyErr ℤ
  | .float m e =>
    let x := floatFraction m e
    .ok (x.1.tdiv x.2)
  | .bool b => .ok (if b then 1 else 0)
  | .int n => .ok n
  | .str s => match Literal.int? (Literal.strip s.toList) with
    | some n => .ok n
    | none => .error (.valueError ("invalid literal for int() with base 10: " ++ strRepr s))
  | v => .error (.typeError ("int() argument must be a string, a bytes-like object or a real " ++
      "number, not '" ++ v.typeName ++ "'"))

example : toInt (.float (-299) (-2)) = .ok (-2) := by decide +kernel

end Json
end WorkflowEngine
