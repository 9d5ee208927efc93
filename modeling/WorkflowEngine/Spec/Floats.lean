import WorkflowEngine.Regex.Classes
import WorkflowEngine.Spec.Numbers

/-! Python's floats with the infinities and NaN, and what `float()`, `int()`, `-` and the format
`.2f` make of them. Zero has one sign here. -/

namespace WorkflowEngine

open Regex

/-- A finite float is given by the digits of its `repr`. -/
inductive PyFloat where
  | finite (mantissa exponent : ℤ)
  | infinite (negative : Bool)
  | nan
  deriving DecidableEq, Repr

namespace PyFloat

/-- The float nearest to `mantissa * 10 ^ exponent`, an infinity when it overflows. -/
def round (mantissa exponent : ℤ) : PyFloat :=
  match roundFloat mantissa exponent with
  | some (m, e) => .finite m e
  | none => .infinite (mantissa < 0)

def isFinite : PyFloat → Bool
  | .finite .. => true
  | _ => false

def positive : PyFloat → Bool
  | .finite m _ => 0 < m
  | .infinite negative => !negative
  | .nan => false

def repr : PyFloat → String
  | .finite m e => Json.floatRepr m e
  | .infinite negative => if negative then "-inf" else "inf"
  | .nan => "nan"

/-- `x - y` -/
def sub : PyFloat → PyFloat → PyFloat
  | .finite m e, .finite m' e' =>
    let x := floatFraction m e
    let y := floatFraction m' e'
    let k := (x.2 * y.2).log2
    round ((x.1 * y.2 - y.1 * x.2) * 5 ^ k) (-k)
  | .infinite a, .infinite b => if a = b then .nan else .infinite a
  | .infinite a, .finite .. => .infinite a
  | .finite .., .infinite b => .infinite !b
  | .nan, _ => .nan
  | _, .nan => .nan

/-- `f"\x7bx:.2f\x7d"`: two digits behind the point, ties to even. -/
def fixed2 : PyFloat → String
  | .finite m e =>
    let x := floatFraction m e
    let n := x.1.natAbs * 100
    let twice := 2 * (n % x.2)
    let cents := if x.2 < twice ∨ x.2 = twice ∧ n / x.2 % 2 = 1 then n / x.2 + 1 else n / x.2
    (if m < 0 then "-" else "") ++ toString (cents / 100) ++ "." ++
      (if cents % 100 < 10 then "0" else "") ++ toString (cents % 100)
  | x => x.repr

example : fixed2 (.finite 2675 (-3)) = "2.67" := by decide +kernel
example : sub (.finite 3 (-1)) (.finite 1 (-1)) = .finite 19999999999999998 (-17) := by
  decide +kernel

end PyFloat

namespace Literal

/-- The digits and spaces of other scripts are those of ASCII. -/
def toAscii (tables : Tables) (c : Char) : Char :=
  if c.toNat < 127 then c
  else if tables.isSpace c then ' '
  else match tables.decimal c with
    | some d => Char.ofNat (48 + d)
    | none => '?'

def isBlank (c : Char) : Bool := c ∈ [' ', '\t', '\n', '\x0b', '\x0c', '\r']

def trim (cs : List Char) : List Char :=
  ((cs.dropWhile isBlank).reverse.dropWhile isBlank).reverse

/-- The infinities and NaN. -/
def special? (cs : List Char) : Option PyFloat :=
  let (s, cs) := sign cs
  let name := cs.map Char.toLower
  if name = "inf".toList ∨ name = "infinity".toList then some (.infinite (s < 0))
  else if name = "nan".toList then some .nan
  else none

end Literal

/-- `float(s)` -/
def floatOfText (tables : Tables) (s : List Char) : Except PyErr PyFloat :=
  let cs := Literal.trim (s.map (Literal.toAscii tables))
  match Literal.float? cs with
  | some (m, e) => .ok (.round m e)
  | none => match Literal.special? cs with
    | some x => .ok x
    | none => .error (.valueError
        ("could not convert string to float: " ++ Json.strRepr (String.ofList s)))

/-- `float(v)` -/
def Json.toPyFloat (tables : Tables) : Json → Except PyErr PyFloat
  | .str s => floatOfText tables s.toList
  | v => v.toFloat.map fun x => .finite x.1 x.2

/-- `sys.get_int_max_str_digits()` -/
def intMaxStrDigits : ℕ := 4300

/-- `int(s)` of a text of digits. -/
def intOfDigits (tables : Tables) (s : List Char) : Except PyErr ℤ :=
  if intMaxStrDigits < s.length then
    .error (.valueError ("Exceeds the limit (4300 digits) for integer string conversion: " ++
      "value has " ++ toString s.length ++
      " digits; use sys.set_int_max_str_digits() to increase the limit"))
  else .ok (Literal.ofDigits (s.map (Literal.toAscii tables)))

end WorkflowEngine
