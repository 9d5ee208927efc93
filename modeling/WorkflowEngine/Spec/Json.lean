import Mathlib.Algebra.Group.Int.Defs
import Mathlib.Algebra.Group.Nat.Defs
import Mathlib.Data.List.Basic
import Mathlib.Data.List.Sort
import Mathlib.Data.Int.Notation
import WorkflowEngine.Spec.Doubles
import WorkflowEngine.Spec.Printable

/-! JSON values as the engine holds them in Python, with Python's `==` and `str`.
A float is given by the decimal digits of its `repr`, `mantissa * 10 ^ exponent`;
NaN and the infinities are not JSON values. -/

namespace WorkflowEngine

inductive Json where
  | null
  | bool (b : Bool)
  | int (n : ℤ)
  | float (mantissa exponent : ℤ)
  | str (s : String)
  | list (xs : List Json)
  | dict (kvs : List (String × Json))
  deriving Repr, Inhabited

/-- A `dict[str, Any]`, in insertion order. -/
abbrev Fields := List (String × Json)

namespace Json

mutual
def decEq : (a b : Json) → Decidable (a = b)
  | .null, b => match b with
    | .null => isTrue rfl
    | .bool _ | .int _ | .float .. | .str _ | .list _ | .dict _ => isFalse nofun
  | .bool x, b => match b with
    | .bool y => decidable_of_iff (x = y) (by simp)
    | .null | .int _ | .float .. | .str _ | .list _ | .dict _ => isFalse nofun
  | .int x, b => match b with
    | .int y => decidable_of_iff (x = y) (by simp)
    | .null | .bool _ | .float .. | .str _ | .list _ | .dict _ => isFalse nofun
  | .float m e, b => match b with
    | .float m' e' => decidable_of_iff (m = m' ∧ e = e') (by simp)
    | .null | .bool _ | .int _ | .str _ | .list _ | .dict _ => isFalse nofun
  | .str x, b => match b with
    | .str y => decidable_of_iff (x = y) (by simp)
    | .null | .bool _ | .int _ | .float .. | .list _ | .dict _ => isFalse nofun
  | .list xs, b => match b with
    | .list ys => @decidable_of_iff _ (xs = ys) (by simp) (decEqList xs ys)
    | .null | .bool _ | .int _ | .float .. | .str _ | .dict _ => isFalse nofun
  | .dict xs, b => match b with
    | .dict ys => @decidable_of_iff _ (xs = ys) (by simp) (decEqFields xs ys)
    | .null | .bool _ | .int _ | .float .. | .str _ | .list _ => isFalse nofun
termination_by structural x => x

def decEqList : (xs ys : List Json) → Decidable (xs = ys)
  | [], [] => isTrue rfl
  | [], _ :: _ => isFalse nofun
  | _ :: _, [] => isFalse nofun
  | x :: xs, y :: ys => @decidable_of_iff _ (x = y ∧ xs = ys) (by simp)
      (@instDecidableAnd _ _ (decEq x y) (decEqList xs ys))
termination_by structural x => x

def decEqFields : (xs ys : List (String × Json)) → Decidable (xs = ys)
  | [], [] => isTrue rfl
  | [], _ :: _ => isFalse nofun
  | _ :: _, [] => isFalse nofun
  | x :: xs, y :: ys => @decidable_of_iff _ (x = y ∧ xs = ys) (by simp)
      (@instDecidableAnd _ _ (decEqField x y) (decEqFields xs ys))
termination_by structural x => x

def decEqField : (x y : String × Json) → Decidable (x = y)
  | (k, v), (k', v') => @decidable_of_iff _ (k = k' ∧ v = v') (by simp)
      (@instDecidableAnd _ _ inferInstance (decEq v v'))
termination_by structural x => x
end
instance : DecidableEq Json := decEq

/-- Python compares booleans, integers and floats by their numeric value: the exact one, also of an
integer and a float. -/
def number? : Json → Option (ℤ × ℕ)
  | .bool b => some (if b then 1 else 0, 1)
  | .int n => some (n, 1)
  | .float m e => some (floatFraction m e)
  | _ => none

def sameNumber (a b : ℤ × ℕ) : Bool := a.1 * b.2 == b.1 * a.2

/-- Equality of floats, by the digits of their `repr`. -/
def numEq (a b : ℤ × ℤ) : Bool :=
  let e := min a.2 b.2
  a.1 * 10 ^ (a.2 - e).toNat == b.1 * 10 ^ (b.2 - e).toNat

def numLt (a b : ℤ × ℤ) : Bool :=
  let e := min a.2 b.2
  a.1 * 10 ^ (a.2 - e).toNat < b.1 * 10 ^ (b.2 - e).toNat

mutual

/-- Python's `==` on JSON values; the order of keys in a dict is immaterial. -/
def pyEq : Json → Json → Bool
  | .null, .null => true
  | .str a, .str b => a == b
  | .list xs, .list ys => pyEqList xs ys
  | .dict xs, .dict ys => xs.length == ys.length && pyEqFields xs ys
  | a, b => match a.number?, b.number? with
    | some x, some y => sameNumber x y
    | _, _ => false
termination_by structural x => x

def pyEqList : List Json → List Json → Bool
  | [], [] => true
  | x :: xs, y :: ys => pyEq x y && pyEqList xs ys
  | _, _ => false
termination_by structural x => x

def pyEqFields : List (String × Json) → List (String × Json) → Bool
  | [], _ => true
  | kv :: rest, ys => pyEqField kv ys && pyEqFields rest ys
termination_by structural x => x

def pyEqField : String × Json → List (String × Json) → Bool
  | (k, v), ys => match ys.lookup k with
    | some w => pyEq v w
    | none => false
termination_by structural x => x

end

theorem eq_of_pyEq_str {v : Json} {s : String} (h : v.pyEq (.str s) = true) : v = .str s := by
  cases v with
  | str t => simpa [pyEq] using h
  | _ => simp [pyEq, number?] at h

/-- `repr` of a finite float. -/
def floatRepr (mantissa exponent : ℤ) : String :=
  let all := (toString mantissa.natAbs).toList
  let kept := (all.reverse.dropWhile (· == '0')).reverse
  let digits := if kept.isEmpty then ['0'] else kept
  let n : ℤ := digits.length
  let point : ℤ := if kept.isEmpty then 1 else all.length + exponent
  let sign := if mantissa < 0 then "-" else ""
  let zeros (k : ℤ) := List.replicate k.toNat '0'
  if -4 < point ∧ point ≤ 16 then
    if point ≤ 0 then sign ++ String.ofList ('0' :: '.' :: (zeros (-point) ++ digits))
    else if n ≤ point then sign ++ String.ofList (digits ++ zeros (point - n) ++ ['.', '0'])
    else sign ++ String.ofList (digits.take point.toNat ++ '.' :: digits.drop point.toNat)
  else
    let e := point - 1
    let shown := (toString e.natAbs).toList
    let padded := if shown.length < 2 then '0' :: shown else shown
    let tail := if digits.length = 1 then [] else '.' :: digits.drop 1
    sign ++ String.ofList (digits.take 1 ++ tail ++ 'e' :: (if e < 0 then '-' else '+') :: padded)

/-- `repr` of a string. -/
def strRepr (s : String) : String :=
  let quote := if s.toList.contains '\'' && !s.toList.contains '"' then '"' else '\''
  let escape (c : Char) : List Char :=
    if c = quote ∨ c = '\\' then ['\\', c]
    else if c = '\n' then ['\\', 'n']
    else if c = '\r' then ['\\', 'r']
    else if c = '\t' then ['\\', 't']
    else if isPrintable c then [c]
    else hexEscape c
  String.ofList (quote :: (s.toList.flatMap escape ++ [quote]))

example : strRepr "caf\u00e9\u200b\x00" = "'caf\u00e9\\u200b\\x00'" := by decide +kernel

mutual

def repr : Json → String
  | .null => "None"
  | .bool b => if b then "True" else "False"
  | .int n => toString n
  | .float m e => floatRepr m e
  | .str s => strRepr s
  | .list xs => "[" ++ String.intercalate ", " (reprList xs) ++ "]"
  | .dict kvs => "\x7b" ++ String.intercalate ", " (reprFields kvs) ++ "\x7d"
termination_by structural x => x

def reprList : List Json → List String
  | [] => []
  | x :: xs => repr x :: reprList xs
termination_by structural x => x

def reprFields : List (String × Json) → List String
  | [] => []
  | kv :: rest => reprField kv :: reprFields rest
termination_by structural x => x

def reprField : String × Json → String
  | (k, v) => strRepr k ++ ": " ++ repr v
termination_by structural x => x

end

/-- Python's `str`. -/
def pyStr : Json → String
  | .str s => s
  | v => repr v

example : pyStr (.dict [("amount", .float 7999 (-2)), ("note", .str "it's")]) =
    "\x7b'amount': 79.99, 'note': \"it's\"\x7d" := by decide +kernel

/-- `bool(v)` -/
def truthy : Json → Bool
  | .null => false
  | .bool b => b
  | .int n => n ≠ 0
  | .float m e => (floatFraction m e).1 ≠ 0
  | .str s => s ≠ ""
  | .list xs => !xs.isEmpty
  | .dict kvs => !kvs.isEmpty

mutual

/-- The value that `json.dumps(.., sort_keys=True)` writes. -/
def sortKeys : Json → Json
  | .list xs => .list (sortKeysList xs)
  | .dict kvs => .dict ((sortKeysFields kvs).insertionSort fun a b => a.1 ≤ b.1)
  | v => v
termination_by structural x => x

def sortKeysList : List Json → List Json
  | [] => []
  | x :: xs => sortKeys x :: sortKeysList xs
termination_by structural x => x

def sortKeysFields : List (String × Json) → List (String × Json)
  | [] => []
  | kv :: rest => sortKeysField kv :: sortKeysFields rest
termination_by structural x => x

def sortKeysField : String × Json → String × Json
  | (k, v) => (k, sortKeys v)
termination_by structural x => x

end

example : sortKeys (.dict [("b", .int 1), ("a", .dict [("y", .null), ("x", .null)])]) =
    .dict [("a", .dict [("x", .null), ("y", .null)]), ("b", .int 1)] := by decide +kernel

end Json

namespace Fields

def get? (d : Fields) (k : String) : Option Json := d.lookup k

/-- `d[k] = v`. -/
def set (d : Fields) (k : String) (v : Json) : Fields :=
  if (d.get? k).isSome then d.map fun kv => if kv.1 = k then (k, v) else kv else d ++ [(k, v)]

/-- `k in d`. -/
def has (d : Fields) (k : String) : Bool := (d.get? k).isSome

def sortKeys (d : Fields) : Fields := (Json.sortKeysFields d).insertionSort fun a b => a.1 ≤ b.1

/-- Equality of dicts. -/
def pyEq (d d' : Fields) : Bool := (Json.dict d).pyEq (Json.dict d')

end Fields
end WorkflowEngine
