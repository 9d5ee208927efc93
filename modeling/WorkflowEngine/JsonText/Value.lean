import Mathlib.Data.List.Sort
import WorkflowEngine.JsonText.Scan

/-! JSON values, `json.dumps` with its ASCII output, and `json.loads`. -/

namespace JsonText

/-- The texts of the floats that are no numerals. -/
def floatConstants : List (List Char) :=
  [['N', 'a', 'N'], ['I', 'n', 'f', 'i', 'n', 'i', 't', 'y'],
    ['-', 'I', 'n', 'f', 'i', 'n', 'i', 't', 'y']]

/-- A constant, or a numeral with a fraction or an exponent. -/
def isFloatText (s : List Char) : Bool :=
  s ∈ floatConstants || match scanNumber s with
    | some (x, []) => !x.isInt
    | _ => false

/-- Floating point numbers, with what is read from a text and what is written for a number. What
is written reads back as the same number. -/
class FloatText (F : Type) where
  read : List Char → F
  repr : F → List Char
  isFloatText_repr : ∀ x, isFloatText (repr x) = true
  read_repr : ∀ x, read (repr x) = x

/-- Numbers that are kept as they were written. -/
def WrittenFloat := { s : List Char // isFloatText s = true }

instance : FloatText WrittenFloat where
  read s := if h : isFloatText s = true then ⟨s, h⟩ else ⟨['N', 'a', 'N'], by decide⟩
  repr x := x.1
  isFloatText_repr x := x.2
  read_repr x := dif_pos x.2

/-- A dict lists its items in insertion order. -/
inductive Value (F : Type) where
  | null
  | bool (b : Bool)
  | int (n : ℤ)
  | float (x : F)
  | str (s : Str)
  | list (xs : List (Value F))
  | dict (kvs : List (Str × Value F))

namespace Value

variable {F : Type}

mutual

/-- No dict has a key twice. -/
def Distinct : Value F → Prop
  | .list xs => DistinctList xs
  | .dict kvs => (kvs.map Prod.fst).Nodup ∧ DistinctItems kvs
  | _ => True
termination_by structural x => x

def DistinctList : List (Value F) → Prop
  | [] => True
  | x :: xs => Distinct x ∧ DistinctList xs
termination_by structural x => x

def DistinctItems : List (Str × Value F) → Prop
  | [] => True
  | kv :: rest => DistinctItem kv ∧ DistinctItems rest
termination_by structural x => x

def DistinctItem : Str × Value F → Prop
  | (_, v) => Distinct v
termination_by structural x => x

end

mutual

/-- The same value, up to the order of the items of dicts. -/
def Same : Value F → Value F → Prop
  | .list xs, w => match w with
    | .list ys => SameList xs ys
    | _ => False
  | .dict kvs, w => match w with
    | .dict kvs' => kvs.length = kvs'.length ∧ SameItems kvs kvs'
    | _ => False
  | v, w => v = w
termination_by structural x => x

def SameList : List (Value F) → List (Value F) → Prop
  | [], ys => ys = []
  | x :: xs, ys => match ys with
    | y :: ys => Same x y ∧ SameList xs ys
    | [] => False
termination_by structural x => x

/-- Every item is an item of the other dict. -/
def SameItems : List (Str × Value F) → List (Str × Value F) → Prop
  | [], _ => True
  | kv :: rest, kvs' => SameItem kv kvs' ∧ SameItems rest kvs'
termination_by structural x => x

def SameItem : Str × Value F → List (Str × Value F) → Prop
  | (k, v), kvs' => ∃ w, (k, w) ∈ kvs' ∧ Same v w
termination_by structural x => x

end

/-- Keys are compared by their code points. -/
def keyLe (a b : Str × Value F) : Bool := codePoints a.1 ≤ codePoints b.1

mutual

/-- The value that is written with `sort_keys`. -/
def sortKeys : Value F → Value F
  | .list xs => .list (sortKeysList xs)
  | .dict kvs => .dict ((sortKeysItems kvs).insertionSort fun a b => keyLe a b)
  | v => v
termination_by structural x => x

def sortKeysList : List (Value F) → List (Value F)
  | [] => []
  | x :: xs => sortKeys x :: sortKeysList xs
termination_by structural x => x

def sortKeysItems : List (Str × Value F) → List (Str × Value F)
  | [] => []
  | kv :: rest => sortKeysItem kv :: sortKeysItems rest
termination_by structural x => x

def sortKeysItem : Str × Value F → Str × Value F
  | (k, v) => (k, sortKeys v)
termination_by structural x => x

end

variable [FloatText F]

mutual

/-- `pad` follows the comma and the colon of the separators. -/
def dump (pad : List Char) : Value F → List Char
  | .null => ['n', 'u', 'l', 'l']
  | .bool b => if b then ['t', 'r', 'u', 'e'] else ['f', 'a', 'l', 's', 'e']
  | .int n => intText n
  | .float x => FloatText.repr x
  | .str s => quoted s
  | .list xs => '[' :: ((',' :: pad).intercalate (dumpList pad xs) ++ [']'])
  | .dict kvs => '\x7b' :: ((',' :: pad).intercalate (dumpItems pad kvs) ++ ['\x7d'])
termination_by structural x => x

def dumpList (pad : List Char) : List (Value F) → List (List Char)
  | [] => []
  | x :: xs => dump pad x :: dumpList pad xs
termination_by structural x => x

def dumpItems (pad : List Char) : List (Str × Value F) → List (List Char)
  | [] => []
  | kv :: rest => dumpItem pad kv :: dumpItems pad rest
termination_by structural x => x

def dumpItem (pad : List Char) : Str × Value F → List Char
  | (k, v) => quoted k ++ (':' :: pad) ++ dump pad v
termination_by structural x => x

end

/-- `json.dumps(v)` -/
def dumps (v : Value F) : List Char := dump [' '] v

/-- `json.dumps(v, sort_keys=True, separators=(",", ":"))` -/
def canonical (v : Value F) : List Char := dump [] v.sortKeys

/-- `d[k] = v`: a key keeps its place. -/
def setItem (kvs : List (Str × Value F)) (k : Str) (v : Value F) : List (Str × Value F) :=
  if k ∈ kvs.map Prod.fst then kvs.map fun kv =>
    if kv.1 = k then (k, v) else kv else kvs ++ [(k, v)]

def isSpace (c : Char) : Bool := c = ' ' ∨ c = '\t' ∨ c = '\n' ∨ c = '\r'

def skip (s : List Char) : List Char := s.dropWhile isSpace

def constants : List (List Char × Value F) :=
  [(['n', 'u', 'l', 'l'], .null), (['t', 'r', 'u', 'e'], .bool true),
    (['f', 'a', 'l', 's', 'e'], .bool false)] ++
    floatConstants.map fun c => (c, .float (FloatText.read c))

def scanConstant (s : List Char) : Option (Value F × List Char) :=
  constants.findSome? fun c => (s.dropPrefix? c.1).map fun rest => (c.2, rest)

def ofNumeral (x : Numeral) : Value F :=
  if x.isInt then .int x.toInt else .float (FloatText.read x.text)

mutual

/-- A value and what follows it. The bound is on how many values and items are begun. -/
def scanValue : ℕ → List Char → Option (Value F × List Char)
  | 0, _ => none
  | n + 1, s => match s with
    | '"' :: s => (scanString s).map fun p => (.str p.1, p.2)
    | '\x7b' :: s => match skip s with
      | '\x7d' :: rest => some (.dict [], rest)
      | s => (scanItems n [] s).map fun p => (.dict p.1, p.2)
    | '[' :: s => match skip s with
      | ']' :: rest => some (.list [], rest)
      | s => (scanList n s).map fun p => (.list p.1, p.2)
    | s => (scanConstant s).orElse fun _ => (scanNumber s).map fun p => (ofNumeral p.1, p.2)

def scanList : ℕ → List Char → Option (List (Value F) × List Char)
  | 0, _ => none
  | n + 1, s => (scanValue n s).bind fun p => match skip p.2 with
    | ']' :: rest => some ([p.1], rest)
    | ',' :: rest => (scanList n (skip rest)).map fun q => (p.1 :: q.1, q.2)
    | _ => none

def scanItems : ℕ → List (Str × Value F) → List Char → Option (List (Str × Value F) × List Char)
  | 0, _, _ => none
  | n + 1, kvs, s => match s with
    | '"' :: s => (scanString s).bind fun k => match skip k.2 with
      | ':' :: rest => (scanValue n (skip rest)).bind fun v => match skip v.2 with
        | '\x7d' :: rest => some (setItem kvs k.1 v.1, rest)
        | ',' :: rest => scanItems n (setItem kvs k.1 v.1) (skip rest)
        | _ => none
      | _ => none
    | _ => none

end

/-- `json.loads(s)`; there is no value when it raises. -/
def loads (s : List Char) : Option (Value F) :=
  (scanValue (s.length + 1) (skip s)).bind fun p => if skip p.2 = [] then some p.1 else none

end Value
end JsonText
