import Mathlib.Data.Int.Log
import Mathlib.Data.Rat.Floor
import IsadoraAir.Foundation.Dict

/-!
# Values of Python

Double precision numbers, and the values that a JSON column holds.
-/

/-!
## Double precision numbers

A float is a finite value, an infinity or not a number. Finite values are kept
as rationals; an arithmetic operation rounds its exact result to the nearest
double, ties to even. The sign of zero is not kept.
-/

namespace IsadoraAir

inductive Double where
  | finite (q : ℚ)
  | infinity (negative : Bool)
  | nan
  deriving DecidableEq

namespace Double

/-- Nearest integer, ties to even. -/
def roundHalfEven (x : ℚ) : ℤ :=
  let n := ⌊x⌋
  let r := x - n
  if r < 1 / 2 then n else if 1 / 2 < r then n + 1 else if n % 2 = 0 then n else n + 1

/-- The double nearest to a rational that is within range. -/
def round (x : ℚ) : ℚ :=
  let ulp : ℚ := (2 : ℚ) ^ (max (Int.log 2 |x|) (-1022) - 52)
  roundHalfEven (x / ulp) * ulp

def zero : Double := .finite 0

/-- `math.isfinite(x)` -/
def isFinite : Double → Bool
  | .finite _ => true
  | _ => false

/-- `a > b`; false whenever either is not a number. -/
def gt : Double → Double → Bool
  | .finite a, .finite b => b < a
  | .finite _, .infinity negative => negative
  | .infinity negative, .finite _ => !negative
  | .infinity negative, .infinity negative' => !negative && negative'
  | .nan, _ => false
  | _, .nan => false

/-- `a == b`; false whenever either is not a number. -/
def eq : Double → Double → Bool
  | .finite a, .finite b => a = b
  | .infinity negative, .infinity negative' => negative = negative'
  | _, _ => false

/-- `math.isclose(a, b, rel_tol=0.0, abs_tol=tolerance)` -/
def isClose (tolerance : ℚ) : Double → Double → Bool
  | .finite a, .finite b => a = b || |round (b - a)| ≤ tolerance
  | a, b => a.eq b

example : round (1 / 10) = 3602879701896397 / 36028797018963968 := by decide +kernel

end Double

end IsadoraAir

/-!
## Values of a JSON column

What a JSON column holds, as the interpreter sees it: `None`, booleans, numbers,
strings, lists and dictionaries. Dictionaries keep their order but compare
without it.
-/

namespace IsadoraAir

inductive PyValue where
  | none
  | bool (value : Bool)
  | number (value : Double)
  | text (value : String)
  | list (items : List PyValue)
  | dict (items : List (String × PyValue))

namespace PyValue

/-- `bool(value)` -/
def truthy : PyValue → Bool
  | .none => false
  | .bool b => b
  | .number x => x ≠ .zero
  | .text s => s ≠ ""
  | .list items => items ≠ []
  | .dict items => items ≠ []

/-- `isinstance(value, dict)` -/
def dict? : PyValue → Option (List (String × PyValue))
  | .dict items => some items
  | _ => Option.none

/-- `entry.get(key)` -/
def get (entry : List (String × PyValue)) (key : String) : PyValue :=
  (Dict.find key entry).getD .none

mutual

/-- `a == b` -/
def equal : PyValue → PyValue → Bool
  | .none, .none => true
  | .bool a, .bool b => a = b
  | .number a, .number b => a = b
  | .bool a, .number b => .finite (if a then 1 else 0) = b
  | .number a, .bool b => a = .finite (if b then 1 else 0)
  | .text a, .text b => a = b
  | .list a, .list b => equalList a b
  | .dict a, .dict b => a.length = b.length && equalItems a b
  | _, _ => false

def equalList : List PyValue → List PyValue → Bool
  | [], [] => true
  | a :: as, b :: bs => equal a b && equalList as bs
  | _, _ => false

/-- Every item of the first dictionary is in the second. -/
def equalItems : List (String × PyValue) → List (String × PyValue) → Bool
  | [], _ => true
  | (key, value) :: items, other =>
      (match Dict.find key other with
        | some value' => equal value value'
        | Option.none => false) && equalItems items other

end

mutual

/-- A JSON column refuses numbers that are not finite. -/
def storable : PyValue → Bool
  | .number x => x.isFinite
  | .list items => storableList items
  | .dict items => storableItems items
  | _ => true

def storableList : List PyValue → Bool
  | [] => true
  | value :: values => storable value && storableList values

def storableItems : List (String × PyValue) → Bool
  | [] => true
  | (_, value) :: items => storable value && storableItems items

end

end PyValue

end IsadoraAir
