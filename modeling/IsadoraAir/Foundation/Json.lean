import Mathlib.Data.Nat.Digits.Defs
import Mathlib.Data.List.Sort
import Mathlib.Data.Prod.Lex
import Mathlib.Data.String.Basic

/-!
# JSON values

Objects keep their items in the order they were written, as the interpreter's
dictionaries do. The canonical text sorts the keys and writes no blanks; a
float is kept with the text that stands for it.
-/

namespace IsadoraAir

variable {items : List (String × Json)} {v : Json}

inductive Json where
  | null
  | bool (value : Bool)
  | int (value : ℤ)
  | float (value : ℚ) (text : String)
  | str (value : String)
  | list (items : List Json)
  | obj (items : List (String × Json))

namespace Json

def strings (xs : List String) : Json := .list (xs.map .str)

def nats (xs : List ℕ) : Json := .list (xs.map fun n => .int n)

/-- `None` becomes `null`. -/
def optional {α : Type} (f : α → Json) (x : Option α) : Json := x.elim .null f

/-- `value == n` for an integer `n`; the interpreter compares numbers by value. -/
def eqInt (n : ℤ) : Json → Bool
  | bool b => (if b then 1 else 0) = n
  | int m => m = n
  | float v _ => v = n
  | _ => false

def isNull : Json → Bool
  | null => true
  | _ => false

/-- `data[key]` -/
def lookup (items : List (String × Json)) (key : String) : Json :=
  ((items.find? fun item => item.1 = key).map Prod.snd).getD null

/-- `set(data) == known` -/
def hasKeys (items : List (String × Json)) (known : List String) : Bool :=
  (items.map Prod.fst).all (· ∈ known) && known.all (· ∈ items.map Prod.fst)

/-! ## Type tests -/

/-- `isinstance(value, int) and not isinstance(value, bool)` -/
def int? : Json → Option ℤ
  | int n => some n
  | _ => none

def str? : Json → Option String
  | str s => some s
  | _ => none

def list? : Json → Option (List Json)
  | list items => some items
  | _ => none

def obj? : Json → Option (List (String × Json))
  | obj items => some items
  | _ => none

/-- A value without a hash: looking it up in a set raises. -/
def unhashable : Json → Bool
  | list _ => true
  | obj _ => true
  | _ => false

@[simp] theorem int?_eq_some {n : ℤ} : v.int? = some n ↔ v = int n := by
  cases v <;> simp [int?]

@[simp] theorem str?_eq_some {s : String} : v.str? = some s ↔ v = str s := by
  cases v <;> simp [str?]

@[simp] theorem list?_eq_some {items : List Json} : v.list? = some items ↔ v = list items := by
  cases v <;> simp [list?]

@[simp] theorem obj?_eq_some : v.obj? = some items ↔ v = obj items := by
  cases v <;> simp [obj?]

def consInt (n : ℤ) {vs : List Json} (ns : {ns : List ℤ // vs = ns.map int}) :
    {ms : List ℤ // int n :: vs = ms.map int} :=
  ⟨n :: ns.val, congrArg (int n :: ·) ns.property⟩

/-- The numbers of a list that holds nothing but integers. -/
def ints? : (vs : List Json) → Option {ns : List ℤ // vs = ns.map int}
  | [] => some ⟨[], rfl⟩
  | int n :: vs => (ints? vs).map (consInt n)
  | _ => none

theorem ints?_eq_some {vs : List Json} {ns : {ns : List ℤ // vs = ns.map int}} :
    ints? vs = some ns := by
  obtain ⟨ns, rfl⟩ := ns
  induction ns with
  | nil => rfl
  | cons n ns ih =>
    exact congrArg (Option.map (consInt n)) ih

/-- `set(data) - known` -/
def unknownKeys (items : List (String × Json)) (known : List String) : List String :=
  (items.map Prod.fst).filter (· ∉ known)

/-- `known - set(data)` -/
def missingKeys (items : List (String × Json)) (known : List String) : List String :=
  known.filter (· ∉ items.map Prod.fst)

theorem hasKeys_iff {known : List String} :
    hasKeys items known ↔ unknownKeys items known = [] ∧ missingKeys items known = [] := by
  simp [hasKeys, unknownKeys, missingKeys]

/-! ## The canonical text -/

def hexDigits (n : ℕ) : String :=
  String.ofList ((List.range 4).map fun i => Nat.digitChar (n / 16 ^ (3 - i) % 16))

/-- A character outside the basic plane is written as two surrogates. -/
def escapeCode (n : ℕ) : String :=
  if n < 0x10000 then "\\u" ++ hexDigits n
  else
    let v := n - 0x10000
    "\\u" ++ hexDigits (0xD800 + v / 0x400) ++ "\\u" ++ hexDigits (0xDC00 + v % 0x400)

def escapeChar (c : Char) : String :=
  if c = '"' then "\\\""
  else if c = '\\' then "\\\\"
  else if c = '\n' then "\\n"
  else if c = '\r' then "\\r"
  else if c = '\t' then "\\t"
  else if c = Char.ofNat 8 then "\\b"
  else if c = Char.ofNat 12 then "\\f"
  else if 32 ≤ c.toNat ∧ c.toNat < 127 then String.singleton c
  else escapeCode c.toNat

def quote (s : String) : String := "\"" ++ String.join (s.toList.map escapeChar) ++ "\""

/-- The items of an object in the order of their keys. -/
def sortItems {α : Type} (items : List (String × α)) : List (String × α) :=
  items.insertionSort fun a b => a.1 ≤ b.1

mutual

/-- `json.dumps(value, sort_keys=True, separators=(",", ":"))` -/
def dumps : Json → String
  | null => "null"
  | bool b => if b then "true" else "false"
  | int n => toString n
  | float _ text => text
  | str s => quote s
  | list items => "[" ++ ",".intercalate (dumpsList items) ++ "]"
  | obj items =>
    "\x7b" ++ ",".intercalate ((sortItems (dumpsItems items)).map fun p => quote p.1 ++ ":" ++ p.2)
      ++ "\x7d"

def dumpsList : List Json → List String
  | [] => []
  | x :: xs => dumps x :: dumpsList xs

def dumpsItems : List (String × Json) → List (String × String)
  | [] => []
  | (k, v) :: items => (k, dumps v) :: dumpsItems items

end

end Json

end IsadoraAir
