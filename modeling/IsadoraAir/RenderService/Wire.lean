import Mathlib.Data.List.Lex
import Mathlib.Data.List.Sort
import IsadoraAir.Foundation.Uuids

/-!
# Values on the wire

What the decoder makes of a request line. Its texts may hold lone surrogates,
its integers have any size and its floats may be infinite or not a number.
-/

namespace IsadoraAir

variable {items : List (Text × WireValue)}

inductive WireValue where
  | null
  | bool (value : Bool)
  | int (value : ℤ)
  | float (value : Double)
  | str (text : Text)
  | list (items : List WireValue)
  | obj (items : List (Text × WireValue))

namespace WireValue

/-- `value == n` for an integer `n`; numbers are compared by value. -/
def equalsInt (n : ℤ) : WireValue → Bool
  | bool b => (if b then 1 else 0) = n
  | int m => m = n
  | float (.finite q) => q = n
  | _ => false

/-- `value == s` -/
def isStr (s : String) : WireValue → Bool
  | str text => text = codePoints s
  | _ => false

def isNull : WireValue → Bool
  | null => true
  | _ => false

def isObj : WireValue → Bool
  | obj _ => true
  | _ => false

/-- `isinstance(value, str)` -/
def str? : WireValue → Option Text
  | str text => some text
  | _ => none

/-- `isinstance(value, int) and not isinstance(value, bool)` -/
def int? : WireValue → Option ℤ
  | int n => some n
  | _ => none

def list? : WireValue → Option (List WireValue)
  | list items => some items
  | _ => none

def obj? : WireValue → Option (List (Text × WireValue))
  | obj items => some items
  | _ => none

/-- The keys of a dictionary, each once. -/
def keys : WireValue → List Text
  | obj items => (items.map Prod.fst).dedup
  | _ => []

/-- `value.get(key)` of a dictionary; of a key that is there, `value[key]`. -/
def field (value : WireValue) (key : Text) : WireValue :=
  match value with
  | obj items => (Dict.find key items).getD null
  | _ => null

/-- `isinstance(value, dict) and set(value) == known` -/
def hasKeys (value : WireValue) (known : List String) : Bool :=
  value.isObj && decide (value.keys ⊆ known.map codePoints) &&
    decide (known.map codePoints ⊆ value.keys)

variable {value : WireValue}

@[simp] theorem str?_eq_some {text : Text} : value.str? = some text ↔ value = str text := by
  cases value <;> simp [str?]

@[simp] theorem int?_eq_some {n : ℤ} : value.int? = some n ↔ value = int n := by
  cases value <;> simp [int?]

@[simp] theorem list?_eq_some {items : List WireValue} :
    value.list? = some items ↔ value = list items := by
  cases value <;> simp [list?]

@[simp] theorem obj?_eq_some : value.obj? = some items ↔ value = obj items := by
  cases value <;> simp [obj?]

@[simp] theorem isNull_iff : value.isNull = true ↔ value = null := by
  cases value <;> simp [isNull]

@[simp] theorem isStr_iff {s : String} : value.isStr s = true ↔ value = str (codePoints s) := by
  cases value <;> simp [isStr]

/-- An item of a dictionary without repeated keys is what its key leads to. -/
theorem field_of_mem {key : Text} (hnodup : (items.map Prod.fst).Nodup) (h : (key, value) ∈ items) :
    (obj items).field key = value := by
  simp [field, Dict.find_of_mem hnodup h]

theorem keys_of_nodup (hnodup : (items.map Prod.fst).Nodup) :
    (obj items).keys = items.map Prod.fst :=
  List.Nodup.dedup hnodup

theorem hasKeys_of_eq {known : List String}
    (h : items.map Prod.fst = known.map codePoints) : (obj items).hasKeys known = true := by
  simp [hasKeys, isObj, keys, h, List.dedup_subset, List.subset_dedup]

end WireValue

/-- The order of code points. -/
def CodePoint.toNat : CodePoint → ℕ
  | .scalar c => c.toNat
  | .surrogate low => 0xD800 + low

namespace Text

/-- `a <= b` -/
def le (a b : Text) : Prop := a.map CodePoint.toNat ≤ b.map CodePoint.toNat

instance decidableLe : DecidableRel le := fun a b =>
  inferInstanceAs (Decidable (a.map CodePoint.toNat ≤ b.map CodePoint.toNat))

instance totalLe : Std.Total le :=
  ⟨fun a b => le_total (a.map CodePoint.toNat) (b.map CodePoint.toNat)⟩

instance transLe : IsTrans Text le := ⟨fun _ _ _ hab hbc => le_trans hab hbc⟩

/-- `sorted(names)` -/
def sorted (names : List Text) : List Text := names.insertionSort le

theorem sorted_perm (names : List Text) : (sorted names).Perm names :=
  List.perm_insertionSort le names

theorem sorted_sorted (names : List Text) : sorted (sorted names) = sorted names :=
  List.Pairwise.insertionSort_eq (List.pairwise_insertionSort le names)

end Text

end IsadoraAir
