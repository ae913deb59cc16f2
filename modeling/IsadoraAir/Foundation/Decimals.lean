import Mathlib.Algebra.Order.BigOperators.Group.List
import IsadoraAir.Foundation.PyValue
import IsadoraAir.Foundation.TextLines

/-!
# Decimal numbers

The numbers of `decimal`: how a text is read exactly, the canonical text of a
number, and sums in the default context, which keeps 28 digits.
-/

/-!
## Digits of any script

Numbers may be written with the decimal digits of any script. Which characters
outside ASCII are digits depends on the version of Unicode, so it is a parameter.
-/

namespace IsadoraAir

namespace Text

/-- A character of a number as an ASCII character, if it stands for one. -/
def ascii? (digit : Char → Option (Fin 10)) : CodePoint → Option Char
  | .scalar c =>
    if 0 < c.toNat ∧ c.toNat < 128 then some c
    else if isSpace (.scalar c) then some ' '
    else (digit c).map fun d => Nat.digitChar d
  | .surrogate _ => none

def toAscii (digit : Char → Option (Fin 10)) (text : Text) : Option (List Char) :=
  text.mapM (ascii? digit)

/-- A character that stays as it is when a number is read: visible, in ASCII, not a separator. -/
def isPlain (c : Char) : Bool := 32 < c.toNat && c.toNat < 128 && c ≠ '_'

variable {digit : Char → Option (Fin 10)} {chars : List Char}

theorem isSpace_of_isPlain {c : Char} (h : isPlain c = true) : isSpace (.scalar c) = false := by
  simp only [isPlain, Bool.and_eq_true, decide_eq_true_eq] at h
  simp only [isSpace, Bool.or_eq_false_iff, Bool.and_eq_false_iff, decide_eq_false_iff_not]
  omega

theorem toAscii_map_scalar (h : ∀ c ∈ chars, isPlain c = true) :
    toAscii digit (chars.map .scalar) = some chars := by
  induction chars with
  | nil => rfl
  | cons c chars ih =>
    have hc := h c (by simp)
    have hrest := ih fun d hd => h d (by simp [hd])
    simp only [isPlain, Bool.and_eq_true, decide_eq_true_eq] at hc
    rw [toAscii] at hrest ⊢
    rw [List.map_cons, List.mapM_cons, ascii?, if_pos ⟨by omega, hc.1.2⟩, hrest]
    rfl

theorem strip_map_scalar (h : ∀ c ∈ chars, isPlain c = true) :
    strip (chars.map .scalar) = chars.map .scalar := by
  have hsolid : ∀ c ∈ (chars.map CodePoint.scalar), isSpace c = false := by
    intro c hc
    obtain ⟨d, hd, rfl⟩ := List.mem_map.mp hc
    exact isSpace_of_isPlain (h d hd)
  exact strip_eq_self (fun c hc => hsolid c (List.mem_of_mem_head? hc))
    fun c hc => hsolid c (List.mem_of_mem_getLast? hc)

end Text

end IsadoraAir

/-!
## Reading and writing

The text that `str` gives a number is read back as that number.
-/

namespace IsadoraAir

variable {negative : Bool} {c : Char}

/-- A finite number, `(-1) ^ negative * coefficient * 10 ^ exponent`. -/
structure Decimal where
  negative : Bool
  coefficient : ℕ
  exponent : ℤ
  deriving DecidableEq

namespace Decimal

/-- What a text may stand for; what else a NaN carries is not kept. -/
inductive Value where
  | finite (d : Decimal)
  | infinity (negative : Bool)
  | nan
  deriving DecidableEq

/-- The number itself. -/
def value (d : Decimal) : ℚ :=
  (if d.negative then -1 else 1) * d.coefficient * (10 : ℚ) ^ d.exponent

/-- The number is kept exactly: its exponent is within the limits of the widest context. -/
def fits (d : Decimal) : Prop :=
  -1999999999999999997 ≤ d.exponent ∧
    d.exponent + (Nat.toDigits 10 d.coefficient).length - 1 ≤ 999999999999999999

instance decidableFits (d : Decimal) : Decidable d.fits := instDecidableAnd

/-- The sign of a number, and what follows it. -/
def signed : List Char → Bool × List Char
  | '-' :: rest => (true, rest)
  | '+' :: rest => (false, rest)
  | text => (false, text)

def isDigits (text : List Char) : Bool := text ≠ [] && text.all Char.isDigit

/-- What follows the digits of a number: nothing, or an exponent. -/
def exponentPart : List Char → Option ℤ
  | [] => some 0
  | c :: rest =>
    if c.toLower = 'e' ∧ isDigits (signed rest).2 then
      let n : ℤ := Nat.ofDigitChars 10 (signed rest).2 0
      some (if (signed rest).1 then -n else n)
    else none

/-- The digits behind the point, if there is one, and what follows them. -/
def fraction : List Char → List Char × List Char
  | '.' :: rest => (rest.takeWhile Char.isDigit, rest.dropWhile Char.isDigit)
  | rest => ([], rest)

def readNumber (negative : Bool) (text : List Char) : Option Value :=
  let whole := text.takeWhile Char.isDigit
  let rest := fraction (text.dropWhile Char.isDigit)
  if whole ++ rest.1 = [] then none
  else (exponentPart rest.2).bind fun e =>
    let d : Decimal := ⟨negative, Nat.ofDigitChars 10 (whole ++ rest.1) 0, e - rest.1.length⟩
    if d.fits then some (.finite d) else none

/-- Infinities and values that are not a number, in any case. -/
def readSpecial (negative : Bool) (text : List Char) : Option Value :=
  let lower := text.map Char.toLower
  if lower = "inf".toList ∨ lower = "infinity".toList then some (.infinity negative)
  else if lower.take 3 = "nan".toList ∧ (lower.drop 3).all Char.isDigit then some .nan
  else if lower.take 4 = "snan".toList ∧ (lower.drop 4).all Char.isDigit then some .nan
  else none

/-- `Decimal(text)`; `none` when that raises `InvalidOperation`. -/
def ofText (digit : Char → Option (Fin 10)) (text : Text) : Option Value :=
  (Text.toAscii digit ((Text.strip text).filter (· ≠ .scalar '_'))).bind fun chars =>
    (readSpecial (signed chars).1 (signed chars).2).or
      (readNumber (signed chars).1 (signed chars).2)

/-- How many digits of the canonical text stand before the point; negative when zeros follow it. -/
def pointPlace (d : Decimal) : ℤ :=
  let left := d.exponent + (Nat.toDigits 10 d.coefficient).length
  if d.exponent ≤ 0 ∧ -6 < left then left else 1

def wholePart (d : Decimal) : List Char :=
  if d.pointPlace ≤ 0 then ['0'] else (Nat.toDigits 10 d.coefficient).take d.pointPlace.toNat

def fractionPart (d : Decimal) : List Char :=
  List.replicate (-d.pointPlace).toNat '0' ++
    (Nat.toDigits 10 d.coefficient).drop d.pointPlace.toNat

/-- The exponent that is written. -/
def written (d : Decimal) : ℤ :=
  d.exponent + (Nat.toDigits 10 d.coefficient).length - d.pointPlace

def withPoint (digits : List Char) : List Char := if digits = [] then [] else '.' :: digits

/-- `"E%+d" % e`, nothing for zero. -/
def exponentText (e : ℤ) : List Char :=
  if e = 0 then [] else 'E' :: (if e < 0 then '-' else '+') :: Nat.toDigits 10 e.natAbs

def unsigned (d : Decimal) : List Char :=
  d.wholePart ++ withPoint d.fractionPart ++ exponentText d.written

/-- `str(d)` -/
def str (d : Decimal) : List Char := if d.negative then '-' :: d.unsigned else d.unsigned

variable {d : Decimal} {digit : Char → Option (Fin 10)}

theorem isDigit_of_mem_toDigits {n : ℕ} (h : c ∈ Nat.toDigits 10 n) : c.isDigit = true :=
  Nat.isDigit_of_mem_toDigits (by decide) (by decide) h

theorem pointPlace_le (d : Decimal) : d.pointPlace ≤ (Nat.toDigits 10 d.coefficient).length := by
  have hpos : 0 < (Nat.toDigits 10 d.coefficient).length := Nat.length_toDigits_pos
  dsimp only [pointPlace]
  split_ifs <;> omega

theorem isDigit_wholePart : ∀ c ∈ d.wholePart, c.isDigit = true := by
  intro c hc
  unfold wholePart at hc
  split_ifs at hc
  · rw [List.mem_singleton.mp hc]
    rfl
  · exact isDigit_of_mem_toDigits (List.mem_of_mem_take hc)

theorem isDigit_fractionPart : ∀ c ∈ d.fractionPart, c.isDigit = true := by
  intro c hc
  rcases List.mem_append.mp hc with hc | hc
  · rw [List.eq_of_mem_replicate hc]
    rfl
  · exact isDigit_of_mem_toDigits (List.mem_of_mem_drop hc)

theorem wholePart_ne_nil (d : Decimal) : d.wholePart ≠ [] := by
  unfold wholePart
  split_ifs with h
  · exact List.cons_ne_nil _ _
  · have hpos : 0 < (Nat.toDigits 10 d.coefficient).length := Nat.length_toDigits_pos
    intro hnil
    have hlength := congrArg List.length hnil
    rw [List.length_take, List.length_nil] at hlength
    omega

theorem length_fractionPart (d : Decimal) :
    (d.fractionPart.length : ℤ) = (Nat.toDigits 10 d.coefficient).length - d.pointPlace := by
  have hle := pointPlace_le d
  simp only [fractionPart, List.length_append, List.length_replicate, List.length_drop]
  omega

theorem ofDigitChars_parts (d : Decimal) :
    Nat.ofDigitChars 10 (d.wholePart ++ d.fractionPart) 0 = d.coefficient := by
  unfold wholePart fractionPart
  split_ifs with h
  · rw [Int.toNat_of_nonpos h, List.drop_zero, Nat.ofDigitChars_append, Nat.ofDigitChars_append,
      show Nat.ofDigitChars 10 ['0'] 0 = 0 from rfl, Nat.ofDigitChars_replicate_zero, mul_zero]
    exact Nat.ofDigitChars_ten_toDigits
  · have hzeros : (-d.pointPlace).toNat = 0 := by omega
    rw [hzeros, List.replicate_zero, List.nil_append, List.take_append_drop]
    exact Nat.ofDigitChars_ten_toDigits

theorem takeWhile_append_of_all {p : Char → Bool} {front back : List Char}
    (hfront : ∀ c ∈ front, p c = true) (hback : ∀ c ∈ back.head?, p c = false) :
    (front ++ back).takeWhile p = front ∧ (front ++ back).dropWhile p = back := by
  have htake : back.takeWhile p = [] := by
    cases back with
    | nil => rfl
    | cons c back => simp [hback c rfl]
  have hdrop : back.dropWhile p = back := by
    cases back with
    | nil => rfl
    | cons c back => simp [hback c rfl]
  rw [List.takeWhile_append_of_pos hfront, List.dropWhile_append_of_pos hfront, htake, hdrop]
  exact ⟨List.append_nil _, rfl⟩

/-- Digits, a point and digits, and what begins otherwise. -/
theorem readNumber_parts {whole frac tail : List Char}
    (hwhole : ∀ c ∈ whole, c.isDigit = true) (hfrac : ∀ c ∈ frac, c.isDigit = true)
    (hne : whole ≠ []) (htail : ∀ c ∈ tail.head?, c.isDigit = false ∧ c ≠ '.') :
    readNumber negative (whole ++ withPoint frac ++ tail) =
      (exponentPart tail).bind fun e =>
        if (⟨negative, Nat.ofDigitChars 10 (whole ++ frac) 0, e - frac.length⟩ : Decimal).fits then
          some (.finite ⟨negative, Nat.ofDigitChars 10 (whole ++ frac) 0, e - frac.length⟩)
        else none := by
  have hpoint : ∀ c ∈ (withPoint frac ++ tail).head?, c.isDigit = false := by
    intro c hc
    unfold withPoint at hc
    split_ifs at hc
    · exact (htail c hc).1
    · obtain rfl : '.' = c := by simpa using hc
      rfl
  have hfraction : fraction (withPoint frac ++ tail) = (frac, tail) := by
    unfold withPoint
    split_ifs with hnil
    · subst hnil
      cases tail with
      | nil => rfl
      | cons c tail =>
        rw [List.nil_append, fraction]
        rintro rest ⟨⟩
        exact (htail '.' rfl).2 rfl
    · obtain ⟨htake, hdrop⟩ := takeWhile_append_of_all hfrac fun c hc => (htail c hc).1
      rw [List.cons_append, fraction, htake, hdrop]
  obtain ⟨htake, hdrop⟩ := takeWhile_append_of_all hwhole hpoint
  rw [List.append_assoc, readNumber]
  simp only [htake, hdrop, hfraction, List.append_eq_nil_iff, hne, false_and, if_false]

theorem exponentPart_exponentText (e : ℤ) : exponentPart (exponentText e) = some e := by
  unfold exponentText
  split_ifs with hzero hneg
  · rw [hzero]
    rfl
  all_goals
    have hdigits : isDigits (Nat.toDigits 10 e.natAbs) = true := by
      simp only [isDigits, Bool.and_eq_true, decide_eq_true_eq, List.all_eq_true]
      exact ⟨Nat.toDigits_ne_nil, fun c hc => isDigit_of_mem_toDigits hc⟩
    simp only [exponentPart, signed, hdigits, Nat.ofDigitChars_ten_toDigits]
  · rw [if_pos ⟨by decide, trivial⟩, if_pos trivial]
    congr 1
    omega
  · rw [if_pos ⟨by decide, trivial⟩, if_neg Bool.false_ne_true]
    congr 1
    omega

theorem head?_exponentText (e : ℤ) : ∀ c ∈ (exponentText e).head?, c.isDigit = false ∧ c ≠ '.' := by
  unfold exponentText
  split_ifs <;> simp

theorem readNumber_unsigned (h : d.fits) : readNumber d.negative d.unsigned = some (.finite d) := by
  have hexponent : d.written - d.fractionPart.length = d.exponent := by
    rw [length_fractionPart, written]
    omega
  rw [unsigned, readNumber_parts isDigit_wholePart isDigit_fractionPart (wholePart_ne_nil d)
    (head?_exponentText d.written), exponentPart_exponentText, Option.bind_some,
    ofDigitChars_parts, hexponent, if_pos h]

/-- The canonical text begins with a digit, behind its sign. -/
theorem unsigned_eq_cons (d : Decimal) : ∃ c rest, d.unsigned = c :: rest ∧ c.isDigit = true := by
  obtain ⟨c, rest, hwhole⟩ := List.exists_cons_of_ne_nil (wholePart_ne_nil d)
  refine ⟨c, rest ++ withPoint d.fractionPart ++ exponentText d.written, ?_, ?_⟩
  · rw [unsigned, hwhole]
    rfl
  · exact isDigit_wholePart c (hwhole ▸ List.mem_cons_self)

theorem isPlain_of_isDigit (h : c.isDigit = true) : Text.isPlain c = true := by
  have hrange : 48 ≤ c.toNat ∧ c.toNat ≤ 57 := by
    simpa [Char.isDigit, UInt32.le_iff_toNat_le] using h
  have hne : c ≠ '_' := by
    rintro rfl
    exact absurd hrange.2 (by decide)
  simp only [Text.isPlain, hne, ne_eq, not_false_eq_true, decide_true, Bool.and_true,
    Bool.and_eq_true, decide_eq_true_eq]
  omega

theorem isPlain_str : ∀ c ∈ d.str, Text.isPlain c = true := by
  have hexponent : ∀ c ∈ exponentText d.written, Text.isPlain c = true := by
    intro c hc
    unfold exponentText at hc
    split_ifs at hc
    · cases hc
    all_goals
      rcases List.mem_cons.mp hc with rfl | hc
      · decide
      · rcases List.mem_cons.mp hc with rfl | hc
        · decide
        · exact isPlain_of_isDigit (isDigit_of_mem_toDigits hc)
  have hpoint : ∀ c ∈ withPoint d.fractionPart, Text.isPlain c = true := by
    intro c hc
    unfold withPoint at hc
    split_ifs at hc
    · cases hc
    · rcases List.mem_cons.mp hc with rfl | hc
      · decide
      · exact isPlain_of_isDigit (isDigit_fractionPart c hc)
  have hunsigned : ∀ c ∈ d.unsigned, Text.isPlain c = true := by
    intro c hc
    rcases List.mem_append.mp hc with hc | hc
    · rcases List.mem_append.mp hc with hc | hc
      · exact isPlain_of_isDigit (isDigit_wholePart c hc)
      · exact hpoint c hc
    · exact hexponent c hc
  intro c hc
  unfold str at hc
  split_ifs at hc
  · rcases List.mem_cons.mp hc with rfl | hc
    · decide
    · exact hunsigned c hc
  · exact hunsigned c hc

theorem signed_str (d : Decimal) : signed d.str = (d.negative, d.unsigned) := by
  obtain ⟨c, rest, hunsigned, hdigit⟩ := unsigned_eq_cons d
  unfold str
  split_ifs with hnegative
  · rw [signed, hnegative]
  · rw [hunsigned, signed]
    · simp [hnegative]
    · rintro rest' ⟨⟩
      exact absurd hdigit (by decide)
    · rintro rest' ⟨⟩
      exact absurd hdigit (by decide)

theorem readSpecial_of_isDigit (h : c.isDigit = true)
    (rest : List Char) : readSpecial negative (c :: rest) = none := by
  have hlower : c.toLower = c := by
    have hrange : 48 ≤ c.toNat ∧ c.toNat ≤ 57 := by
      simpa [Char.isDigit, UInt32.le_iff_toNat_le] using h
    show (if h : c.val ≥ 'A'.val ∧ c.val ≤ 'Z'.val then _ else c) = c
    rw [dif_neg]
    rintro ⟨hupper, -⟩
    have hupper : 65 ≤ c.toNat := by simpa [UInt32.le_iff_toNat_le] using hupper
    omega
  have hne : ∀ e : Char, e.isDigit = false → c ≠ e := by
    rintro e he rfl
    rw [h] at he
    cases he
  have hi := hne 'i' (by decide)
  have hn := hne 'n' (by decide)
  have hs := hne 's' (by decide)
  simp [readSpecial, hlower, hi, hn, hs]

/-- A number that is read is within the limits. -/
theorem fits_of_ofText {text : Text} (h : ofText digit text = some (.finite d)) : d.fits := by
  obtain ⟨chars, -, h⟩ := Option.bind_eq_some_iff.mp h
  rcases Option.or_eq_some_iff.mp h with hspecial | ⟨-, hnumber⟩
  · unfold readSpecial at hspecial
    dsimp only at hspecial
    split_ifs at hspecial <;> cases hspecial
  · unfold readNumber at hnumber
    dsimp only at hnumber
    split_ifs at hnumber
    obtain ⟨e, -, hnumber⟩ := Option.bind_eq_some_iff.mp hnumber
    split_ifs at hnumber with hfits
    cases hnumber
    exact hfits

/-- The canonical text of a number is read as that number. -/
theorem ofText_str (h : d.fits) : ofText digit (d.str.map .scalar) = some (.finite d) := by
  obtain ⟨c, rest, hunsigned, hdigit⟩ := unsigned_eq_cons d
  have hfilter : ((d.str.map CodePoint.scalar).filter (· ≠ .scalar '_')) = d.str.map .scalar := by
    rw [List.filter_eq_self]
    intro c hc
    obtain ⟨c, hmem, rfl⟩ := List.mem_map.mp hc
    have hplain := isPlain_str c hmem
    simp only [Text.isPlain, Bool.and_eq_true, decide_eq_true_eq] at hplain
    simpa using hplain.2
  rw [ofText, Text.strip_map_scalar isPlain_str, hfilter, Text.toAscii_map_scalar isPlain_str,
    Option.bind_some, signed_str, readNumber_unsigned h]
  simp only [hunsigned, readSpecial_of_isDigit hdigit, Option.none_or]

end Decimal

end IsadoraAir

/-!
## Sums

The default context keeps 28 digits and rounds to the nearest number, ties to
even. A sum of numbers that all end at the same place is exact as long as it
has no more than 28 digits.
-/

namespace IsadoraAir.Decimal

variable {ds : List Decimal} {n place : ℤ}

/-- The number that the default context keeps; the smallest exponent is -1000026. -/
def roundContext (x : ℚ) : ℚ :=
  let ulp : ℚ := (10 : ℚ) ^ max (Int.log 10 |x| - 27) (-1000026)
  Double.roundHalfEven (x / ulp) * ulp

/-- `sum(ds)` of numbers within the range of the default context. -/
def sum (ds : List Decimal) : ℚ := ds.foldl (fun total d => roundContext (total + d.value)) 0

theorem roundHalfEven_intCast (n : ℤ) : Double.roundHalfEven n = n := by
  simp [Double.roundHalfEven]

/-- Rounding at a place changes nothing that ends there or before. -/
theorem roundHalfEven_mul {ulp : ℤ} (h : ulp ≤ place) :
    Double.roundHalfEven (n * (10 : ℚ) ^ place / (10 : ℚ) ^ ulp) * (10 : ℚ) ^ ulp =
      n * (10 : ℚ) ^ place := by
  obtain ⟨k, hk⟩ := Int.eq_ofNat_of_zero_le (sub_nonneg.mpr h)
  have hpower : (10 : ℚ) ^ place = 10 ^ k * (10 : ℚ) ^ ulp := by
    rw [← zpow_natCast, ← zpow_add₀ (by norm_num), ← hk, sub_add_cancel]
  have hne : (10 : ℚ) ^ ulp ≠ 0 := zpow_ne_zero _ (by norm_num)
  have hquotient : n * (10 : ℚ) ^ place / (10 : ℚ) ^ ulp = ((n * 10 ^ k : ℤ) : ℚ) := by
    rw [div_eq_iff hne, hpower]
    push_cast
    ring
  rw [hquotient, roundHalfEven_intCast, ← hquotient, div_mul_cancel₀ _ hne]

/-- A number of at most 28 digits is kept. -/
theorem roundContext_eq {x : ℚ} (hplace : -1000026 ≤ place)
    (hx : x = n * (10 : ℚ) ^ place) (hdigits : |x| < (10 : ℚ) ^ (place + 28)) :
    roundContext x = x := by
  by_cases hzero : x = 0
  · subst hzero
    simp [roundContext, Double.roundHalfEven]
  have hlog : Int.log 10 |x| < place + 28 :=
    (Int.lt_zpow_iff_log_lt (by decide) (abs_pos.mpr hzero)).mp (by exact_mod_cast hdigits)
  have hle : max (Int.log 10 |x| - 27) (-1000026) ≤ place := by omega
  rw [roundContext]
  generalize max (Int.log 10 |x| - 27) (-1000026) = ulp at hle ⊢
  rw [hx]
  exact roundHalfEven_mul hle

theorem value_eq_mul {d : Decimal} (h : place ≤ d.exponent) :
    ∃ n : ℤ, d.value = n * (10 : ℚ) ^ place := by
  obtain ⟨k, hk⟩ := Int.eq_ofNat_of_zero_le (sub_nonneg.mpr h)
  refine ⟨(if d.negative then -1 else 1) * d.coefficient * 10 ^ k, ?_⟩
  have hexponent : d.exponent = k + place := by omega
  rw [value, hexponent, zpow_add₀ (by norm_num), zpow_natCast]
  push_cast
  ring

theorem foldl_roundContext {total : ℚ} (hplace : -1000026 ≤ place)
    (hds : ∀ d ∈ ds, place ≤ d.exponent ∧ 0 ≤ d.value) (htotal : total = n * (10 : ℚ) ^ place)
    (hnonneg : 0 ≤ total) (hdigits : total + (ds.map value).sum < (10 : ℚ) ^ (place + 28)) :
    ds.foldl (fun total d => roundContext (total + d.value)) total =
      total + (ds.map value).sum := by
  induction ds generalizing total n with
  | nil => simp
  | cons d ds ih =>
    obtain ⟨hexponent, hvalue⟩ := hds d (by simp)
    obtain ⟨m, hm⟩ := value_eq_mul hexponent
    have hrest : 0 ≤ (ds.map value).sum := by
      apply List.sum_nonneg
      intro x hx
      obtain ⟨e, he, rfl⟩ := List.mem_map.mp hx
      exact (hds e (by simp [he])).2
    rw [List.map_cons, List.sum_cons, ← add_assoc] at hdigits ⊢
    have hnext : total + d.value = ((n + m : ℤ) : ℚ) * (10 : ℚ) ^ place := by
      rw [htotal, hm]
      push_cast
      ring
    have hkept : roundContext (total + d.value) = total + d.value := by
      refine roundContext_eq hplace hnext ?_
      rw [abs_of_nonneg (add_nonneg hnonneg hvalue)]
      linarith
    rw [List.foldl_cons, hkept]
    exact ih (fun e he => hds e (by simp [he])) hnext (add_nonneg hnonneg hvalue) hdigits

/-- A sum of at most 28 digits is exact. -/
theorem sum_eq (hplace : -1000026 ≤ place) (hds : ∀ d ∈ ds, place ≤ d.exponent ∧ 0 ≤ d.value)
    (hdigits : (ds.map value).sum < (10 : ℚ) ^ (place + 28)) : sum ds = (ds.map value).sum := by
  have hzero : (0 : ℚ) = ((0 : ℤ) : ℚ) * (10 : ℚ) ^ place := by simp
  rw [sum, foldl_roundContext hplace hds hzero le_rfl (by rwa [zero_add]), zero_add]

end IsadoraAir.Decimal
